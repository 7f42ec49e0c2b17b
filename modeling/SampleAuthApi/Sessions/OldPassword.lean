import SampleAuthApi.Sessions.Failures
import SampleAuthApi.Sessions.PasswordRace
import SampleAuthApi.Sessions.Revocation

/-!
# Logins during a change of the password

A login verifies the password early and stores its refresh token late, while a change of the
password deletes the refresh tokens of the devices that are in the set when it reads it, before it
commits the new hash.  `old_sessions_end`: no refresh token of a login that was verified against the
replaced hash is accepted once the requests have been answered, in every run in which such a login
only stores its token while the change reaches its device, and in which the change reads the device
set only when the logins that have stored a token have added their devices.  `old_session_survives`
is a run without these conditions.

The invariant is that a token of such a login is the session of its device only while the change has
still to delete it.
-/

namespace SampleAuthApi

open Transactions Pool

variable {T K : Type}

/-! ## The requests -/

/-- The request has loaded a row of the user `u` with the password hash `h`. -/
def LoadedHash (u : Uuid) (h : String) (f : Progress T) : Prop :=
  ∃ s user, f.account = some (s, some user) ∧ user.id = u ∧ user.hashedPassword = h

/-- The request is a login that verifies its password against the hash `h` of `u`. -/
def LogsInWith (u : Uuid) (h : String) (q : Request K) (f : Progress T) : Prop :=
  q.isLogin = true ∧ LoadedHash u h f

/-- The request is a `change_password` of `u` that replaces the hash `h`. -/
def Replaces (x : Externals K) (u : Uuid) (h : String) (q : Request K) (f : Progress T) : Prop :=
  ChangesPassword x u q ∧ LoadedHash u h f

/-- Every change that replaces the hash `h` of `u` has still to delete the refresh token of the
device `d`: it has not deleted any, and the device is in the set if it has read it. -/
def Reaches (x : Externals K) (u : Uuid) (h : String) (w : World T K) (d : String) : Prop :=
  ∀ q f, Party w q f → Replaces x u h q f →
    f.sent = [] ∧ ∀ ds, f.snapshot = some ds → d ∈ ds

/-- Logins arrive, and at most one `change_password` of `u` since the state `w₀`. -/
def Alongside (x : Externals K) (u : Uuid) (w₀ w : World T K)
    (e : Event (Request K) (Choice T)) : Prop :=
  ∀ q, e = .start q → q.isLogin = true ∨ (ChangesPassword x u q ∧
    ∀ q' f', Party (since w₀.log.length w) q' f' → ¬ ChangesPassword x u q')

/-- The request has stored the refresh token `r` for `(u, d)`, and has added the device to the set
or goes on to do so. -/
def Delivers (u : Uuid) (d : String) (r : Uuid) (f : Progress T) : Prop :=
  ∃ t n data, data.tokenId = r ∧
    ((f.sent = [(t, .setex (.refresh u d) n (.refreshToken data))] ∧ Unharmed f) ∨
      ∃ t', f.sent =
        [(t', .sadd (.devices u) d), (t, .setex (.refresh u d) n (.refreshToken data))])

/-- The condition on a run in which the hash `h` of `u` is replaced. -/
structure KeepsAhead [Instant T] (x : Externals K) (u : Uuid) (h : String) (w₀ w : World T K)
    (e : Event (Request K) (Choice T)) : Prop where
  /-- A login that verifies its password against `h` stores its refresh token only while every
  change that replaces `h` has still to delete it. -/
  stores : ∀ i q f d n v, e = .step i .go → NextCall w i q f (.redis (.setex (.refresh u d) n v)) →
    LogsInWith u h q f → Reaches x u h (since w₀.log.length w) d
  /-- A change that replaces `h` reads the device set only when the device of a refresh token that
  such a login has stored is in it, or the token is gone. -/
  reads : ∀ i q f, e = .step i .go → NextCall w i q f (.redis (.smembers (.devices u))) →
    Replaces x u h q f → ∀ j p g t d n data, serving w j = some (p, g) → LogsInWith u h p g →
    Unharmed g → g.sent = [(t, .setex (.refresh u d) n (.refreshToken data))] →
    w.shared.session u d = some data.tokenId → d ∈ w.shared.redis.sets (.devices u)

/-- What is known of a request that is being served or has been answered since the run began. -/
structure Suitor (x : Externals K) (u : Uuid) (q : Request K) (f : Progress T) : Prop where
  kind : q.isLogin = true ∨ ChangesPassword x u q
  /-- It loads the row of its user first. -/
  loaded : f.sent ≠ [] ∨ f.snapshot ≠ none → f.account ≠ none
  /-- It stores tokens of its own. -/
  stored : ∀ p ∈ f.sent, ∀ u' d n data, p.2 = .setex (.refresh u' d) n (.refreshToken data) →
    data.tokenId ∈ f.drawn

section Requests

variable [Instant T] {x : Externals K} {u : Uuid} {h : String} {q : Request K} {f f' : Progress T}
  {cmd : RedisCmd}

lemma ChangesPassword.not_login (hq : ChangesPassword x u q) : q.isLogin = false := by
  obtain ⟨tok, dev, current, new, c, rfl, -⟩ := hq
  rfl

/-- The user of a change of the password. -/
lemma ChangesPassword.sweeps {u' : Uuid} (hq : ChangesPassword x u q) (h : Sweeps x q f u') :
    u' = u ∧ f.account ≠ none := by
  obtain ⟨tok, dev, current, new, c, rfl, hver, rfl⟩ := hq
  obtain ⟨-, ⟨c', ⟨_, _, hb, hver', -⟩, rfl⟩, hchanging⟩ := h
  cases hb
  rw [hver] at hver'
  cases hver'
  obtain ⟨user, _, _, _, _, s, -, hacc, -⟩ := hchanging tok dev current new rfl
  exact ⟨rfl, by rw [hacc]; exact Option.some_ne_none _⟩

/-- A change of the password writes nothing to Redis but the deletion of the devices it has read. -/
lemma ChangesPassword.sends (hq : ChangesPassword x u q) (hmay : MaySend x q f cmd)
    (hwrites : cmd.writes = true) :
    ∃ ds, cmd = .del (TokenStore.bulkKeys u ds) ∧ f.snapshot = some ds ∧ f.account ≠ none := by
  have hchange := hq
  obtain ⟨tok, dev, current, new, c, rfl, -⟩ := hq
  have hdeletes : ∀ u' d, ¬ Deletes x (.changePassword tok dev current new) f u' d := by
    rintro u' d (⟨_, _, _, hq, -⟩ | ⟨_, _, _, hq, -⟩ | ⟨_, ⟨⟨_, _, hq, -⟩, -⟩, -⟩)
    · cases hq
    · cases hq
    · cases hq
  have hopens : ∀ u' d, ¬ Opens x (.changePassword tok dev current new) f u' d := by
    rintro u' d (⟨_, _, _, _, _, hq, -⟩ | ⟨_, ⟨⟨⟨_, _, hq, -⟩, -⟩, -⟩, -⟩)
    · cases hq
    · cases hq
  cases cmd with
  | setex k n v =>
    cases k with
    | refresh u' d => exact absurd hmay.2.1 (hopens u' d)
    | blacklist j => cases hmay.2.1
    | devices u' => exact hmay.elim
  | sadd k m =>
    obtain ⟨u', t, n, v, -, -, hopen⟩ := hmay
    exact absurd hopen (hopens u' m)
  | del ks =>
    rcases hmay with ⟨u', d, -, hdel⟩ | ⟨u', ds, rfl, hsnap, hsweeps⟩
    · exact absurd hdel (hdeletes u' d)
    · obtain ⟨rfl, hacc⟩ := hchange.sweeps hsweeps
      exact ⟨ds, rfl, hsnap, hacc⟩
  | srem k m =>
    obtain ⟨u', t, rest, -, -, hdel⟩ := hmay
    exact absurd hdel (hdeletes u' m)
  | _ => cases hwrites

/-- A login writes nothing to Redis but its refresh token and then its device. -/
lemma login_sends (hq : q.isLogin = true) (hmay : MaySend x q f cmd) (hwrites : cmd.writes = true) :
    ∃ u' d, LoggedIn x q f u' d ∧ ((∃ n data, cmd = .setex (.refresh u' d) n (.refreshToken data) ∧
        f.sent = [] ∧ data.tokenId ∈ f.drawn) ∨
      ∃ t n v, cmd = .sadd (.devices u') d ∧ f.sent = [(t, .setex (.refresh u' d) n v)]) := by
  cases q with
  | login email password client =>
    have hopens : ∀ u' d, Opens x (.login email password client) f u' d →
        LoggedIn x (.login email password client) f u' d := by
      rintro u' d (hlogin | ⟨_, ⟨⟨⟨_, _, hq, -⟩, -⟩, -⟩, -⟩)
      · exact hlogin
      · cases hq
    have hdeletes : ∀ u' d, ¬ Deletes x (.login email password client) f u' d := by
      rintro u' d (⟨_, _, _, hq, -⟩ | ⟨_, _, _, hq, -⟩ | ⟨_, ⟨⟨_, _, hq, -⟩, -⟩, -⟩)
      · cases hq
      · cases hq
      · cases hq
    cases cmd with
    | setex k n v =>
      cases k with
      | refresh u' d =>
        obtain ⟨hnil, hopen, r, a, data, made, t, hdrawn, rfl, rfl, -⟩ := hmay
        exact ⟨u', d, hopens u' d hopen, .inl ⟨n, data, rfl, hnil, by rw [hdrawn]; simp⟩⟩
      | blacklist j => cases hmay.2.1
      | devices u' => exact hmay.elim
    | sadd k m =>
      obtain ⟨u', t, n, v, rfl, hsent, hopen⟩ := hmay
      exact ⟨u', m, hopens u' m hopen, .inr ⟨t, n, v, rfl, hsent⟩⟩
    | del ks =>
      rcases hmay with ⟨u', d, -, hdel⟩ | ⟨u', ds, -, -, hsweeps, -⟩
      · exact absurd hdel (hdeletes u' d)
      · cases hsweeps
    | srem k m =>
      obtain ⟨u', t, rest, -, -, hdel⟩ := hmay
      exact absurd hdel (hdeletes u' m)
    | _ => cases hwrites
  | _ => cases hq

omit [Instant T] in
lemma LoggedIn.account {u' : Uuid} {d : String} (h : LoggedIn x q f u' d) : f.account ≠ none := by
  obtain ⟨_, _, _, s, user, -, -, hacc, -⟩ := h
  rw [hacc]
  exact Option.some_ne_none _

/-- A request does not load a second row. -/
lemma Effect.account_of_loaded {i : ℕ} {c : Choice T} {o : Op T} {s s' : Stores T}
    (heff : Effect i c s f o f' s') (hf : f.account ≠ none) : f'.account = f.account := by
  obtain ⟨a, ha⟩ := Option.ne_none_iff_exists'.mp hf
  have hload : ∀ row, (f.load s row).account = f.account := by
    intro row
    change f.account.or _ = f.account
    rw [ha, Option.some_or]
  cases heff with
  | userById id => exact hload _
  | userByEmail email => exact hload _
  | _ => rfl

/-- One call keeps what is known of its request. -/
lemma Suitor.step {i : ℕ} {c : Choice T} {o : Op T} {s s' : Stores T} (hf : Suitor x u q f)
    (hmay : MayCall x q f o) (heff : Effect i c s f o f' s') : Suitor x u q f' := by
  have hdrawn : ∀ r ∈ f.drawn, r ∈ f'.drawn := by
    intro r hr
    rcases heff.drawn with ⟨hsame, -⟩ | ⟨v, -, hnew, -⟩
    · rwa [hsame]
    · rw [hnew]
      exact List.mem_cons_of_mem v hr
  -- what it sends and reads it does after it has loaded the row
  have hacc : f'.sent ≠ [] ∨ f'.snapshot ≠ none → f.account ≠ none := by
    rintro (hsent | hsnap)
    · rcases heff.sent with ⟨hsame, -⟩ | ⟨cmd, rfl, -, hwrites, -⟩
      · exact hf.loaded (.inl (hsame ▸ hsent))
      · rcases hf.kind with hlogin | hchange
        · obtain ⟨u', d, hlogged, -⟩ := login_sends hlogin hmay hwrites
          exact hlogged.account
        · obtain ⟨ds, -, -, hacc⟩ := hchange.sends hmay hwrites
          exact hacc
    · rcases heff.snapshot with hsame | ⟨k, rfl, -, -, -⟩
      · exact hf.loaded (.inr (hsame ▸ hsnap))
      · obtain ⟨-, ⟨u', -, hsweeps⟩, -⟩ := hmay
        rcases hf.kind with hlogin | hchange
        · have hno := hsweeps.1
          cases q with
          | login email password client => cases hno
          | _ => cases hlogin
        · exact (hchange.sweeps hsweeps).2
  refine ⟨hf.kind, fun hsome => ?_, fun p hp u' d n data hcmd => ?_⟩
  · rw [heff.account_of_loaded (hacc hsome)]
    exact hacc hsome
  · rcases heff.sent with ⟨hsame, -⟩ | ⟨cmd, rfl, -, hwrites, -, hsent, -⟩
    · exact hdrawn _ (hf.stored p (hsame ▸ hp) u' d n data hcmd)
    · rw [hsent] at hp
      rcases List.mem_cons.mp hp with rfl | hp
      · change cmd = _ at hcmd
        rcases hf.kind with hlogin | hchange
        · obtain ⟨u₀, d₀, -, ⟨n₀, data₀, rfl, -, hmem⟩ | ⟨t, n₀, v, rfl, -⟩⟩ :=
            login_sends hlogin hmay hwrites
          · cases hcmd
            exact hdrawn _ hmem
          · cases hcmd
        · obtain ⟨ds, rfl, -⟩ := hchange.sends hmay hwrites
          cases hcmd
      · exact hdrawn _ (hf.stored p hp u' d n data hcmd)

end Requests

/-! ## Stored sessions -/

/-- A session has been drawn, and the request that has drawn it has stored it. -/
structure Owned [Instant T] (w : World T K) : Prop where
  drawn : ∀ u d r, w.shared.session u d = some r → r ∈ w.shared.drawn
  stored : ∀ q f, Party w q f → ∀ r ∈ f.drawn, ∀ u d, w.shared.session u d = some r → f.sent ≠ []

section Parties

variable [Instant T] [DecidableEq K] {x : Externals K} {w₀ w w' : World T K}
  {e : Event (Request K) (Choice T)} {q q' : Request K} {f f' : Progress T} {u : Uuid} {d : String}
  {r : Uuid}

omit [Instant T] [DecidableEq K] in
/-- A property of the requests since `w₀` holds of each of them. -/
lemma Since.of_party {P : Request K → Progress T → Prop} (hw : Since w₀ P w)
    (hp : Party (since w₀.log.length w) q f) : P q f := by
  obtain ⟨hserved, ys, hys, hlogged⟩ := hw
  rcases hp with ⟨i, hi⟩ | ⟨y, hy, rfl, rfl⟩
  · exact hserved i q f hi
  · change y ∈ w.log.drop w₀.log.length at hy
    rw [hys, List.drop_left] at hy
    exact hlogged y hy

omit [Instant T] [DecidableEq K] in
/-- Nobody is a party since the state `w₀` in that state, if it is quiescent. -/
lemma not_party_of_quiescent (h : w₀.Quiescent) : ¬ Party (since w₀.log.length w₀) q f := by
  rintro (⟨i, hi⟩ | ⟨y, hy, -⟩)
  · exact not_serving_of_quiescent h i hi
  · change y ∈ w₀.log.drop w₀.log.length at hy
    rw [List.drop_length] at hy
    cases hy

omit [DecidableEq K] in
/-- What one request has drawn no other has. -/
lemma Invariant.not_drawn_other (hw : Invariant x w) {i : ℕ} (hi : serving w i = some (q, f))
    (h : Other w i q' f') (hr : r ∈ f.drawn) : r ∉ f'.drawn := by
  rcases h with ⟨j, hj, hserve⟩ | ⟨y, hy, -, rfl⟩
  · exact hw.fresh.served i j q f q' f' hj.symm hi hserve r hr
  · exact hw.fresh.mixed i q f hi y hy r hr

/-- A session that was drawn by somebody who makes no call was there before. -/
lemma Invariant.session_before (hinv : Invariant x w) (h : Change x w e w')
    (hother : ∀ i c, e = .step i c → Other w i q f) (hr : r ∈ f.drawn)
    (hs : w'.shared.session u d = some r) : w.shared.session u d = some r := by
  rcases h.session hs with hs | ⟨i, q₁, f₁, a, he, ⟨n, data, hnext, -⟩, -, hdrawn, -⟩
  · exact hs
  · have hmem : r ∈ f₁.drawn := by rw [hdrawn]; simp
    exact absurd hr (hinv.not_drawn_other hnext.serving (hother i .go he) hmem)

lemma Owned.change (hw : Owned w) (hinv : Invariant x w) (h : Change x w e w') : Owned w' := by
  refine ⟨fun u d r hs => h.frame.2 r ?_, fun q f' hp r hr u d hs hnil => ?_⟩
  · rcases h.session hs with hs | ⟨i, q, f, a, -, ⟨n, data, hnext, -⟩, -, hdrawn, -⟩
    · exact hw.drawn u d r hs
    · exact hinv.drawn.served i q f hnext.serving r (by rw [hdrawn]; simp)
  · rcases h.party hp with ⟨hp, hother⟩ | ⟨-, rfl⟩ | ⟨i, c, f, o, rfl, hnext, hmay, heff⟩
    · exact hw.stored q f' hp r hr u d (hinv.session_before h hother hr hs) hnil
    · cases hr
    · rcases heff.session hs with hs | ⟨n, data, -, -, -, rfl⟩
      · -- the value is not the one that is drawn now, since it is already a session
        have hold : r ∈ f.drawn := by
          rcases heff.drawn with ⟨hsame, -⟩ | ⟨v, hv, hnew, -⟩
          · rwa [hsame] at hr
          · rw [hnew] at hr
            rcases List.mem_cons.mp hr with rfl | hr
            · exact absurd (hw.drawn u d r hs) hv
            · exact hr
        exact hw.stored q f (.inl ⟨i, hnext.serving⟩) r hold u d hs (heff.sent_eq_nil hnil)
      · cases hnil

/-- In every reachable state. -/
theorem owned_of_reach {C : World T K → Event (Request K) (Choice T) → Prop} {now : T}
    {db : Database T} {drawn : List Uuid}
    (h : Reach (server x) C (Pool.initial (Stores.initial now db drawn)) w) : Owned w := by
  refine (h.induct (I := fun v => Invariant x v ∧ Owned v) ⟨invariant_initial x now db drawn, ?_⟩
    fun v e v' _ ⟨hinv, hv⟩ _ he => ⟨hinv.exec he, hv.change hinv (hinv.sound.change he)⟩).2
  have hnone : ∀ u d r,
      (Pool.initial (Stores.initial now db drawn) : World T K).shared.session u d ≠ some r := by
    intro u d r hs
    obtain ⟨data, hl, -⟩ := session_eq_some.mp hs
    cases hl
  exact ⟨fun u d r hs => absurd hs (hnone u d r), fun q f _ r _ u d hs => absurd hs (hnone u d r)⟩

/-- A token that is not the session of its device when nobody is being served is not found stored
from then on. -/
theorem Invariant.never_matched {C : World T K → Event (Request K) (Choice T) → Prop} {tok : K}
    {c : Claims} (hw : Invariant x w) (hquiet : w.Quiescent) (htok : tok ∈ issued w.log)
    (hver : x.jwt.verify tok = some c) (hgone : w.shared.session c.sub c.deviceId ≠ some c.jti)
    (h : Reach (server x) C w w') : Since w (fun q f => ¬ Matched x q f c) w' := by
  refine (h.induct (I := fun v => Invariant x v ∧ tok ∈ issued v.log ∧
    v.shared.session c.sub c.deviceId ≠ some c.jti ∧ Since w (fun q f => ¬ Matched x q f c) v)
    ⟨hw, htok, hgone, ⟨fun i q f hi => ?_, [], (List.append_nil _).symm, fun y hy => ?_⟩⟩ ?_).2.2.2
  · exact absurd hi (not_serving_of_quiescent hquiet i)
  · cases hy
  · rintro v e v' - ⟨hinv, htok, hgone, hsince⟩ - he
    have hc := hinv.sound.change he
    refine ⟨hinv.exec he, hc.issued htok, hinv.gone hc htok hver hgone, ?_⟩
    refine hsince.change hc (fun q f hf => hf) (fun q _ => not_matched_empty) ?_
    intro i ch q f f' o _ hnext hmay heff hf hm
    rcases heff.matched hmay hm with hm | ⟨hs, -⟩
    · exact hf hm
    · exact hgone hs

end Parties

/-! ## The invariant -/

/-- What holds while the hash `h` of `u` is replaced. -/
structure Ousted [Instant T] (x : Externals K) (u : Uuid) (h : String) (w₀ w : World T K) :
    Prop where
  suitors : Since w₀ (Suitor x u) w
  /-- There is at most one change. -/
  lone : Everypair (fun q _ q' _ => ChangesPassword x u q → ¬ ChangesPassword x u q')
    (since w₀.log.length w)
  /-- The devices that have been added stay in the set until they are deleted. -/
  listed : (∀ q f, Party (since w₀.log.length w) q f → ChangesPassword x u q → f.sent = []) →
    ∀ p g, Party (since w₀.log.length w) p g → ∀ t d, (t, .sadd (.devices u) d) ∈ g.sent →
      d ∈ w.shared.redis.sets (.devices u)
  /-- A session of a login that was verified against `h` has still to be deleted. -/
  reached : ∀ p g, Party (since w₀.log.length w) p g → LogsInWith u h p g → ∀ d r,
    Delivers u d r g → w.shared.session u d = some r → Reaches x u h (since w₀.log.length w) d

section Race

variable [Instant T] [DecidableEq K] {x : Externals K} {w₀ w w' : World T K}
  {e : Event (Request K) (Choice T)} {q p : Request K} {f f' g g' : Progress T} {u : Uuid}
  {d : String} {r : Uuid} {h : String}

omit [DecidableEq K] in
/-- A call deletes no device from the set, unless it is one of a change. -/
lemma Suitor.keeps_device {i : ℕ} {c : Choice T} {o : Op T} {s s' : Stores T}
    (hf : Suitor x u q f) (hmay : MayCall x q f o) (heff : Effect i c s f o f' s')
    (hidle : ChangesPassword x u q → f'.sent = []) (hd : d ∈ s.redis.sets (.devices u)) :
    d ∈ s'.redis.sets (.devices u) := by
  rcases heff.sent with ⟨-, hredis⟩ | ⟨cmd, rfl, -, hwrites, -, rfl, rfl⟩
  · rwa [hredis]
  · rcases hf.kind with hlogin | hchange
    · obtain ⟨u', d', -, ⟨n, data, rfl, -⟩ | ⟨t, n, v, rfl, -⟩⟩ := login_sends hlogin hmay hwrites
      · exact hd
      · change d ∈ (s.redis.update s.now (.sadd (.devices u') d')).sets (.devices u)
        rw [Redis.Store.sets_sadd]
        split
        · exact Finset.mem_insert_of_mem hd
        · exact hd
    · cases hidle hchange

/-- The added devices stay in the set. -/
lemma Ousted.listed_change (hw : Ousted x u h w₀ w) (hc : Change x w e w')
    (hsince : Turn (MayCall x) (Ends x) (fun _ _ => true) (since w₀.log.length w) e
      (since w₀.log.length w'))
    (hidle : ∀ q f, Party (since w₀.log.length w') q f → ChangesPassword x u q → f.sent = [])
    (hp : Party (since w₀.log.length w') p g') {t : T}
    (hmem : (t, .sadd (.devices u) d) ∈ g'.sent) : d ∈ w'.shared.redis.sets (.devices u) := by
  have hkeep : d ∈ w.shared.redis.sets (.devices u) → d ∈ w'.shared.redis.sets (.devices u) := by
    intro hd
    cases hc with
    | start q _ hadm hshared => rwa [hshared]
    | step i c q f f' o _ hnext hmay heff hlog hslots hserve =>
      refine (hw.suitors.served i q f hnext.serving).keeps_device hmay heff (fun hchange => ?_) hd
      exact hidle q f' (.inl ⟨i, (hserve i).trans (if_pos rfl)⟩) hchange
    | respond i y _ hserved hends hshared => rwa [hshared]
    | env c _ hdrift =>
      rw [(drift_frame hdrift).1]
      exact hd
  have hbefore : ∀ q f, Party (since w₀.log.length w) q f → ChangesPassword x u q →
      f.sent = [] := by
    intro q f hq hchange
    obtain ⟨f', hq', hgrow⟩ := hsince.stays hq
    refine List.eq_nil_iff_forall_not_mem.mpr fun y hy => ?_
    have hmem := hgrow y hy
    rw [hidle q f' hq' hchange] at hmem
    cases hmem
  rcases hsince.party hp with ⟨hp, -⟩ | ⟨-, rfl⟩ | ⟨i, c, g, o, rfl, hnext, hmay, heff⟩
  · exact hkeep (hw.listed hbefore p g' hp t d hmem)
  · cases hmem
  · have hold : (t, .sadd (.devices u) d) ∈ g.sent → d ∈ w.shared.redis.sets (.devices u) :=
      hw.listed hbefore p g (.inl ⟨i, hnext.serving⟩) t d
    rcases heff.sent with ⟨hsame, -⟩ | ⟨cmd, rfl, -, -, -, rfl, hs'⟩
    · exact hkeep (hold (hsame ▸ hmem))
    · rcases List.mem_cons.mp hmem with heq | hmem
      · cases heq
        change w'.shared = _ at hs'
        rw [hs']
        change d ∈ (w.shared.redis.update w.shared.now (.sadd (.devices u) d)).sets (.devices u)
        rw [Redis.Store.sets_sadd, if_pos rfl]
        exact Finset.mem_insert_self d _
      · exact hkeep (hold hmem)

omit [DecidableEq K] in
/-- A call of a login deletes nothing. -/
lemma Reaches.login {v v' : World T K} {adm : List (Reply T K) → Request K → Bool} {i : ℕ}
    {c : Choice T} (hR : Reaches x u h v d)
    (hturn : Turn (MayCall x) (Ends x) adm v (.step i c) v') (hi : serving v i = some (p, g))
    (hlogin : p.isLogin = true) : Reaches x u h v' d := by
  intro q f' hq hrep
  rcases hturn.party hq with ⟨hq, -⟩ | ⟨he, -⟩ | ⟨j, c', f, o, he, hnext, -⟩
  · exact hR q f' hq hrep
  · cases he
  · cases he
    rw [hnext.serving] at hi
    cases hi
    rw [hrep.1.not_login] at hlogin
    cases hlogin

omit [DecidableEq K] in
/-- The device of a session that is kept has still to be reached, if it is in the set whenever the
change reads it. -/
lemma Ousted.reaches_change (hw : Ousted x u h w₀ w)
    (hsince : Turn (MayCall x) (Ends x) (fun _ _ => true) (since w₀.log.length w) e
      (since w₀.log.length w'))
    (hs : w'.shared.session u d = some r) (hR : Reaches x u h (since w₀.log.length w) d)
    (hin : ∀ i q f, e = .step i .go → NextCall w i q f (.redis (.smembers (.devices u))) →
      Replaces x u h q f → d ∈ w.shared.redis.sets (.devices u)) :
    Reaches x u h (since w₀.log.length w') d := by
  intro q f' hq hrep
  rcases hsince.party hq with ⟨hq, -⟩ | ⟨-, rfl⟩ | ⟨i, c, f, o, rfl, hnext, hmay, heff⟩
  · exact hR q f' hq hrep
  · exact ⟨rfl, fun ds hds => by cases hds⟩
  · obtain ⟨hchange, hloaded⟩ := hrep
    have hf := hw.suitors.served i q f hnext.serving
    have hbefore : f.sent = [] ∧ ∀ ds, f.snapshot = some ds → d ∈ ds := by
      by_cases hacc : f.account = none
      · constructor
        · by_contra hne
          exact hf.loaded (.inl hne) hacc
        · intro ds hds
          exact absurd hacc (hf.loaded (.inr (by rw [hds]; exact Option.some_ne_none ds)))
      · rw [LoadedHash, heff.account_of_loaded hacc] at hloaded
        exact hR q f (.inl ⟨i, hnext.serving⟩) ⟨hchange, hloaded⟩
    have hsent : f'.sent = [] := by
      rcases heff.sent with ⟨hsame, -⟩ | ⟨cmd, rfl, -, hwrites, -, -, hs'⟩
      · exact hsame.trans hbefore.1
      · -- the deletion takes the session away
        obtain ⟨ds, rfl, hsnap, -⟩ := hchange.sends hmay hwrites
        obtain ⟨data, hl, -⟩ := session_eq_some.mp hs
        change w'.shared = _ at hs'
        rw [hs'] at hl
        change (w.shared.redis.update w.shared.now (.del (TokenStore.bulkKeys u ds))).lookup
          w.shared.now _ = _ at hl
        rw [Redis.Store.lookup_del, if_pos (by simpa using hbefore.2 ds hsnap)] at hl
        cases hl
    refine ⟨hsent, fun ds hds => ?_⟩
    rcases heff.snapshot with hsame | ⟨k, rfl, rfl, -, rfl⟩
    · exact hbefore.2 ds (hsame ▸ hds)
    · obtain ⟨-, ⟨u', rfl, hsweeps⟩, -⟩ := hmay
      obtain ⟨rfl, hacc⟩ := hchange.sweeps hsweeps
      cases Option.some.inj hds
      exact hin i q f rfl hnext ⟨hchange, hloaded⟩

omit [Instant T] [DecidableEq K] in
/-- A token that a request stores is its own. -/
lemma Delivers.mem_drawn (hdel : Delivers u d r f) (hf : Suitor x u q f) : r ∈ f.drawn := by
  obtain ⟨t, n, data, rfl, ⟨hsent, -⟩ | ⟨t', hsent⟩⟩ := hdel
  · exact hf.stored (t, .setex (.refresh u d) n (.refreshToken data)) (by rw [hsent]; simp) u d n
      data rfl
  · exact hf.stored (t, .setex (.refresh u d) n (.refreshToken data)) (by rw [hsent]; simp) u d n
      data rfl

omit [Instant T] [DecidableEq K] in
lemma Delivers.sent_ne_nil (hdel : Delivers u d r f) : f.sent ≠ [] := by
  obtain ⟨t, n, data, -, ⟨hsent, -⟩ | ⟨t', hsent⟩⟩ := hdel
  · rw [hsent]
    exact List.cons_ne_nil _ _
  · rw [hsent]
    exact List.cons_ne_nil _ _

omit [DecidableEq K] in
/-- An answered login with one command sent has failed. -/
lemma harmed_of_login {res : Except Exc (Response T K)} (hends : Ends x q res f)
    (hlogin : q.isLogin = true) {y : T × RedisCmd} (hsent : f.sent = [y]) : ¬ Unharmed f := by
  rintro ⟨hfailed, -⟩
  cases q with
  | login email password client =>
    cases res with
    | ok resp =>
      obtain ⟨-, ⟨u', -, r, a, made, t, _, _, -, -, -, -, -, hstored⟩, -⟩ := hends
      obtain ⟨_, _, -, ⟨_, _, _, hs, -⟩ | ⟨hs, -⟩⟩ := hstored
      · rw [hs] at hsent
        cases hsent
      · rw [hs] at hsent
        cases hsent
    | error err =>
      obtain ⟨-, hfail | hrefused, -⟩ := hends
      · rw [hfailed] at hfail
        cases hfail
      · change f.sent = [] at hrefused
        rw [hrefused] at hsent
        cases hsent
  | _ => cases hlogin

/-- A login that makes a call stores its token in time, or has done so. -/
lemma Ousted.reached_step (hw : Ousted x u h w₀ w) {i : ℕ} {c : Choice T} {o : Op T}
    (hunharmed : ∀ cmd, o = .redis cmd → cmd.writes = true → Unharmed g)
    (hK : KeepsAhead x u h w₀ w (.step i c)) (hc : Change x w (.step i c) w')
    (hsince : Turn (MayCall x) (Ends x) (fun _ _ => true) (since w₀.log.length w) (.step i c)
      (since w₀.log.length w'))
    (hnext : NextCall w i p g o) (hmay : MayCall x p g o)
    (heff : Effect i c w.shared g o g' w'.shared) (hlogs : LogsInWith u h p g')
    (hdel : Delivers u d r g') (hs : w'.shared.session u d = some r) :
    Reaches x u h (since w₀.log.length w') d := by
  obtain ⟨hlogin, hloaded⟩ := hlogs
  have hp : Party (since w₀.log.length w) p g := .inl ⟨i, hnext.serving⟩
  refine Reaches.login ?_ hsince hnext.serving hlogin
  rcases heff.sent with ⟨hsame, -⟩ | ⟨cmd, rfl, rfl, hwrites, -, rfl, hs'⟩
  · have hne : g.sent ≠ [] := hsame ▸ hdel.sent_ne_nil
    have hacc := (hw.suitors.served i p g hnext.serving).loaded (.inl hne)
    rw [LoadedHash, heff.account_of_loaded hacc] at hloaded
    have hdel₀ : Delivers u d r g := by
      obtain ⟨t, n, data, hr, hsent⟩ := hdel
      rw [hsame] at hsent
      exact ⟨t, n, data, hr, hsent.imp (fun hd => ⟨hd.1, heff.unharmed hd.2⟩) id⟩
    refine hw.reached p g hp ⟨hlogin, hloaded⟩ d r hdel₀ ?_
    rcases hc.session hs with hs | ⟨i', q₁, f₁, a, he, ⟨n, data, hnext', -⟩, hnil, -⟩
    · exact hs
    · cases he
      have hserving := hnext'.serving
      rw [hnext.serving] at hserving
      cases hserving
      exact absurd hnil hne
  · obtain ⟨u', d', -, ⟨n, data, rfl, hnil, -⟩ | ⟨t, n, v, rfl, hsent⟩⟩ :=
      login_sends hlogin hmay hwrites
    · -- the token is stored now
      obtain ⟨t', n', data', -, ⟨hsent', -⟩ | ⟨t'', hsent'⟩⟩ := hdel
      · rw [hnil] at hsent'
        cases hsent'
        exact hK.stores i p g d n _ rfl hnext ⟨hlogin, hloaded⟩
      · rw [hnil] at hsent'
        cases hsent'
    · -- the token was stored before its device is added
      have hdel₀ : Delivers u d r g := by
        obtain ⟨t', n', data', hr, ⟨hsent', -⟩ | ⟨t'', hsent'⟩⟩ := hdel
        · rw [hsent] at hsent'
          cases hsent'
        · rw [hsent] at hsent'
          cases hsent'
          exact ⟨_, _, data', hr, .inl ⟨hsent, hunharmed _ rfl hwrites⟩⟩
      refine hw.reached p g hp ⟨hlogin, hloaded⟩ d r hdel₀ ?_
      rw [hs'] at hs
      exact hs

/-- A session of a login that was verified against the replaced hash has still to be deleted. -/
lemma Ousted.reached_change (hw : Ousted x u h w₀ w) (hinv : Invariant x w)
    (hunharmed : ∀ i q f cmd, NextCall w i q f (.redis cmd) → cmd.writes = true → Unharmed f)
    (hK : KeepsAhead x u h w₀ w e) (hc : Change x w e w')
    (hsince : Turn (MayCall x) (Ends x) (fun _ _ => true) (since w₀.log.length w) e
      (since w₀.log.length w'))
    (hp : Party (since w₀.log.length w') p g') (hlogs : LogsInWith u h p g')
    (hdel : Delivers u d r g') (hs : w'.shared.session u d = some r) :
    Reaches x u h (since w₀.log.length w') d := by
  rcases hsince.party hp with ⟨hp, hother⟩ | ⟨-, rfl⟩ | ⟨i, c, g, o, rfl, hnext, hmay, heff⟩
  · have hs₀ : w.shared.session u d = some r :=
      hinv.session_before hc (fun i c hi => (hother i c hi).of_since)
        (hdel.mem_drawn (hw.suitors.of_party hp)) hs
    have hR := hw.reached p g' hp hlogs d r hdel hs₀
    refine hw.reaches_change hsince hs hR fun i q f hi hnext hrep => ?_
    obtain ⟨t, n, data, rfl, ⟨hsent, hun⟩ | ⟨t', hsent⟩⟩ := hdel
    · rcases hother i .go hi with ⟨j, -, hj⟩ | ⟨y, hy, rfl, rfl⟩
      · exact hK.reads i q f hi hnext hrep j p g' t d n data hj hlogs hun hsent hs₀
      · exact absurd hun
          (harmed_of_login (hinv.sound.ends (List.mem_of_mem_drop hy)) hlogs.1 hsent)
    · -- no change has deleted anything, since there is but this one
      refine hw.listed (fun q' f' hq' hchange => ?_) p g' hp t' d (by rw [hsent]; simp)
      rcases hq' with ⟨j, hj⟩ | ⟨y, hy, rfl, -⟩
      · by_cases hij : i = j
        · subst hij
          cases hnext.serving.symm.trans hj
          exact (hR q f (.inl ⟨i, hnext.serving⟩) hrep).1
        · exact absurd hchange (hw.lone.served i j q f q' f' hij hnext.serving hj hrep.1)
      · exact absurd hchange (hw.lone.mixed i q f hnext.serving y hy hrep.1)
  · exact absurd rfl hdel.sent_ne_nil
  · refine hw.reached_step (fun cmd ho hwrites => ?_) hK hc hsince hnext hmay heff hlogs hdel hs
    subst ho
    exact hunharmed i p g cmd hnext hwrites

/-- One event keeps the invariant. -/
theorem Ousted.change (hw : Ousted x u h w₀ w) (hinv : Invariant x w)
    (hunharmed : ∀ i q f cmd, NextCall w i q f (.redis cmd) → cmd.writes = true → Unharmed f)
    (hA : Alongside x u w₀ w e) (hK : KeepsAhead x u h w₀ w e)
    (he : Pool.exec (server x) e w = some w') : Ousted x u h w₀ w' := by
  have hc := hinv.sound.change he
  have hlength : w₀.log.length ≤ w.log.length := by
    obtain ⟨-, ys, hys, -⟩ := hw.suitors
    rw [hys, List.length_append]
    omega
  have hsince := hc.since hlength
  refine ⟨?_, ?_, fun hidle p g hp t d => hw.listed_change hc hsince hidle hp,
    fun p g hp hlogs d r => hw.reached_change hinv hunharmed hK hc hsince hp hlogs⟩
  · refine hw.suitors.change hc (fun q f hf => hf) (fun q hq => ⟨?_, ?_, ?_⟩)
      fun i c q f f' o _ hnext hmay heff hf => hf.step hmay heff
    · exact (hA q hq).imp id fun hchange => hchange.1
    · rintro (hne | hne)
      · exact absurd rfl hne
      · exact absurd rfl hne
    · intro y hy
      cases hy
  · refine hw.lone.change hsince (fun q f q' f' hR hq' hq => hR hq hq')
      (fun q hq q' f' hp hchange => ?_) fun i c q f f' o q' g _ hnext hmay heff hother hR => hR
    rcases hA q hq with hlogin | ⟨-, hnone⟩
    · rw [hchange.not_login] at hlogin
      cases hlogin
    · exact hnone q' f' hp

/-! ## The outcome -/

omit [DecidableEq K] in
/-- The claims of the refresh token that a login has handed out. -/
lemma Invariant.login_stored (hw : Invariant x w) {z : Reply T K} (hz : z ∈ w.log) {tok : K}
    (htok : loginToken? z = some tok) : ∃ c, x.jwt.verify tok = some c ∧ tok ∈ issued w.log ∧
      LoggedIn x z.request (progress z.performed) c.sub c.deviceId ∧
      c.jti ∈ (progress z.performed).drawn ∧
      Stored x (progress z.performed) c.sub c.deviceId c.jti := by
  have hends := hw.sound.ends hz
  unfold loginToken? at htok
  split at htok
  · rename_i email password client data hq hres
    cases htok
    have hissued : data.refreshToken ∈ issued w.log := by
      refine List.mem_flatMap.mpr ⟨z, hz, ?_⟩
      rw [handedOut, hres]
      exact List.mem_cons_of_mem _ List.mem_cons_self
    rw [hres] at hends
    have hsucc := hends.2.1
    rw [hq] at hsucc ⊢
    obtain ⟨u', hlogged, r, a, made, t, _, _, hdrawn, -, -, htoks, -, hstored⟩ := hsucc
    change [_, _] = [_, _] at htoks
    simp only [List.cons.injEq, and_true] at htoks
    rw [htoks.2] at hissued ⊢
    exact ⟨_, x.jwt.verify_sign _, hissued, hlogged, by rw [hdrawn]; exact List.mem_cons_self,
      hstored⟩
  · cases htok

/-- No session survives on the replaced password: after a successful change of the password and any
number of logins beside it, no refresh token of a login whose password was verified against the
hash that the change replaced is accepted, if such a login only stores its token while the change
has still to delete it, and has added its device when the change reads the set. -/
theorem old_sessions_end {C : World T K → Event (Request K) (Choice T) → Prop} {now : T}
    {db : Database T} {drawn : List Uuid}
    (hreach : Reach (server x) C (Pool.initial (Stores.initial now db drawn)) w₀)
    (hbegin : w₀.Quiescent)
    (hrun : Reach (server x) (fun v e => Alongside x u w₀ v e ∧ KeepsAhead x u h w₀ v e) w₀ w)
    (hend : w.Quiescent) {y z y' : Reply T K} {tok : K} {client : ClientInfo}
    (hy : y ∈ w.log.drop w₀.log.length) (hchanged : changedPassword x u y = true)
    (hold : LoadedHash u h (progress y.performed))
    (hz : z ∈ w.log.drop w₀.log.length)
    (hlogin : LogsInWith u h z.request (progress z.performed)) (htok : loginToken? z = some tok)
    (hlater : Reach (server x) AnyEvent w w') (hy' : y' ∈ w'.log.drop w.log.length)
    (hq : y'.request = .refresh tok client) : ∃ err, y'.result = .error err := by
  have hinv₀ : Invariant x w₀ := (invariant_initial x now db drawn).reach hreach
  have hstart : Ousted x u h w₀ w₀ := by
    refine ⟨⟨fun i q f hi => absurd hi (not_serving_of_quiescent hbegin i), [],
      (List.append_nil _).symm, fun y hy => absurd hy List.not_mem_nil⟩, ?_, ?_, ?_⟩
    · refine ⟨fun i j q f q' f' _ hi => absurd hi (not_serving_of_quiescent hbegin i),
        fun i q f hi => absurd hi (not_serving_of_quiescent hbegin i), ?_⟩
      change (w₀.log.drop w₀.log.length).Pairwise _
      rw [List.drop_length]
      exact .nil
    · exact fun _ p g hp => absurd hp (not_party_of_quiescent hbegin)
    · exact fun p g hp => absurd hp (not_party_of_quiescent hbegin)
  have hany : ∀ {v}, Reach (server x) (fun v e => Alongside x u w₀ v e ∧ KeepsAhead x u h w₀ v e)
      w₀ v → Reach (server x) AnyEvent (Pool.initial (Stores.initial now db drawn)) v := by
    intro v hv
    exact (hreach.mono fun _ _ _ => trivial).trans (hv.mono fun _ _ _ => trivial)
  obtain ⟨hinv, how⟩ := hrun.induct (I := fun v => Invariant x v ∧ Ousted x u h w₀ v)
    ⟨hinv₀, hstart⟩ fun v e v' hv ⟨hinv, how⟩ hK he => ⟨hinv.exec he,
      how.change hinv (fun _ _ _ _ hnext _ => unharmed_of_reach (hany hv) hnext) hK.1 hK.2 he⟩
  obtain ⟨c, hver, hissued, hlogged, hdrawn, hstored⟩ :=
    hinv.login_stored (List.mem_of_mem_drop hz) htok
  have hsub : c.sub = u := by
    obtain ⟨-, s, user, hacc, hid, -⟩ := hlogin
    obtain ⟨_, _, _, s', user', -, -, hacc', hid', -⟩ := hlogged
    rw [hacc] at hacc'
    cases hacc'
    exact hid'.symm.trans hid
  subst hsub
  -- the token is not the session of its device when all requests have been answered
  have hgone : w.shared.session c.sub c.deviceId ≠ some c.jti := by
    intro hs
    have hparty : Party (since w₀.log.length w) z.request (progress z.performed) :=
      .inr ⟨z, hz, rfl, rfl⟩
    obtain ⟨made, t, -, ⟨s, s', data, hsent, hr⟩ | ⟨hnil, -⟩⟩ := hstored
    · have hdel : Delivers c.sub c.deviceId c.jti (progress z.performed) :=
        ⟨s, _, data, hr, .inr ⟨s', hsent⟩⟩
      have hR := how.reached _ _ hparty hlogin c.deviceId c.jti hdel hs
      obtain ⟨hchange, resp, hres⟩ := changesPassword_of_changed hchanged
      have hunsent := (hR y.request _ (.inr ⟨y, hy, rfl, rfl⟩) ⟨hchange, hold⟩).1
      have hends := hinv.sound.ends (List.mem_of_mem_drop hy)
      obtain ⟨tok', dev, current, new, c', hq', -⟩ := hchange
      rw [hres] at hends
      have hsucc := hends.2.1
      rw [hq'] at hsucc
      obtain ⟨-, _, _, -, -, t', ds, -, hswept⟩ := hsucc
      rw [hunsent] at hswept
      cases hswept
    · exact (owned_of_reach (hany hrun)).stored _ _ hparty.of_since c.jti hdrawn _ _ hs hnil
  have hnever := hinv.never_matched hend hissued hver hgone hlater
  have hinv' := hinv.reach hlater
  cases hres : y'.result with
  | error err => exact ⟨err, rfl⟩
  | ok resp =>
    have hends := hinv'.sound.ends (List.mem_of_mem_drop hy')
    rw [hres] at hends
    have hsucc := hends.2.1
    have hm := hnever.of_party (.inr ⟨y', hy', rfl, rfl⟩)
    rw [hq] at hsucc hm
    obtain ⟨c', ⟨hmatched, -⟩, -⟩ := hsucc
    obtain ⟨tok', client', hq', hver', -⟩ := hmatched.1
    cases hq'
    rw [hver] at hver'
    cases hver'
    exact absurd hmatched hm

end Race

/-! ## Runs beside a change -/

/-- The requests that are being served or have been answered after the first `n`. -/
def parties (n : ℕ) (w : World T K) : List (Request K × Progress T) :=
  w.slots.filterMap (fun s => s.map fun th => (th.request, progress th.performed)) ++
    (w.log.drop n).map fun y => (y.request, progress y.performed)

lemma mem_parties {n : ℕ} {w : World T K} {q : Request K} {f : Progress T}
    (h : Party (since n w) q f) : (q, f) ∈ parties n w := by
  rcases h with ⟨i, hi⟩ | ⟨y, hy, rfl, rfl⟩
  · obtain ⟨p, tr, hslot, rfl⟩ := serving_eq_some.mp hi
    have hmem : some ⟨q, p, tr⟩ ∈ w.slots :=
      List.mem_of_getElem? (Option.join_eq_some_iff.mp hslot)
    exact List.mem_append_left _ (List.mem_filterMap.mpr ⟨_, hmem, rfl⟩)
  · exact List.mem_append_right _ (List.mem_map_of_mem hy)

/-- `ChangesPassword`, as a check. -/
def changesPassword (x : Externals K) (u : Uuid) : Request K → Bool
  | .changePassword tok _ _ _ => (x.jwt.verify tok).any fun c => c.sub == u
  | _ => false

lemma changesPassword_iff {x : Externals K} {u : Uuid} {q : Request K} :
    changesPassword x u q = true ↔ ChangesPassword x u q := by
  constructor
  · intro h
    unfold changesPassword at h
    split at h
    · rename_i tok dev current new
      rw [Option.any_eq_true] at h
      obtain ⟨c, hver, hc⟩ := h
      exact ⟨tok, dev, current, new, c, rfl, hver, beq_iff_eq.mp hc⟩
    · cases h
  · rintro ⟨tok, dev, current, new, c, rfl, hver, rfl⟩
    simp [changesPassword, hver]

/-- `LoadedHash`, as a check. -/
def loadedHash (u : Uuid) (h : String) (f : Progress T) : Bool :=
  match f.account with
  | some (_, some user) => user.id == u && user.hashedPassword == h
  | _ => false

lemma loadedHash_of_check {u : Uuid} {h : String} {f : Progress T} (hf : loadedHash u h f = true) :
    LoadedHash u h f := by
  unfold loadedHash at hf
  split at hf
  · rename_i s user hacc
    rw [Bool.and_eq_true, beq_iff_eq, beq_iff_eq] at hf
    exact ⟨s, user, hacc, hf.1, hf.2⟩
  · cases hf

/-- `Alongside` since the first `n` answers, as a check. -/
def alongside (x : Externals K) (u : Uuid) (n : ℕ) (w : World T K) :
    Event (Request K) (Choice T) → Bool
  | .start q => q.isLogin || (changesPassword x u q &&
    (parties n w).all fun p => !changesPassword x u p.1)
  | _ => true

lemma alongside_of_check {x : Externals K} {u : Uuid} {w₀ w : World T K}
    {e : Event (Request K) (Choice T)} (h : alongside x u w₀.log.length w e = true) :
    Alongside x u w₀ w e := by
  rintro q rfl
  rw [alongside, Bool.or_eq_true, Bool.and_eq_true, List.all_eq_true] at h
  refine h.imp id fun hchange => ⟨changesPassword_iff.mp hchange.1, fun q' f' hp hq' => ?_⟩
  have hnot := hchange.2 _ (mem_parties hp)
  rw [changesPassword_iff.mpr hq'] at hnot
  cases hnot

/-- No login stores a refresh token when a change has read the device set, and no change reads it
while the device of a stored token is missing, as a check. -/
def keepsAhead (x : Externals K) (u : Uuid) (n : ℕ) (w : World T K) :
    Event (Request K) (Choice T) → Bool
  | .step i .go => match w.slot i with
    | some ⟨_, .call (.redis (.setex (.refresh _ _) _ _)) _, _⟩ => (parties n w).all fun p =>
      !changesPassword x u p.1 || (p.2.sent.isEmpty && p.2.snapshot.isNone)
    | some ⟨_, .call (.redis (.smembers _)) _, _⟩ => (parties n w).all fun p =>
      !p.1.isLogin || p.2.sent.length != 1
    | _ => true
  | _ => true

lemma keepsAhead_of_check [Instant T] {x : Externals K} {u : Uuid} {h : String} {w₀ w : World T K}
    {e : Event (Request K) (Choice T)} (hcheck : keepsAhead x u w₀.log.length w e = true) :
    KeepsAhead x u h w₀ w e := by
  constructor
  · rintro i q f d n v rfl ⟨k, tr, hslot, rfl⟩ - q' f' hp ⟨hchange, -⟩
    simp only [keepsAhead, hslot, List.all_eq_true] at hcheck
    have hidle := hcheck _ (mem_parties hp)
    rw [changesPassword_iff.mpr hchange, Bool.not_true, Bool.false_or, Bool.and_eq_true,
      List.isEmpty_iff, Option.isNone_iff_eq_none] at hidle
    refine ⟨hidle.1, fun ds hds => ?_⟩
    rw [hidle.2] at hds
    cases hds
  · rintro i q f rfl ⟨k, tr, hslot, rfl⟩ - j p g t d n data hj ⟨hlogin, -⟩ - hsent -
    simp only [keepsAhead, hslot, List.all_eq_true] at hcheck
    have hlisted := hcheck _ (mem_parties (.inl ⟨j, hj⟩))
    rw [hlogin, hsent] at hlisted
    cases hlisted

/-- The answered request is the change of Alice's password, and it replaced the hash `old`. -/
def Plain.replaced (y : Reply ℚ Claims) : Bool :=
  changedPassword Plain.externals Plain.aliceId y &&
    loadedHash Plain.aliceId "old" (progress y.performed)

/-- The answered request is the login that has handed out `r₂`, and it was verified against the hash
`old`. -/
def Plain.loggedInWithOld (z : Reply ℚ Claims) : Bool :=
  z.request.isLogin && (loadedHash Plain.aliceId "old" (progress z.performed) &&
    decide (loginToken? z = some (Plain.refresh 0 Plain.r₂)))

/-- The answered request is a refresh of `r₂`. -/
def Plain.refreshes (y : Reply ℚ Claims) : Bool :=
  match y.request with
  | .refresh tok _ => decide (tok = Plain.refresh 0 Plain.r₂)
  | _ => false

lemma Plain.refreshes_iff {y : Reply ℚ Claims} (h : Plain.refreshes y = true) :
    ∃ client, y.request = .refresh (Plain.refresh 0 Plain.r₂) client := by
  unfold Plain.refreshes at h
  split at h
  · rename_i tok client hq
    rw [hq, of_decide_eq_true h]
    exact ⟨client, rfl⟩
  · cases h

/-- A second login that stores its refresh token before the change of the password reads the device
set: its token is refused afterwards. -/
theorem old_sessions_end_replay : ∃ (w₀ w w' : World ℚ Claims) (y' : Reply ℚ Claims)
    (client : ClientInfo),
    (w.log.drop w₀.log.length).any Plain.loggedInWithOld = true ∧
    (w.log.drop w₀.log.length).any Plain.replaced = true ∧ y' ∈ w'.log.drop w.log.length ∧
    y'.request = .refresh (Plain.refresh 0 Plain.r₂) client ∧ ∃ err, y'.result = .error err := by
  obtain ⟨w₀, hreach, hgood⟩ := reach_of_replay (S := server Plain.externals) anyEvent_of_check
    (loginScript 0 "alice@example.com" "old" Plain.phone Plain.a₁ Plain.r₁) (w := Plain.start)
    (g := fun w₀ => quiescent w₀ && (runWith (server Plain.externals) (fun v e =>
        alongside Plain.externals Plain.aliceId w₀.log.length v e &&
          keepsAhead Plain.externals Plain.aliceId w₀.log.length v e)
      ([.start (.login "alice@example.com" "old" Plain.phone), .start (Plain.changes "new1")] ++
        goes 2 5 ++ [.step 2 (.salt "")] ++ loginCalls 1 Plain.a₂ Plain.r₂ ++ goes 1 5 ++
        [.respond 1] ++ goes 2 8 ++ [.respond 2]) w₀).any fun w =>
      quiescent w && ((w.log.drop w₀.log.length).any Plain.loggedInWithOld &&
        ((w.log.drop w₀.log.length).any Plain.replaced &&
          (runWith (server Plain.externals) anyEvent
            ([.start (.refresh (Plain.refresh 0 Plain.r₂) Plain.phone)] ++ goes 3 3 ++
              [.respond 3]) w).any fun w' =>
            (w'.log.drop w.log.length).any Plain.refreshes)))
    (v := true) (by decide +kernel)
  simp only [Bool.and_eq_true, Option.any_eq_true] at hgood
  obtain ⟨hbegin, w, hrun, hend, hlogin, hreplaced, w', hlater, hrefresh⟩ := hgood
  obtain ⟨z, hz, hzlogin⟩ := List.any_eq_true.mp hlogin
  obtain ⟨y, hy, hyreplaced⟩ := List.any_eq_true.mp hreplaced
  obtain ⟨y', hy', hyrefresh⟩ := List.any_eq_true.mp hrefresh
  rw [Plain.loggedInWithOld, Bool.and_eq_true, Bool.and_eq_true, decide_eq_true_eq] at hzlogin
  rw [Plain.replaced, Bool.and_eq_true] at hyreplaced
  obtain ⟨client, hq⟩ := Plain.refreshes_iff hyrefresh
  have hrun : Reach (server Plain.externals) (fun v e =>
      Alongside Plain.externals Plain.aliceId w₀ v e ∧
        KeepsAhead Plain.externals Plain.aliceId "old" w₀ v e) w₀ w := by
    refine reach_of_runWith (fun v e h => ?_) hrun
    rw [Bool.and_eq_true] at h
    exact ⟨alongside_of_check h.1, keepsAhead_of_check h.2⟩
  refine ⟨w₀, w, w', y', client, hlogin, hreplaced, hy', hq, ?_⟩
  exact old_sessions_end hreach (quiescent_of_check hbegin) hrun (quiescent_of_check hend) hy
    hyreplaced.1 (loadedHash_of_check hyreplaced.2) hz
    ⟨hzlogin.1, loadedHash_of_check hzlogin.2.1⟩ hzlogin.2.2
    (reach_of_runWith anyEvent_of_check hlater) hy' hq

/-- A second login that has verified the old password stores its refresh token when the change of
the password has been answered: the token is accepted afterwards. -/
theorem old_session_survives : ∃ (w₀ w w' : World ℚ Claims) (y z y' : Reply ℚ Claims)
    (client : ClientInfo),
    Reach (server Plain.externals) AnyEvent Plain.start w₀ ∧ w₀.Quiescent ∧
    w₀.shared.db.committed.HasHash Plain.aliceId "old" ∧
    Reach (server Plain.externals) (Alongside Plain.externals Plain.aliceId w₀) w₀ w ∧
    w.Quiescent ∧ w.shared.db.committed.HasHash Plain.aliceId "new1" ∧
    y ∈ w.log.drop w₀.log.length ∧ changedPassword Plain.externals Plain.aliceId y = true ∧
    LoadedHash Plain.aliceId "old" (progress y.performed) ∧ z ∈ w.log.drop w₀.log.length ∧
    LogsInWith Plain.aliceId "old" z.request (progress z.performed) ∧
    loginToken? z = some (Plain.refresh 0 Plain.r₂) ∧
    Reach (server Plain.externals) AnyEvent w w' ∧ y' ∈ w'.log.drop w.log.length ∧
    y'.request = .refresh (Plain.refresh 0 Plain.r₂) client ∧
    ∃ resp, y'.result = .ok resp := by
  obtain ⟨w₀, hreach, hgood⟩ := reach_of_replay (S := server Plain.externals) anyEvent_of_check
    (loginScript 0 "alice@example.com" "old" Plain.phone Plain.a₁ Plain.r₁) (w := Plain.start)
    (g := fun w₀ => quiescent w₀ && (hasHash Plain.aliceId "old" w₀ &&
      (runWith (server Plain.externals)
        (alongside Plain.externals Plain.aliceId w₀.log.length)
      ([.start (.login "alice@example.com" "old" Plain.phone)] ++ goes 1 2 ++
        [.start (Plain.changes "new1")] ++ goes 2 5 ++ [.step 2 (.salt "")] ++ goes 2 8 ++
        [.respond 2] ++ goes 1 7 ++ draws 1 Plain.a₂ ++ goes 1 1 ++ draws 1 Plain.r₂ ++
        goes 1 6 ++ [.respond 1]) w₀).any fun w =>
      quiescent w && (hasHash Plain.aliceId "new1" w &&
        ((w.log.drop w₀.log.length).any Plain.loggedInWithOld &&
          ((w.log.drop w₀.log.length).any Plain.replaced &&
            (runWith (server Plain.externals) anyEvent
              (refreshScript 3 (Plain.refresh 0 Plain.r₂) Plain.phone Plain.a₃ Plain.r₃) w).any
              fun w' => (w'.log.drop w.log.length).any fun y' =>
                Plain.refreshes y' && y'.result.isOk)))))
    (v := true) (by decide +kernel)
  simp only [Bool.and_eq_true, Option.any_eq_true, List.any_eq_true] at hgood
  obtain ⟨hbegin, hold, w, hrun, hend, hnew, ⟨z, hz, hzlogin⟩, ⟨y, hy, hyreplaced⟩, w', hlater, y',
    hy', hyrefresh, hok⟩ := hgood
  rw [Plain.loggedInWithOld, Bool.and_eq_true, Bool.and_eq_true, decide_eq_true_eq] at hzlogin
  rw [Plain.replaced, Bool.and_eq_true] at hyreplaced
  obtain ⟨client, hq⟩ := Plain.refreshes_iff hyrefresh
  refine ⟨w₀, w, w', y, z, y', client, hreach, quiescent_of_check hbegin, hasHash_of_check hold,
    reach_of_runWith (fun v e h => alongside_of_check h) hrun, quiescent_of_check hend,
    hasHash_of_check hnew, hy, hyreplaced.1, loadedHash_of_check hyreplaced.2, hz,
    ⟨hzlogin.1, loadedHash_of_check hzlogin.2.1⟩, hzlogin.2.2,
    reach_of_runWith anyEvent_of_check hlater, hy', hq, ?_⟩
  cases hres : y'.result with
  | ok resp => exact ⟨resp, rfl⟩
  | error err =>
    rw [hres] at hok
    cases hok

end SampleAuthApi
