import SampleAuthApi.Sessions.Access
import SampleAuthApi.Sessions.Revocation

/-!
# What ends an access token early

A change of the password, a deletion of the account and the sign-out of a device delete refresh
tokens, but `get_current_user` does not consult these.  `rejected_forever_iff`: if no blacklist
entry of the tokens in question is written to lapse before its token, then an access token is
rejected from now on exactly when it has expired or a logout that presents this very token has
blacklisted it.
-/

namespace SampleAuthApi

open Pool

variable {T K : Type} [Instant T] {x : Externals K}

/-- A blacklist entry for a token with claims in `ends` is written to last as long as its token. -/
def InFull (x : Externals K) (ends : Claims → Bool) (w : World T K)
    (e : Event (Request K) (Choice T)) : Prop :=
  ∀ i q f j n v c, e = .step i .go → NextCall w i q f (.redis (.setex (.blacklist j) n v)) →
    Bears x q c → ends c = true → (c.exp : T) ≤ w.shared.now + n

/-- A logout or a logout from all devices that presents the access token with the claims `c` has
sent its blacklist entry. -/
def Revoked (x : Externals K) (w : World T K) (c : Claims) : Prop :=
  ∃ q f, Party w q f ∧ q.signsOut = true ∧ Bears x q c ∧
    ∃ t n v, (t, .setex (.blacklist c.jti) n v) ∈ f.sent

/-- The blacklist entries that a request has sent for tokens with claims in `ends` last as long as
their tokens. -/
def Lasts (x : Externals K) (ends : Claims → Bool) (w : World T K) (f : Progress T) : Prop :=
  ∀ t j n v, (t, Redis.Cmd.setex (.blacklist j) n v) ∈ f.sent →
    ∃ tok c, tok ∈ issued w.log ∧ x.jwt.verify tok = some c ∧ c.type = .access ∧ c.jti = j ∧
      (ends c = true →
        ∃ v' t', w.shared.redis.strings (.blacklist j) = some (v', t') ∧ (c.exp : T) ≤ t')

/-- The blacklist holds the revoked tokens, those with claims in `ends` for as long as they live. -/
structure Listed (x : Externals K) (ends : Claims → Bool) (w : World T K) : Prop where
  /-- No set is kept under the name of an entry. -/
  sets : NoSets w
  /-- An entry is one of a revoked token. -/
  revoked : ∀ j p, w.shared.redis.strings (.blacklist j) = some p →
    ∃ c, c.jti = j ∧ c.type = .access ∧ Revoked x w c
  /-- An entry that has been sent for a token with claims in `ends` lasts as long as its token. -/
  entry : Everyone (fun _ f => Lasts x ends w f) w

variable [DecidableEq K] {w w' : World T K} {e : Event (Request K) (Choice T)} {c : Claims}
  {tok : K} {ends : Claims → Bool}

/-- A revoked token stays revoked. -/
lemma Revoked.change (hr : Revoked x w c) (h : Change x w e w') : Revoked x w' c := by
  obtain ⟨q, f, hp, hsign, hb, t, n, v, hmem⟩ := hr
  obtain ⟨f', hp', hsent⟩ := h.stays hp
  exact ⟨q, f', hp', hsign, hb, t, n, v, hsent _ hmem⟩

/-- One event keeps the blacklist. -/
theorem Listed.change (hl : Listed x ends w) (hw : Invariant x w) (hfull : InFull x ends w e)
    (h : Change x w e w') : Listed x ends w' := by
  -- an entry that is there lasts as long as its token, also when it has just been rewritten
  have hkeep : ∀ tok c v t, tok ∈ issued w.log → x.jwt.verify tok = some c → c.type = .access →
      ends c = true →
      w.shared.redis.strings (.blacklist c.jti) = some (v, t) → (c.exp : T) ≤ t →
      ∃ v' t', w'.shared.redis.strings (.blacklist c.jti) = some (v', t') ∧ (c.exp : T) ≤ t' := by
    intro tok c v t htok hver htype hends hentry hle
    rcases h.blacklist c.jti with hs |
      ⟨i, q, f, n, v', c', rfl, hnext, -, hauth, hj, -, -, -, hs, -⟩
    · exact ⟨v, t, by rw [hs, hentry], hle⟩
    · obtain ⟨tok', htok', hver'⟩ := hw.issued_of_bears (.inl ⟨i, hnext.serving⟩) hauth.bears
      have htype' : c'.type = .access := by
        obtain ⟨-, -, -, -, htype', -⟩ := hauth
        exact htype'
      obtain ⟨-, rfl⟩ := hw.access_unique htok' htok hver' hver htype' htype hj
      exact ⟨v', _, hs, hfull i q f _ n v' c' rfl hnext hauth.bears hends⟩
  refine ⟨hl.sets.change h, fun j p hp => ?_, ?_⟩
  · rcases h.blacklist j with hs | ⟨i, q, f, n, v, c, -, -, hsign, hauth, rfl, -, -, -, -, hserve⟩
    · rw [hs] at hp
      obtain ⟨c, hj, htype, hr⟩ := hl.revoked j p hp
      exact ⟨c, hj, htype, hr.change h⟩
    · have htype : c.type = .access := by
        obtain ⟨-, -, -, -, htype, -⟩ := hauth
        exact htype
      exact ⟨c, rfl, htype, q, _, .inl ⟨i, hserve⟩, hsign, hauth.bears, _, n, v,
        List.mem_singleton_self _⟩
  · have hmono : ∀ f, Lasts x ends w f → Lasts x ends w' f := by
      intro f hf t j n v hmem
      obtain ⟨tok, c, htok, hver, htype, rfl, hentry⟩ := hf t j n v hmem
      refine ⟨tok, c, h.issued htok, hver, htype, rfl, fun hends => ?_⟩
      obtain ⟨v', t', hentry, hle⟩ := hentry hends
      exact hkeep tok c v' t' htok hver htype hends hentry hle
    refine hl.entry.change h (fun q f => hmono f) (fun q t j n v hmem => ?_) ?_
    · cases hmem
    · intro i ch q f f' o he hnext hmay heff hf t j n v hmem
      rcases heff.sent with ⟨heq, -⟩ | ⟨cmd, rfl, rfl, -, -, rfl, hs⟩
      · exact hmono f hf t j n v (heq ▸ hmem)
      · rcases List.mem_cons.mp hmem with hnew | hold
        · cases hnew
          obtain ⟨-, -, c, hauth, rfl, -⟩ := hmay
          obtain ⟨tok, htok, hver⟩ := hw.issued_of_bears (.inl ⟨i, hnext.serving⟩) hauth.bears
          refine ⟨tok, c, h.issued htok, hver, ?_, rfl, fun hends =>
            ⟨v, w.shared.now + n, ?_, ?_⟩⟩
          · obtain ⟨-, -, -, -, htype, -⟩ := hauth
            exact htype
          · rw [hs]
            simp [Redis.Store.strings_setex]
          · exact hfull i q f _ n v c he hnext hauth.bears hends
        · exact hmono f hf t j n v hold

omit [DecidableEq K] in
lemma listed_initial (x : Externals K) (ends : Claims → Bool) (now : T) (db : Database T)
    (drawn : List Uuid) : Listed x ends (Pool.initial (Stores.initial now db drawn)) where
  sets _ := rfl
  revoked j p hp := by simp [Pool.initial, Stores.initial, Redis.Store.empty] at hp
  entry := ⟨fun i q f hi => by simp [serving_initial] at hi, fun y hy => absurd hy List.not_mem_nil⟩

/-- The blacklist holds the revoked tokens along every run that writes its entries in full. -/
theorem Listed.reach (hw : Invariant x w) (hl : Listed x ends w)
    (h : Reach (server x) (InFull x ends) w w') : Listed x ends w' := by
  have hboth : Invariant x w' ∧ Listed x ends w' :=
    Reach.induct (I := fun v => Invariant x v ∧ Listed x ends v) h ⟨hw, hl⟩
      fun v ev v' _ hv hC hex => ⟨hv.1.exec hex, hv.2.change hv.1 hC (hv.1.sound.change hex)⟩
  exact hboth.2

/-- An access token with claims in `ends` is rejected from now on exactly when it has expired or has
been revoked. -/
theorem rejected_forever_iff (hw : Invariant x w) (hl : Listed x ends w)
    (htok : tok ∈ issued w.log) (hver : x.jwt.verify tok = some c) (htype : c.type = .access)
    (hends : ends c = true) :
    (∀ w', Reach (server x) (InFull x ends) w w' → Rejects x w'.shared tok) ↔
      (c.exp : T) ≤ w.shared.now ∨ Revoked x w c := by
  constructor
  · intro h
    rcases (hw.rejects_iff htok hver htype).mp (h w (Reach.refl w)) with hexp | hblack
    · exact .inl hexp
    · obtain ⟨v, t, hentry, -⟩ := (blacklisted_iff hl.sets).mp hblack
      obtain ⟨c', hj, htype', hr⟩ := hl.revoked _ _ hentry
      obtain ⟨q, f, hp, -, hb, -⟩ := id hr
      obtain ⟨tok', htok', hver'⟩ := hw.issued_of_bears hp hb
      obtain ⟨-, rfl⟩ := hw.access_unique htok' htok hver' hver htype' htype hj
      exact .inr hr
  · intro h w' hreach
    have hall : Invariant x w' ∧ tok ∈ issued w'.log ∧
        ((c.exp : T) ≤ w'.shared.now ∨ Revoked x w' c) := by
      refine Reach.induct (I := fun v => Invariant x v ∧ tok ∈ issued v.log ∧
        ((c.exp : T) ≤ v.shared.now ∨ Revoked x v c)) hreach ⟨hw, htok, h⟩ ?_
      intro v ev v' _ hv _ hex
      have hc := hv.1.sound.change hex
      exact ⟨hv.1.exec hex, hc.issued hv.2.1,
        hv.2.2.imp (fun hle => hle.trans hc.frame.1) fun hr => hr.change hc⟩
    obtain ⟨hw', htok', h'⟩ := hall
    refine (hw'.rejects_iff htok' hver htype).mpr ?_
    by_cases hexp : (c.exp : T) ≤ w'.shared.now
    · exact .inl hexp
    · obtain ⟨q, f, hp, -, hb, t, n, v, hmem⟩ := h'.resolve_left hexp
      have hl' := hl.reach hw hreach
      have hlasts : Lasts x ends w' f := by
        rcases hp with ⟨i, hi⟩ | ⟨y, hy, rfl, rfl⟩
        · exact hl'.entry.served i q f hi
        · exact hl'.entry.logged y hy
      obtain ⟨tok', c', htok₁, hver₁, htype₁, hj, hentry⟩ := hlasts t _ n v hmem
      obtain ⟨-, rfl⟩ := hw'.access_unique htok₁ htok' hver₁ hver htype₁ htype hj
      obtain ⟨v', t', hentry, hle⟩ := hentry hends
      exact .inr ((blacklisted_iff hl'.sets).mpr
        ⟨v', t', hentry, lt_of_lt_of_le (not_le.mp hexp) hle⟩)

/-! ## Requests that should end access tokens -/

/-- The answered request is a change of the password or a deletion of the account of the user of the
access token with the claims `c`. -/
def endsAccount (x : Externals K) (y : Reply T K) (c : Claims) : Bool :=
  match y.request, y.result with
  | .changePassword tok _ _ _, .ok _ | .deleteAccount tok _ _, .ok _ =>
    (x.jwt.verify tok).any fun b => b.sub == c.sub
  | _, _ => false

/-- The answered request signs out the device of the access token with the claims `c`: a logout from
it, a forced logout of it, a refresh that has detected the reuse of one of its superseded tokens, or
a logout from all devices. -/
def endsDevice (x : Externals K) (y : Reply T K) (c : Claims) : Bool :=
  match y.request, y.result with
  | .logout tok _, .ok _ =>
    (x.jwt.verify tok).any fun b => b.sub == c.sub && b.deviceId == c.deviceId
  | .forceLogoutDevice tok _ target, .ok _ =>
    target == c.deviceId && (x.jwt.verify tok).any fun b => b.sub == c.sub
  | .logoutAll tok _, .ok _ => (x.jwt.verify tok).any fun b => b.sub == c.sub
  | .refresh tok _, .error _ => !(progress y.performed).failed && (x.jwt.verify tok).any fun b =>
    b.sub == c.sub && b.deviceId == c.deviceId && detectsReuse (progress y.performed) b
  | _, _ => false

/-- An access token that was handed out before `w`, with claims in `ends`. -/
def Earlier (x : Externals K) (ends : Claims → Bool) (w : World T K) (tok : K) (c : Claims) :
    Prop :=
  tok ∈ issued w.log ∧ x.jwt.verify tok = some c ∧ c.type = .access ∧ ends c = true

/-- From `w'` on, all access tokens with claims in `ends` that were handed out before `w` are
rejected, in every continuation of the run under the condition `C`. -/
def EndsAccess (x : Externals K) (C : World T K → Event (Request K) (Choice T) → Prop)
    (ends : Claims → Bool) (w w' : World T K) : Prop :=
  ∀ tok c, Earlier x ends w tok c → ∀ v, Reach (server x) C w' v → Rejects x v.shared tok

/-- In `w'`, all access tokens with claims in `ends` that were handed out before `w` have expired or
have been revoked by a logout that presents them. -/
def Spent (x : Externals K) (ends : Claims → Bool) (w w' : World T K) : Prop :=
  ∀ tok c, Earlier x ends w tok c → (c.exp : T) ≤ w'.shared.now ∨ Revoked x w' c

omit [DecidableEq K] in
lemma inFull_start (v : World T K) (q : Request K) : InFull x ends v (.start q) := by
  intro i q' f j n v' c he
  cases he

omit [DecidableEq K] in
lemma inFull_respond (v : World T K) (i : ℕ) : InFull x ends v (.respond i) := by
  intro i' q' f j n v' c he
  cases he

/-- Whatever request is answered: the earlier access tokens are ended when each of them is spent. -/
theorem endsAccess_iff_spent {now : T} {db : Database T} {drawn : List Uuid} {y : Reply T K}
    (h₁ : Reach (server x) (InFull x ends) (Pool.initial (Stores.initial now db drawn)) w)
    (h₂ : Answered (server x) (InFull x ends) w y w') :
    EndsAccess x (InFull x ends) ends w w' ↔ Spent x ends w w' := by
  have hreach := h₂.reach inFull_start inFull_respond
  have hw := (invariant_initial x now db drawn).reach h₁
  have hl := (listed_initial x ends now db drawn).reach (invariant_initial x now db drawn) h₁
  have hl' := hl.reach hw hreach
  have hw' := hw.reach hreach
  have hissued : ∀ tok ∈ issued w.log, tok ∈ issued w'.log := by
    intro tok htok
    obtain ⟨l, hlog⟩ := log_grows hw hreach
    rw [← hlog, issued, List.flatMap_append]
    exact List.mem_append_left _ htok
  have hiff : ∀ tok c, Earlier x ends w tok c →
      ((∀ v, Reach (server x) (InFull x ends) w' v → Rejects x v.shared tok) ↔
        (c.exp : T) ≤ w'.shared.now ∨ Revoked x w' c) := by
    intro tok c htok
    exact rejected_forever_iff hw' hl' (hissued tok htok.1) htok.2.1 htok.2.2.1 htok.2.2.2
  constructor
  · intro h tok c htok
    exact (hiff tok c htok).mp (h tok c htok)
  · intro h tok c htok
    exact (hiff tok c htok).mpr (h tok c htok)

/-! ## Checks -/

/-- `InFull` for all tokens, as a check. -/
def inFull (x : Externals K) (w : World T K) : Event (Request K) (Choice T) → Bool
  | .step i _ => match w.slot i with
    | some ⟨q, .call (.redis (.setex (.blacklist _) n _)) _, _⟩ =>
      q.bearer?.all fun b => (x.jwt.verify b.1).all fun c =>
        decide ((c.exp : T) ≤ w.shared.now + n)
    | _ => true
  | _ => true

omit [DecidableEq K] in
lemma inFull_of_check (x : Externals K) (w : World T K) (e : Event (Request K) (Choice T))
    (h : inFull x w e = true) : ∀ ends, InFull x ends w e := by
  rintro ends i q f j n v c rfl ⟨k, tr, hslot, -⟩ ⟨tok, dev, hb, hver⟩ -
  simpa [inFull, hslot, hb, hver] using h

/-- Every access token handed out before `w` was presented to an answered logout that has
blacklisted it. -/
def allRevoked (x : Externals K) (w w' : World T K) : Bool :=
  (issued w.log).all fun tok => (x.jwt.verify tok).all fun c => c.type != .access ||
    w'.log.any fun y => y.request.signsOut &&
      y.request.bearer?.any (fun b => decide (x.jwt.verify b.1 = some c)) &&
      (progress y.performed).sent.any fun p => match p.2 with
        | .setex k _ _ => decide (k = .blacklist c.jti)
        | _ => false

omit [DecidableEq K] in
lemma spent_of_allRevoked (ends : Claims → Bool) (h : allRevoked x w w' = true) :
    Spent x ends w w' := by
  rintro tok c ⟨htok, hver, htype, -⟩
  have htok' := List.all_eq_true.mp h tok htok
  simp only [hver, Option.all_some, htype, bne_self_eq_false, Bool.false_or, List.any_eq_true,
    Bool.and_eq_true, Option.any_eq_true, decide_eq_true_eq] at htok'
  obtain ⟨y, hy, ⟨hsign, b, hb, hverb⟩, ⟨t, cmd⟩, hmem, hcmd⟩ := htok'
  split at hcmd
  · rename_i k n v hk
    simp only [decide_eq_true_eq] at hcmd
    subst hcmd
    cases hk
    exact .inr ⟨_, _, .inr ⟨y, hy, rfl, rfl⟩, hsign, ⟨b.1, b.2, hb, hverb⟩, t, n, v, hmem⟩
  · cases hcmd

/-! ## Account and device -/

/-- A change of the password or a deletion of the account ends the earlier access tokens of its user
exactly when each of them has expired or has itself been presented to a logout. -/
theorem account_access_ended_iff (now : T) (db : Database T) (drawn : List Uuid) {y : Reply T K}
    (h₁ : Reach (server x) (InFull x (endsAccount x y))
      (Pool.initial (Stores.initial now db drawn)) w)
    (h₂ : Answered (server x) (InFull x (endsAccount x y)) w y w') :
    EndsAccess x (InFull x (endsAccount x y)) (endsAccount x y) w w' ↔
      Spent x (endsAccount x y) w w' :=
  endsAccess_iff_spent h₁ h₂

/-- While the password is being changed, a logout presents the same access token and blacklists it:
the token is ended. -/
theorem account_access_ended_replay : ∃ (w w' : World ℚ Claims) (y : Reply ℚ Claims),
    Earlier Plain.externals (endsAccount Plain.externals y) w (Plain.access 0 Plain.a₁)
      (Plain.access 0 Plain.a₁) ∧
    w'.shared.now < (Plain.access 0 Plain.a₁).exp ∧
    EndsAccess Plain.externals (InFull Plain.externals (endsAccount Plain.externals y))
      (endsAccount Plain.externals y) w w' := by
  obtain ⟨w, y, w', h₁, -, h₂, hgood⟩ := answered_of_replay (S := server Plain.externals)
    (inFull_of_check Plain.externals) (inFull_of_check Plain.externals)
    (loginScript 0 "alice@example.com" "old" Plain.phone Plain.a₁ Plain.r₁)
    (goes 1 2 ++ [.start (.logout (Plain.access 0 Plain.a₁) "phone")] ++ goes 2 11 ++
      [.respond 2] ++ goes 1 3 ++ [.step 1 (.salt "")] ++ goes 1 8)
    (.changePassword (Plain.access 0 Plain.a₁) "phone" "old" "new") (w := Plain.start)
    (g := fun w w' => decide (Plain.access 0 Plain.a₁ ∈ issued w.log) &&
      decide (w'.shared.now < (Plain.access 0 Plain.a₁).exp) &&
      allRevoked Plain.externals w w' && w'.log.getLast?.any fun y =>
        endsAccount Plain.externals y (Plain.access 0 Plain.a₁))
    (by decide +kernel)
  rw [h₂.getLast?] at hgood
  simp only [Bool.and_eq_true, decide_eq_true_eq, Option.any_some] at hgood
  obtain ⟨⟨⟨htok, hnow⟩, hrevoked⟩, hends⟩ := hgood
  exact ⟨w, w', y, ⟨htok, rfl, rfl, hends⟩, hnow,
    (account_access_ended_iff _ _ _ (h₁.mono fun _ _ h => h _) (h₂.mono fun _ _ h => h _)).mpr
      (spent_of_allRevoked _ hrevoked)⟩

/-- After a change of the password, the access token that authorised it is still let in. -/
theorem account_access_kept : ¬ ∀ (w w' : World ℚ Claims) (y : Reply ℚ Claims),
    Reach (server Plain.externals) AnyEvent Plain.start w →
    Answered (server Plain.externals) AnyEvent w y w' →
    EndsAccess Plain.externals AnyEvent (endsAccount Plain.externals y) w w' := by
  intro hclaim
  obtain ⟨w, y, w', h₁, -, h₂, hgood⟩ := answered_of_replay (S := server Plain.externals)
    anyEvent_of_check anyEvent_of_check
    (loginScript 0 "alice@example.com" "old" Plain.phone Plain.a₁ Plain.r₁)
    (goes 1 5 ++ [.step 1 (.salt "")] ++ goes 1 8)
    (.changePassword (Plain.access 0 Plain.a₁) "phone" "old" "new") (w := Plain.start)
    (g := fun w w' => decide (Plain.access 0 Plain.a₁ ∈ issued w.log) &&
      (authenticate Plain.externals w'.shared (Plain.access 0 Plain.a₁) "phone").isOk &&
      w'.log.getLast?.any fun y => endsAccount Plain.externals y (Plain.access 0 Plain.a₁))
    (by decide +kernel)
  rw [h₂.getLast?] at hgood
  simp only [Bool.and_eq_true, decide_eq_true_eq, Option.any_some] at hgood
  obtain ⟨⟨htok, hok⟩, hends⟩ := hgood
  have hrej := hclaim w w' y h₁ h₂ _ _ ⟨htok, rfl, rfl, hends⟩ w' (Reach.refl w')
  exact not_rejects_of_isOk hok hrej

/-- The sign-out of a device, or of all, ends the earlier access tokens exactly when each of them
has expired or has itself been presented to a logout. -/
theorem device_access_ended_iff (now : T) (db : Database T) (drawn : List Uuid) {y : Reply T K}
    (h₁ : Reach (server x) (InFull x (endsDevice x y))
      (Pool.initial (Stores.initial now db drawn)) w)
    (h₂ : Answered (server x) (InFull x (endsDevice x y)) w y w') :
    EndsAccess x (InFull x (endsDevice x y)) (endsDevice x y) w w' ↔
      Spent x (endsDevice x y) w w' :=
  endsAccess_iff_spent h₁ h₂

/-- A logout with the only access token of its device. -/
theorem device_access_ended_replay : ∃ (w w' : World ℚ Claims) (y : Reply ℚ Claims),
    Earlier Plain.externals (endsDevice Plain.externals y) w (Plain.access 0 Plain.a₁)
      (Plain.access 0 Plain.a₁) ∧
    EndsAccess Plain.externals (InFull Plain.externals (endsDevice Plain.externals y))
      (endsDevice Plain.externals y) w w' := by
  obtain ⟨w, y, w', h₁, -, h₂, hgood⟩ := answered_of_replay (S := server Plain.externals)
    (inFull_of_check Plain.externals) (inFull_of_check Plain.externals)
    (loginScript 0 "alice@example.com" "old" Plain.phone Plain.a₁ Plain.r₁) (goes 1 11)
    (.logout (Plain.access 0 Plain.a₁) "phone") (w := Plain.start)
    (g := fun w w' => decide (Plain.access 0 Plain.a₁ ∈ issued w.log) &&
      allRevoked Plain.externals w w' && w'.log.getLast?.any fun y =>
        endsDevice Plain.externals y (Plain.access 0 Plain.a₁))
    (by decide +kernel)
  rw [h₂.getLast?] at hgood
  simp only [Bool.and_eq_true, decide_eq_true_eq, Option.any_some] at hgood
  obtain ⟨⟨htok, hrevoked⟩, hends⟩ := hgood
  exact ⟨w, w', y, ⟨htok, rfl, rfl, hends⟩,
    (device_access_ended_iff _ _ _ (h₁.mono fun _ _ h => h _) (h₂.mono fun _ _ h => h _)).mpr
      (spent_of_allRevoked _ hrevoked)⟩

/-- After a logout, the access token of an earlier login from the same device is still let in. -/
theorem device_access_kept : ¬ ∀ (w w' : World ℚ Claims) (y : Reply ℚ Claims),
    Reach (server Plain.externals) AnyEvent Plain.start w →
    Answered (server Plain.externals) AnyEvent w y w' →
    EndsAccess Plain.externals AnyEvent (endsDevice Plain.externals y) w w' := by
  intro hclaim
  obtain ⟨w, y, w', h₁, -, h₂, hgood⟩ := answered_of_replay (S := server Plain.externals)
    anyEvent_of_check anyEvent_of_check
    (loginScript 0 "alice@example.com" "old" Plain.phone Plain.a₁ Plain.r₁ ++
      loginScript 1 "alice@example.com" "old" Plain.phone Plain.a₂ Plain.r₂) (goes 2 11)
    (.logout (Plain.access 0 Plain.a₂) "phone") (w := Plain.start)
    (g := fun w w' => decide (Plain.access 0 Plain.a₁ ∈ issued w.log) &&
      (authenticate Plain.externals w'.shared (Plain.access 0 Plain.a₁) "phone").isOk &&
      w'.log.getLast?.any fun y => endsDevice Plain.externals y (Plain.access 0 Plain.a₁))
    (by decide +kernel)
  rw [h₂.getLast?] at hgood
  simp only [Bool.and_eq_true, decide_eq_true_eq, Option.any_some] at hgood
  obtain ⟨⟨htok, hok⟩, hends⟩ := hgood
  have hrej := hclaim w w' y h₁ h₂ _ _ ⟨htok, rfl, rfl, hends⟩ w' (Reach.refl w')
  exact not_rejects_of_isOk hok hrej

end SampleAuthApi
