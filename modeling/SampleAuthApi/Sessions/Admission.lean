import SampleAuthApi.Sessions.Provenance
import SampleAuthApi.Sessions.Served

/-!
# Requests that are let in

A forced logout is turned away by `get_current_user` only for a reason (`TurnedAway`).  One that is
served alone, with an access token that is let in when it arrives and does not expire before it is
answered, is not turned away (`Accountable.admitted`).
-/

namespace SampleAuthApi

open Transactions Pool
open Program (wp wp_bind wp_mono wp_pure wp_tryCatch afterBind_ok afterBind_error afterTry_ok
  afterTry_error)

variable {T K : Type} [Instant T]

/-! ## Reasons -/

/-- A reason for which `get_current_user` turns the request away. -/
def TurnedAway (x : Externals K) (q : Request K) (f : Progress T) : Prop :=
  ∃ tok dev, q.bearer? = some (tok, dev) ∧ ∀ c, x.jwt.verify tok = some c →
    c.type ≠ .access ∨ c.deviceId ≠ dev ∨ c.email = none ∨ c.name = none ∨
      (∃ t ∈ f.readings, validateClaims c t x.settings.jwtIssuer (some x.settings.jwtAudience) ≠
        .ok c) ∨
      ∃ s, f.checked = some s ∧ s.blacklisted c = true

/-- The onlooker of one request that expects no particular calls. -/
abbrev bystander (q : Request K) : Program.Observer (Op T) (Op.Reply T) Exc (Progress T) :=
  observer (fun _ _ _ => True) q

section Reasons

variable {x : Externals K} {q : Request K} {tok : K} {dev : String}

/-- `get_current_user` only turns a request away for a reason. -/
lemma wp_getCurrentUser_turnedAway (hb : q.bearer? = some (tok, dev)) :
    wp (bystander q) (getCurrentUser x tok dev)
      (fun r f => ∀ e, r = .error e → f.failed = true ∨ TurnedAway x q f) ({} : Progress T) := by
  have haway : ∀ (e : Exc) (f : Progress T), TurnedAway x q f →
      ∀ e', (.error e : Except Exc (CurrentUser T)) = .error e' →
        f.failed = true ∨ TurnedAway x q f := fun _ _ h _ _ => .inr h
  unfold getCurrentUser JwtService.decodeAccessToken jwtDecode
  rw [wp_bind, wp_bind]
  cases hver : x.jwt.verify tok with
  | none =>
    refine haway _ _ ⟨tok, dev, hb, fun c hc => ?_⟩
    rw [hver] at hc
    cases hc
  | some c =>
    change wp _ (utcnow >>= _) _ _
    rw [wp_bind]
    refine wp_utcnow trivial fun t => ?_
    have hreason : ∀ (f : Progress T), (c.type ≠ .access ∨ c.deviceId ≠ dev ∨ c.email = none ∨
        c.name = none ∨ (∃ t ∈ f.readings, validateClaims c t x.settings.jwtIssuer
          (some x.settings.jwtAudience) ≠ .ok c) ∨
        ∃ s, f.checked = some s ∧ s.blacklisted c = true) → TurnedAway x q f := by
      intro f h
      refine ⟨tok, dev, hb, fun c' hc' => ?_⟩
      rw [hver] at hc'
      cases hc'
      exact h
    rw [afterBind_ok, wp_pure, afterBind_ok]
    cases hval : validateClaims c t x.settings.jwtIssuer (some x.settings.jwtAudience) with
    | error e =>
      have hinvalid : TurnedAway x q (Progress.read {} t) := by
        refine hreason _ (.inr (.inr (.inr (.inr (.inl ⟨t, List.mem_cons_self, ?_⟩)))))
        rw [hval]
        simp
      cases e with
      | expiredSignature => exact haway _ _ hinvalid
      | invalidToken => exact haway _ _ hinvalid
    | ok c' =>
      cases validateClaims_ok hval
      by_cases htype : c.type = .access
      · simp only [htype, ne_eq, not_true_eq_false, if_false]
        cases hemail : c.email with
        | none => exact haway _ _ (hreason _ (.inr (.inr (.inl hemail))))
        | some email =>
          cases hname : c.name with
          | none => exact haway _ _ (hreason _ (.inr (.inr (.inr (.inl hname)))))
          | some name =>
            rw [wp_pure, afterBind_ok]
            by_cases hdev : c.deviceId = dev
            · simp only [hdev, not_true_eq_false, if_false]
              rw [wp_bind]
              refine wp_redis trivial rfl (fun s => ?_) fun e he => .inl rfl
              rw [afterBind_ok]
              split
              · rename_i hblack
                exact haway _ _ (hreason _ (.inr (.inr (.inr (.inr (.inr ⟨s, rfl, hblack⟩))))))
              · intro e he
                cases he
            · simp only [hdev, not_false_eq_true, if_true]
              exact haway _ _ (hreason _ (.inr (.inl hdev)))
      · simp only [ne_eq, htype, not_false_eq_true, if_true]
        exact haway _ _ (hreason _ (.inl htype))

/-! ## Programs that spare exceptions -/

/-- The exceptions of Redis and of the database. -/
def Exc.external : Exc → Bool
  | .integrity | .redisResponse | .unavailable => true
  | _ => false

/-- The environment answers calls with exceptions of Redis and of the database only. -/
lemma perform_external {i : ℕ} {c : Choice T} {o : Op T} {s s' : Stores T} {e : Exc}
    (h : perform i c o s = some (.error e, s')) : e.external = true := by
  cases o with
  | now => obtain ⟨hr, -⟩ := perform_now h; cases hr
  | uuid4 => obtain ⟨u, -, hr, -⟩ := perform_uuid4 h; cases hr
  | gensalt => obtain ⟨a, hr, -⟩ := perform_gensalt h; cases hr
  | checkpw => obtain ⟨hr, -⟩ := perform_checkpw h; cases hr
  | redis cmd =>
    cases c with
    | go =>
      simp only [perform] at h
      split at h
      · cases h
      · cases h
        rfl
    | fail => cases h; rfl
    | _ => cases h
  | select query =>
    rcases perform_select h with ⟨-, hr | ⟨hr, -⟩⟩
    · cases hr
    · cases hr
      rfl
  | flush ws =>
    rcases perform_flush h with ⟨hr, -⟩ | ⟨e', hr, -, ⟨rfl, -⟩ | rfl⟩
    · cases hr
    · cases hr
      rfl
    · cases h
      rfl
  | commit =>
    rcases perform_commit h with ⟨hr, -⟩ | ⟨hr, -, -⟩
    · cases hr
    · cases hr
      rfl
  | rollback => obtain ⟨hr, -⟩ := perform_rollback h; cases hr

/-- No failure of a store is an exception of authentication. -/
lemma authentication_of_external (e : Exc) (h : e.external = true) : e.authentication = false := by
  cases e <;> first | rfl | cases h

/-- The program raises none of the exceptions that are `bad`. -/
def Spares {α : Type} (bad : Exc → Bool) (q : Request K) (p : Proc T α) : Prop :=
  ∀ f, wp (bystander q) p (fun r _ => ∀ e, r = .error e → bad e = false) f

namespace Spares

variable {α β : Type} {bad : Exc → Bool}

/-- A value spares every exception. -/
lemma pure (a : α) : Spares bad q (pure a : Proc T α) := by
  intro f e he
  cases he

/-- An exception that is not among the bad ones. -/
lemma throw {e : Exc} (h : bad e = false) : Spares bad q (throw e : Proc T α) := by
  intro f e' he
  cases he
  exact h

/-- What follows an exception is not run. -/
lemma throw_bind {e : Exc} (h : bad e = false) {k : α → Proc T β} :
    Spares bad q (SampleAuthApi.throw e >>= k) := throw h

/-- A result that is at hand. -/
lemma ofExcept {r : Except Exc α} (h : ∀ e, r = .error e → bad e = false) :
    Spares bad q (Program.ofExcept r : Proc T α) := by
  intro f
  rw [Program.wp_ofExcept]
  exact h

/-- A call fails with an exception of its store only. -/
lemma call (hbad : ∀ e, Exc.external e = true → bad e = false) (o : Op T) :
    Spares bad q (Program.perform o) := by
  intro f
  rw [Program.wp_perform]
  refine ⟨trivial, fun s r hr e he => ?_⟩
  subst he
  obtain ⟨i, c, s', hp, -⟩ := hr
  exact hbad e (perform_external hp)

/-- Programs in sequence spare what both spare. -/
lemma bind {p : Proc T α} {k : α → Proc T β} (hp : Spares bad q p)
    (hk : ∀ a, Spares bad q (k a)) : Spares bad q (p >>= k) := by
  intro f
  rw [wp_bind]
  refine wp_mono (observer_monotone _ q) (fun r f' hr => ?_) (hp f)
  cases r with
  | ok a => exact hk a f'
  | error e =>
    intro e' he
    cases he
    exact hr e rfl

/-- `get_db` raises nothing of its own but the failure of a commit. -/
lemma getDb (hbad : ∀ e, Exc.external e = true → bad e = false) {p : Proc T α}
    (hp : Spares bad q p) : Spares bad q (getDb p) := by
  intro f
  unfold SampleAuthApi.getDb
  rw [wp_tryCatch]
  have hcommit : Spares bad q (p >>= fun a => do
      Program.perform Op.commit
      return a) := bind hp fun a => bind (call hbad Op.commit) fun _ => pure a
  refine wp_mono (observer_monotone _ q) (fun r f' hr => ?_) (hcommit f)
  cases r with
  | ok a =>
    intro e he
    cases he
  | error e => exact bind (call hbad Op.rollback) (fun _ => throw (hr e rfl)) f'

/-- `delete_refresh_token` raises exceptions of Redis only. -/
lemma deleteRefreshToken (hbad : ∀ e, Exc.external e = true → bad e = false) (u : Uuid)
    (d : String) : Spares bad q (TokenStore.deleteRefreshToken (T := T) u d) :=
  bind (call hbad _) fun _ => call hbad _

/-- `deactivate_device` raises exceptions of the database only. -/
lemma deactivateDevice (hbad : ∀ e, Exc.external e = true → bad e = false) (u : Uuid)
    (d : String) : Spares bad q (UserDeviceRepository.deactivateDevice (T := T) u d) := by
  refine bind (call hbad _) fun row => ?_
  cases row with
  | none => exact pure false
  | some device =>
    exact bind (call hbad _) fun t => bind (call hbad _) fun _ => pure true

/-- `force_logout_device` turns nobody away. -/
lemma forceLogoutDevice (u : Uuid) (target current : String) :
    Spares Exc.authentication q (DeviceService.forceLogoutDevice (T := T) u target current) := by
  have hbad := authentication_of_external
  unfold DeviceService.forceLogoutDevice
  by_cases hself : target = current
  · simp only [hself, if_true]
    exact throw_bind rfl
  · simp only [hself, if_false]
    refine bind (call hbad _) fun row => ?_
    cases row with
    | none => exact throw rfl
    | some device =>
      cases hactive : device.isActive with
      | false =>
        simp only [hactive, Bool.not_false, if_true]
        exact throw_bind rfl
      | true =>
        simp only [hactive, Bool.not_true, Bool.false_eq_true, if_false]
        exact bind (deleteRefreshToken hbad _ _) fun _ =>
          bind (deactivateDevice hbad _ _) fun _ => pure ()

end Spares

/-! ## Forced logouts -/

/-- A forced logout that is turned away has been turned away for a reason. -/
def Explained (x : Externals K) (q : Request K) (r : Except Exc (Response T K)) (f : Progress T) :
    Prop :=
  ∀ tok dev target, q = .forceLogoutDevice tok dev target → ∀ e, r = .error e →
    e.authentication = true → f.failed = true ∨ TurnedAway x q f

/-- Every endpoint keeps its contract, and a forced logout is turned away for a reason. -/
lemma endpoint_explained (x : Externals K) (q : Request K) :
    wp (onlooker x q) (endpoint x q)
      (fun r f => Ends x q r f ∧ Explained x q r f) ({} : Progress T) := by
  have hends := endpoint_conforms (T := T) x q
  have hvacuous : (∀ tok dev target, q ≠ .forceLogoutDevice tok dev target) →
      wp (onlooker x q) (endpoint x q)
        (fun r f => Ends x q r f ∧ Explained x q r f) ({} : Progress T) := by
    intro hq
    refine wp_mono (observer_monotone _ q) (fun r f hr => ⟨hr, ?_⟩) hends
    intro tok dev target heq
    exact absurd heq (hq tok dev target)
  cases q with
  | forceLogoutDevice tok dev target =>
    have hturned : wp (bystander (.forceLogoutDevice tok dev target))
        (endpoint x (.forceLogoutDevice tok dev target)) (fun r f => ∀ e, r = .error e →
          e.authentication = true → f.failed = true ∨
            TurnedAway x (.forceLogoutDevice tok dev target) f) ({} : Progress T) := by
      change wp _ (getCurrentUser x tok dev >>= _) _ _
      rw [wp_bind]
      refine wp_mono (observer_monotone _ _) (fun r f hr => ?_)
        (wp_getCurrentUser_turnedAway (x := x) rfl)
      cases r with
      | error e =>
        intro e' he _
        cases he
        exact hr e rfl
      | ok user =>
        have hbody : Spares Exc.authentication (.forceLogoutDevice tok dev target) (getDb (do
            DeviceService.forceLogoutDevice (T := T) user.userId target user.deviceId
            pure (Response.message (T := T) (K := K)))) :=
          Spares.getDb authentication_of_external (Spares.bind (Spares.forceLogoutDevice _ _ _)
            fun _ => Spares.pure _)
        refine wp_mono (observer_monotone _ _) (fun r f hspared e he hauth => ?_) (hbody f)
        rw [hspared e he] at hauth
        cases hauth
    refine wp_mono (observer_monotone _ _) (fun r f hr => ⟨hr.1, ?_⟩)
      (wp_watch_and _ _ _ hends hturned)
    intro tok' dev' target' heq
    exact hr.2
  | _ => exact hvacuous fun _ _ _ heq => by cases heq

variable [DecidableEq K] {w w' : World T K}

/-- The requests keep the contract, and forced logouts are turned away for reasons. -/
abbrev Accountable (x : Externals K) (w : World T K) : Prop :=
  Kept (MayCall x) (fun q r f => Ends x q r f ∧ Explained x q r f) w

/-- A further contract that every endpoint keeps is kept in every run. -/
theorem kept_and_of_reach {P : Request K → Except Exc (Response T K) → Progress T → Prop}
    (hP : ∀ q, wp (onlooker x q) (endpoint x q) (fun r f => Ends x q r f ∧ P q r f)
      ({} : Progress T)) {C : World T K → Event (Request K) (Choice T) → Prop} {now : T}
    {db : Database T} {drawn : List Uuid}
    (h : Reach (server x) C (Pool.initial (Stores.initial now db drawn)) w) :
    Kept (MayCall x) (fun q r f => Ends x q r f ∧ P q r f) w := by
  refine h.induct (I := Kept (MayCall x) (fun q r f => Ends x q r f ∧ P q r f))
    (kept_initial now db drawn) fun v e v' _ hv _ he => ?_
  refine Kept.exec hP (fun q r f hends => ?_) hv he
  cases r with
  | ok resp => exact hends.1.1
  | error err => exact hends.1.1

/-- In every reachable state the requests are accountable. -/
theorem Accountable.reach {C : World T K → Event (Request K) (Choice T) → Prop} {now : T}
    {db : Database T} {drawn : List Uuid}
    (h : Reach (server x) C (Pool.initial (Stores.initial now db drawn)) w) : Accountable x w :=
  kept_and_of_reach (endpoint_explained x) h

/-! ## Requests that are served alone -/

omit [DecidableEq K] in
/-- A forced logout sends nothing before it has tested the blacklist. -/
lemma forceLogout_sent {target : String} {f : Progress T} {cmd : RedisCmd}
    (hmay : MaySend x (.forceLogoutDevice tok dev target) f cmd) (hw : cmd.writes = true)
    (hchecked : f.checked = none) : f.sent ≠ [] := by
  have hopens : ∀ u d, ¬ Opens x (.forceLogoutDevice tok dev target) f u d := by
    rintro u d (⟨_, _, _, _, _, hq, -⟩ | ⟨c, ⟨⟨⟨_, _, hq, -⟩, -⟩, -⟩, -⟩)
    · cases hq
    · cases hq
  have hdeletes : ∀ u d, ¬ Deletes x (.forceLogoutDevice tok dev target) f u d := by
    rintro u d (⟨_, _, _, hq, -⟩ | ⟨_, _, c, -, hauth, -⟩ | ⟨c, ⟨⟨_, _, hq, -⟩, -⟩, -⟩)
    · cases hq
    · obtain ⟨-, -, -, -, -, -, ⟨s, hs, -⟩, -⟩ := hauth
      rw [hchecked] at hs
      cases hs
    · cases hq
  cases cmd with
  | setex k n v =>
    cases k with
    | refresh u d => exact absurd hmay.2.1 (hopens u d)
    | blacklist j => exact absurd hmay.2.1 (by simp [Request.signsOut])
    | devices u => exact hmay.elim
  | del ks =>
    rcases hmay with ⟨u, d, -, hdel⟩ | ⟨u, ds, -, -, hsweep⟩
    · exact absurd hdel (hdeletes u d)
    · exact absurd hsweep.1 (by simp [Request.sweeps])
  | sadd k m =>
    obtain ⟨u, t, n, v, -, -, hopen⟩ := hmay
    exact absurd hopen (hopens u m)
  | srem k m =>
    obtain ⟨u, t, rest, -, hsent, -⟩ := hmay
    rw [hsent]
    exact List.cons_ne_nil _ _
  | _ => cases hw

omit [DecidableEq K] in
/-- A key that is not blacklisted is not blacklisted later either, while Redis is left alone. -/
lemma blacklisted_of_later {s s' : Stores T} {c : Claims} (hredis : s'.redis = s.redis)
    (hnow : s.now ≤ s'.now) (h : s.blacklisted c = false) : s'.blacklisted c = false := by
  have hblack : ∀ s : Stores T, s.blacklisted c =
      ((s.redis.lookup s.now (.blacklist c.jti)).isSome ||
        decide (s.redis.sets (.blacklist c.jti) ≠ ∅)) := fun _ => rfl
  rw [hblack, Bool.or_eq_false_iff] at h ⊢
  rw [hredis]
  refine ⟨?_, h.2⟩
  cases hl : s.redis.lookup s'.now (.blacklist c.jti) with
  | none => rfl
  | some v =>
    have hearlier := Redis.Store.lookup_anti hl hnow
    rw [hearlier] at h
    cases h.1

omit [DecidableEq K] in
/-- Claims that are valid stay valid until they expire. -/
lemma validateClaims_of_later {c : Claims} {t t' : T} {iss : String} {aud : Option String}
    (h : validateClaims c t iss aud = .ok c) (hle : t ≤ t') (hexp : t' < c.exp) :
    validateClaims c t' iss aud = .ok c := by
  unfold validateClaims at h ⊢
  split at h
  · cases h
  · rename_i hiat
    rw [if_neg (fun hlt => hiat (hle.trans_lt hlt))]
    split at h
    · cases h
    · rename_i hexp'
      rw [if_neg (not_le.mpr hexp)]
      exact h

/-- A token that verifies can only be presented when it was handed out. -/
lemma issued_of_served {C : World T K → Event (Request K) (Choice T) → Prop} {y : Reply T K}
    {c : Claims} (h : ServedAlone (server x) C w y w') (htok : y.request.token? = some tok)
    (hver : x.jwt.verify tok = some c) : tok ∈ issued w.log := by
  obtain ⟨-, v, v', hstart, -⟩ := h
  rcases exec_cases hstart with ⟨q', he, hadm, -⟩ | ⟨_, _, _, _, _, _, _, _, he, -⟩ |
    ⟨_, _, _, he, -⟩ | ⟨_, _, he, -⟩
  · cases he
    have hadmits : admits x w.log y.request = true := hadm
    rw [admits, htok] at hadmits
    simpa [hver] using hadmits
  all_goals cases he

/-- A forced logout with an access token that is let in when the request arrives, and does not
expire before it is answered, is not turned away. -/
theorem Accountable.admitted (hacc : Accountable x w') (hinv : Invariant x w) {y : Reply T K}
    (hy : ServedAlone (server x) Smooth w y w') {target : String} {c : Claims}
    (hq : y.request = .forceLogoutDevice tok dev target) (hver : x.jwt.verify tok = some c)
    (hauth : (authenticate x w.shared tok dev).isOk = true) (hexp : w'.shared.now < (c.exp : T))
    {e : Exc} (hres : y.result = .error e) : e.authentication = false := by
  have hserved := hinv.sound.served (fun _ _ he => he.2) hy
  have hfailed := hinv.sound.served_reliable (fun _ _ he => he.1) hy
  have htok : tok ∈ issued w.log := issued_of_served hy (by rw [hq]; rfl) hver
  -- what the token was when the request arrived
  obtain ⟨htype, hdev, hvalid, hblack⟩ : c.type = .access ∧ c.deviceId = dev ∧
      validateClaims c w.shared.now x.settings.jwtIssuer (some x.settings.jwtAudience) = .ok c ∧
      w.shared.blacklisted c = false := by
    cases hok : authenticate x w.shared tok dev with
    | error err =>
      rw [hok] at hauth
      cases hauth
    | ok user =>
      obtain ⟨c', hver', htype, hdev, -⟩ := returns_getCurrentUser (Program.returns_of_eval hok)
      rw [hver, Option.some.injEq] at hver'
      subst hver'
      obtain ⟨z, -, resp, email, name, t, r, -, -, -, -, -, hc⟩ :=
        hinv.access_claims htok hver htype
      have hemail : c.email = some email := by
        rw [hc]
        rfl
      have hname : c.name = some name := by
        rw [hc]
        rfl
      obtain ⟨-, hvalid, hblack⟩ :=
        (authenticate_eq_ok hver htype hemail hname).mp ⟨user, hok⟩
      exact ⟨htype, hdev, hvalid, hblack⟩
  -- what the request has read of the blacklist
  have htested := (hinv.sound.alone (P := fun f => (f.checked = none → f.sent = []) ∧
      ∀ s, f.checked = some s → s.redis = w.shared.redis ∧ w.shared.now ≤ s.now)
    (fun _ _ he => he.2) hy.2 ⟨fun _ => rfl, fun s hs => by cases hs⟩ ?_).2.1
  · by_contra haway
    rw [Bool.not_eq_false] at haway
    have hexplained := (hacc.conforms.log y (by rw [hserved.log]; simp)).2 tok dev target hq e hres
      haway
    have hturned : TurnedAway x y.request (progress y.performed) := by
      refine hexplained.resolve_left fun hfail => ?_
      change (progress y.performed).failed = true at hfail
      rw [hfailed] at hfail
      cases hfail
    obtain ⟨tok', dev', hb, hreasons⟩ := hturned
    rw [hq] at hb
    cases hb
    obtain ⟨z, -, resp, email, name, t, r, -, -, -, -, -, hc⟩ := hinv.access_claims htok hver htype
    rcases hreasons c hver with h | h | h | h | ⟨t', ht', h⟩ | ⟨s, hs, h⟩
    · exact h htype
    · exact h hdev
    · rw [hc] at h
      cases h
    · rw [hc] at h
      cases h
    · obtain ⟨hle, hle'⟩ := hserved.trail.readings t' ht'
      exact h (validateClaims_of_later hvalid hle (hle'.trans_lt hexp))
    · obtain ⟨hredis, hnow⟩ := htested.2 s hs
      rw [blacklisted_of_later hredis hnow hblack] at h
      cases h
  · intro v v' ch f f' o hC htrail hmay heff hP
    rw [hq] at hmay
    refine ⟨fun hnone => ?_, fun s hs => ?_⟩
    · have hbefore : f.checked = none := by
        rcases heff.checked with hsame | ⟨k, -, -, rfl⟩
        · rw [← hsame]
          exact hnone
        · cases hnone
      rcases heff.sent with ⟨hsame, -⟩ | ⟨cmd, rfl, -, hw, -, rfl, -⟩
      · rw [hsame]
        exact hP.1 hbefore
      · exact absurd (hP.1 hbefore) (forceLogout_sent hmay hw hbefore)
    · rcases heff.checked with hsame | ⟨k, rfl, -, rfl⟩
      · exact hP.2 s (hsame ▸ hs)
      · cases hs
        refine ⟨?_, htrail.now⟩
        rw [htrail.redis, hP.1 hmay]
        rfl

end Reasons

end SampleAuthApi
