import SampleAuthApi.Sessions.Current

/-!
# Access tokens and the blacklist

`authenticate` is `get_current_user` carried out at one instant.  An access token that was handed
out is rejected exactly when it has expired or its `jti` is blacklisted
(`Invariant.rejects_iff`), and only a `SETEX` of a logout or a logout from all devices that presents
the very token writes the entry (`Change.blacklist`).
-/

namespace SampleAuthApi

open Pool

variable {T K : Type} [Instant T]

/-! ## Authentication at one instant -/

/-- The answers of the stores to calls that only read. -/
def Stores.answers (s : Stores T) : (o : Op T) → Except Exc o.Reply
  | .now => .ok s.now
  | .redis c => .ok (s.redis.answer s.now c)
  | .select q => .ok (s.db.committed.select q)
  | _ => .error .unavailable

/-- `get_current_user` in the state `s`. -/
def authenticate (x : Externals K) (s : Stores T) (tok : K) (xDeviceId : String) :
    Except Exc (CurrentUser T) :=
  (getCurrentUser x tok xDeviceId).eval s.answers

/-- `get_current_user` rejects the token in the state `s`, whatever the `X-Device-Id`. -/
def Rejects (x : Externals K) (s : Stores T) (tok : K) : Prop :=
  ∀ xDeviceId user, authenticate x s tok xDeviceId ≠ .ok user

variable {x : Externals K} {s : Stores T} {tok : K} {c : Claims}

/-- A token that is let in is not rejected. -/
lemma not_rejects_of_isOk {xDeviceId : String}
    (h : (authenticate x s tok xDeviceId).isOk = true) : ¬ Rejects x s tok := by
  intro hrej
  cases hauth : authenticate x s tok xDeviceId with
  | ok user => exact hrej _ _ hauth
  | error e =>
    rw [hauth] at h
    cases h

/-- What decoding an access token answers in a given state. -/
lemma eval_decodeAccessToken (hver : x.jwt.verify tok = some c) :
    (JwtService.decodeAccessToken x tok).eval s.answers =
      match validateClaims c s.now x.settings.jwtIssuer (some x.settings.jwtAudience) with
      | .error .expiredSignature => .error .tokenExpired
      | .error .invalidToken => .error .invalidToken
      | .ok payload =>
        if payload.type ≠ .access then .error .invalidToken
        else match payload.email, payload.name with
          | some email, some name =>
            .ok ⟨payload.sub, email, name, payload.deviceId, payload.jti, payload.exp,
              payload.iat⟩
          | _, _ => .error .keyMissing := by
  have hdecode : (jwtDecode x tok (some x.settings.jwtAudience)).eval s.answers =
      .ok (validateClaims c s.now x.settings.jwtIssuer (some x.settings.jwtAudience)) := by
    simp only [jwtDecode, hver]
    rfl
  unfold JwtService.decodeAccessToken
  rw [Program.eval_bind, hdecode]
  cases validateClaims c s.now x.settings.jwtIssuer (some x.settings.jwtAudience) with
  | error e => cases e <;> rfl
  | ok payload =>
    by_cases htype : payload.type = .access
    · cases he : payload.email with
      | none => simp [htype, he, throw]
      | some email =>
        cases hn : payload.name with
        | none => simp [htype, he, hn, throw]
        | some name => simp [htype, he, hn]
    · simp [htype, throw]

/-- A genuine access token is let in exactly when it is presented by its own device, valid and not
blacklisted. -/
theorem authenticate_eq_ok {xDeviceId email name : String} (hver : x.jwt.verify tok = some c)
    (htype : c.type = .access) (hemail : c.email = some email) (hname : c.name = some name) :
    (∃ user, authenticate x s tok xDeviceId = .ok user) ↔ c.deviceId = xDeviceId ∧
      validateClaims c s.now x.settings.jwtIssuer (some x.settings.jwtAudience) = .ok c ∧
        s.blacklisted c = false := by
  unfold authenticate getCurrentUser
  rw [Program.eval_bind, eval_decodeAccessToken hver]
  cases hval : validateClaims c s.now x.settings.jwtIssuer (some x.settings.jwtAudience) with
  | error e => cases e <;> simp
  | ok payload =>
    cases validateClaims_ok hval
    have htest : (TokenStore.isTokenBlacklisted c.jti).eval s.answers = .ok (s.blacklisted c) := rfl
    by_cases hdev : c.deviceId = xDeviceId
    · cases hblack : s.blacklisted c <;>
        simp [htype, hemail, hname, hdev, htest, hblack, throw]
    · simp [htype, hemail, hname, hdev, throw]

/-- An access token with all its claims is rejected when its claims are not valid or it is in the
blacklist. -/
lemma rejects_of_claims (email name : String) (hver : x.jwt.verify tok = some c)
    (htype : c.type = .access) (hemail : c.email = some email) (hname : c.name = some name) :
    Rejects x s tok ↔ ¬ (validateClaims c s.now x.settings.jwtIssuer
      (some x.settings.jwtAudience) = .ok c ∧ s.blacklisted c = false) := by
  constructor
  · intro h hc
    obtain ⟨user, huser⟩ := (authenticate_eq_ok hver htype hemail hname).mpr ⟨rfl, hc⟩
    exact h c.deviceId user huser
  · intro h dev user huser
    exact h ((authenticate_eq_ok hver htype hemail hname).mp ⟨user, huser⟩).2

/-! ## Tokens that were handed out -/

variable [DecidableEq K] {w w' : World T K} {e : Event (Request K) (Choice T)}

omit [DecidableEq K] in
/-- An access token that was handed out is rejected exactly when it has expired or is
blacklisted. -/
theorem Invariant.rejects_iff (hw : Invariant x w) (htok : tok ∈ issued w.log)
    (hver : x.jwt.verify tok = some c) (htype : c.type = .access) :
    Rejects x w.shared tok ↔ (c.exp : T) ≤ w.shared.now ∨ w.shared.blacklisted c = true := by
  obtain ⟨y, hy, resp, email, name, t, r, -, -, -, -, ht, hc⟩ := hw.access_claims htok hver htype
  have hiat : ¬ w.shared.now < (c.iat : T) := by
    have hle : (c.iat : T) ≤ t := by
      rw [hc]
      exact Int.floor_le t
    exact not_lt.mpr (hle.trans (hw.dated.logged y hy t ht))
  have hiss : c.iss = x.settings.jwtIssuer := by rw [hc]; rfl
  have haud : c.aud = some x.settings.jwtAudience := by rw [hc]; rfl
  have hvalid : validateClaims c w.shared.now x.settings.jwtIssuer (some x.settings.jwtAudience) =
      .ok c ↔ w.shared.now < (c.exp : T) := by
    by_cases hexp : (c.exp : T) ≤ w.shared.now
    · simp [validateClaims, hiat, hexp]
    · simp [validateClaims, hiat, hexp, hiss, haud, not_le.mp hexp]
  rw [rejects_of_claims email name hver htype (by rw [hc]; rfl) (by rw [hc]; rfl), hvalid,
    not_and_or, not_lt, Bool.not_eq_false]

/-! ## The blacklist -/

/-- No set is kept under the name of a blacklist entry. -/
def NoSets (w : World T K) : Prop := ∀ j, w.shared.redis.sets (.blacklist j) = ∅

omit [DecidableEq K] in
/-- A token is in the blacklist until its entry expires. -/
lemma blacklisted_iff (hw : NoSets w) :
    w.shared.blacklisted c = true ↔
      ∃ v t, w.shared.redis.strings (.blacklist c.jti) = some (v, t) ∧ w.shared.now < t := by
  have hblack : w.shared.blacklisted c =
      ((w.shared.redis.lookup w.shared.now (.blacklist c.jti)).isSome ||
        decide (w.shared.redis.sets (.blacklist c.jti) ≠ ∅)) := rfl
  rw [hblack, hw c.jti]
  simp only [ne_eq, not_true_eq_false, decide_false, Bool.or_false, Option.isSome_iff_exists,
    Redis.Store.lookup_eq_some]

omit [DecidableEq K] in
/-- There is no live entry for a token that is not in the blacklist. -/
lemma lookup_of_not_blacklisted (h : s.blacklisted c = false) :
    s.redis.lookup s.now (.blacklist c.jti) = none := by
  have hblack : s.blacklisted c = ((s.redis.lookup s.now (.blacklist c.jti)).isSome ||
      decide (s.redis.sets (.blacklist c.jti) ≠ ∅)) := rfl
  rw [hblack, Bool.or_eq_false_iff, Option.isSome_eq_false_iff, Option.isNone_iff_eq_none] at h
  exact h.1

/-- No endpoint keeps a set under a key of the blacklist. -/
lemma NoSets.change (hw : NoSets w) (h : Change x w e w') : NoSets w' := by
  intro j
  have hj := hw j
  cases h with
  | start q _ hadm hshared => rwa [hshared]
  | step i ch q f f' o _ hnext hmay heff =>
    rcases heff.sent with ⟨-, hredis⟩ | ⟨cmd, rfl, -, -, -, -, hs⟩
    · rwa [hredis]
    · rw [hs]
      cases cmd with
      | sadd k m =>
        obtain ⟨u, t, n, v, rfl, -⟩ := hmay
        simpa [Redis.Store.sets_sadd] using hj
      | srem k m =>
        obtain ⟨u, t, rest, rfl, -⟩ := hmay
        simpa [Redis.Store.sets_srem] using hj
      | del ks =>
        simp only [Redis.Store.sets_del]
        split
        · rfl
        · exact hj
      | _ => exact hj
  | respond i y _ hserved hends hshared => rwa [hshared]
  | env ch _ hdrift =>
    obtain ⟨hredis, -, -⟩ := drift_frame hdrift
    rwa [hredis]

/-- No set is kept under the name of a blacklist entry in any run. -/
lemma NoSets.reach {C : World T K → Event (Request K) (Choice T) → Prop} (hw : Invariant x w)
    (hs : NoSets w) (h : Reach (server x) C w w') : NoSets w' :=
  (h.induct (I := fun v => Invariant x v ∧ NoSets v) ⟨hw, hs⟩
    fun _ _ _ _ hv _ hex => ⟨hv.1.exec hex, hv.2.change (hv.1.sound.change hex)⟩).2

/-- A blacklist entry is only written by a logout or a logout from all devices, for the token that
let it in, and it is never deleted. -/
theorem Change.blacklist (h : Change x w e w') (j : Uuid) :
    w'.shared.redis.strings (.blacklist j) = w.shared.redis.strings (.blacklist j) ∨
    ∃ i q f n v c, e = .step i .go ∧ NextCall w i q f (.redis (.setex (.blacklist j) n v)) ∧
      q.signsOut = true ∧ Authorised x q f c ∧ c.jti = j ∧ f.sent = [] ∧ 0 < n ∧
      (∃ t ∈ f.readings, n = Instant.truncInt ((c.exp : T) - t)) ∧
      w'.shared.redis.strings (.blacklist j) = some (v, w.shared.now + n) ∧
      serving w' i = some (q, { f with sent := [(w.shared.now, .setex (.blacklist j) n v)] }) := by
  cases h with
  | start q _ hadm hshared => exact .inl (by rw [hshared])
  | step i ch q f f' o _ hnext hmay heff hlog hslots hserve =>
    rcases heff.sent with ⟨-, hredis⟩ | ⟨cmd, rfl, rfl, -, hvalid, rfl, hs⟩
    · exact .inl (by rw [hredis])
    · rw [hs]
      cases cmd with
      | setex k n v =>
        by_cases hk : k = .blacklist j
        · subst hk
          obtain ⟨hsent, hsign, c, hauth, hj, ht⟩ := hmay
          refine .inr ⟨i, q, f, n, v, c, rfl, hnext, hsign, hauth, hj.symm, hsent,
            by simpa [Redis.Cmd.isValid] using hvalid, ht, ?_, ?_⟩
          · simp [Redis.Store.strings_setex]
          · rw [hserve, if_pos rfl, hsent]
        · exact .inl (by simp [Redis.Store.strings_setex, Ne.symm hk])
      | del ks =>
        refine .inl ?_
        rcases hmay with ⟨u, d, rfl, -⟩ | ⟨u, ds, rfl, -⟩
        · simp [Redis.Store.strings_del]
        · simp [Redis.Store.strings_del]
      | _ => exact .inl rfl
  | respond i y _ hserved hends hshared => exact .inl (by rw [hshared])
  | env ch _ hdrift =>
    obtain ⟨hredis, -, -⟩ := drift_frame hdrift
    exact .inl (by rw [hredis])

omit [DecidableEq K] in
/-- The access token that let a request in is known by its `jti`. -/
lemma Invariant.authorised_eq (hw : Invariant x w) {q : Request K} {f : Progress T} {c' : Claims}
    (hp : Party w q f) (hauth : Authorised x q f c') (htok : tok ∈ issued w.log)
    (hver : x.jwt.verify tok = some c) (htype : c.type = .access) (hj : c'.jti = c.jti) :
    c' = c := by
  obtain ⟨tok', htok', hver'⟩ := hw.issued_of_bears hp hauth.bears
  obtain ⟨-, -, -, -, htype', -⟩ := hauth
  exact (hw.access_unique htok' htok hver' hver htype' htype hj).2

end SampleAuthApi
