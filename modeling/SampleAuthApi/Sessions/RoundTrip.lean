import SampleAuthApi.Model.Payloads

/-!
# Token round trip

A token decodes to the claims it was issued with from its issue to its truncated expiry
(`token_round_trip`), and neither decoder accepts a token of the other kind, at any time.  The
claims that `jwt.encode` writes are read back key by key; `validateClaims_of_time` says what the
checks of `jwt.decode` make of them at each instant.
-/

namespace SampleAuthApi

namespace Payload

variable {T K : Type} [Instant T]

/-- An environment whose clock shows `t` and whose next `uuid4` value is `u`. -/
def clockAt (t : T) (u : Uuid) : (o : Op T) → Except Exc o.Reply
  | .now => .ok t
  | .uuid4 => .ok u
  | _ => .error .unavailable

section Reading

variable (s : Settings) (userId email name deviceId jti : PyString) (now : T)

/-- The keys of an access token, read back. -/
theorem access_items :
    let c := encode (accessPayload s userId email name deviceId jti now)
    str? c "iss" = some (.ofString s.jwtIssuer) ∧ str? c "sub" = some userId ∧
      str? c "aud" = some (.ofString s.jwtAudience) ∧ int? c "iat" = some ⌊now⌋ ∧
      int? c "exp" = some ⌊now + s.jwtAccessTokenExpireSeconds⌋ ∧ str? c "jti" = some jti ∧
      str? c "type" = some (.ofString "access") ∧ str? c "device_id" = some deviceId ∧
      str? c "email" = some email ∧ str? c "name" = some name :=
  ⟨rfl, rfl, rfl, rfl, rfl, rfl, rfl, rfl, rfl, rfl⟩

/-- The keys of a refresh token, read back; it has no audience. -/
theorem refresh_items :
    let c := encode (refreshPayload s userId deviceId jti now)
    str? c "iss" = some (.ofString s.jwtIssuer) ∧ str? c "sub" = some userId ∧
      str? c "aud" = none ∧ int? c "iat" = some ⌊now⌋ ∧
      int? c "exp" = some ⌊now + s.jwtRefreshTokenExpireSeconds⌋ ∧ str? c "jti" = some jti ∧
      str? c "type" = some (.ofString "refresh") ∧ str? c "device_id" = some deviceId :=
  ⟨rfl, rfl, rfl, rfl, rfl, rfl, rfl, rfl⟩

end Reading

/-- What the checks of `jwt.decode` make of claims with these times and this issuer. -/
theorem validateClaims_of_time {c : ClaimSet} {iat exp : ℤ} {issuer : String}
    (hiat : int? c "iat" = some iat) (hexp : int? c "exp" = some exp)
    (hiss : str? c "iss" = some (.ofString issuer)) (now : T) (audience : Option String) :
    validateClaims c now issuer audience =
      if now < (iat : T) then .error .invalidToken
      else if (exp : T) ≤ now then .error .expiredSignature
      else validateAud c audience := by
  unfold validateClaims
  rw [hiat, hexp, hiss]
  simp only [Option.any_some, decide_eq_true_eq, ne_eq, not_true_eq_false, if_false]

/-- No audience is asked for. -/
theorem validateAud_none (c : ClaimSet) : validateAud c none = .ok c := rfl

/-- The audience that is asked for is accepted. -/
theorem validateAud_of_eq {c : ClaimSet} {a : String}
    (h : str? c "aud" = some (.ofString a)) : validateAud c (some a) = .ok c := if_pos h

/-- An audience is asked for, and the token has none. -/
theorem validateAud_of_missing {c : ClaimSet} (h : str? c "aud" = none) (a : String) :
    validateAud c (some a) = .error .invalidToken := by
  refine if_neg ?_
  rw [h]
  exact nofun

/-- A decoder reads the clock once, after the signature. -/
theorem eval_jwtDecode (x : Issuer K) (c : ClaimSet) (audience : Option String) (now : T)
    (u : Uuid) :
    (jwtDecode x (x.jwt.sign c) audience).eval (clockAt now u) =
      .ok (validateClaims c now x.settings.jwtIssuer audience) := by
  unfold jwtDecode
  rw [x.jwt.verify_sign]
  rfl

section Decoding

variable (x : Issuer K) (userId email name deviceId jti : PyString) (t₀ now : T) (u : Uuid)

/-- The token of `create_access_token` at the instant `t₀`. -/
def accessToken : K :=
  x.jwt.sign (encode (accessPayload x.settings userId email name deviceId jti t₀))

/-- The token of `create_refresh_token` at the instant `t₀`. -/
def refreshToken : K :=
  x.jwt.sign (encode (refreshPayload x.settings userId deviceId jti t₀))

/-- What `create_access_token` returns at a given time. -/
theorem eval_createAccessToken :
    (createAccessToken x userId email name deviceId).eval (clockAt t₀ u) =
      .ok (accessToken x userId email name deviceId (.ofString u.val) t₀, .ofString u.val,
        t₀ + x.settings.jwtAccessTokenExpireSeconds) := rfl

/-- What `create_refresh_token` returns at a given time. -/
theorem eval_createRefreshToken :
    (createRefreshToken x userId deviceId).eval (clockAt t₀ u) =
      .ok (refreshToken x userId deviceId (.ofString u.val) t₀, .ofString u.val,
        t₀ + x.settings.jwtRefreshTokenExpireSeconds) := rfl

/-- `decode_access_token` of an access token, at any time. -/
theorem eval_decode_access :
    (decodeAccessToken x (accessToken x userId email name deviceId jti t₀)).eval (clockAt now u) =
      if now < (⌊t₀⌋ : T) then .error .invalidToken
      else if (⌊t₀ + x.settings.jwtAccessTokenExpireSeconds⌋ : T) ≤ now then .error .tokenExpired
      else .ok ⟨userId, email, name, deviceId, jti,
        ⌊t₀ + x.settings.jwtAccessTokenExpireSeconds⌋, ⌊t₀⌋⟩ := by
  obtain ⟨hiss, hsub, haud, hiat, hexp, hjti, htype, hdevice, hemail, hname⟩ :=
    access_items x.settings userId email name deviceId jti t₀
  unfold decodeAccessToken accessToken
  rw [Program.eval_bind, eval_jwtDecode, validateClaims_of_time hiat hexp hiss,
    validateAud_of_eq haud, Program.ok_bind]
  by_cases hearly : now < (⌊t₀⌋ : T)
  · simp only [if_pos hearly]
    rfl
  · simp only [if_neg hearly]
    by_cases hlate : (⌊t₀ + x.settings.jwtAccessTokenExpireSeconds⌋ : T) ≤ now
    · simp only [if_pos hlate]
      rfl
    · simp only [if_neg hlate, htype, hsub, hemail, hname, hdevice, hjti, hexp, hiat]
      rfl

/-- `decode_refresh_token` of a refresh token, at any time. -/
theorem eval_decode_refresh :
    (decodeRefreshToken x (refreshToken x userId deviceId jti t₀)).eval (clockAt now u) =
      if now < (⌊t₀⌋ : T) then .error .invalidRefreshToken
      else if (⌊t₀ + x.settings.jwtRefreshTokenExpireSeconds⌋ : T) ≤ now then
        .error .sessionExpired
      else .ok ⟨userId, deviceId, jti, ⌊t₀ + x.settings.jwtRefreshTokenExpireSeconds⌋, ⌊t₀⌋⟩ := by
  obtain ⟨hiss, hsub, -, hiat, hexp, hjti, htype, hdevice⟩ :=
    refresh_items x.settings userId deviceId jti t₀
  unfold decodeRefreshToken refreshToken
  rw [Program.eval_bind, eval_jwtDecode, validateClaims_of_time hiat hexp hiss,
    validateAud_none, Program.ok_bind]
  by_cases hearly : now < (⌊t₀⌋ : T)
  · simp only [if_pos hearly]
    rfl
  · simp only [if_neg hearly]
    by_cases hlate : (⌊t₀ + x.settings.jwtRefreshTokenExpireSeconds⌋ : T) ≤ now
    · simp only [if_pos hlate]
      rfl
    · simp only [if_neg hlate, htype, hsub, hdevice, hjti, hexp, hiat]
      rfl

/-- `decode_access_token` of a refresh token: the missing audience is refused. -/
theorem eval_decode_access_of_refresh :
    (decodeAccessToken x (refreshToken x userId deviceId jti t₀)).eval (clockAt now u) =
      if ¬ now < (⌊t₀⌋ : T) ∧ (⌊t₀ + x.settings.jwtRefreshTokenExpireSeconds⌋ : T) ≤ now then
        .error .tokenExpired
      else .error .invalidToken := by
  obtain ⟨hiss, -, haud, hiat, hexp, -⟩ := refresh_items x.settings userId deviceId jti t₀
  unfold decodeAccessToken refreshToken
  rw [Program.eval_bind, eval_jwtDecode, validateClaims_of_time hiat hexp hiss,
    validateAud_of_missing haud, Program.ok_bind]
  by_cases hearly : now < (⌊t₀⌋ : T)
  · rw [if_pos hearly, if_neg (fun h => h.1 hearly)]
    rfl
  · rw [if_neg hearly]
    by_cases hlate : (⌊t₀ + x.settings.jwtRefreshTokenExpireSeconds⌋ : T) ≤ now
    · rw [if_pos hlate, if_pos ⟨hearly, hlate⟩]
      rfl
    · rw [if_neg hlate, if_neg (fun h => hlate h.2)]
      rfl

/-- `decode_refresh_token` of an access token: the `type` claim is refused. -/
theorem eval_decode_refresh_of_access :
    (decodeRefreshToken x (accessToken x userId email name deviceId jti t₀)).eval
        (clockAt now u) =
      if ¬ now < (⌊t₀⌋ : T) ∧ (⌊t₀ + x.settings.jwtAccessTokenExpireSeconds⌋ : T) ≤ now then
        .error .sessionExpired
      else .error .invalidRefreshToken := by
  obtain ⟨hiss, -, -, hiat, hexp, -, htype, -⟩ :=
    access_items x.settings userId email name deviceId jti t₀
  unfold decodeRefreshToken accessToken
  rw [Program.eval_bind, eval_jwtDecode, validateClaims_of_time hiat hexp hiss,
    validateAud_none, Program.ok_bind]
  by_cases hearly : now < (⌊t₀⌋ : T)
  · rw [if_pos hearly, if_neg (fun h => h.1 hearly)]
    rfl
  · rw [if_neg hearly]
    by_cases hlate : (⌊t₀ + x.settings.jwtAccessTokenExpireSeconds⌋ : T) ≤ now
    · rw [if_pos hlate, if_pos ⟨hearly, hlate⟩]
      rfl
    · rw [if_neg hlate, if_neg (fun h => hlate h.2)]
      have hne : PyString.ofString "access" ≠ PyString.ofString "refresh" := by decide
      simp only [htype, ne_eq, Option.some.injEq, hne, not_false_eq_true, if_true]
      rfl

end Decoding

/-- A lifetime of whole seconds outlasts the truncation of its end. -/
lemma lt_floor_add {t : T} {n : ℤ} (h : 0 < n) : t < (⌊t + n⌋ : T) := by
  have hfloor : t < ⌊t⌋ + 1 := Int.lt_floor_add_one t
  have hn : (1 : T) ≤ n := by exact_mod_cast h
  rw [Int.floor_add_intCast]
  push_cast
  linarith

/-- Token round trip and type separation: a created token decodes to what it was created with, its
times truncated, from its issue until its truncated expiry, and to the expiry error from then on;
each decoder refuses the tokens of the other kind at every time. -/
theorem token_round_trip (x : Issuer K) (userId email name deviceId : PyString) (t₀ : T)
    (u v : Uuid) (haccess : 0 < x.settings.jwtAccessTokenExpireSeconds)
    (hrefresh : 0 < x.settings.jwtRefreshTokenExpireSeconds) :
    ∃ access refresh accessExp refreshExp,
      (createAccessToken x userId email name deviceId).eval (clockAt t₀ u) =
        .ok (access, .ofString u.val, accessExp) ∧
      (createRefreshToken x userId deviceId).eval (clockAt t₀ v) =
        .ok (refresh, .ofString v.val, refreshExp) ∧
      t₀ < (⌊accessExp⌋ : T) ∧ t₀ < (⌊refreshExp⌋ : T) ∧
      (∀ now w, t₀ ≤ now → (decodeAccessToken x access).eval (clockAt now w) =
        if now < (⌊accessExp⌋ : T) then
          .ok ⟨userId, email, name, deviceId, .ofString u.val, ⌊accessExp⌋, ⌊t₀⌋⟩
        else .error .tokenExpired) ∧
      (∀ now w, t₀ ≤ now → (decodeRefreshToken x refresh).eval (clockAt now w) =
        if now < (⌊refreshExp⌋ : T) then
          .ok ⟨userId, deviceId, .ofString v.val, ⌊refreshExp⌋, ⌊t₀⌋⟩
        else .error .sessionExpired) ∧
      (∀ now w, (decodeAccessToken x refresh).eval (clockAt now w) =
        if (⌊t₀⌋ : T) ≤ now ∧ (⌊refreshExp⌋ : T) ≤ now then .error .tokenExpired
        else .error .invalidToken) ∧
      ∀ now w, (decodeRefreshToken x access).eval (clockAt now w) =
        if (⌊t₀⌋ : T) ≤ now ∧ (⌊accessExp⌋ : T) ≤ now then .error .sessionExpired
        else .error .invalidRefreshToken := by
  refine ⟨_, _, _, _, eval_createAccessToken x userId email name deviceId t₀ u,
    eval_createRefreshToken x userId deviceId t₀ v, lt_floor_add haccess, lt_floor_add hrefresh,
    ?_, ?_, ?_, ?_⟩
  · intro now w hnow
    have hissued : ¬ now < (⌊t₀⌋ : T) := not_lt.mpr ((Int.floor_le t₀).trans hnow)
    rw [eval_decode_access, if_neg hissued]
    simp only [← not_lt, ite_not]
  · intro now w hnow
    have hissued : ¬ now < (⌊t₀⌋ : T) := not_lt.mpr ((Int.floor_le t₀).trans hnow)
    rw [eval_decode_refresh, if_neg hissued]
    simp only [← not_lt, ite_not]
  · intro now w
    rw [eval_decode_access_of_refresh]
    simp only [not_lt]
  · intro now w
    rw [eval_decode_refresh_of_access]
    simp only [not_lt]

/-- A service whose tokens are the claims they carry, with the default settings. -/
def plainIssuer : Issuer ClaimSet where
  settings := {}
  jwt := ⟨id, some, fun _ => rfl⟩

/-- Tokens of the default settings that are made at half a second expire at 1800 seconds. -/
theorem token_round_trip_default :
    ∃ access refresh accessExp refreshExp,
      (createAccessToken plainIssuer (.ofString "u") (.ofString "a@x.io") (.ofString "Ann")
          (.ofString "phone")).eval (clockAt (1 / 2 : ℚ) ⟨"a", rfl⟩) =
        .ok (access, .ofString "a", accessExp) ∧
      (createRefreshToken plainIssuer (.ofString "u") (.ofString "phone")).eval
          (clockAt (1 / 2 : ℚ) ⟨"b", rfl⟩) = .ok (refresh, .ofString "b", refreshExp) ∧
      (decodeAccessToken plainIssuer access).eval (clockAt (1800 : ℚ) ⟨"c", rfl⟩) =
        .error .tokenExpired := by
  obtain ⟨access, refresh, accessExp, refreshExp, haccess, hrefresh, -, -, hdecode, -⟩ :=
    token_round_trip plainIssuer (.ofString "u") (.ofString "a@x.io") (.ofString "Ann")
      (.ofString "phone") (1 / 2 : ℚ) ⟨"a", rfl⟩ ⟨"b", rfl⟩ (by decide) (by decide)
  refine ⟨access, refresh, accessExp, refreshExp, haccess, hrefresh, ?_⟩
  have hexp : accessExp = 1 / 2 + ((1800 : ℤ) : ℚ) := by
    have h := haccess.symm.trans (eval_createAccessToken plainIssuer _ _ _ _ _ _)
    simp only [Except.ok.injEq, Prod.mk.injEq] at h
    exact h.2.2
  rw [hdecode 1800 ⟨"c", rfl⟩ (by norm_num), if_neg]
  rw [hexp, not_lt]
  norm_num

/-! ## The claims of `Model.Jwt` -/

/-- The name of a `type` claim. -/
def typeName : TokenType → String
  | .access => "access"
  | .refresh => "refresh"

/-- A claim that may be missing. -/
def optional (key : String) (value : Option String) : ClaimSet :=
  value.toList.map fun s => (key, .str (.ofString s))

/-- The claims of `Model.Jwt` as a dictionary. -/
def toSet (c : Claims) : ClaimSet :=
  [("iss", .str (.ofString c.iss)), ("sub", .str (.ofString c.sub.val))] ++ optional "aud" c.aud ++
    [("iat", .int c.iat), ("exp", .int c.exp), ("jti", .str (.ofString c.jti.val)),
      ("type", .str (.ofString (typeName c.type))), ("device_id", .str (.ofString c.deviceId))] ++
    optional "email" c.email ++ optional "name" c.name

/-- The service of `Model.Jwt` signs the dictionaries of its claims. -/
structure Issuer.Carries (p : Issuer K) (x : Externals K) : Prop where
  settings : p.settings = x.settings
  sign : ∀ c, x.jwt.sign c = p.jwt.sign (toSet c)

/-- The claims of a token, as the dictionary that is signed. -/
theorem toSet_items (c : Claims) :
    str? (toSet c) "iss" = some (.ofString c.iss) ∧
      str? (toSet c) "sub" = some (.ofString c.sub.val) ∧
      str? (toSet c) "aud" = c.aud.map .ofString ∧ int? (toSet c) "iat" = some c.iat ∧
      int? (toSet c) "exp" = some c.exp ∧ str? (toSet c) "jti" = some (.ofString c.jti.val) ∧
      str? (toSet c) "type" = some (.ofString (typeName c.type)) ∧
      str? (toSet c) "device_id" = some (.ofString c.deviceId) ∧
      str? (toSet c) "email" = c.email.map .ofString ∧
      str? (toSet c) "name" = c.name.map .ofString := by
  obtain ⟨iss, sub, aud, iat, exp, jti, type, deviceId, email, name⟩ := c
  cases aud <;> cases email <;> cases name <;>
    exact ⟨rfl, rfl, rfl, rfl, rfl, rfl, rfl, rfl, rfl, rfl⟩

namespace Issuer.Carries

variable {p : Issuer K} {x : Externals K}

/-- A token, its `jti` as a string and its expiry. -/
def named (r : K × Uuid × T) : K × PyString × T := (r.1, .ofString r.2.1.val, r.2.2)

/-- The payload of an access token, its ids as strings. -/
def accessNamed (r : AccessTokenPayload T) : AccessToken T :=
  ⟨.ofString r.sub.val, .ofString r.email, .ofString r.name, .ofString r.deviceId,
    .ofString r.jti.val, r.exp, r.iat⟩

/-- The payload of a refresh token, its ids as strings. -/
def refreshNamed (r : RefreshTokenPayload T) : RefreshToken T :=
  ⟨.ofString r.sub.val, .ofString r.deviceId, .ofString r.jti.val, r.exp, r.iat⟩

/-- `create_access_token` for user ids that are `uuid4` values. -/
theorem createAccessToken (h : p.Carries x) (userId : Uuid) (email name deviceId : String)
    (answers : (o : Op T) → Except Exc o.Reply) :
    ((JwtService.createAccessToken x userId email name deviceId).eval answers).map named =
      (Payload.createAccessToken p (.ofString userId.val) (.ofString email) (.ofString name)
        (.ofString deviceId)).eval answers := by
  unfold JwtService.createAccessToken Payload.createAccessToken utcnow uuid4
  simp only [Program.eval_bind, Program.eval_perform, h.sign, h.settings]
  cases answers .now with
  | error e => rfl
  | ok now => cases answers .uuid4 <;> rfl

/-- `create_refresh_token` for user ids that are `uuid4` values. -/
theorem createRefreshToken (h : p.Carries x) (userId : Uuid) (deviceId : String)
    (answers : (o : Op T) → Except Exc o.Reply) :
    ((JwtService.createRefreshToken x userId deviceId).eval answers).map named =
      (Payload.createRefreshToken p (.ofString userId.val) (.ofString deviceId)).eval answers := by
  unfold JwtService.createRefreshToken Payload.createRefreshToken utcnow uuid4
  simp only [Program.eval_bind, Program.eval_perform, h.sign, h.settings]
  cases answers .now with
  | error e => rfl
  | ok now => cases answers .uuid4 <;> rfl

/-- The checks of `jwt.decode` on the dictionary are those on the claims. -/
theorem validateClaims (c : Claims) (now : T) (issuer : String) (audience : Option String) :
    Payload.validateClaims (toSet c) now issuer audience =
      (SampleAuthApi.validateClaims c now issuer audience).map toSet := by
  obtain ⟨hiss, -, haud, hiat, hexp, -⟩ := toSet_items c
  have hofString : ∀ s t, (PyString.ofString s = .ofString t) = (s = t) := fun s t =>
    propext PyString.ofString_injective.eq_iff
  unfold Payload.validateClaims SampleAuthApi.validateClaims validateAud
  simp only [hiat, hexp, hiss, haud, Option.any_some, decide_eq_true_eq, ne_eq,
    Option.some.injEq, hofString]
  split
  · rfl
  · split
    · rfl
    · split
      · rfl
      · cases audience with
        | none => rfl
        | some a =>
          cases c.aud with
          | none => rfl
          | some b =>
            simp only [Option.map_some, Option.some.injEq, hofString]
            split <;> rfl

/-- What `jwt.decode` returns at a given time. -/
lemma eval_jwtDecode (h : p.Carries x) (c : Claims) (audience : Option String)
    (answers : (o : Op T) → Except Exc o.Reply) :
    (jwtDecode p (p.jwt.sign (toSet c)) audience).eval answers =
      ((SampleAuthApi.jwtDecode x (x.jwt.sign c) audience).eval answers).map
        (Except.map toSet) := by
  unfold jwtDecode SampleAuthApi.jwtDecode utcnow
  rw [p.jwt.verify_sign, x.jwt.verify_sign]
  simp only [Program.eval_bind, Program.eval_perform, Program.eval_pure, h.settings]
  cases answers .now with
  | error e => rfl
  | ok now => exact congrArg Except.ok (validateClaims c now _ audience)

/-- `decode_access_token` of a token of `Model.Jwt`. -/
theorem decodeAccessToken (h : p.Carries x) (c : Claims)
    (answers : (o : Op T) → Except Exc o.Reply) :
    ((JwtService.decodeAccessToken x (x.jwt.sign c)).eval answers).map accessNamed =
      (Payload.decodeAccessToken p (p.jwt.sign (toSet c))).eval answers := by
  unfold JwtService.decodeAccessToken Payload.decodeAccessToken
  rw [Program.eval_bind, Program.eval_bind, h.settings, h.eval_jwtDecode]
  cases (SampleAuthApi.jwtDecode x (x.jwt.sign c) (some x.settings.jwtAudience)).eval answers with
  | error e => rfl
  | ok r =>
    cases r with
    | error e => cases e <;> rfl
    | ok payload =>
      obtain ⟨-, hsub, -, hiat, hexp, hjti, htype, hdevice, hemail, hname⟩ := toSet_items payload
      simp only [Except.map, Program.ok_bind, htype, hsub, hemail, hname, hdevice, hjti, hexp, hiat]
      cases payload.type with
      | refresh => rfl
      | access => cases payload.email <;> cases payload.name <;> rfl

/-- `decode_refresh_token` of a token of `Model.Jwt`. -/
theorem decodeRefreshToken (h : p.Carries x) (c : Claims)
    (answers : (o : Op T) → Except Exc o.Reply) :
    ((JwtService.decodeRefreshToken x (x.jwt.sign c)).eval answers).map refreshNamed =
      (Payload.decodeRefreshToken p (p.jwt.sign (toSet c))).eval answers := by
  unfold JwtService.decodeRefreshToken Payload.decodeRefreshToken
  rw [Program.eval_bind, Program.eval_bind, h.eval_jwtDecode]
  cases (SampleAuthApi.jwtDecode x (x.jwt.sign c) none).eval answers with
  | error e => rfl
  | ok r =>
    cases r with
    | error e => cases e <;> rfl
    | ok payload =>
      obtain ⟨-, hsub, -, hiat, hexp, hjti, htype, hdevice, -⟩ := toSet_items payload
      simp only [Except.map, Program.ok_bind, htype, hsub, hdevice, hjti, hexp, hiat]
      cases payload.type <;> rfl

end Issuer.Carries

end Payload

end SampleAuthApi
