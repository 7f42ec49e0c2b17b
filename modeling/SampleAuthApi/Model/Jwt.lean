import SampleAuthApi.Model.Environment

/-!
# `app.services.jwt`

The two encoders and the two decoders of `JWTService`.  `jwtDecode` is `jwt.decode` of `PyJWT`: the
signature first, then the clock is read and `iat`, `exp`, `iss` and `aud` are checked in this
order.  `PyJWT` truncates the datetimes of a payload to whole seconds when it encodes them.
-/

namespace SampleAuthApi

variable {T K : Type} [Instant T]

/-- `AccessTokenPayload`. -/
structure AccessTokenPayload (T : Type) where
  sub : Uuid
  email : String
  name : String
  deviceId : String
  jti : Uuid
  exp : T
  iat : T

/-- `RefreshTokenPayload`. -/
structure RefreshTokenPayload (T : Type) where
  sub : Uuid
  deviceId : String
  jti : Uuid
  exp : T
  iat : T

/-- The exceptions of `jwt.decode` that the decoders tell apart. -/
inductive JwtError
  /-- `jwt.ExpiredSignatureError` -/
  | expiredSignature
  /-- any other `jwt.InvalidTokenError` -/
  | invalidToken
  deriving DecidableEq

/-- The checks of `jwt.decode` on the claims of a genuine token at the instant `now`; `audience` is
`none` under the option `verify_aud: False`. -/
def validateClaims (c : Claims) (now : T) (issuer : String) (audience : Option String) :
    Except JwtError Claims :=
  if now < (c.iat : T) then .error .invalidToken
  else if (c.exp : T) ≤ now then .error .expiredSignature
  else if c.iss ≠ issuer then .error .invalidToken
  else match audience with
    | none => .ok c
    | some a => if c.aud = some a then .ok c else .error .invalidToken

/-- `jwt.decode`. -/
def jwtDecode (x : Externals K) (token : K) (audience : Option String) :
    Proc T (Except JwtError Claims) :=
  match x.jwt.verify token with
  | none => pure (.error .invalidToken)
  | some c => do
    let now ← utcnow
    pure (validateClaims c now x.settings.jwtIssuer audience)

namespace JwtService

/-- The claims of an access token issued at `now`. -/
def accessClaims (s : Settings) (userId : Uuid) (email name deviceId : String) (now : T)
    (jti : Uuid) : Claims where
  iss := s.jwtIssuer
  sub := userId
  aud := some s.jwtAudience
  iat := ⌊now⌋
  exp := ⌊now + s.jwtAccessTokenExpireSeconds⌋
  jti := jti
  type := .access
  deviceId := deviceId
  email := some email
  name := some name

/-- The claims of a refresh token issued at `now`. -/
def refreshClaims (s : Settings) (userId : Uuid) (deviceId : String) (now : T) (jti : Uuid) :
    Claims where
  iss := s.jwtIssuer
  sub := userId
  aud := none
  iat := ⌊now⌋
  exp := ⌊now + s.jwtRefreshTokenExpireSeconds⌋
  jti := jti
  type := .refresh
  deviceId := deviceId
  email := none
  name := none

/-- `create_access_token`: the token, its `jti` and its expiry before truncation. -/
def createAccessToken (x : Externals K) (userId : Uuid) (email name deviceId : String) :
    Proc T (K × Uuid × T) := do
  let now ← utcnow
  let exp := now + x.settings.jwtAccessTokenExpireSeconds
  let jti ← uuid4
  pure (x.jwt.sign (accessClaims x.settings userId email name deviceId now jti), jti, exp)

/-- `create_refresh_token`: the token, its `jti` and its expiry before truncation. -/
def createRefreshToken (x : Externals K) (userId : Uuid) (deviceId : String) :
    Proc T (K × Uuid × T) := do
  let now ← utcnow
  let exp := now + x.settings.jwtRefreshTokenExpireSeconds
  let jti ← uuid4
  pure (x.jwt.sign (refreshClaims x.settings userId deviceId now jti), jti, exp)

/-- `decode_access_token`. -/
def decodeAccessToken (x : Externals K) (token : K) : Proc T (AccessTokenPayload T) := do
  match ← jwtDecode x token (some x.settings.jwtAudience) with
  | .error .expiredSignature => throw .tokenExpired
  | .error .invalidToken => throw .invalidToken
  | .ok payload =>
    if payload.type ≠ .access then throw .invalidToken
    else match payload.email, payload.name with
      | some email, some name =>
        pure ⟨payload.sub, email, name, payload.deviceId, payload.jti, payload.exp, payload.iat⟩
      | _, _ => throw .keyMissing

/-- `decode_refresh_token`. -/
def decodeRefreshToken (x : Externals K) (token : K) : Proc T (RefreshTokenPayload T) := do
  match ← jwtDecode x token none with
  | .error .expiredSignature => throw .sessionExpired
  | .error .invalidToken => throw .invalidRefreshToken
  | .ok payload =>
    if payload.type ≠ .refresh then throw .invalidRefreshToken
    else pure ⟨payload.sub, payload.deviceId, payload.jti, payload.exp, payload.iat⟩

end JwtService

end SampleAuthApi
