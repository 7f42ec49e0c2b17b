import SampleAuthApi.Foundation.Text
import SampleAuthApi.Model.Jwt

/-!
# The payloads of `app.services.jwt`

`JWTService` at the level of the dictionaries that it hands to `PyJWT`, for arbitrary strings.  A
payload is a dictionary; `jwt.encode` truncates its datetimes to whole seconds and signs it, and
`jwt.decode` checks the signature, then `iat`, `exp`, `iss` and `aud`, in this order.

`Issuer.Carries` connects this to the claims of `Model.Jwt`, whose user ids are `uuid4` values: the
encoders and decoders there are those here on such claims.
-/

namespace SampleAuthApi

namespace Payload

variable {T K : Type} [Instant T]

/-- A value of a payload. -/
inductive Value (T : Type) : Type
  | str (s : PyString)
  | datetime (t : T)

/-- A value in the claims of a token. -/
inductive ClaimValue : Type
  | str (s : PyString)
  | int (n : ℤ)
  deriving DecidableEq

/-- The claims of a token: a dictionary. -/
abbrev ClaimSet : Type := List (String × ClaimValue)

/-- The string under a key. -/
def str? (c : ClaimSet) (key : String) : Option PyString :=
  match c.lookup key with
  | some (.str s) => some s
  | _ => none

/-- The integer under a key. -/
def int? (c : ClaimSet) (key : String) : Option ℤ :=
  match c.lookup key with
  | some (.int n) => some n
  | _ => none

/-- What `jwt.encode` writes for a value. -/
def Value.encode : Value T → ClaimValue
  | .str s => .str s
  | .datetime t => .int ⌊t⌋

/-- The claims that `jwt.encode` writes for a payload. -/
def encode (payload : List (String × Value T)) : ClaimSet :=
  payload.map fun (key, value) => (key, value.encode)

/-- The signatures of `PyJWT` under the key pair of the service, over tokens `K`. -/
structure Codec (K : Type) where
  /-- The signed token with the given claims. -/
  sign : ClaimSet → K
  /-- The claims of a token whose signature is valid. -/
  verify : K → Option ClaimSet
  /-- A signed token verifies, with its claims. -/
  verify_sign : ∀ c, verify (sign c) = some c

/-- What `JWTService` takes from outside the repository. -/
structure Issuer (K : Type) where
  settings : Settings
  jwt : Codec K

/-- The check of `jwt.decode` on `aud`, with `none` for the option `verify_aud: False`. -/
def validateAud (c : ClaimSet) (audience : Option String) : Except JwtError ClaimSet :=
  match audience with
  | none => .ok c
  | some a => if str? c "aud" = some (.ofString a) then .ok c else .error .invalidToken

/-- The checks of `jwt.decode` on the claims of a genuine token at the instant `now`.  A claim that
is checked and missing is refused, except `iat` and `exp`. -/
def validateClaims (c : ClaimSet) (now : T) (issuer : String) (audience : Option String) :
    Except JwtError ClaimSet :=
  if (int? c "iat").any fun iat : ℤ => decide (now < (iat : T)) then .error .invalidToken
  else if (int? c "exp").any fun exp : ℤ => decide ((exp : T) ≤ now) then .error .expiredSignature
  else if str? c "iss" ≠ some (.ofString issuer) then .error .invalidToken
  else validateAud c audience

/-- `jwt.decode`. -/
def jwtDecode (x : Issuer K) (token : K) (audience : Option String) :
    Proc T (Except JwtError ClaimSet) :=
  match x.jwt.verify token with
  | none => pure (.error .invalidToken)
  | some c => do
    let now ← utcnow
    pure (validateClaims c now x.settings.jwtIssuer audience)

/-- The payload of an access token issued at `now`. -/
def accessPayload (s : Settings) (userId email name deviceId jti : PyString) (now : T) :
    List (String × Value T) :=
  [("iss", .str (.ofString s.jwtIssuer)),
    ("sub", .str userId),
    ("aud", .str (.ofString s.jwtAudience)),
    ("iat", .datetime now),
    ("exp", .datetime (now + s.jwtAccessTokenExpireSeconds)),
    ("jti", .str jti),
    ("type", .str (.ofString "access")),
    ("device_id", .str deviceId),
    ("email", .str email),
    ("name", .str name)]

/-- The payload of a refresh token issued at `now`. -/
def refreshPayload (s : Settings) (userId deviceId jti : PyString) (now : T) :
    List (String × Value T) :=
  [("iss", .str (.ofString s.jwtIssuer)),
    ("sub", .str userId),
    ("iat", .datetime now),
    ("exp", .datetime (now + s.jwtRefreshTokenExpireSeconds)),
    ("jti", .str jti),
    ("type", .str (.ofString "refresh")),
    ("device_id", .str deviceId)]

/-- `create_access_token`: the token, its `jti` and its expiry before truncation. -/
def createAccessToken (x : Issuer K) (userId email name deviceId : PyString) :
    Proc T (K × PyString × T) := do
  let now ← utcnow
  let exp := now + x.settings.jwtAccessTokenExpireSeconds
  let uuid ← uuid4
  let jti := PyString.ofString uuid.val
  pure (x.jwt.sign (encode (accessPayload x.settings userId email name deviceId jti now)), jti, exp)

/-- `create_refresh_token`: the token, its `jti` and its expiry before truncation. -/
def createRefreshToken (x : Issuer K) (userId deviceId : PyString) :
    Proc T (K × PyString × T) := do
  let now ← utcnow
  let exp := now + x.settings.jwtRefreshTokenExpireSeconds
  let uuid ← uuid4
  let jti := PyString.ofString uuid.val
  pure (x.jwt.sign (encode (refreshPayload x.settings userId deviceId jti now)), jti, exp)

/-- `AccessTokenPayload`. -/
structure AccessToken (T : Type) where
  sub : PyString
  email : PyString
  name : PyString
  deviceId : PyString
  jti : PyString
  exp : T
  iat : T

/-- `RefreshTokenPayload`. -/
structure RefreshToken (T : Type) where
  sub : PyString
  deviceId : PyString
  jti : PyString
  exp : T
  iat : T

/-- `payload[key]`. -/
def item {α : Type} (value : Option α) : Proc T α :=
  match value with
  | some a => pure a
  | none => throw .keyMissing

/-- `decode_access_token`. -/
def decodeAccessToken (x : Issuer K) (token : K) : Proc T (AccessToken T) := do
  match ← jwtDecode x token (some x.settings.jwtAudience) with
  | .error .expiredSignature => throw .tokenExpired
  | .error .invalidToken => throw .invalidToken
  | .ok payload =>
    if str? payload "type" ≠ some (.ofString "access") then throw .invalidToken
    else do
      let sub ← item (str? payload "sub")
      let email ← item (str? payload "email")
      let name ← item (str? payload "name")
      let deviceId ← item (str? payload "device_id")
      let jti ← item (str? payload "jti")
      let exp ← item (int? payload "exp")
      let iat ← item (int? payload "iat")
      pure ⟨sub, email, name, deviceId, jti, exp, iat⟩

/-- `decode_refresh_token`. -/
def decodeRefreshToken (x : Issuer K) (token : K) : Proc T (RefreshToken T) := do
  match ← jwtDecode x token none with
  | .error .expiredSignature => throw .sessionExpired
  | .error .invalidToken => throw .invalidRefreshToken
  | .ok payload =>
    if str? payload "type" ≠ some (.ofString "refresh") then throw .invalidRefreshToken
    else do
      let sub ← item (str? payload "sub")
      let deviceId ← item (str? payload "device_id")
      let jti ← item (str? payload "jti")
      let exp ← item (int? payload "exp")
      let iat ← item (int? payload "iat")
      pure ⟨sub, deviceId, jti, exp, iat⟩

end Payload

end SampleAuthApi
