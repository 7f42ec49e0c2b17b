import SampleAuthApi.Foundation.Program
import SampleAuthApi.Foundation.Redis
import SampleAuthApi.Model.Tables

/-!
# What the services ask of their environment

`Op` lists the calls of the services: the clock, fresh `uuid4` values, the salt of a new password
hash, the slow verification of a password, one Redis command, one `SELECT`, one `flush` of the
session, and the end of the transaction.
A service is a `Proc`: a program over these calls that may raise an `Exc`.  The log lines that the
services write touch neither store and are left out.

The third-party code the services rely on is a parameter, `Externals`: the password context of
`passlib`, the signatures of `PyJWT`, and the settings read from the environment.
-/

namespace SampleAuthApi

/-- The exceptions that a request can end with. -/
inductive Exc
  -- `app.exceptions.auth`
  | invalidCredentials
  | tokenExpired
  | invalidToken
  | sessionExpired
  | invalidRefreshToken
  | tokenRevoked
  | deviceMismatch
  -- `app.exceptions.user`
  | userNotFound
  | emailAlreadyExists
  | currentPasswordMismatch
  | samePassword
  | accountSuspended
  | accountWithdrawn
  | deviceNotFound
  | cannotLogoutCurrentDevice
  /-- a unique index refused a flush -/
  | integrity
  /-- a dictionary lacks a key that is read from it -/
  | keyMissing
  /-- `passlib` refuses the password -/
  | passwordValue
  /-- Redis refuses the command -/
  | redisResponse
  /-- Redis or the database could not be reached, or the driver failed -/
  | unavailable
  deriving DecidableEq

/-- The arguments that an application exception hands to `AppException.__init__`. -/
structure AppException where
  statusCode : ℕ
  errorCode : String
  message : String
  deriving DecidableEq

/-- The application exceptions; the others end in the handler for `Exception`. -/
def Exc.app? : Exc → Option AppException
  | .invalidCredentials => some ⟨401, "AUTH_001", "이메일 또는 비밀번호가 올바르지 않습니다"⟩
  | .tokenExpired => some ⟨401, "AUTH_002", "인증이 만료되었습니다. 다시 로그인해주세요"⟩
  | .invalidToken => some ⟨401, "AUTH_003", "유효하지 않은 인증 정보입니다"⟩
  | .sessionExpired => some ⟨401, "AUTH_004", "세션이 만료되었습니다. 다시 로그인해주세요"⟩
  | .invalidRefreshToken => some ⟨401, "AUTH_005", "유효하지 않은 갱신 토큰입니다"⟩
  | .tokenRevoked => some ⟨401, "AUTH_006", "로그아웃된 세션입니다"⟩
  | .deviceMismatch => some ⟨401, "AUTH_007", "다른 기기에서 발급된 인증 정보입니다"⟩
  | .userNotFound => some ⟨404, "USER_001", "사용자를 찾을 수 없습니다"⟩
  | .emailAlreadyExists => some ⟨409, "USER_002", "이미 사용 중인 이메일입니다"⟩
  | .currentPasswordMismatch => some ⟨400, "USER_004", "현재 비밀번호가 일치하지 않습니다"⟩
  | .samePassword => some ⟨400, "USER_005", "새 비밀번호는 현재 비밀번호와 달라야 합니다"⟩
  | .accountSuspended => some ⟨403, "USER_006", "정지된 계정입니다"⟩
  | .accountWithdrawn => some ⟨403, "USER_007", "탈퇴한 계정입니다"⟩
  | .deviceNotFound => some ⟨404, "DEVICE_002", "등록되지 않은 디바이스입니다"⟩
  | .cannotLogoutCurrentDevice =>
    some ⟨400, "DEVICE_003", "현재 디바이스는 이 방법으로 로그아웃할 수 없습니다"⟩
  | .integrity | .keyMissing | .passwordValue | .redisResponse | .unavailable => none

/-- An application exception is the client's fault. -/
theorem Exc.statusCode_of_app? {e : Exc} {a : AppException} (h : e.app? = some a) :
    400 ≤ a.statusCode ∧ a.statusCode < 500 := by
  cases e <;> cases h <;> decide

/-- An error code stands for one exception. -/
theorem Exc.eq_of_errorCode {e e' : Exc} {a a' : AppException} (h : e.app? = some a)
    (h' : e'.app? = some a') (hcode : a.errorCode = a'.errorCode) : e = e' := by
  cases e <;> cases h <;> cases e' <;> cases h' <;> first | rfl | exact absurd hcode (by decide)

/-! ## Redis keys and values -/

/-- The Redis keys of the application. -/
inductive Key
  /-- `auth:rt:{user_id}:{device_id}` -/
  | refresh (userId : Uuid) (deviceId : String)
  /-- `auth:devices:{user_id}` -/
  | devices (userId : Uuid)
  /-- `auth:blacklist:{jti}` -/
  | blacklist (jti : Uuid)
  deriving DecidableEq

/-- The name of a key. -/
def Key.name : Key → String
  | .refresh userId deviceId => "auth:rt:" ++ userId.val ++ ":" ++ deviceId
  | .devices userId => "auth:devices:" ++ userId.val
  | .blacklist jti => "auth:blacklist:" ++ jti.val

/-- The JSON document stored for a refresh token. -/
structure StoredRefreshToken where
  tokenId : Uuid
  userId : Uuid
  deviceId : String
  deviceName : Option String
  osType : Option String
  appVersion : Option String
  ipAddress : Option String
  issuedAt : ℤ
  expiresAt : ℤ
  deriving DecidableEq

/-- The JSON document stored for a revoked access token. -/
structure BlacklistEntry where
  userId : Uuid
  deviceId : String
  reason : String
  revokedAt : ℤ
  deriving DecidableEq

/-- The JSON documents of the application. -/
inductive Document
  | refreshToken (data : StoredRefreshToken)
  | blacklistEntry (data : BlacklistEntry)
  deriving DecidableEq

/-- A Redis command of the application. -/
abbrev RedisCmd : Type := Redis.Cmd Key Document String

/-! ## Calls -/

/-- The calls of the services. -/
inductive Op (T : Type) : Type
  /-- `datetime.now(timezone.utc)` -/
  | now
  /-- `uuid.uuid4()` -/
  | uuid4
  /-- the salt of a new password hash -/
  | gensalt
  /-- one `bcrypt` verification -/
  | checkpw
  /-- one Redis command -/
  | redis (c : RedisCmd)
  /-- one `SELECT` -/
  | select (q : Query)
  /-- `session.flush()` with the changes it sends -/
  | flush (ws : List (Write T))
  /-- `session.commit()` -/
  | commit
  /-- `session.rollback()` -/
  | rollback

/-- The type of the answer to a call. -/
@[reducible] def Op.Reply (T : Type) : Op T → Type
  | .now => T
  | .uuid4 => Uuid
  | .gensalt => String
  | .checkpw => Unit
  | .redis c => c.Reply
  | .select q => q.Rows T
  | .flush _ => Unit
  | .commit => Unit
  | .rollback => Unit

/-- A piece of a request handler. -/
abbrev Proc (T α : Type) : Type := Program (Op T) (Op.Reply T) Exc α

/-- `datetime.now(timezone.utc)`. -/
def utcnow {T : Type} : Proc T T := Program.perform Op.now

/-- `uuid.uuid4()`. -/
def uuid4 {T : Type} : Proc T Uuid := Program.perform Op.uuid4

/-- Send one Redis command. -/
def redis {T : Type} (c : RedisCmd) : Proc T c.Reply := Program.perform (Op.redis c)

/-- Send one `SELECT`. -/
def select {T : Type} (q : Query) : Proc T (q.Rows T) := Program.perform (Op.select q)

/-- `session.flush()`. -/
def flush {T : Type} (ws : List (Write T)) : Proc T Unit := Program.perform (Op.flush ws)

/-- Raise an exception. -/
def throw {T α : Type} (e : Exc) : Proc T α := Program.raise e

/-! ## Third-party code and settings -/

/-- The settings that the services read, with their defaults. -/
structure Settings where
  jwtIssuer : String := "sample-auth-api"
  jwtAudience : String := "sample-app"
  jwtAccessTokenExpireSeconds : ℤ := 1800
  jwtRefreshTokenExpireSeconds : ℤ := 2592000

/-- The `type` claim. -/
inductive TokenType
  | access
  | refresh
  deriving DecidableEq

/-- The claims of a token as `PyJWT` encodes them: its datetimes are whole seconds. -/
structure Claims where
  iss : String
  sub : Uuid
  aud : Option String
  iat : ℤ
  exp : ℤ
  jti : Uuid
  type : TokenType
  deviceId : String
  email : Option String
  name : Option String
  deriving DecidableEq

/-- The signatures of `PyJWT` under the key pair of the service, over tokens `K`. -/
structure Signature (K : Type) where
  /-- The signed token with the given claims. -/
  sign : Claims → K
  /-- The claims of a token whose signature is valid. -/
  verify : K → Option Claims
  /-- A signed token verifies, with its claims. -/
  verify_sign : ∀ c, verify (sign c) = some c

/-- The password context: `pwd_context.hash` under a salt, and `pwd_context.verify`. -/
structure CryptContext where
  /-- The hash of a password. -/
  hash : (salt password : String) → Except Exc String
  /-- Whether a password has the given hash. -/
  verify : (password hash : String) → Except Exc Bool

/-- What the services take from outside the repository. -/
structure Externals (K : Type) where
  settings : Settings
  jwt : Signature K
  pwdContext : CryptContext
  /-- `DUMMY_HASH`, made when `app.core.security` is imported. -/
  dummyHash : String

variable {T K : Type}

/-- `app.core.security.hash_password`. -/
def hashPassword (x : Externals K) (password : String) : Proc T String := do
  let salt ← Program.perform Op.gensalt
  Program.ofExcept (x.pwdContext.hash salt password)

/-- `app.core.security.verify_password`. -/
def verifyPassword (x : Externals K) (plainPassword hashedPassword : String) : Proc T Bool := do
  Program.perform Op.checkpw
  Program.ofExcept (x.pwdContext.verify plainPassword hashedPassword)

end SampleAuthApi
