import SampleAuthApi.Model.Jwt
import SampleAuthApi.Model.Repositories
import SampleAuthApi.Model.TokenStore

/-!
# `app.services.auth`, `app.services.user`, `app.services.device`

The services, statement by statement, without their log lines.
-/

namespace SampleAuthApi

variable {T K : Type} [Instant T]

/-! ## Responses -/

/-- `SignupResponse`. -/
structure SignupResponse (T : Type) where
  userId : Uuid
  email : String
  name : String
  createdAt : T

/-- `LoginUserInfo`. -/
structure LoginUserInfo where
  userId : Uuid
  email : String
  name : String

/-- `LoginResponse`. -/
structure LoginResponse (K : Type) where
  accessToken : K
  refreshToken : K
  tokenType : String := "Bearer"
  expiresIn : ℤ
  refreshExpiresIn : ℤ
  user : LoginUserInfo

/-- `TokenResponse`. -/
structure TokenResponse (K : Type) where
  accessToken : K
  refreshToken : K
  tokenType : String := "Bearer"
  expiresIn : ℤ
  refreshExpiresIn : ℤ

/-- `UserResponse`. -/
structure UserResponse (T : Type) where
  userId : Uuid
  email : String
  name : String
  phoneNumber : Option String
  profileImageUrl : Option String
  marketingAgreed : Bool
  createdAt : T
  updatedAt : T

/-- `UserUpdateResponse`. -/
structure UserUpdateResponse (T : Type) where
  userId : Uuid
  name : String
  phoneNumber : Option String
  updatedAt : T

/-- `DeviceResponse`. -/
structure DeviceResponse (T : Type) where
  deviceId : String
  deviceName : Option String
  osType : String
  osVersion : Option String
  appVersion : Option String
  lastLoginAt : Option T
  lastAccessAt : Option T
  ipAddress : Option String
  isCurrent : Bool

/-! ## `AuthService` -/

namespace AuthService

variable (x : Externals K)

/-- `signup`. -/
def signup (email password name : String) (phoneNumber : Option String) (marketingAgreed : Bool) :
    Proc T (SignupResponse T) := do
  if ← UserRepository.emailExists email then throw .emailAlreadyExists
  let now ← utcnow
  let id ← uuid4
  let hashedPassword ← hashPassword x password
  let user : User T :=
    { id, email, hashedPassword, name, phoneNumber
      profileImageUrl := none
      status := .active
      marketingAgreed
      lastLoginAt := none
      createdAt := now
      updatedAt := now
      deletedAt := none }
  let _ ← (UserRepository.create user).tryCatch fun e =>
    match e with
    | .integrity => throw .emailAlreadyExists
    | e => throw e
  pure ⟨user.id, user.email, user.name, user.createdAt⟩

/-- The credential check of `login`: the user with this email and whether the password verifies.  A
password is verified against `DUMMY_HASH` when there is no such user. -/
def checkCredentials (email password : String) : Proc T (Option (User T) × Bool) := do
  match ← UserRepository.getByEmail email with
  | none =>
    let _ ← verifyPassword x password x.dummyHash
    pure (none, false)
  | some user =>
    let valid ← verifyPassword x password user.hashedPassword
    pure (some user, valid)

/-- The part of `login` after the status checks: the device row, the two tokens, the stored refresh
token and the audit row. -/
def openSession (user : User T) (deviceId : String) (deviceName : Option String) (osType : String)
    (osVersion appVersion ipAddress userAgent : Option String) : Proc T (LoginResponse K) := do
  UserDeviceRepository.upsertDevice user.id deviceId deviceName osType osVersion appVersion
    ipAddress
  UserRepository.updateLastLogin user.id
  let (accessToken, _, _) ← JwtService.createAccessToken x user.id user.email user.name deviceId
  let (refreshToken, rtJti, rtExp) ← JwtService.createRefreshToken x user.id deviceId
  TokenStore.storeRefreshToken user.id deviceId rtJti deviceName (some osType) appVersion ipAddress
    rtExp
  LoginHistoryRepository.create (some user.id) deviceId ipAddress userAgent (some osType)
    appVersion true none
  pure
    { accessToken, refreshToken
      expiresIn := x.settings.jwtAccessTokenExpireSeconds
      refreshExpiresIn := x.settings.jwtRefreshTokenExpireSeconds
      user := ⟨user.id, user.email, user.name⟩ }

/-- `login`. -/
def login (email password deviceId : String) (deviceName : Option String) (osType : String)
    (osVersion appVersion ipAddress userAgent : Option String) : Proc T (LoginResponse K) := do
  match ← checkCredentials x email password with
  | (some user, true) =>
    if user.status = .inactive then throw .accountSuspended
    if user.status = .withdrawn then throw .accountWithdrawn
    openSession x user deviceId deviceName osType osVersion appVersion ipAddress userAgent
  | (user, _) =>
    LoginHistoryRepository.create (user.map User.id) deviceId ipAddress userAgent (some osType)
      appVersion false (some "INVALID_CREDENTIALS")
    throw .invalidCredentials

/-- The part of `refresh` after the comparison with the stored token: a new token pair for the user
of the presented token. -/
def rotate (userId : Uuid) (deviceId : String)
    (deviceName osType appVersion ipAddress : Option String) : Proc T (TokenResponse K) := do
  let some user ← UserRepository.getById userId | throw .invalidRefreshToken
  let (accessToken, _, _) ← JwtService.createAccessToken x user.id user.email user.name deviceId
  let (newRefreshToken, newRtJti, newRtExp) ← JwtService.createRefreshToken x user.id deviceId
  TokenStore.storeRefreshToken user.id deviceId newRtJti deviceName osType appVersion ipAddress
    newRtExp
  pure
    { accessToken
      refreshToken := newRefreshToken
      expiresIn := x.settings.jwtAccessTokenExpireSeconds
      refreshExpiresIn := x.settings.jwtRefreshTokenExpireSeconds }

/-- `refresh`. -/
def refresh (refreshTokenStr : K) (deviceId : String)
    (deviceName osType appVersion ipAddress : Option String) : Proc T (TokenResponse K) := do
  let rtPayload ← JwtService.decodeRefreshToken x refreshTokenStr
  if rtPayload.deviceId ≠ deviceId then throw .invalidRefreshToken
  let some stored ← TokenStore.getRefreshToken rtPayload.sub deviceId | throw .invalidRefreshToken
  if stored.tokenId ≠ rtPayload.jti then do
    TokenStore.deleteRefreshToken rtPayload.sub deviceId
    throw .invalidRefreshToken
  rotate x rtPayload.sub deviceId deviceName osType appVersion ipAddress

/-- `logout`. -/
def logout (userId : Uuid) (deviceId : String) (accessTokenJti : Uuid) (accessTokenExp : T) :
    Proc T Unit := do
  let now ← utcnow
  let ttl := Instant.truncInt (accessTokenExp - now)
  TokenStore.blacklistToken accessTokenJti userId deviceId "logout" ttl
  TokenStore.deleteRefreshToken userId deviceId
  let _ ← UserDeviceRepository.deactivateDevice userId deviceId

/-- `logout_all`. -/
def logoutAll (userId accessTokenJti : Uuid) (accessTokenExp : T) : Proc T ℕ := do
  let now ← utcnow
  let ttl := Instant.truncInt (accessTokenExp - now)
  TokenStore.blacklistToken accessTokenJti userId "all" "logout_all" ttl
  let count ← TokenStore.deleteAllRefreshTokens userId
  let _ ← UserDeviceRepository.deactivateAllDevices userId
  pure count

end AuthService

/-! ## `UserService` -/

namespace UserService

variable (x : Externals K)

/-- `get_me`. -/
def getMe (userId : Uuid) : Proc T (UserResponse T) := do
  let some user ← UserRepository.getById userId | throw .userNotFound
  pure ⟨user.id, user.email, user.name, user.phoneNumber, user.profileImageUrl,
    user.marketingAgreed, user.createdAt, user.updatedAt⟩

/-- `update_me`. -/
def updateMe (userId : Uuid) (name phoneNumber : Option String) :
    Proc T (UserUpdateResponse T) := do
  let some user ← UserRepository.getById userId | throw .userNotFound
  let now ← utcnow
  let user ← UserRepository.update user
    { name := name.bind (changed user.name)
      phoneNumber := phoneNumber.bind fun p => (changed user.phoneNumber (some p)).join
      updatedAt := some now }
  pure ⟨user.id, user.name, user.phoneNumber, user.updatedAt⟩

/-- `change_password`. -/
def changePassword (userId : Uuid) (currentPassword newPassword : String) : Proc T Unit := do
  let some user ← UserRepository.getById userId | throw .userNotFound
  if !(← verifyPassword x currentPassword user.hashedPassword) then
    throw .currentPasswordMismatch
  if ← verifyPassword x newPassword user.hashedPassword then throw .samePassword
  let hashedPassword ← hashPassword x newPassword
  let now ← utcnow
  let _ ← UserRepository.update user
    { hashedPassword := changed user.hashedPassword hashedPassword, updatedAt := some now }
  let _ ← TokenStore.deleteAllRefreshTokens userId
  let _ ← UserDeviceRepository.deactivateAllDevices userId

/-- `delete_account`. -/
def deleteAccount (userId : Uuid) (password : String) : Proc T Unit := do
  let some user ← UserRepository.getById userId | throw .userNotFound
  if !(← verifyPassword x password user.hashedPassword) then throw .currentPasswordMismatch
  UserRepository.softDelete user
  let _ ← TokenStore.deleteAllRefreshTokens userId
  let _ ← UserDeviceRepository.deactivateAllDevices userId

end UserService

/-! ## `DeviceService` -/

namespace DeviceService

/-- `get_devices`. -/
def getDevices (userId : Uuid) (currentDeviceId : String) : Proc T (List (DeviceResponse T)) := do
  let devices ← UserDeviceRepository.getActiveDevices userId
  pure (devices.map fun d =>
    ⟨d.deviceId, d.deviceName, d.osType, d.osVersion, d.appVersion, d.lastLoginAt,
      d.lastAccessAt, d.lastLoginIp, d.deviceId == currentDeviceId⟩)

/-- `force_logout_device`. -/
def forceLogoutDevice (userId : Uuid) (targetDeviceId currentDeviceId : String) :
    Proc T Unit := do
  if targetDeviceId = currentDeviceId then throw .cannotLogoutCurrentDevice
  let some device ← UserDeviceRepository.getByUserAndDevice userId targetDeviceId
    | throw .deviceNotFound
  if !device.isActive then throw .deviceNotFound
  TokenStore.deleteRefreshToken userId targetDeviceId
  let _ ← UserDeviceRepository.deactivateDevice userId targetDeviceId

end DeviceService

end SampleAuthApi
