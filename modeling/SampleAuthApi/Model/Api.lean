import SampleAuthApi.Model.Services

/-!
# `app.api.v1` with its dependencies

The requests, after their bodies have been validated, and the program that serves each of them.
`getDb` is the session dependency: the transaction is committed when the endpoint has returned and
rolled back when it raised.  `getCurrentUser` authenticates the protected endpoints.  The rate
limits, which turn a request away before its endpoint runs and touch neither store, are left out.
-/

namespace SampleAuthApi

variable {T K : Type} [Instant T]

/-- `CurrentUser`. -/
structure CurrentUser (T : Type) where
  userId : Uuid
  email : String
  name : String
  deviceId : String
  tokenJti : Uuid
  tokenExp : T

/-- `get_current_user`. -/
def getCurrentUser (x : Externals K) (token : K) (xDeviceId : String) : Proc T (CurrentUser T) := do
  let payload ← JwtService.decodeAccessToken x token
  if payload.deviceId ≠ xDeviceId then throw .deviceMismatch
  if ← TokenStore.isTokenBlacklisted payload.jti then throw .tokenRevoked
  pure ⟨payload.sub, payload.email, payload.name, payload.deviceId, payload.jti, payload.exp⟩

/-- `get_db` around an endpoint.  The code after its `yield` runs before the answer is sent, as in
FastAPI up to 0.117; later versions send the answer first. -/
def getDb {α : Type} (endpoint : Proc T α) : Proc T α :=
  Program.tryCatch
    (do
      let r ← endpoint
      Program.perform Op.commit
      pure r)
    fun e => do
      Program.perform Op.rollback
      throw e

/-- The device headers of a request, with the address of the client and its `User-Agent`. -/
structure ClientInfo where
  xDeviceId : String
  xDeviceName : Option String := none
  xAppVersion : Option String := none
  xOsType : Option String := none
  xOsVersion : Option String := none
  clientIp : Option String := none
  userAgent : Option String := none
  deriving DecidableEq

/-- A request with a valid body. -/
inductive Request (K : Type) : Type
  | signup (email password name : String) (phoneNumber : Option String) (marketingAgreed : Bool)
  | login (email password : String) (client : ClientInfo)
  | refresh (refreshToken : K) (client : ClientInfo)
  | logout (bearer : K) (xDeviceId : String)
  | logoutAll (bearer : K) (xDeviceId : String)
  | getMe (bearer : K) (xDeviceId : String)
  | updateMe (bearer : K) (xDeviceId : String) (name phoneNumber : Option String)
  | changePassword (bearer : K) (xDeviceId currentPassword newPassword : String)
  | deleteAccount (bearer : K) (xDeviceId password : String)
  | listDevices (bearer : K) (xDeviceId : String)
  | forceLogoutDevice (bearer : K) (xDeviceId deviceId : String)

/-- The data of a response. -/
inductive Response (T K : Type) : Type
  | signup (data : SignupResponse T)
  | login (data : LoginResponse K)
  | refresh (data : TokenResponse K)
  | message
  | logoutAll (loggedOutDevices : ℕ)
  | user (data : UserResponse T)
  | userUpdate (data : UserUpdateResponse T)
  | devices (data : List (DeviceResponse T))

/-- The program that serves a request. -/
def endpoint (x : Externals K) : Request K → Proc T (Response T K)
  | .signup email password name phoneNumber marketingAgreed => getDb do
    let result ← AuthService.signup x email password name phoneNumber marketingAgreed
    pure (.signup result)
  | .login email password client => getDb do
    let result ← AuthService.login x email password client.xDeviceId client.xDeviceName
      (client.xOsType.getD "unknown") client.xOsVersion client.xAppVersion client.clientIp
      client.userAgent
    pure (.login result)
  | .refresh refreshToken client => getDb do
    let result ← AuthService.refresh x refreshToken client.xDeviceId client.xDeviceName
      client.xOsType client.xAppVersion client.clientIp
    pure (.refresh result)
  | .logout bearer xDeviceId => do
    let currentUser ← getCurrentUser x bearer xDeviceId
    getDb do
      AuthService.logout currentUser.userId currentUser.deviceId currentUser.tokenJti
        currentUser.tokenExp
      pure .message
  | .logoutAll bearer xDeviceId => do
    let currentUser ← getCurrentUser x bearer xDeviceId
    getDb do
      let count ← AuthService.logoutAll currentUser.userId currentUser.tokenJti
        currentUser.tokenExp
      pure (.logoutAll count)
  | .getMe bearer xDeviceId => do
    let currentUser ← getCurrentUser x bearer xDeviceId
    getDb do
      let result ← UserService.getMe currentUser.userId
      pure (.user result)
  | .updateMe bearer xDeviceId name phoneNumber => do
    let currentUser ← getCurrentUser x bearer xDeviceId
    getDb do
      let result ← UserService.updateMe currentUser.userId name phoneNumber
      pure (.userUpdate result)
  | .changePassword bearer xDeviceId currentPassword newPassword => do
    let currentUser ← getCurrentUser x bearer xDeviceId
    getDb do
      UserService.changePassword x currentUser.userId currentPassword newPassword
      pure .message
  | .deleteAccount bearer xDeviceId password => do
    let currentUser ← getCurrentUser x bearer xDeviceId
    getDb do
      UserService.deleteAccount x currentUser.userId password
      pure .message
  | .listDevices bearer xDeviceId => do
    let currentUser ← getCurrentUser x bearer xDeviceId
    getDb do
      let result ← DeviceService.getDevices currentUser.userId currentUser.deviceId
      pure (.devices result)
  | .forceLogoutDevice bearer xDeviceId deviceId => do
    let currentUser ← getCurrentUser x bearer xDeviceId
    getDb do
      DeviceService.forceLogoutDevice currentUser.userId deviceId currentUser.deviceId
      pure .message

end SampleAuthApi
