import SampleAuthApi.Model.Environment

/-!
# `app.repositories`

The statements that the three repositories send.  A row that the session has loaded is changed by
assigning to its attributes; the next `flush` sends the assigned values that differ from the loaded
ones.

Every query answers with the rows as its session sees them when it is sent.  The real session keeps
the objects it has loaded, and loads the devices of a user along with the user (`lazy="selectin"`):
a later query of the same session finds the row anew, but its attributes are those of the first
time.
-/

namespace SampleAuthApi

variable {T : Type}

/-- `a or b` for strings that may be missing: the empty string counts as missing. -/
def pyOr (a b : Option String) : Option String :=
  match a with
  | some s => if s = "" then b else some s
  | none => b

namespace UserRepository

/-- `get_by_id`. -/
def getById (userId : Uuid) : Proc T (Option (User T)) := select (.userById userId)

/-- `get_by_email`. -/
def getByEmail (email : String) : Proc T (Option (User T)) := select (.userByEmail email)

/-- `email_exists`. -/
def emailExists (email : String) : Proc T Bool := do
  let row ← select (.userByEmail email)
  pure row.isSome

/-- `create`. -/
def create (user : User T) : Proc T (User T) := do
  flush [.insertUser user]
  pure user

/-- `update_last_login`. -/
def updateLastLogin (userId : Uuid) : Proc T Unit := do
  match ← getById userId with
  | none => pure ()
  | some user =>
    let now ← utcnow
    flush [.updateUser user.id { lastLoginAt := some now }]

/-- `update`, with the assigned attributes of the loaded row. -/
def update (user : User T) (changes : UserPatch T) : Proc T (User T) := do
  flush [.updateUser user.id changes]
  pure (changes.apply user)

/-- `soft_delete`. -/
def softDelete (user : User T) : Proc T Unit := do
  let now ← utcnow
  flush [.updateUser user.id
    { deletedAt := some now, status := changed user.status .withdrawn }]

end UserRepository

namespace UserDeviceRepository

/-- `get_by_user_and_device`. -/
def getByUserAndDevice (userId : Uuid) (deviceId : String) : Proc T (Option (UserDevice T)) :=
  select (.deviceByUserAndDevice userId deviceId)

/-- `get_active_devices`. -/
def getActiveDevices (userId : Uuid) : Proc T (List (UserDevice T)) :=
  select (.activeDevices userId)

/-- `upsert_device`. -/
def upsertDevice (userId : Uuid) (deviceId : String) (deviceName : Option String) (osType : String)
    (osVersion appVersion ipAddress : Option String) : Proc T Unit := do
  let device ← getByUserAndDevice userId deviceId
  let now ← utcnow
  match device with
  | none =>
    flush [.insertDevice
      { userId, deviceId, deviceName, osType, osVersion, appVersion
        lastLoginAt := some now
        lastLoginIp := ipAddress
        lastAccessAt := some now
        isActive := true
        createdAt := now
        updatedAt := now }]
  | some device =>
    flush [.updateDevice device.userId device.deviceId
      { deviceName := changed device.deviceName (pyOr deviceName device.deviceName)
        osType := changed device.osType osType
        osVersion := changed device.osVersion (pyOr osVersion device.osVersion)
        appVersion := changed device.appVersion (pyOr appVersion device.appVersion)
        lastLoginAt := some now
        lastLoginIp := changed device.lastLoginIp ipAddress
        lastAccessAt := some now
        isActive := changed device.isActive true
        updatedAt := some now }]

/-- `deactivate_device`. -/
def deactivateDevice (userId : Uuid) (deviceId : String) : Proc T Bool := do
  match ← getByUserAndDevice userId deviceId with
  | none => pure false
  | some device =>
    let now ← utcnow
    flush [.updateDevice device.userId device.deviceId
      { isActive := changed device.isActive false, updatedAt := some now }]
    pure true

/-- `deactivate_all_devices`. -/
def deactivateAllDevices (userId : Uuid) : Proc T ℕ := do
  let devices ← getActiveDevices userId
  let now ← utcnow
  flush (devices.map fun device => .updateDevice device.userId device.deviceId
    { isActive := changed device.isActive false, updatedAt := some now })
  pure devices.length

end UserDeviceRepository

namespace LoginHistoryRepository

/-- `create`. -/
def create (userId : Option Uuid) (deviceId : String)
    (ipAddress userAgent osType appVersion : Option String) (success : Bool)
    (failureReason : Option String) : Proc T Unit := do
  let now ← utcnow
  flush [.insertHistory
    { userId, deviceId, ipAddress, userAgent, osType, appVersion
      loginAt := now
      loginType := "EMAIL"
      success, failureReason }]

end LoginHistoryRepository

end SampleAuthApi
