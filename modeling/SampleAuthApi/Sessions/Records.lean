import SampleAuthApi.Sessions.Conduct

/-!
# What a request writes to the database, and how it ends

`MayWrite x q f` holds of the statements that the request `q` may flush when its digest is `f`,
`Recorded` of the writes it has committed when it succeeds, and `Rejected` of the exceptions it may
end with.  `MayCall` and `Ends` put both halves of the contract together; `endpoint_conforms`
proves it, endpoint by endpoint, from one rule for each function of the services.
-/

namespace SampleAuthApi

open Transactions

variable {T K : Type} [Instant T]

/-! ## Statements -/

/-- The row that a `signup` inserts. -/
def Registers (x : Externals K) (q : Request K) (f : Progress T) (user : User T) : Prop :=
  ∃ email password name phone agreed salt, q = .signup email password name phone agreed ∧
    user.email = email ∧ user.name = name ∧ user.phoneNumber = phone ∧
    x.pwdContext.hash salt password = .ok user.hashedPassword ∧ f.drawn = [user.id] ∧
    user.status = .active ∧ user.deletedAt = none

/-- The statement by which a login records its device, given what it found in the state `s`. -/
def Upserts (s : Stores T) (u : Uuid) (d : String) : Write T → Prop
  | .insertDevice device => device.userId = u ∧ device.deviceId = d ∧ device.isActive = true ∧
    s.db.committed.select (.deviceByUserAndDevice u d) = none
  | .updateDevice u' d' changes => u' = u ∧ d' = d ∧ ∃ row,
    s.db.committed.select (.deviceByUserAndDevice u d) = some row ∧
    changes.isActive = changed row.isActive true
  | _ => False

/-- The statement that deactivates a device row. -/
def deactivation (t : T) (row : UserDevice T) : Write T :=
  .updateDevice row.userId row.deviceId
    { isActive := changed row.isActive false, updatedAt := some t }

/-- The statement that records the last login. -/
def lastLogin (u : Uuid) (t : T) : Write T := .updateUser u { lastLoginAt := some t }

/-- The changes that a request may make to the row of its user. -/
def Edits (x : Externals K) (q : Request K) (f : Progress T) (u : Uuid) (changes : UserPatch T) :
    Prop :=
  match q with
  | .updateMe _ _ name phone => ∃ t, changes.hashedPassword = none ∧ changes.deletedAt = none ∧
    changes.status = none ∧ changes.updatedAt = some t ∧
    (∀ n, changes.name = some n → name = some n) ∧
    ∀ p, changes.phoneNumber = some p → phone = some p
  | .changePassword _ _ _ new => ∃ user salt hash t, Changing x q f u user ∧
    x.pwdContext.hash salt new = .ok hash ∧
    changes = { hashedPassword := changed user.hashedPassword hash, updatedAt := some t }
  | .deleteAccount _ _ password => ∃ s user t, f.account = some (s, some user) ∧
    s.db.committed.select (.userById u) = some user ∧
    x.pwdContext.verify password user.hashedPassword = .ok true ∧
    changes = { deletedAt := some t, status := changed user.status .withdrawn }
  | _ => False

/-- The statements that a request may flush. -/
def MayWrite (x : Externals K) (q : Request K) (f : Progress T) : Write T → Prop
  | .insertUser user => f.wrote = [] ∧ Registers x q f user
  | .updateUser id changes =>
    (∃ d t, LoggedIn x q f id d ∧ changes = { lastLoginAt := some t }) ∨
    ∃ c, Authorised x q f c ∧ id = c.sub ∧ Edits x q f id changes
  | .insertDevice device => f.wrote = [] ∧ LoggedIn x q f device.userId device.deviceId ∧
    ∃ s, f.devices = some s ∧ Upserts s device.userId device.deviceId (.insertDevice device)
  | .updateDevice u d changes =>
    (f.wrote = [] ∧ LoggedIn x q f u d ∧
      ∃ s, f.devices = some s ∧ Upserts s u d (.updateDevice u d changes)) ∨
    ((Deletes x q f u d ∨ Sweeps x q f u) ∧ ∃ s row t, f.devices = some s ∧
      row ∈ s.db.committed.devices ∧ Write.updateDevice u d changes = deactivation t row)
  | .insertHistory row => ∃ email password client, q = .login email password client ∧
    row.deviceId = client.xDeviceId ∧ (row.success = true → ∃ u r,
      LoggedIn x q f u client.xDeviceId ∧ r ∈ f.drawn ∧ Stored x f u client.xDeviceId r)

/-! ## Results -/

/-- The request has deactivated the row of `(u, d)`, if it found one. -/
def Deactivated (f : Progress T) (u : Uuid) (d : String) : Prop :=
  ∃ s t, f.devices = some s ∧ f.committed =
    (s.db.committed.select (.deviceByUserAndDevice u d)).toList.map (deactivation t)

/-- The request has deactivated all active device rows of `u` after the writes `before`. -/
def DeactivatedAll (f : Progress T) (u : Uuid) (before : List (Write T)) : Prop :=
  ∃ s t, f.devices = some s ∧ f.committed =
    before ++ (s.db.committed.select (.activeDevices u)).map (deactivation t)

/-- What a request has committed when it succeeds. -/
def Recorded (x : Externals K) (q : Request K) (resp : Response T K) (f : Progress T) : Prop :=
  match q with
  | .signup _ _ _ _ _ => ∃ user, Registers x q f user ∧ f.committed = [.insertUser user] ∧
    resp = .signup ⟨user.id, user.email, user.name, user.createdAt⟩
  | .login _ _ client => ∃ u s write last row, LoggedIn x q f u client.xDeviceId ∧
    f.devices = some s ∧ Upserts s u client.xDeviceId write ∧
    f.committed = write :: (last ++ [.insertHistory row]) ∧ (∀ w ∈ last, ∃ t, w = lastLogin u t) ∧
    row.userId = some u ∧ row.deviceId = client.xDeviceId ∧ row.success = true ∧
    row.failureReason = none ∧ f.checks = 1 ∧ row.ipAddress = client.clientIp
  | .refresh _ _ => f.committed = []
  | .logout _ dev => ∃ c, Bears x q c ∧ c.deviceId = dev ∧ Deactivated f c.sub dev
  | .logoutAll _ _ => ∃ c ds, Bears x q c ∧ DeactivatedAll f c.sub [] ∧ f.snapshot = some ds ∧
    resp = .logoutAll ds.card
  | .getMe _ _ => f.committed = []
  | .updateMe _ _ _ _ => ∃ c changes, Bears x q c ∧ Edits x q f c.sub changes ∧
    f.committed = [.updateUser c.sub changes]
  | .changePassword _ _ _ _ | .deleteAccount _ _ _ => ∃ c changes, Bears x q c ∧
    Edits x q f c.sub changes ∧ DeactivatedAll f c.sub [.updateUser c.sub changes]
  | .listDevices _ dev => ∃ c s, Bears x q c ∧ c.deviceId = dev ∧ f.committed = [] ∧
    f.devices = some s ∧
    resp = .devices ((s.db.committed.select (.activeDevices c.sub)).map fun d =>
      ⟨d.deviceId, d.deviceName, d.osType, d.osVersion, d.appVersion, d.lastLoginAt,
        d.lastAccessAt, d.lastLoginIp, d.deviceId == c.deviceId⟩)
  | .forceLogoutDevice _ dev target => ∃ c, Bears x q c ∧ c.deviceId = dev ∧ target ≠ dev ∧
    Deactivated f c.sub target

/-- The exceptions of `get_current_user`. -/
def Exc.authentication : Exc → Bool
  | .tokenExpired | .invalidToken | .tokenRevoked | .deviceMismatch | .keyMissing => true
  | _ => false

/-- Why a login with the given row for its email is rejected with `e`. -/
def LoginRejected (x : Externals K) (password dev : String) (f : Progress T) (e : Exc) :
    Option (User T) → Prop
  | none => (∃ b, x.pwdContext.verify password x.dummyHash = .ok b ∧ e = .invalidCredentials) ∨
    x.pwdContext.verify password x.dummyHash = .error e
  | some user =>
    (x.pwdContext.verify password user.hashedPassword = .ok false ∧ e = .invalidCredentials) ∨
    x.pwdContext.verify password user.hashedPassword = .error e ∨
    (x.pwdContext.verify password user.hashedPassword = .ok true ∧
      ((user.status = .inactive ∧ e = .accountSuspended) ∨
        (user.status = .withdrawn ∧ e = .accountWithdrawn) ∨
        (user.status = .active ∧ e = .integrity ∧ ∃ s s' device, f.devices = some s ∧
          Upserts s user.id dev (.insertDevice device) ∧
          f.refused = some (s', [.insertDevice device]) ∧
          s'.db.committed.insertDevice device = none)))

/-- Why a request is rejected with `e`, without a failure of Redis or the database. -/
def Rejected (x : Externals K) (q : Request K) (e : Exc) (f : Progress T) : Prop :=
  match q with
  | .signup email password _ _ _ => (e = .emailAlreadyExists ∧
      ((∃ s user, f.account = some (s, some user) ∧
          s.db.committed.select (.userByEmail email) = some user) ∨
        ∃ s s' user, f.account = some (s, none) ∧
          s.db.committed.select (.userByEmail email) = none ∧ Registers x q f user ∧
          f.refused = some (s', [.insertUser user]) ∧
          s'.db.committed.insertUser user = none)) ∨
    ∃ s salt, f.account = some (s, none) ∧
      s.db.committed.select (.userByEmail email) = none ∧
      x.pwdContext.hash salt password = .error e
  | .login email password client => ∃ s, f.account = some
      (s, s.db.committed.select (.userByEmail email)) ∧ f.checks = 1 ∧
    LoginRejected x password client.xDeviceId f e (s.db.committed.select (.userByEmail email))
  | .forceLogoutDevice _ dev target => e.authentication = true ∨
    (e = .cannotLogoutCurrentDevice ∧ target = dev) ∨
    (e = .deviceNotFound ∧ ∃ c s, Authorised x q f c ∧ f.devices = some s ∧ ∀ row,
      s.db.committed.select (.deviceByUserAndDevice c.sub target) = some row →
        row.isActive = false)
  | _ => True

/-! ## The contract -/

/-- The calls that a request may issue. -/
def MayCall (x : Externals K) (q : Request K) (f : Progress T) : Op T → Prop
  | .redis c => MaySend x q f c
  | .select _ => f.committed = []
  | .flush ws => f.committed = [] ∧ ∀ w ∈ ws, MayWrite x q f w
  | .uuid4 => f.sent = []
  | .commit => ∃ resp : Response T K, Succeeded x q resp f.commit ∧ Recorded x q resp f.commit
  | _ => True

/-- How a request ends. -/
def Ends (x : Externals K) (q : Request K) : Except Exc (Response T K) → Progress T → Prop
  | .ok resp, f => f.wrote = [] ∧ Succeeded x q resp f ∧ Recorded x q resp f
  | .error e, f => f.wrote = [] ∧ (f.failed = true ∨ Refused x q f) ∧ f.committed = [] ∧
    (f.failed = true ∨ Rejected x q e f)

end SampleAuthApi
