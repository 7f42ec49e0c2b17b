import SampleAuthApi.Foundation.Instant

/-!
# The tables

The rows of `users`, `user_devices` and `login_histories`, the changes that the session sends to
them, and the database they make up.  The unique indexes (`users.id`, `users.email`,
`ix_user_device`) are fields of `Database`, so a database that breaks one cannot be built: an
`INSERT` that would break one is refused, which is the driver's `IntegrityError`.

The column `push_token`, which no service reads or writes, the surrogate keys of the last two tables
and the foreign key of the devices, whose users are never deleted, are left out.  So are the
server's part in the timestamps (`server_default`, and `onupdate`, which moves `users.updated_at` at
a login and at a deletion as well), the precision of a `DATETIME`, and the lengths of the columns: a
value that is too long for its column may make the flush fail.
-/

namespace SampleAuthApi

/-- A `uuid4` string: hexadecimal digits and hyphens, so in particular no `:`. -/
structure Uuid where
  /-- The string. -/
  val : String
  /-- Only hexadecimal digits and hyphens occur. -/
  hex : val.toList.all (fun c => c.isDigit || ('a' ≤ c && c ≤ 'f') || c == '-') = true
  deriving DecidableEq

/-- The values of `User.status`. -/
inductive UserStatus
  | active
  | inactive
  | withdrawn
  deriving DecidableEq

/-- A row of `users`. -/
structure User (T : Type) where
  id : Uuid
  email : String
  hashedPassword : String
  name : String
  phoneNumber : Option String
  profileImageUrl : Option String
  status : UserStatus
  marketingAgreed : Bool
  lastLoginAt : Option T
  createdAt : T
  updatedAt : T
  deletedAt : Option T

/-- A row of `user_devices`. -/
structure UserDevice (T : Type) where
  userId : Uuid
  deviceId : String
  deviceName : Option String
  osType : String
  osVersion : Option String
  appVersion : Option String
  lastLoginAt : Option T
  lastLoginIp : Option String
  lastAccessAt : Option T
  isActive : Bool
  createdAt : T
  updatedAt : T

/-- A row of `login_histories`. -/
structure LoginHistory (T : Type) where
  userId : Option Uuid
  deviceId : String
  ipAddress : Option String
  userAgent : Option String
  osType : Option String
  appVersion : Option String
  loginAt : T
  loginType : String
  success : Bool
  failureReason : Option String

/-- The columns that an `UPDATE` of `users` sets. -/
structure UserPatch (T : Type) where
  name : Option String := none
  phoneNumber : Option String := none
  hashedPassword : Option String := none
  status : Option UserStatus := none
  lastLoginAt : Option T := none
  updatedAt : Option T := none
  deletedAt : Option T := none

/-- The columns that an `UPDATE` of `user_devices` sets. -/
structure UserDevicePatch (T : Type) where
  deviceName : Option (Option String) := none
  osType : Option String := none
  osVersion : Option (Option String) := none
  appVersion : Option (Option String) := none
  lastLoginAt : Option T := none
  lastLoginIp : Option (Option String) := none
  lastAccessAt : Option T := none
  isActive : Option Bool := none
  updatedAt : Option T := none

/-- The session sends a column in an `UPDATE` only when the assigned value differs from the loaded
one. -/
def changed {α : Type} [DecidableEq α] (loaded assigned : α) : Option α :=
  if assigned = loaded then none else some assigned

/-- An assigned value that is sent. -/
theorem changed_eq_some {α : Type} [DecidableEq α] {loaded assigned v : α}
    (h : changed loaded assigned = some v) : v = assigned := by
  unfold changed at h
  split at h
  · cases h
  · exact (Option.some.inj h).symm

variable {T : Type}

/-- The row after an `UPDATE`. -/
def UserPatch.apply (c : UserPatch T) (r : User T) : User T :=
  { r with
    name := c.name.getD r.name
    phoneNumber := c.phoneNumber.or r.phoneNumber
    hashedPassword := c.hashedPassword.getD r.hashedPassword
    status := c.status.getD r.status
    lastLoginAt := c.lastLoginAt.or r.lastLoginAt
    updatedAt := c.updatedAt.getD r.updatedAt
    deletedAt := c.deletedAt.or r.deletedAt }

/-- The row after an `UPDATE`. -/
def UserDevicePatch.apply (c : UserDevicePatch T) (r : UserDevice T) : UserDevice T :=
  { r with
    deviceName := c.deviceName.getD r.deviceName
    osType := c.osType.getD r.osType
    osVersion := c.osVersion.getD r.osVersion
    appVersion := c.appVersion.getD r.appVersion
    lastLoginAt := c.lastLoginAt.or r.lastLoginAt
    lastLoginIp := c.lastLoginIp.getD r.lastLoginIp
    lastAccessAt := c.lastAccessAt.or r.lastAccessAt
    isActive := c.isActive.getD r.isActive
    updatedAt := c.updatedAt.getD r.updatedAt }

@[simp] theorem UserPatch.apply_id (c : UserPatch T) (r : User T) : (c.apply r).id = r.id := rfl

@[simp] theorem UserPatch.apply_email (c : UserPatch T) (r : User T) :
    (c.apply r).email = r.email := rfl

@[simp] theorem UserDevicePatch.apply_userId (c : UserDevicePatch T) (r : UserDevice T) :
    (c.apply r).userId = r.userId := rfl

@[simp] theorem UserDevicePatch.apply_deviceId (c : UserDevicePatch T) (r : UserDevice T) :
    (c.apply r).deviceId = r.deviceId := rfl

/-- A statement that changes the database. -/
inductive Write (T : Type) : Type
  /-- `INSERT INTO users` -/
  | insertUser (user : User T)
  /-- `UPDATE users … WHERE id = ?` -/
  | updateUser (id : Uuid) (changes : UserPatch T)
  /-- `INSERT INTO user_devices` -/
  | insertDevice (device : UserDevice T)
  /-- `UPDATE user_devices … WHERE id = ?`, the row named by its user and its device -/
  | updateDevice (userId : Uuid) (deviceId : String) (changes : UserDevicePatch T)
  /-- `INSERT INTO login_histories` -/
  | insertHistory (row : LoginHistory T)

/-- The two device rows have the same key of `ix_user_device`. -/
def UserDevice.sameKey (a b : UserDevice T) : Prop := a.userId = b.userId ∧ a.deviceId = b.deviceId

/-- The contents of the three tables, oldest row first. -/
structure Database (T : Type) where
  /-- The rows of `users`. -/
  users : List (User T)
  /-- The rows of `user_devices`. -/
  devices : List (UserDevice T)
  /-- The rows of `login_histories`. -/
  histories : List (LoginHistory T)
  /-- The primary key of `users`. -/
  users_id : users.Pairwise fun a b => a.id ≠ b.id
  /-- The unique index on `users.email`. -/
  users_email : users.Pairwise fun a b => a.email ≠ b.email
  /-- The unique index `ix_user_device`. -/
  devices_key : devices.Pairwise fun a b => ¬ a.sameKey b

namespace Database

/-- The empty database. -/
def empty : Database T := ⟨[], [], [], .nil, .nil, .nil⟩

/-- `INSERT INTO users`, unless the primary key or the email is taken. -/
def insertUser (db : Database T) (u : User T) : Option (Database T) :=
  if h : ∀ r ∈ db.users, r.id ≠ u.id ∧ r.email ≠ u.email then
    some { db with
      users := db.users ++ [u]
      users_id := List.pairwise_append.mpr
        ⟨db.users_id, List.pairwise_singleton _ _, fun r hr v hv => by
          rw [List.mem_singleton.mp hv]; exact (h r hr).1⟩
      users_email := List.pairwise_append.mpr
        ⟨db.users_email, List.pairwise_singleton _ _, fun r hr v hv => by
          rw [List.mem_singleton.mp hv]; exact (h r hr).2⟩ }
  else none

/-- `UPDATE users … WHERE id = ?`. -/
def updateUser (db : Database T) (id : Uuid) (c : UserPatch T) : Database T :=
  { db with
    users := db.users.map fun r => if r.id = id then c.apply r else r
    users_id := by
      refine List.pairwise_map.mpr (db.users_id.imp fun {a b} h => ?_)
      split <;> split <;> simpa using h
    users_email := by
      refine List.pairwise_map.mpr (db.users_email.imp fun {a b} h => ?_)
      split <;> split <;> simpa using h }

instance (a b : UserDevice T) : Decidable (a.sameKey b) := by
  unfold UserDevice.sameKey; infer_instance

/-- `INSERT INTO user_devices`, unless the user already has a row for the device. -/
def insertDevice (db : Database T) (d : UserDevice T) : Option (Database T) :=
  if h : ∀ r ∈ db.devices, ¬ r.sameKey d then
    some { db with
      devices := db.devices ++ [d]
      devices_key := List.pairwise_append.mpr
        ⟨db.devices_key, List.pairwise_singleton _ _, fun r hr v hv => by
          rw [List.mem_singleton.mp hv]; exact h r hr⟩ }
  else none

/-- `UPDATE user_devices … WHERE id = ?`. -/
def updateDevice (db : Database T) (userId : Uuid) (deviceId : String) (c : UserDevicePatch T) :
    Database T :=
  { db with
    devices := db.devices.map fun r =>
      if r.userId = userId ∧ r.deviceId = deviceId then c.apply r else r
    devices_key := by
      refine List.pairwise_map.mpr (db.devices_key.imp fun {a b} h => ?_)
      unfold UserDevice.sameKey at h ⊢
      split <;> split <;> simpa using h }

/-- `INSERT INTO login_histories`. -/
def insertHistory (db : Database T) (row : LoginHistory T) : Database T :=
  { db with histories := db.histories ++ [row] }

/-- The database after a statement; `none` when a unique index refuses it. -/
def apply : Write T → Database T → Option (Database T)
  | .insertUser u, db => db.insertUser u
  | .updateUser id c, db => some (db.updateUser id c)
  | .insertDevice d, db => db.insertDevice d
  | .updateDevice u d c, db => some (db.updateDevice u d c)
  | .insertHistory row, db => some (db.insertHistory row)

end Database

/-- The tables. -/
inductive Table
  | users
  | userDevices
  | loginHistories
  deriving DecidableEq

/-- The table that a statement changes. -/
def Write.table : Write T → Table
  | .insertUser _ | .updateUser _ _ => .users
  | .insertDevice _ | .updateDevice _ _ _ => .userDevices
  | .insertHistory _ => .loginHistories

namespace Database

/-- A statement on another table leaves the users alone. -/
theorem users_apply {db : Database T} {wr : Write T} (h : wr.table ≠ .users) :
    ((apply wr db).getD db).users = db.users := by
  cases wr with
  | insertUser user => exact absurd rfl h
  | updateUser id c => exact absurd rfl h
  | insertDevice device =>
    simp only [apply, insertDevice]
    split <;> rfl
  | updateDevice u d c => rfl
  | insertHistory row => rfl

/-- A statement on another table leaves the device rows alone. -/
theorem devices_apply {db : Database T} {wr : Write T} (h : wr.table ≠ .userDevices) :
    ((apply wr db).getD db).devices = db.devices := by
  cases wr with
  | insertUser user =>
    simp only [apply, insertUser]
    split <;> rfl
  | updateUser id c => rfl
  | insertDevice device => exact absurd rfl h
  | updateDevice u d c => exact absurd rfl h
  | insertHistory row => rfl

/-- A statement on another table leaves the login histories alone. -/
theorem histories_apply {db : Database T} {wr : Write T} (h : wr.table ≠ .loginHistories) :
    ((apply wr db).getD db).histories = db.histories := by
  cases wr with
  | insertUser user =>
    simp only [apply, insertUser]
    split <;> rfl
  | updateUser id c => rfl
  | insertDevice device =>
    simp only [apply, insertDevice]
    split <;> rfl
  | updateDevice u d c => rfl
  | insertHistory row => exact absurd rfl h

end Database

/-- Two statements of different transactions that cannot both be uncommitted: they touch the same
row, or insert the same key into a unique index.  The second one waits.  A database may hold further
locks, as those of foreign keys, or give up waiting, which is a failed call. -/
def Write.conflicts : Write T → Write T → Bool
  | .insertUser u, .insertUser v => u.id == v.id || u.email == v.email
  | .insertUser u, .updateUser id _ => u.id == id
  | .updateUser id _, .insertUser v => id == v.id
  | .updateUser id _, .updateUser id' _ => id == id'
  | .insertDevice d, .insertDevice d' => d.userId == d'.userId && d.deviceId == d'.deviceId
  | .insertDevice d, .updateDevice u n _ => d.userId == u && d.deviceId == n
  | .updateDevice u n _, .insertDevice d => d.userId == u && d.deviceId == n
  | .updateDevice u n _, .updateDevice u' n' _ => u == u' && n == n'
  | _, _ => false

/-- A `SELECT` of a repository. -/
inductive Query : Type
  /-- the user with this id whose `deleted_at` is null -/
  | userById (id : Uuid)
  /-- the user with this email whose `deleted_at` is null -/
  | userByEmail (email : String)
  /-- the device row of this user and device -/
  | deviceByUserAndDevice (userId : Uuid) (deviceId : String)
  /-- the active device rows of this user -/
  | activeDevices (userId : Uuid)

/-- The type of the rows a query returns: at most one row where the selected columns are those of a
unique index. -/
@[reducible] def Query.Rows (T : Type) : Query → Type
  | .userById _ => Option (User T)
  | .userByEmail _ => Option (User T)
  | .deviceByUserAndDevice _ _ => Option (UserDevice T)
  | .activeDevices _ => List (UserDevice T)

/-- The rows that a query selects. -/
def Database.select (db : Database T) : (q : Query) → q.Rows T
  | .userById id => db.users.find? fun r => r.id == id && r.deletedAt.isNone
  | .userByEmail email => db.users.find? fun r => r.email == email && r.deletedAt.isNone
  | .deviceByUserAndDevice u d => db.devices.find? fun r => r.userId == u && r.deviceId == d
  | .activeDevices u => db.devices.filter fun r => r.userId == u && r.isActive

namespace Database

/-- Two rows with one id are one row. -/
theorem id_unique {db : Database T} {r r' : User T} (hr : r ∈ db.users) (hr' : r' ∈ db.users)
    (h : r.id = r'.id) : r = r' :=
  List.inj_on_of_nodup_map (List.pairwise_map.mpr db.users_id) hr hr' h

/-- Two rows with one email are one row. -/
theorem email_unique {db : Database T} {r r' : User T} (hr : r ∈ db.users) (hr' : r' ∈ db.users)
    (h : r.email = r'.email) : r = r' :=
  List.inj_on_of_nodup_map (List.pairwise_map.mpr db.users_email) hr hr' h

/-- Two device rows with one key are one row. -/
theorem device_unique {db : Database T} {r r' : UserDevice T} (hr : r ∈ db.devices)
    (hr' : r' ∈ db.devices) (h : r.sameKey r') : r = r' := by
  have hnodup : (db.devices.map fun r => (r.userId, r.deviceId)).Nodup :=
    List.pairwise_map.mpr (db.devices_key.imp fun hne heq => hne (Prod.mk.inj heq))
  exact List.inj_on_of_nodup_map hnodup hr hr' (Prod.ext h.1 h.2)

/-- A selected user is a live row with the requested id. -/
theorem select_userById {db : Database T} {id : Uuid} {r : User T}
    (h : db.select (.userById id) = some r) : r ∈ db.users ∧ r.id = id ∧ r.deletedAt = none := by
  have hp := List.find?_some h
  simp only [Bool.and_eq_true, beq_iff_eq, Option.isNone_iff_eq_none] at hp
  exact ⟨List.mem_of_find?_eq_some h, hp.1, hp.2⟩

/-- A live row is selected by its id. -/
theorem select_userById_of_mem {db : Database T} {r : User T} (hr : r ∈ db.users)
    (hlive : r.deletedAt = none) : db.select (.userById r.id) = some r := by
  cases hsel : db.select (.userById r.id) with
  | none =>
    have hnone := List.find?_eq_none.mp hsel r hr
    simp [hlive] at hnone
  | some r' =>
    obtain ⟨hr', hid, -⟩ := select_userById hsel
    rw [id_unique hr' hr hid]

/-- An `UPDATE` that deletes nobody changes the row that is selected by an id, not whether there is
one. -/
theorem select_userById_updateUser {db : Database T} {id u : Uuid} {c : UserPatch T}
    (hc : c.deletedAt = none) : (db.updateUser id c).select (.userById u) =
      (db.select (.userById u)).map fun r => if r.id = id then c.apply r else r := by
  have hfun : ((fun r : User T => r.id == u && r.deletedAt.isNone) ∘
      fun r => if r.id = id then c.apply r else r) = fun r => r.id == u && r.deletedAt.isNone := by
    funext r
    by_cases hr : r.id = id
    · simp [hr, UserPatch.apply, hc]
    · simp [hr]
  simp only [Database.select, updateUser, List.find?_map, hfun]

/-- An `UPDATE` that deletes nobody changes the row that is selected by an email, not whether there
is one. -/
theorem select_userByEmail_updateUser {db : Database T} {id : Uuid} {email : String}
    {c : UserPatch T} (hc : c.deletedAt = none) :
    (db.updateUser id c).select (.userByEmail email) =
      (db.select (.userByEmail email)).map fun r => if r.id = id then c.apply r else r := by
  have hfun : ((fun r : User T => r.email == email && r.deletedAt.isNone) ∘
      fun r => if r.id = id then c.apply r else r) =
      fun r => r.email == email && r.deletedAt.isNone := by
    funext r
    by_cases hr : r.id = id
    · simp [hr, UserPatch.apply, hc]
    · simp [hr]
  simp only [Database.select, updateUser, List.find?_map, hfun]

/-- A selected user is a live row with the requested email. -/
theorem select_userByEmail {db : Database T} {email : String} {r : User T}
    (h : db.select (.userByEmail email) = some r) :
    r ∈ db.users ∧ r.email = email ∧ r.deletedAt = none := by
  have hp := List.find?_some h
  simp only [Bool.and_eq_true, beq_iff_eq, Option.isNone_iff_eq_none] at hp
  exact ⟨List.mem_of_find?_eq_some h, hp.1, hp.2⟩

/-- No user is selected exactly when every row with the email is deleted. -/
theorem select_userByEmail_eq_none {db : Database T} {email : String} :
    db.select (.userByEmail email) = none ↔
      ∀ r ∈ db.users, r.email = email → r.deletedAt ≠ none := by
  simp only [Database.select, List.find?_eq_none, Bool.and_eq_true, beq_iff_eq,
    Option.isNone_iff_eq_none, not_and]

/-- An `INSERT` of a user is refused exactly when the id or the email is taken. -/
theorem insertUser_eq_none {db : Database T} {user : User T} :
    db.insertUser user = none ↔ ∃ r ∈ db.users, r.id = user.id ∨ r.email = user.email := by
  unfold Database.insertUser
  split
  · rename_i h
    constructor
    · intro hnone
      cases hnone
    · rintro ⟨r, hr, heq | heq⟩
      · exact absurd heq (h r hr).1
      · exact absurd heq (h r hr).2
  · rename_i h
    constructor
    · intro _
      by_contra hne
      refine h fun r hr => ⟨fun heq => hne ⟨r, hr, .inl heq⟩, fun heq => hne ⟨r, hr, .inr heq⟩⟩
    · intro _
      rfl

/-- A selected device row has the requested key. -/
theorem select_device {db : Database T} {u : Uuid} {d : String} {r : UserDevice T}
    (h : db.select (.deviceByUserAndDevice u d) = some r) : r.userId = u ∧ r.deviceId = d := by
  have hp := List.find?_some h
  simpa only [Bool.and_eq_true, beq_iff_eq] using hp

theorem mem_of_select_device {db : Database T} {u : Uuid} {d : String} {r : UserDevice T}
    (h : db.select (.deviceByUserAndDevice u d) = some r) : r ∈ db.devices :=
  List.mem_of_find?_eq_some h

/-- No device row is selected exactly when there is none with the key. -/
theorem select_device_eq_none {db : Database T} {u : Uuid} {d : String} :
    db.select (.deviceByUserAndDevice u d) = none ↔
      ∀ r ∈ db.devices, ¬ (r.userId = u ∧ r.deviceId = d) := by
  simp only [Database.select, List.find?_eq_none, Bool.and_eq_true, beq_iff_eq]

/-- An `INSERT` of a device row is refused exactly when its key is taken. -/
theorem insertDevice_eq_none {db : Database T} {device : UserDevice T} :
    db.insertDevice device = none ↔ ∃ r ∈ db.devices, r.sameKey device := by
  unfold Database.insertDevice
  split
  · rename_i h
    constructor
    · intro hnone
      cases hnone
    · rintro ⟨r, hr, hkey⟩
      exact absurd hkey (h r hr)
  · rename_i h
    constructor
    · intro _
      by_contra hne
      exact h fun r hr hkey => hne ⟨r, hr, hkey⟩
    · intro _
      rfl

/-- The active rows of a user. -/
theorem mem_select_active {db : Database T} {u : Uuid} {r : UserDevice T} :
    r ∈ db.select (.activeDevices u) ↔ r ∈ db.devices ∧ r.userId = u ∧ r.isActive = true := by
  simp [Database.select]

end Database

end SampleAuthApi
