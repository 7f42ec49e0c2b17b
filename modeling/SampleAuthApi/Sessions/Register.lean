import SampleAuthApi.Foundation.Sequential
import SampleAuthApi.Sessions.Rows

/-!
# A register of accounts and devices

`Register` is what the clients of the service can know about its accounts and devices: it is kept
from their requests and the answers alone, with passwords in the clear, no hashes, no timestamps
that nobody is told and no transactions.  `register` says which answers it permits, given what the
clock showed while the request was served and whether a call to Redis or the database failed.  Which
tokens are accepted is not its business, so a request may always be turned away by the
authentication.

`Describes` relates a register to the tables, row by row; each statement of the services changes
both sides alike.
-/

namespace SampleAuthApi

open Transactions

variable {T K : Type}

/-! ## The register -/

/-- An account. -/
structure Account (T : Type) where
  email : String
  password : String
  name : String
  phoneNumber : Option String
  profileImageUrl : Option String
  marketingAgreed : Bool
  status : UserStatus
  createdAt : T
  deleted : Bool

/-- A device of an account. -/
structure Device where
  deviceName : Option String
  osType : String
  osVersion : Option String
  appVersion : Option String
  ipAddress : Option String
  active : Bool

/-- The device after a login from it, where `old` is the device before. -/
def ClientInfo.device (client : ClientInfo) (old : Option Device) : Device where
  deviceName := (old.map fun v => pyOr client.xDeviceName v.deviceName).getD client.xDeviceName
  osType := client.xOsType.getD "unknown"
  osVersion := (old.map fun v => pyOr client.xOsVersion v.osVersion).getD client.xOsVersion
  appVersion := (old.map fun v => pyOr client.xAppVersion v.appVersion).getD client.xAppVersion
  ipAddress := client.clientIp
  active := true

/-- The device without its session. -/
def Device.signedOut (v : Device) : Device := { v with active := false }

/-- The accounts and their devices. -/
structure Register (T : Type) where
  accounts : Uuid → Option (Account T)
  devices : Uuid → String → Option Device
  /-- When the account was last changed, if its owner has been told since. -/
  told : Uuid → Option T

namespace Register

/-- The register of a service that nobody has used. -/
def empty : Register T := ⟨fun _ => none, fun _ _ => none, fun _ => none⟩

/-- The account `u` is now `a`. -/
def setAccount (b : Register T) (u : Uuid) (a : Account T) : Register T :=
  { b with accounts := fun v => if v = u then some a else b.accounts v }

/-- The account `u`, if it is there, has changed. -/
def modifyAccount (b : Register T) (u : Uuid) (f : Account T → Account T) : Register T :=
  { b with accounts := fun v => if v = u then (b.accounts u).map f else b.accounts v }

/-- The device `d` of `u` is now `v`. -/
def setDevice (b : Register T) (u : Uuid) (d : String) (v : Device) : Register T :=
  { b with devices := fun u' d' => if u' = u ∧ d' = d then some v else b.devices u' d' }

/-- The device `d` of `u` is signed out. -/
def signOut (b : Register T) (u : Uuid) (d : String) : Register T :=
  { b with
    devices := fun u' d' =>
      if u' = u ∧ d' = d then (b.devices u d).map Device.signedOut else b.devices u' d' }

/-- All devices of `u` are signed out. -/
def signOutAll (b : Register T) (u : Uuid) : Register T :=
  { b with
    devices := fun u' d =>
      if u' = u then (b.devices u d).map Device.signedOut else b.devices u' d }

/-- The owner of the account `u` has been told when it was last changed, or that is unknown. -/
def tell (b : Register T) (u : Uuid) (t : Option T) : Register T :=
  { b with told := fun v => if v = u then t else b.told v }

/-- The account is there and not deleted. -/
def Live (b : Register T) (u : Uuid) (a : Account T) : Prop :=
  b.accounts u = some a ∧ a.deleted = false

/-- The devices of `u` from which somebody is logged in. -/
def ActiveDevice (b : Register T) (u : Uuid) (d : String) (v : Device) : Prop :=
  b.devices u d = some v ∧ v.active = true

/-- The register after a request of the bearer of a token. -/
def byBearer (b : Register T) (x : Externals K) (token : K) (f : Uuid → Register T) : Register T :=
  match x.jwt.verify token with
  | some c => f c.sub
  | none => b

/-- The register after a successful request. -/
def record (x : Externals K) (b : Register T) : Request K → Response T K → Register T
  | .signup email password name phone agreed, .signup data =>
    (b.setAccount data.userId
      { email, password, name
        phoneNumber := phone
        profileImageUrl := none
        marketingAgreed := agreed
        status := .active
        createdAt := data.createdAt
        deleted := false }).tell data.userId (some data.createdAt)
  | .login _ _ client, .login data =>
    (b.setDevice data.user.userId client.xDeviceId
      (client.device (b.devices data.user.userId client.xDeviceId))).tell data.user.userId none
  | .logout tok dev, _ => b.byBearer x tok fun u => b.signOut u dev
  | .logoutAll tok _, _ => b.byBearer x tok b.signOutAll
  | .getMe tok _, .user data => b.byBearer x tok fun u => b.tell u (some data.updatedAt)
  | .updateMe tok _ name phone, .userUpdate data => b.byBearer x tok fun u =>
    (b.modifyAccount u fun a =>
      { a with name := name.getD a.name, phoneNumber := phone.or a.phoneNumber }).tell u
        (some data.updatedAt)
  | .changePassword tok _ _ new, _ => b.byBearer x tok fun u =>
    ((b.modifyAccount u fun a => { a with password := new }).tell u none).signOutAll u
  | .deleteAccount tok _ _, _ => b.byBearer x tok fun u =>
    ((b.modifyAccount u fun a => { a with deleted := true, status := .withdrawn }).tell u
      none).signOutAll u
  | .forceLogoutDevice tok _ target, _ => b.byBearer x tok fun u => b.signOut u target
  | _, _ => b

/-- The register after a request; one that fails changes nothing. -/
def next (x : Externals K) (b : Register T) (q : Request K) :
    Except Exc (Response T K) → Register T
  | .ok resp => b.record x q resp
  | .error _ => b

/-- The list shows the devices of `u` from which somebody is logged in, each once. -/
structure Lists (b : Register T) (u : Uuid) (current : String) (l : List (DeviceResponse T)) :
    Prop where
  once : (l.map DeviceResponse.deviceId).Nodup
  shown : ∀ d v, b.ActiveDevice u d v ↔ ∃ r ∈ l, r.deviceId = d ∧
    v = ⟨r.deviceName, r.osType, r.osVersion, r.appVersion, r.ipAddress, true⟩
  current : ∀ r ∈ l, r.isCurrent = (r.deviceId == current)

/-- `passlib` refuses the password. -/
def Unhashable (x : Externals K) (password : String) (e : Exc) : Prop :=
  (∃ salt, x.pwdContext.hash salt password = .error e) ∨
    ∃ hash, x.pwdContext.verify password hash = .error e

/-- The token is an access token of `u` for the device `dev`. -/
def Bearer (x : Externals K) (token : K) (dev : String) (u : Uuid) : Prop :=
  ∃ c, x.jwt.verify token = some c ∧ c.type = .access ∧ c.deviceId = dev ∧ c.sub = u

/-- The successful answers that are permitted, where `opens p q` is the outcome of the comparison
of `p` with the password `q` of an account, and `readings` is what the clock showed, newest
first. -/
def grants (x : Externals K) (opens : String → String → Except Exc Bool) (b : Register T)
    (readings : List T) : Request K → Response T K → Prop
  | .signup email _ name _ _, .signup data => b.accounts data.userId = none ∧
    (∀ u a, b.accounts u = some a → a.email ≠ email) ∧ data.email = email ∧ data.name = name ∧
    readings.head? = some data.createdAt
  | .login email password _, .login data => ∃ a, b.Live data.user.userId a ∧ a.email = email ∧
    a.status = .active ∧ opens password a.password = .ok true ∧ data.user.email = email ∧
    data.user.name = a.name
  | .refresh tok client, .refresh _ => ∃ c a, x.jwt.verify tok = some c ∧ c.type = .refresh ∧
    c.deviceId = client.xDeviceId ∧ b.Live c.sub a
  | .logout tok dev, .message => ∃ u, Bearer x tok dev u
  | .logoutAll tok dev, .logoutAll _ => ∃ u, Bearer x tok dev u
  | .getMe tok dev, .user data => ∃ u a, Bearer x tok dev u ∧ b.Live u a ∧ data =
    ⟨u, a.email, a.name, a.phoneNumber, a.profileImageUrl, a.marketingAgreed, a.createdAt,
      (b.told u).getD data.updatedAt⟩
  | .updateMe tok dev name phone, .userUpdate data => ∃ u a, Bearer x tok dev u ∧ b.Live u a ∧
    data.userId = u ∧ data.name = name.getD a.name ∧ data.phoneNumber = phone.or a.phoneNumber ∧
    readings.head? = some data.updatedAt
  | .changePassword tok dev current new, .message => ∃ u a, Bearer x tok dev u ∧ b.Live u a ∧
    opens current a.password = .ok true ∧ opens new a.password = .ok false
  | .deleteAccount tok dev password, .message => ∃ u a, Bearer x tok dev u ∧ b.Live u a ∧
    opens password a.password = .ok true
  | .listDevices tok dev, .devices l => ∃ u, Bearer x tok dev u ∧ b.Lists u dev l
  | .forceLogoutDevice tok dev target, .message => target ≠ dev ∧
    ∃ u v, Bearer x tok dev u ∧ b.ActiveDevice u target v
  | _, _ => False

/-- The rejections that are permitted, apart from outages. -/
def denies (x : Externals K) (opens : String → String → Except Exc Bool) (b : Register T) :
    Request K → Exc → Prop
  | .signup email password _ _ _, e => (e = .emailAlreadyExists ∧
      ∃ u a, b.accounts u = some a ∧ a.email = email) ∨ Unhashable x password e
  | .login email password _, e => (e = .invalidCredentials ∧
      ∀ u a, b.Live u a → a.email = email → opens password a.password = .ok false) ∨
    (∃ u a, b.Live u a ∧ a.email = email ∧ opens password a.password = .ok true ∧
      ((a.status = .inactive ∧ e = .accountSuspended) ∨
        (a.status = .withdrawn ∧ e = .accountWithdrawn))) ∨ Unhashable x password e
  | .refresh _ _, e => e = .sessionExpired ∨ e = .invalidRefreshToken ∨ e = .keyMissing
  | .getMe tok dev, e | .updateMe tok dev _ _, e => e.authentication = true ∨
    (e = .userNotFound ∧ ∃ u, Bearer x tok dev u ∧ ∀ a, ¬ b.Live u a)
  | .changePassword tok dev current new, e => e.authentication = true ∨
    (e = .userNotFound ∧ ∃ u, Bearer x tok dev u ∧ ∀ a, ¬ b.Live u a) ∨
    (∃ u a, Bearer x tok dev u ∧ b.Live u a ∧
      ((e = .currentPasswordMismatch ∧ opens current a.password = .ok false) ∨
        (e = .samePassword ∧ opens current a.password = .ok true ∧
          opens new a.password = .ok true))) ∨
    Unhashable x current e ∨ Unhashable x new e
  | .deleteAccount tok dev password, e => e.authentication = true ∨
    (e = .userNotFound ∧ ∃ u, Bearer x tok dev u ∧ ∀ a, ¬ b.Live u a) ∨
    (∃ u a, Bearer x tok dev u ∧ b.Live u a ∧ e = .currentPasswordMismatch ∧
      opens password a.password = .ok false) ∨ Unhashable x password e
  | .forceLogoutDevice tok dev target, e => e.authentication = true ∨
    (e = .cannotLogoutCurrentDevice ∧ target = dev) ∨
    (e = .deviceNotFound ∧ ∃ u, Bearer x tok dev u ∧ ∀ v, ¬ b.ActiveDevice u target v)
  | _, e => e.authentication = true

end Register

/-- A request with the circumstances in which it was served. -/
structure ServedRequest (T K : Type) where
  request : Request K
  /-- The readings of the clock, newest first. -/
  readings : List T
  /-- A call to Redis or the database was not carried out. -/
  failed : Bool

/-- What is shown of an answered request. -/
def shown (y : Reply T K) : ServedRequest T K :=
  ⟨y.request, (progress y.performed).readings, (progress y.performed).failed⟩

/-- The results that are permitted; an outage is one only if a call has failed. -/
def Register.permits (x : Externals K) (opens : String → String → Except Exc Bool)
    (b : Register T) (s : ServedRequest T K) : Except Exc (Response T K) → Prop
  | .ok resp => b.grants x opens s.readings s.request resp
  | .error e => (e = .unavailable ∧ s.failed = true) ∨ b.denies x opens s.request e

/-- The register as an object that is used by one request after the other. -/
def register (x : Externals K) (opens : String → String → Except Exc Bool) :
    SerialObject (ServedRequest T K) Exc (Response T K) (Register T) where
  permits := Register.permits x opens
  next b s := Register.next x b s.request

/-- Whether a password opens an account depends on the password of the account, not on the salt of
its hash. -/
def Unsalted (x : Externals K) (opens : String → String → Except Exc Bool) : Prop :=
  ∀ salt p hash, x.pwdContext.hash salt p = .ok hash → ∀ q, x.pwdContext.verify q hash = opens q p

/-! ## The tables of a register -/

/-- The account of a row, if its password is the given one. -/
def User.account (r : User T) (password : String) : Account T where
  email := r.email
  password := password
  name := r.name
  phoneNumber := r.phoneNumber
  profileImageUrl := r.profileImageUrl
  marketingAgreed := r.marketingAgreed
  status := r.status
  createdAt := r.createdAt
  deleted := r.deletedAt.isSome

/-- The device of a row. -/
def UserDevice.device (r : UserDevice T) : Device :=
  ⟨r.deviceName, r.osType, r.osVersion, r.appVersion, r.lastLoginIp, r.isActive⟩

namespace Register

/-- The register describes the tables. -/
structure Describes (x : Externals K) (b : Register T) (db : Database T) : Prop where
  row : ∀ r ∈ db.users, ∃ password salt,
    x.pwdContext.hash salt password = .ok r.hashedPassword ∧
    b.accounts r.id = some (r.account password)
  account : ∀ u a, b.accounts u = some a → ∃ r ∈ db.users, r.id = u
  told : ∀ r ∈ db.users, ∀ t, b.told r.id = some t → r.updatedAt = t
  devices : ∀ u d, b.devices u d = (db.select (.deviceByUserAndDevice u d)).map UserDevice.device

variable {x : Externals K} {b : Register T} {db db' : Database T} {u : Uuid} {d : String}
  {r : User T}

theorem describes_empty (x : Externals K) : Describes x (empty : Register T) Database.empty :=
  ⟨fun _ hr => absurd hr List.not_mem_nil, (fun _ _ h => by cases h),
    fun _ hr => absurd hr List.not_mem_nil, fun _ _ => rfl⟩

/-- Other tables and the order of the columns do not matter. -/
theorem Describes.congr (h : Describes x b db) (husers : db'.users = db.users)
    (hdevices : db'.devices = db.devices) : Describes x b db' := by
  refine ⟨?_, ?_, ?_, fun u d => ?_⟩
  · rw [husers]
    exact h.row
  · rw [husers]
    exact h.account
  · rw [husers]
    exact h.told
  · rw [h.devices]
    unfold Database.select
    rw [hdevices]

/-- The same tables. -/
theorem Describes.of_base (h : Describes x b db) (hdb : db' = db) : Describes x b db' :=
  h.congr (by rw [hdb]) (by rw [hdb])

/-- What the owner of an account is told of its last change is the date in its row. -/
theorem Describes.tell (h : Describes x b db) {t : Option T}
    (ht : ∀ r ∈ db.users, r.id = u → ∀ t', t = some t' → r.updatedAt = t') :
    Describes x (b.tell u t) db := by
  refine ⟨h.row, h.account, fun r hr t' htold => ?_, h.devices⟩
  change (if r.id = u then t else b.told r.id) = some t' at htold
  split at htold
  · rename_i hid
    exact ht r hr hid t' htold
  · exact h.told r hr t' htold

/-- What was known of the last change may be forgotten. -/
theorem Describes.forget (h : Describes x b db) (u : Uuid) : Describes x (b.tell u none) db :=
  h.tell fun _ _ _ _ ht => by cases ht

/-! ### What the queries find -/

theorem Describes.row_live (h : Describes x b db) (hr : r ∈ db.users) (hlive : r.deletedAt = none) :
    ∃ password salt, x.pwdContext.hash salt password = .ok r.hashedPassword ∧
      b.Live r.id (r.account password) := by
  obtain ⟨password, salt, hhash, hacc⟩ := h.row r hr
  exact ⟨password, salt, hhash, hacc, by simp [User.account, hlive]⟩

theorem Describes.live (h : Describes x b db) (hsel : db.select (.userById u) = some r) :
    ∃ password salt, x.pwdContext.hash salt password = .ok r.hashedPassword ∧
      b.Live u (r.account password) := by
  obtain ⟨hmem, rfl, hlive⟩ := Database.select_userById hsel
  exact h.row_live hmem hlive

/-- The row of an account that is not deleted. -/
theorem Describes.of_live {a : Account T} (h : Describes x b db) (ha : b.Live u a) :
    ∃ r ∈ db.users, r.id = u ∧ r.deletedAt = none ∧ a.email = r.email := by
  obtain ⟨r, hr, rfl⟩ := h.account u a ha.1
  obtain ⟨password, salt, -, hacc⟩ := h.row r hr
  have heq : r.account password = a := by
    rw [ha.1] at hacc
    exact (Option.some.inj hacc).symm
  subst heq
  have hdel : r.deletedAt.isSome = false := ha.2
  exact ⟨r, hr, rfl, by simpa using hdel, rfl⟩

theorem Describes.absent (h : Describes x b db) (hsel : db.select (.userById u) = none)
    (a : Account T) : ¬ b.Live u a := by
  intro ha
  obtain ⟨r, hr, rfl, hlive, -⟩ := h.of_live ha
  rw [Database.select_userById_of_mem hr hlive] at hsel
  cases hsel

theorem Describes.no_email {email : String} (h : Describes x b db)
    (hsel : db.select (.userByEmail email) = none) {a : Account T} (ha : b.Live u a) :
    a.email ≠ email := by
  intro heq
  obtain ⟨r, hr, -, hlive, hemail⟩ := h.of_live ha
  exact Database.select_userByEmail_eq_none.mp hsel r hr (hemail.symm.trans heq) hlive

theorem Describes.active (h : Describes x b db) {v : Device} :
    b.ActiveDevice u d v ↔ ∃ r ∈ db.select (.activeDevices u), r.deviceId = d ∧ r.device = v := by
  unfold ActiveDevice
  rw [h.devices]
  constructor
  · rintro ⟨hdev, hact⟩
    obtain ⟨r, hsel, rfl⟩ := Option.map_eq_some_iff.mp hdev
    obtain ⟨hu, hd⟩ := Database.select_device hsel
    exact ⟨r, Database.mem_select_active.mpr ⟨Database.mem_of_select_device hsel, hu, hact⟩, hd,
      rfl⟩
  · rintro ⟨r, hr, rfl, rfl⟩
    obtain ⟨hmem, rfl, hact⟩ := Database.mem_select_active.mp hr
    refine ⟨?_, hact⟩
    cases hsel : db.select (.deviceByUserAndDevice r.userId r.deviceId) with
    | none => exact absurd ⟨rfl, rfl⟩ (Database.select_device_eq_none.mp hsel r hmem)
    | some s =>
      rw [Database.device_unique (Database.mem_of_select_device hsel) hmem
        (Database.select_device hsel)]
      rfl

/-! ### What the statements do -/

theorem Describes.insertUser {user : User T} {salt password : String} (h : Describes x b db)
    (hins : db.insertUser user = some db')
    (hhash : x.pwdContext.hash salt password = .ok user.hashedPassword) :
    Describes x ((b.setAccount user.id (user.account password)).tell user.id
      (some user.updatedAt)) db' := by
  unfold Database.insertUser at hins
  split at hins
  · rename_i hfree
    cases hins
    refine ⟨fun r hr => ?_, fun v a ha => ?_, fun r hr t ht => ?_, h.devices⟩
    · rcases List.mem_append.mp hr with hr | hr
      · obtain ⟨p, s, hp, hacc⟩ := h.row r hr
        exact ⟨p, s, hp, (if_neg (hfree r hr).1).trans hacc⟩
      · rw [List.mem_singleton.mp hr]
        exact ⟨password, salt, hhash, if_pos rfl⟩
    · by_cases hv : v = user.id
      · exact ⟨user, List.mem_append_right _ (List.mem_singleton_self _), hv.symm⟩
      · obtain ⟨r, hr, hid⟩ := h.account v a ((if_neg hv).symm.trans ha)
        exact ⟨r, List.mem_append_left _ hr, hid⟩
    · rcases List.mem_append.mp hr with hr | hr
      · exact h.told r hr t ((if_neg (hfree r hr).1).symm.trans ht)
      · obtain rfl := List.mem_singleton.mp hr
        exact Option.some.inj ((if_pos rfl).symm.trans ht)
  · cases hins

theorem Describes.updateUser {c : UserPatch T} {f : Account T → Account T} {t : Option T}
    (h : Describes x b db) (salt password : String) (hr : r ∈ db.users)
    (hhash : x.pwdContext.hash salt password = .ok (c.apply r).hashedPassword)
    (hf : ∀ a, b.accounts r.id = some a → f a = (c.apply r).account password)
    (ht : ∀ t', t = some t' → (c.apply r).updatedAt = t') :
    Describes x ((b.modifyAccount r.id f).tell r.id t) (db.updateUser r.id c) := by
  refine ⟨fun s' hs' => ?_, fun v a ha => ?_, fun s' hs' t' htold => ?_, h.devices⟩
  · obtain ⟨s, hs, rfl⟩ := List.mem_map.mp hs'
    by_cases hid : s.id = r.id
    · have hsame := Database.id_unique hs hr hid
      subst hsame
      obtain ⟨p, -, -, hacc⟩ := h.row s hr
      rw [if_pos rfl]
      refine ⟨password, salt, hhash, ?_⟩
      change (if (c.apply s).id = s.id then _ else _) = _
      rw [UserPatch.apply_id, if_pos rfl, hacc, Option.map_some, hf _ hacc]
    · rw [if_neg hid]
      obtain ⟨p, t, hp, hacc⟩ := h.row s hs
      exact ⟨p, t, hp, (if_neg hid).trans hacc⟩
  · have hrow : ∃ s ∈ db.users, s.id = v := by
      by_cases hv : v = r.id
      · exact ⟨r, hr, hv.symm⟩
      · exact h.account v a ((if_neg hv).symm.trans ha)
    obtain ⟨s, hs, rfl⟩ := hrow
    refine ⟨_, List.mem_map_of_mem hs, ?_⟩
    by_cases hid : s.id = r.id
    · rw [if_pos hid, UserPatch.apply_id]
    · rw [if_neg hid]
  · obtain ⟨s, hs, rfl⟩ := List.mem_map.mp hs'
    by_cases hid : s.id = r.id
    · obtain rfl := Database.id_unique hs hr hid
      rw [if_pos rfl] at htold ⊢
      change (if (c.apply s).id = s.id then t else b.told (c.apply s).id) = some t' at htold
      rw [UserPatch.apply_id, if_pos rfl] at htold
      exact ht t' htold
    · rw [if_neg hid] at htold ⊢
      exact h.told s hs t' ((if_neg hid).symm.trans htold)

/-- What the register does not know may change. -/
theorem Describes.updateUser_same {c : UserPatch T} (h : Describes x b db) (hr : r ∈ db.users)
    (hhash : (c.apply r).hashedPassword = r.hashedPassword)
    (hdate : (c.apply r).updatedAt = r.updatedAt)
    (hsame : ∀ password, (c.apply r).account password = r.account password) :
    Describes x b (db.updateUser r.id c) := by
  obtain ⟨password, salt, hp, hacc⟩ := h.row r hr
  have hnext := h.updateUser (f := id) (t := b.told r.id) salt password hr
    (by rw [hhash]; exact hp)
    (fun a ha => by
      rw [hacc] at ha
      rw [hsame, ← Option.some.inj ha]
      rfl)
    fun t ht => hdate.trans (h.told r hr t ht)
  have hb : (b.modifyAccount r.id id).tell r.id (b.told r.id) = b := by
    have hfun : (fun v => if v = r.id then (b.accounts r.id).map id else b.accounts v) =
        b.accounts := by
      funext v
      by_cases hv : v = r.id
      · rw [if_pos hv, hv, Option.map_id, id]
      · rw [if_neg hv]
    have htold : (fun v => if v = r.id then b.told r.id else b.told v) = b.told := by
      funext v
      by_cases hv : v = r.id
      · rw [if_pos hv, hv]
      · rw [if_neg hv]
    unfold Register.tell modifyAccount
    rw [hfun, htold]
  rwa [hb] at hnext

theorem Describes.insertDevice {row : UserDevice T} (h : Describes x b db)
    (hins : db.insertDevice row = some db') :
    Describes x (b.setDevice row.userId row.deviceId row.device) db' := by
  unfold Database.insertDevice at hins
  split at hins
  · rename_i hfree
    cases hins
    refine ⟨h.row, h.account, h.told, fun v e => ?_⟩
    change (if v = row.userId ∧ e = row.deviceId then _ else _) = _
    by_cases hkey : v = row.userId ∧ e = row.deviceId
    · obtain ⟨rfl, rfl⟩ := hkey
      have hnone : db.select (.deviceByUserAndDevice row.userId row.deviceId) = none :=
        Database.select_device_eq_none.mpr hfree
      rw [if_pos ⟨rfl, rfl⟩]
      simp only [Database.select, List.find?_append] at hnone ⊢
      rw [hnone]
      simp
    · rw [if_neg hkey, h.devices]
      have hno : (row.userId == v && row.deviceId == e) = false := by
        rw [Bool.and_eq_false_iff, beq_eq_false_iff_ne, beq_eq_false_iff_ne]
        by_contra hboth
        rw [not_or, not_not, not_not] at hboth
        exact hkey ⟨hboth.1.symm, hboth.2.symm⟩
      simp [Database.select, List.find?_append, hno]
  · cases hins

end Register

namespace Database

/-- An `UPDATE` changes the device row that is selected by a key, not whether there is one. -/
theorem select_device_updateDevice {db : Database T} {u v : Uuid} {d e : String}
    {c : UserDevicePatch T} :
    (db.updateDevice u d c).select (.deviceByUserAndDevice v e) =
      (db.select (.deviceByUserAndDevice v e)).map fun r =>
        if r.userId = u ∧ r.deviceId = d then c.apply r else r := by
  have hfun : ((fun r : UserDevice T => r.userId == v && r.deviceId == e) ∘
      fun r => if r.userId = u ∧ r.deviceId = d then c.apply r else r) =
      fun r => r.userId == v && r.deviceId == e := by
    funext r
    by_cases hr : r.userId = u ∧ r.deviceId = d
    · simp [hr]
    · simp [hr]
  simp only [Database.select, updateDevice, List.find?_map, hfun]

end Database

namespace Register

variable {x : Externals K} {b : Register T} {db : Database T} {u : Uuid} {d : String}
  {row : UserDevice T}

theorem Describes.updateDevice {c : UserDevicePatch T} (h : Describes x b db)
    (hsel : db.select (.deviceByUserAndDevice u d) = some row) :
    Describes x (b.setDevice u d (c.apply row).device) (db.updateDevice u d c) := by
  refine ⟨h.row, h.account, h.told, fun v e => ?_⟩
  rw [Database.select_device_updateDevice]
  change (if v = u ∧ e = d then _ else _) = _
  by_cases hkey : v = u ∧ e = d
  · obtain ⟨rfl, rfl⟩ := hkey
    rw [if_pos ⟨rfl, rfl⟩, hsel, Option.map_some, if_pos (Database.select_device hsel),
      Option.map_some]
  · rw [if_neg hkey, h.devices, Option.map_map]
    cases hsel' : db.select (.deviceByUserAndDevice v e) with
    | none => rfl
    | some s =>
      have hs := Database.select_device hsel'
      have hne : ¬ (s.userId = u ∧ s.deviceId = d) := by
        rw [hs.1, hs.2]
        exact hkey
      rw [Option.map_some, Option.map_some, Function.comp_apply, if_neg hne]

/-- The deactivation of a device row. -/
theorem Describes.signOut {t : T} (h : Describes x b db)
    (hsel : db.select (.deviceByUserAndDevice u d) = some row) :
    Describes x (b.signOut u d) (db.updateDevice u d
      { isActive := changed row.isActive false, updatedAt := some t }) := by
  have hset := h.updateDevice hsel
    (c := { isActive := changed row.isActive false, updatedAt := some t })
  have hdev : b.devices u d = some row.device := by rw [h.devices, hsel, Option.map_some]
  have hoff : (changed row.isActive false).getD row.isActive = false := by
    cases hact : row.isActive <;> rfl
  have hsame : (UserDevicePatch.apply
      { isActive := changed row.isActive false, updatedAt := some t } row).device =
      row.device.signedOut := by
    simp only [UserDevice.device, UserDevicePatch.apply, Device.signedOut, Option.getD_none, hoff]
  rw [hsame] at hset
  unfold Register.signOut
  rw [hdev, Option.map_some]
  exact hset

/-- There is nothing to sign out. -/
theorem Describes.signOut_none (h : Describes x b db)
    (hsel : db.select (.deviceByUserAndDevice u d) = none) : b.signOut u d = b := by
  have hdev : b.devices u d = none := by rw [h.devices, hsel, Option.map_none]
  have hfun : (fun u' d' => if u' = u ∧ d' = d then (b.devices u d).map Device.signedOut
      else b.devices u' d') = b.devices := by
    funext v e
    by_cases hkey : v = u ∧ e = d
    · rw [if_pos hkey, hkey.1, hkey.2, hdev, Option.map_none]
    · rw [if_neg hkey]
  unfold Register.signOut
  rw [hfun]

/-- The device after the deactivation of some rows. -/
lemma device_of_deactivations {t : T} {rows : List (UserDevice T)}
    (hact : ∀ row ∈ rows, row.isActive = true) (db : Database T) (u : Uuid) (d : String) :
    ((Ledger.applyAll Database.apply (rows.map (deactivation t)) db).select
        (.deviceByUserAndDevice u d)).map UserDevice.device =
      (db.select (.deviceByUserAndDevice u d)).map fun r =>
        if ∃ row ∈ rows, row.userId = u ∧ row.deviceId = d then r.device.signedOut
        else r.device := by
  induction rows generalizing db with
  | nil => simp
  | cons row rows ih =>
    have hrow : row.isActive = true := hact row List.mem_cons_self
    rw [List.map_cons, Ledger.applyAll_cons, ih fun r hr => hact r (List.mem_cons_of_mem _ hr)]
    change ((db.updateDevice row.userId row.deviceId _).select
      (.deviceByUserAndDevice u d)).map _ = _
    rw [Database.select_device_updateDevice, Option.map_map]
    cases hsel : db.select (.deviceByUserAndDevice u d) with
    | none => rfl
    | some r =>
      obtain ⟨hu, hd⟩ := Database.select_device hsel
      rw [Option.map_some, Option.map_some, Function.comp_apply]
      by_cases hkey : row.userId = u ∧ row.deviceId = d
      · have hsame : (UserDevicePatch.apply
            { isActive := changed row.isActive false, updatedAt := some t } r).device =
            r.device.signedOut := by
          simp [UserDevice.device, UserDevicePatch.apply, Device.signedOut, changed, hrow]
        have hself : r.userId = row.userId ∧ r.deviceId = row.deviceId :=
          ⟨hu.trans hkey.1.symm, hd.trans hkey.2.symm⟩
        have hfirst : ∃ s ∈ row :: rows, s.userId = u ∧ s.deviceId = d :=
          ⟨row, List.mem_cons_self, hkey⟩
        rw [if_pos hself, hsame, if_pos hfirst]
        split <;> rfl
      · have hne : ¬ (r.userId = row.userId ∧ r.deviceId = row.deviceId) := by
          rw [hu, hd]
          exact fun heq => hkey ⟨heq.1.symm, heq.2.symm⟩
        rw [if_neg hne]
        simp only [List.exists_mem_cons_iff, hkey, false_or]

/-- The deactivation of all active device rows of a user. -/
theorem Describes.signOutAll {t : T} (h : Describes x b db) (u : Uuid) :
    Describes x (b.signOutAll u) (Ledger.applyAll Database.apply
      ((db.select (.activeDevices u)).map (deactivation t)) db) := by
  have hact : ∀ row ∈ db.select (.activeDevices u), row.isActive = true := fun row hrow =>
    (Database.mem_select_active.mp hrow).2.2
  have husers : (Ledger.applyAll Database.apply
      ((db.select (.activeDevices u)).map (deactivation t)) db).users = db.users := by
    refine users_applyAll (fun wr hwr => ?_) db
    obtain ⟨row, -, rfl⟩ := List.mem_map.mp hwr
    exact fun heq => by cases heq
  refine ⟨?_, ?_, ?_, fun v d => ?_⟩
  · rw [husers]
    exact h.row
  · rw [husers]
    exact h.account
  · rw [husers]
    exact h.told
  · rw [device_of_deactivations hact]
    change (if v = u then _ else _) = _
    rw [h.devices, h.devices]
    by_cases hv : v = u
    · subst hv
      rw [if_pos rfl, Option.map_map]
      cases hsel : db.select (.deviceByUserAndDevice v d) with
      | none => rfl
      | some r =>
        obtain ⟨hu, hd⟩ := Database.select_device hsel
        have hmem := Database.mem_of_select_device hsel
        rw [Option.map_some, Option.map_some, Function.comp_apply]
        split
        · rfl
        · rename_i hnone
          have hoff : r.isActive = false := by
            by_contra hon
            rw [Bool.not_eq_false] at hon
            exact hnone ⟨r, Database.mem_select_active.mpr ⟨hmem, hu, hon⟩, hu, hd⟩
          simp [Device.signedOut, UserDevice.device, hoff]
    · have hnone : ¬ ∃ row ∈ db.select (.activeDevices u), row.userId = v ∧ row.deviceId = d := by
        rintro ⟨row, hrow, hu, -⟩
        exact hv (hu.symm.trans (Database.mem_select_active.mp hrow).2.1)
      rw [if_neg hv]
      simp only [if_neg hnone]

end Register

end SampleAuthApi
