import SampleAuthApi.Model.Scripts
import SampleAuthApi.Sessions.Solo

/-!
# The answers of the service

`register_explains_answers`: in a serial run, whatever fails, every answer is one that the register
of accounts and devices permits after the answers before it, and the tables are described by that
register whenever no request is being served.  It rests on the order in which FastAPI ends a request
that uses `get_db`: the code after its `yield` runs before the answer is sent, as it does up to
FastAPI 0.117.  With later versions a client may be told of a success whose commit then fails.
-/

namespace SampleAuthApi

open Transactions Pool
open Program (wp wp_bind wp_pure afterBind_ok)
open Register (Describes Bearer Unhashable describes_empty)

variable {T K : Type} [Instant T]

/-! ## Endpoints -/

/-- The result is one that the register permits, given what the onlooker has seen of the request,
and the database is described by the register after it. -/
def Accounted (x : Externals K) (opens : String → String → Except Exc Bool) (b : Register T)
    (q : Request K) (r : Except Exc (Response T K)) (m : Solo T) : Prop :=
  b.permits x opens ⟨q, m.readings, m.failed⟩ r ∧ Describes x (b.next x q r) m.base

namespace Settles

omit [Instant T]

variable {x : Externals K} {opens : String → String → Except Exc Bool} {b : Register T}
  {q : Request K} {m m' : Solo T}

/-- A rejection that the register permits leaves the tables alone. -/
lemma rejected {e : Exc} (hb : Describes x b m.base) (he : b.denies x opens q e) :
    Settles (Accounted x opens b q) (.error e) m :=
  ⟨.inr he, hb⟩

/-- So does an outage. -/
lemma outage (hb : Describes x b m.base) (hm : m.failed = true) :
    Settles (Accounted x opens b q) (.error .unavailable) m :=
  ⟨.inl ⟨rfl, hm⟩, hb⟩

/-- A failure that is answered as such leaves the records as they were. -/
lemma outages (hb : Describes x b m.base) : m.Outage (Settles (Accounted x opens b q)) :=
  fun _ hbase hm => outage (by rw [hbase]; exact hb) hm

/-- A success that the register permits, if the view of the session is described by the register
after it: the commit may still fail. -/
lemma done {resp : Response T K} (hb : Describes x b m.base) (hbase : m'.base = m.base)
    (hgrants : b.grants x opens m'.readings q resp)
    (hview : Describes x (b.record x q resp) m'.view) :
    Settles (Accounted x opens b q) (.ok resp) m' := by
  refine ⟨⟨hgrants, hview⟩, .inl ⟨rfl, rfl⟩, ?_⟩
  change Describes x b m'.base
  rwa [hbase]

end Settles

section Endpoints

variable {x : Externals K} {opens : String → String → Except Exc Bool} {b : Register T}
  {m : Solo T}

omit [Instant T] in
/-- A bearer token acts on the account of its subject. -/
lemma byBearer_eq {tok : K} {dev : String} {u : Uuid} {f : Uuid → Register T}
    (h : Bearer x tok dev u) : b.byBearer x tok f = f u := by
  obtain ⟨c, hc, -, -, rfl⟩ := h
  unfold Register.byBearer
  rw [hc]

/-- The endpoints behind the authentication. -/
lemma alone_authenticated {q : Request K} {tok : K} {dev : String}
    {body : CurrentUser T → Proc T (Response T K)} (hb : Describes x b m.base)
    (hv : m.view = m.base)
    (h : ∀ (cu : CurrentUser T) m', Bearer x tok dev cu.userId → cu.deviceId = dev →
      Describes x b m'.base → m'.view = m'.base →
      wp alone (body cu) (Settles (Accounted x opens b q)) m')
    (hdeny : ∀ e : Exc, e.authentication = true → b.denies x opens q e) :
    wp alone (getCurrentUser x tok dev >>= fun cu => getDb (body cu))
      (Accounted x opens b q) m := by
  rw [wp_bind]
  have hkeep : ∀ m' : Solo T, m'.base = m.base → Describes x b m'.base := fun m' hbase => by
    rw [hbase]
    exact hb
  refine alone_getCurrentUser (fun cu m' hbearer hdev hsame => ?_) (fun e m' he hsame => ?_)
    fun m' hbase hm' => ⟨.inl ⟨rfl, hm'⟩, hkeep m' hbase⟩
  · exact alone_getDb (h cu m' hbearer hdev (hkeep m' hsame.base)
      (hsame.view.trans (hv.trans hsame.base.symm)))
  · exact ⟨.inr (hdeny e he), hkeep m' hsame.base⟩

/-- `logout` signs out its device. -/
lemma logout_accounted (hb : Describes x b m.base) (hv : m.view = m.base) (tok : K) (dev : String) :
    wp alone (endpoint x (.logout tok dev))
      (Accounted x opens b (.logout tok dev)) m := by
  refine alone_authenticated hb hv (fun cu m hbearer hdev hb hv => ?_) fun e he => he
  have hview : Describes x b m.view := hv ▸ hb
  unfold AuthService.logout
  rw [wp_bind, wp_bind, utcnow, Program.wp_perform]
  intro now
  rw [afterBind_ok, wp_bind]
  refine alone_blacklistToken (fun m₁ hsame => ?_) (Settles.outages hb)
  have hb₁ : Describes x b m₁.base := hb.of_base hsame.base
  rw [afterBind_ok, wp_bind]
  refine alone_deleteRefreshToken ?_ (Settles.outage hb₁ rfl)
  rw [afterBind_ok, wp_bind]
  refine alone_deactivateDevice (hview.of_base hsame.view) (fun _ m' hbase hdesc => ?_)
    (Settles.outages hb₁)
  rw [hdev] at hdesc
  refine Settles.done hb₁ hbase ⟨_, hbearer⟩ ?_
  change Describes x (b.byBearer x tok fun u => b.signOut u dev) m'.view
  rwa [byBearer_eq hbearer]

/-- `logout_all` signs out all devices of its user. -/
lemma logoutAll_accounted (hb : Describes x b m.base) (hv : m.view = m.base) (tok : K)
    (dev : String) :
    wp alone (endpoint x (.logoutAll tok dev))
      (Accounted x opens b (.logoutAll tok dev)) m := by
  refine alone_authenticated hb hv (fun cu m hbearer _ hb hv => ?_) fun e he => he
  have hview : Describes x b m.view := hv ▸ hb
  unfold AuthService.logoutAll
  rw [wp_bind, wp_bind, utcnow, Program.wp_perform]
  intro now
  rw [afterBind_ok, wp_bind]
  refine alone_blacklistToken (fun m₁ hsame => ?_) (Settles.outages hb)
  have hb₁ : Describes x b m₁.base := hb.of_base hsame.base
  rw [afterBind_ok, wp_bind]
  refine alone_deleteAllRefreshTokens (fun n => ?_) (Settles.outage hb₁ rfl)
  rw [afterBind_ok, wp_bind]
  refine alone_deactivateAllDevices (hview.of_base hsame.view) (fun _ m' hbase hdesc => ?_)
    (Settles.outages hb₁)
  refine Settles.done hb₁ hbase ⟨_, hbearer⟩ ?_
  change Describes x (b.byBearer x tok b.signOutAll) m'.view
  rwa [byBearer_eq hbearer]

/-- `get_me` shows the profile in the records. -/
lemma getMe_accounted (hb : Describes x b m.base) (hv : m.view = m.base) (tok : K) (dev : String) :
    wp alone (endpoint x (.getMe tok dev))
      (Accounted x opens b (.getMe tok dev)) m := by
  refine alone_authenticated hb hv (fun cu m hbearer _ hb hv => ?_) fun e he => .inl he
  unfold UserService.getMe UserRepository.getById
  rw [wp_bind, wp_bind]
  refine alone_select ?_ (.outage hb rfl)
  rw [afterBind_ok, hv]
  cases hsel : m.base.select (.userById cu.userId) with
  | none => exact .rejected hb (.inr ⟨rfl, _, hbearer, hb.absent hsel⟩)
  | some user =>
    obtain ⟨password, salt, -, hlive⟩ := hb.live hsel
    obtain ⟨hmem, hid, -⟩ := Database.select_userById hsel
    have htold : (b.told user.id).getD user.updatedAt = user.updatedAt := by
      cases ht : b.told user.id with
      | none => rfl
      | some t => exact (hb.told user hmem t ht).symm
    refine Settles.done hb rfl ⟨_, _, hbearer, hlive, ?_⟩ ?_
    · rw [← hid]
      simp only [htold]
      rfl
    · change Describes x (b.byBearer x tok fun u => b.tell u (some user.updatedAt)) m.view
      rw [byBearer_eq hbearer, hv]
      refine hb.tell fun r hr hrid t ht => ?_
      rw [Database.id_unique hr hmem (hrid.trans hid.symm)]
      exact Option.some.inj ht

/-- `list_devices` shows the devices that are signed in. -/
lemma listDevices_accounted (hb : Describes x b m.base) (hv : m.view = m.base) (tok : K)
    (dev : String) :
    wp alone (endpoint x (.listDevices tok dev))
      (Accounted x opens b (.listDevices tok dev)) m := by
  refine alone_authenticated hb hv (fun cu m hbearer hdev hb hv => ?_) fun e he => he
  unfold DeviceService.getDevices UserDeviceRepository.getActiveDevices
  rw [wp_bind, wp_bind]
  refine alone_select ?_ (.outage hb rfl)
  rw [afterBind_ok, hv, hdev]
  refine Settles.done hb rfl ⟨_, hbearer, ?_, fun d v => ?_, fun r hr => ?_⟩ (hv ▸ hb)
  · rw [List.map_map]
    have hkeys := (m.base.devices_key.filter fun r =>
      r.userId == cu.userId && r.isActive)
    refine List.pairwise_map.mpr (hkeys.imp_of_mem fun {r s} hr hs hne heq => ?_)
    have hru : r.userId = cu.userId := (Database.mem_select_active.mp hr).2.1
    have hsu : s.userId = cu.userId := (Database.mem_select_active.mp hs).2.1
    exact hne ⟨hru.trans hsu.symm, heq⟩
  · rw [hb.active]
    constructor
    · rintro ⟨r, hr, rfl, rfl⟩
      refine ⟨_, List.mem_map_of_mem hr, rfl, ?_⟩
      simp only [UserDevice.device, (Database.mem_select_active.mp hr).2.2]
    · rintro ⟨s, hs, rfl, rfl⟩
      obtain ⟨r, hr, rfl⟩ := List.mem_map.mp hs
      refine ⟨r, hr, rfl, ?_⟩
      simp only [UserDevice.device, (Database.mem_select_active.mp hr).2.2]
  · obtain ⟨s, -, rfl⟩ := List.mem_map.mp hr
    rfl

/-- `force_logout_device` signs out the device in its path, unless it is the caller's own. -/
lemma forceLogoutDevice_accounted (hb : Describes x b m.base) (hv : m.view = m.base) (tok : K)
    (dev target : String) :
    wp alone (endpoint x (.forceLogoutDevice tok dev target))
      (Accounted x opens b (.forceLogoutDevice tok dev target)) m := by
  refine alone_authenticated hb hv (fun cu m hbearer hdev hb hv => ?_) fun e he => .inl he
  have hview : Describes x b m.view := hv ▸ hb
  unfold DeviceService.forceLogoutDevice UserDeviceRepository.getByUserAndDevice
  rw [wp_bind, hdev]
  by_cases htarget : target = dev
  · rw [if_pos htarget]
    exact .rejected hb (.inr (.inl ⟨rfl, htarget⟩))
  · rw [if_neg htarget, wp_bind]
    refine alone_select ?_ (.outage hb rfl)
    rw [afterBind_ok, hv]
    have hdevices := hb.devices cu.userId target
    cases hsel : m.base.select (.deviceByUserAndDevice cu.userId target) with
    | none =>
      rw [hsel] at hdevices
      refine .rejected hb (.inr (.inr ⟨rfl, _, hbearer, fun v hact => ?_⟩))
      rw [hact.1] at hdevices
      cases hdevices
    | some row =>
      rw [hsel, Option.map_some] at hdevices
      cases hact : row.isActive with
      | false =>
        simp only [hact]
        refine .rejected hb (.inr (.inr ⟨rfl, _, hbearer, fun v hv' => ?_⟩))
        have hdevice : v = row.device := by
          rw [hv'.1] at hdevices
          exact Option.some.inj hdevices
        have hon : row.isActive = true := by
          rw [hdevice] at hv'
          exact hv'.2
        rw [hact] at hon
        cases hon
      | true =>
        simp only [hact, Bool.not_true, Bool.false_eq_true, if_false]
        rw [wp_bind]
        refine alone_deleteRefreshToken ?_ (.outage hb rfl)
        rw [afterBind_ok, wp_bind]
        refine alone_deactivateDevice hview (fun _ m' hbase hdesc => ?_) (Settles.outages hb)
        refine Settles.done hb hbase ⟨htarget, _, _, hbearer, hdevices, hact⟩ ?_
        change Describes x (b.byBearer x tok fun u => b.signOut u target) m'.view
        rwa [byBearer_eq hbearer]

omit [Instant T] in
/-- An account is known by its row. -/
lemma account_of_live {user : User T} {password : String} {a : Account T}
    (hlive : b.Live user.id (user.account password)) (ha : b.accounts user.id = some a) :
    a = user.account password := by
  rw [hlive.1] at ha
  exact (Option.some.inj ha).symm

/-- `update_me` changes the profile in the records. -/
lemma updateMe_accounted (hb : Describes x b m.base) (hv : m.view = m.base) (tok : K)
    (dev : String) (name phone : Option String) :
    wp alone (endpoint x (.updateMe tok dev name phone))
      (Accounted x opens b (.updateMe tok dev name phone)) m := by
  refine alone_authenticated hb hv (fun cu m hbearer _ hb hv => ?_) fun e he => .inl he
  unfold UserService.updateMe UserRepository.getById
  rw [wp_bind, wp_bind]
  refine alone_select ?_ (.outage hb rfl)
  rw [afterBind_ok, hv]
  cases hsel : m.base.select (.userById cu.userId) with
  | none => exact .rejected hb (.inr ⟨rfl, _, hbearer, hb.absent hsel⟩)
  | some user =>
    obtain ⟨password, salt, hhash, hlive⟩ := hb.live hsel
    obtain ⟨hmem, hid, -⟩ := Database.select_userById hsel
    rw [← hid] at hbearer hlive
    simp only []
    rw [wp_bind, utcnow, Program.wp_perform]
    intro now
    unfold UserRepository.update
    rw [afterBind_ok, wp_bind, wp_bind]
    have hname : (name.bind (changed user.name)).getD user.name = name.getD user.name := by
      cases name with
      | none => rfl
      | some n => exact getD_changed user.name n
    have hphone : (phone.bind fun p => (changed user.phoneNumber (some p)).join).or
        user.phoneNumber = phone.or user.phoneNumber := by
      cases phone with
      | none => rfl
      | some p =>
        unfold changed
        by_cases heq : some p = user.phoneNumber
        · simp [← heq]
        · simp [heq]
    refine alone_flush rfl (Settles.done hb rfl
      ⟨_, _, hbearer, hlive, rfl, hname, hphone, rfl⟩ ?_) (.outage hb rfl)
    change Describes x (b.byBearer x tok fun u => (b.modifyAccount u _).tell u _) _
    rw [byBearer_eq hbearer]
    change Describes x _ (Ledger.applyAll Database.apply _ m.view)
    rw [hv]
    refine hb.updateUser _ _ hmem hhash (fun a ha => ?_) fun t ht => Option.some.inj ht
    rw [account_of_live hlive ha]
    simp only [User.account, UserPatch.apply, hname, hphone, Option.getD_none, Option.none_or]

/-- `change_password` replaces the password that opens the account, and signs out all its
devices. -/
lemma changePassword_accounted (hunsalted : Unsalted x opens) (hb : Describes x b m.base)
    (hv : m.view = m.base) (tok : K) (dev current new : String) :
    wp alone (endpoint x (.changePassword tok dev current new))
      (Accounted x opens b (.changePassword tok dev current new)) m := by
  refine alone_authenticated hb hv (fun cu m hbearer _ hb hv => ?_) fun e he => .inl he
  unfold UserService.changePassword UserRepository.getById
  rw [wp_bind, wp_bind]
  refine alone_select ?_ (.outage hb rfl)
  rw [afterBind_ok, hv]
  cases hsel : m.base.select (.userById cu.userId) with
  | none => exact .rejected hb (.inr (.inl ⟨rfl, _, hbearer, hb.absent hsel⟩))
  | some user =>
    obtain ⟨password, salt, hhash, hlive⟩ := hb.live hsel
    obtain ⟨hmem, hid, -⟩ := Database.select_userById hsel
    rw [← hid] at hbearer hlive
    have hverify := hunsalted salt password _ hhash
    simp only []
    rw [wp_bind]
    refine alone_verifyPassword (fun valid hvalid => ?_) fun e he =>
      .rejected hb (.inr (.inr (.inr (.inl he))))
    rw [hverify] at hvalid
    cases valid with
    | false =>
      exact .rejected hb (.inr (.inr (.inl ⟨_, _, hbearer, hlive, .inl ⟨rfl, hvalid⟩⟩)))
    | true =>
      simp only [afterBind_ok, Bool.not_true, Bool.false_eq_true, if_false]
      rw [wp_bind]
      refine alone_verifyPassword (fun same hsame => ?_) fun e he =>
        .rejected hb (.inr (.inr (.inr (.inr he))))
      rw [hverify] at hsame
      cases same with
      | true =>
        exact .rejected hb (.inr (.inr (.inl
          ⟨_, _, hbearer, hlive, .inr ⟨rfl, hvalid, hsame⟩⟩)))
      | false =>
        simp only [afterBind_ok, Bool.false_eq_true, if_false]
        rw [wp_bind]
        refine alone_hashPassword (fun salt' hash hnew => ?_) fun e he =>
          .rejected hb (.inr (.inr (.inr (.inr he))))
        rw [afterBind_ok, wp_bind, utcnow, Program.wp_perform]
        intro now
        unfold UserRepository.update
        rw [afterBind_ok, wp_bind, wp_bind]
        refine alone_flush rfl ?_ (.outage hb rfl)
        rw [afterBind_ok, wp_pure, afterBind_ok, wp_bind]
        refine alone_deleteAllRefreshTokens (fun _ => ?_) (.outage hb rfl)
        rw [afterBind_ok, wp_bind]
        have hchanged : (changed user.hashedPassword hash).getD user.hashedPassword = hash :=
          getD_changed _ _
        have hdesc := hb.updateUser (f := fun a => { a with password := new })
          (c := { hashedPassword := changed user.hashedPassword hash, updatedAt := some now })
          salt' new hmem (by
            simp only [UserPatch.apply, hchanged]
            exact hnew) (fun a ha => by
              rw [account_of_live hlive ha]
              simp only [User.account, UserPatch.apply, Option.getD_none, Option.none_or])
          (t := none) fun t ht => by cases ht
        rw [← hv] at hdesc
        refine alone_deactivateAllDevices hdesc (fun _ m' hbase hdesc' => ?_)
          (Settles.outages hb)
        refine Settles.done hb hbase ⟨_, _, hbearer, hlive, hvalid, hsame⟩ ?_
        rw [Register.record, byBearer_eq hbearer, hid]
        rw [hid] at hdesc'
        exact hdesc'

/-- `delete_account` closes the account. -/
lemma deleteAccount_accounted (hunsalted : Unsalted x opens) (hb : Describes x b m.base)
    (hv : m.view = m.base) (tok : K) (dev password : String) :
    wp alone (endpoint x (.deleteAccount tok dev password))
      (Accounted x opens b (.deleteAccount tok dev password)) m := by
  refine alone_authenticated hb hv (fun cu m hbearer _ hb hv => ?_) fun e he => .inl he
  unfold UserService.deleteAccount UserRepository.getById
  rw [wp_bind, wp_bind]
  refine alone_select ?_ (.outage hb rfl)
  rw [afterBind_ok, hv]
  cases hsel : m.base.select (.userById cu.userId) with
  | none => exact .rejected hb (.inr (.inl ⟨rfl, _, hbearer, hb.absent hsel⟩))
  | some user =>
    obtain ⟨stored, salt, hhash, hlive⟩ := hb.live hsel
    obtain ⟨hmem, hid, -⟩ := Database.select_userById hsel
    rw [← hid] at hbearer hlive
    simp only []
    rw [wp_bind]
    refine alone_verifyPassword (fun valid hvalid => ?_) fun e he =>
      .rejected hb (.inr (.inr (.inr he)))
    rw [hunsalted salt stored _ hhash] at hvalid
    cases valid with
    | false =>
      exact .rejected hb (.inr (.inr (.inl ⟨_, _, hbearer, hlive, rfl, hvalid⟩)))
    | true =>
      simp only [afterBind_ok, Bool.not_true, Bool.false_eq_true, if_false]
      unfold UserRepository.softDelete
      rw [wp_bind, wp_bind, utcnow, Program.wp_perform]
      intro now
      rw [afterBind_ok]
      refine alone_flush rfl ?_ (.outage hb rfl)
      rw [afterBind_ok, wp_bind]
      refine alone_deleteAllRefreshTokens (fun _ => ?_) (.outage hb rfl)
      rw [afterBind_ok, wp_bind]
      have hstatus : (changed user.status .withdrawn).getD user.status = .withdrawn :=
        getD_changed _ _
      have hdesc := hb.updateUser (f := fun a => { a with deleted := true, status := .withdrawn })
        (c := { deletedAt := some now, status := changed user.status .withdrawn })
        salt stored hmem hhash (fun a ha => by
          rw [account_of_live hlive ha]
          simp only [User.account, UserPatch.apply, hstatus, Option.getD_none, Option.none_or,
            Option.some_or, Option.isSome_some])
        (t := none) fun t ht => by cases ht
      rw [← hv] at hdesc
      refine alone_deactivateAllDevices hdesc (fun _ m' hbase hdesc' => ?_) (Settles.outages hb)
      refine Settles.done hb hbase ⟨_, _, hbearer, hlive, hvalid⟩ ?_
      rw [Register.record, byBearer_eq hbearer, hid]
      rw [hid] at hdesc'
      exact hdesc'

/-- `signup` opens an account for a free address. -/
lemma signup_accounted (hb : Describes x b m.base) (hv : m.view = m.base)
    (hids : IdsDrawn m.drawn m.base) (email password name : String) (phone : Option String)
    (agreed : Bool) :
    wp alone (endpoint x (.signup email password name phone agreed))
      (Accounted x opens b (.signup email password name phone agreed)) m := by
  refine alone_getDb ?_
  unfold AuthService.signup UserRepository.emailExists
  rw [wp_bind, wp_bind, wp_bind]
  refine alone_select ?_ (.outage hb rfl)
  rw [afterBind_ok, hv]
  cases hsel : m.base.select (.userByEmail email) with
  | some user =>
    obtain ⟨hmem, hemail, -⟩ := Database.select_userByEmail hsel
    obtain ⟨p, -, -, hacc⟩ := hb.row user hmem
    exact .rejected hb (.inl ⟨rfl, _, _, hacc, hemail⟩)
  | none =>
    simp only [afterBind_ok, wp_pure, Option.isSome_none, Bool.false_eq_true, if_false]
    rw [wp_bind, utcnow, Program.wp_perform]
    intro now
    rw [afterBind_ok, wp_bind, uuid4, Program.wp_perform]
    intro id hfresh
    rw [afterBind_ok, wp_bind]
    refine alone_hashPassword (fun salt hash hhash => ?_) fun e he =>
      .rejected hb (.inr he)
    unfold UserRepository.create
    rw [afterBind_ok, wp_bind, Program.wp_tryCatch, wp_bind, flush, Program.wp_perform]
    set user : User T := ⟨id, email, hash, name, phone, none, .active, agreed, none, now, now, none⟩
      with huser
    have hid : ∀ r ∈ m.base.users, r.id ≠ id := fun r hr heq => hfresh (heq ▸ hids r hr)
    refine ⟨?_, (.outage hb rfl)⟩
    rw [Ledger.accepts_singleton, Database.apply, hv]
    cases hins : m.base.insertUser user with
    | none =>
      -- the unique index on the email is all that can refuse the row
      obtain ⟨r, hr, hsame | hemail⟩ := Database.insertUser_eq_none.mp hins
      · exact absurd hsame (hid r hr)
      · obtain ⟨p, -, -, hacc⟩ := hb.row r hr
        exact .rejected hb (.inl ⟨rfl, _, _, hacc, hemail⟩)
    | some db =>
      have hfree : ∀ r ∈ m.base.users, r.email ≠ email := fun r hr heq => by
        rw [Database.insertUser_eq_none.mpr ⟨r, hr, .inr heq⟩] at hins
        cases hins
      have hdesc : Describes x ((b.setAccount id (user.account password)).tell id (some now))
          db := hb.insertUser hins hhash
      refine Settles.done hb rfl ⟨?_, fun u a ha => ?_, rfl, rfl, rfl⟩ ?_
      · cases hacc : b.accounts id with
        | none => rfl
        | some a =>
          obtain ⟨r, hr, hrid⟩ := hb.account id a hacc
          exact absurd hrid (hid r hr)
      · obtain ⟨r, hr, rfl⟩ := hb.account u a ha
        obtain ⟨p, -, -, hacc⟩ := hb.row r hr
        rw [ha] at hacc
        rw [Option.some.inj hacc]
        exact hfree r hr
      · change Describes x _ (Ledger.applyAll Database.apply [.insertUser user] m.base)
        rw [Ledger.applyAll_cons, Database.apply, hins]
        exact hdesc

/-- `refresh` changes nothing in the records. -/
lemma refresh_accounted (hb : Describes x b m.base) (hv : m.view = m.base) (tok : K)
    (client : ClientInfo) :
    wp alone (endpoint x (.refresh tok client))
      (Accounted x opens b (.refresh tok client)) m := by
  refine alone_getDb ?_
  unfold AuthService.refresh JwtService.decodeRefreshToken
  rw [wp_bind, wp_bind, wp_bind]
  have hinvalid : ∀ m' : Solo T, m.Same m' → Settles (Accounted x opens b
      (.refresh tok client)) (.error .invalidRefreshToken) m' := fun m' hsame =>
    .rejected (hb.of_base hsame.base) (.inr (.inl rfl))
  refine alone_jwtDecode (fun c m₁ hc hsame => ?_) fun e m₁ hsame => ?_
  · have hb₁ : Describes x b m₁.base := hb.of_base hsame.base
    have hv₁ : m₁.view = m₁.base := hsame.view.trans (hv.trans hsame.base.symm)
    rw [afterBind_ok]
    by_cases ht : c.type = .refresh
    · simp only [ht, ne_eq, not_true_eq_false, if_false, wp_pure, afterBind_ok]
      by_cases hd : c.deviceId = client.xDeviceId
      · rw [if_neg (not_not_intro hd)]
        unfold TokenStore.getRefreshToken
        rw [wp_bind, wp_bind]
        refine alone_redis rfl (fun found => ?_) (.outage hb₁ rfl)
        rw [afterBind_ok]
        cases found with
        | none => exact hinvalid m₁ hsame
        | some doc =>
          cases doc with
          | blacklistEntry data => exact .rejected hb₁ (.inr (.inr rfl))
          | refreshToken data =>
            simp only [wp_pure, afterBind_ok]
            by_cases hj : data.tokenId = c.jti
            · rw [if_neg (not_not_intro hj)]
              unfold AuthService.rotate UserRepository.getById
              rw [wp_bind]
              refine alone_select ?_ (.outage hb₁ rfl)
              rw [afterBind_ok, hv₁]
              cases hsel : m₁.base.select (.userById c.sub) with
              | none => exact hinvalid m₁ hsame
              | some user =>
                obtain ⟨p, salt, -, hlive⟩ := hb₁.live hsel
                refine alone_mint (fun a r => pure (TokenResponse.mk a r "Bearer" _ _))
                  (fun a r m' hbase hview => ?_) (Settles.outages hb₁)
                refine Settles.done hb₁ hbase ⟨c, _, hc, ht, hd, hlive⟩ ?_
                exact hb₁.of_base (hview.trans hv₁)
            · rw [if_pos hj, wp_bind]
              exact alone_deleteRefreshToken (hinvalid m₁ hsame) (.outage hb₁ rfl)
      · rw [if_pos hd]
        exact hinvalid m₁ hsame
    · simp only [ne_eq, ht, not_false_eq_true, if_true]
      exact hinvalid m₁ hsame
  · rw [afterBind_ok]
    cases e with
    | expiredSignature => exact .rejected (hb.of_base hsame.base) (.inl rfl)
    | invalidToken => exact hinvalid m₁ hsame

/-- The part of a login after the checks. -/
lemma alone_openSession (hb : Describes x b m.base) (hv : m.view = m.base) {email password : String}
    {client : ClientInfo} {user : User T} {agent : Option String} {stored : String}
    (hlive : b.Live user.id (user.account stored)) (hemail : user.email = email)
    (hactive : user.status = .active) (hopens : opens password stored = .ok true) :
    wp alone (AuthService.openSession x user client.xDeviceId client.xDeviceName
        (client.xOsType.getD "unknown") client.xOsVersion client.xAppVersion client.clientIp agent)
      (Program.afterBind alone (fun result => pure (Response.login result))
        (Settles (Accounted x opens b (.login email password client)))) m := by
  have hview : Describes x b m.view := hv ▸ hb
  unfold AuthService.openSession
  rw [wp_bind]
  refine alone_upsertDevice hview (fun m₁ hbase₁ h₁ => ?_) (Settles.outages hb)
  rw [afterBind_ok, wp_bind]
  refine alone_updateLastLogin h₁ (fun m₂ hbase₂ h₂ => ?_)
    (Settles.outages (hb.of_base hbase₁))
  rw [afterBind_ok]
  have hb₂ : Describes x b m₂.base := hb.of_base (hbase₂.trans hbase₁)
  refine alone_mint (fun a r => LoginHistoryRepository.create (some user.id) client.xDeviceId
      client.clientIp agent (some (client.xOsType.getD "unknown")) client.xAppVersion true none
      >>= fun _ => pure (LoginResponse.mk a r "Bearer" _ _ _))
    (fun a r m₃ hbase₃ hview₃ => ?_) (Settles.outages hb₂)
  rw [wp_bind]
  have hb₃ : Describes x b m₃.base := hb₂.of_base hbase₃
  refine alone_createHistory (h₂.of_base hview₃) (fun m₄ hbase₄ h₄ => ?_) (Settles.outages hb₃)
  exact Settles.done hb₃ hbase₄ ⟨_, hlive, hemail, hactive, hopens, hemail, rfl⟩ (h₄.forget _)

/-- `login` signs in its device, with the password that opens the account. -/
lemma login_accounted (hunsalted : Unsalted x opens) (hb : Describes x b m.base)
    (hv : m.view = m.base) (email password : String) (client : ClientInfo) :
    wp alone (endpoint x (.login email password client))
      (Accounted x opens b (.login email password client)) m := by
  refine alone_getDb ?_
  have hview : Describes x b m.view := hv ▸ hb
  -- a wrong password and an unknown email end in the same way
  have hinvalid : ∀ u : Option Uuid, (∀ v a, b.Live v a → a.email = email →
      opens password a.password = .ok false) →
      wp alone (do
        LoginHistoryRepository.create u client.xDeviceId client.clientIp client.userAgent
          (some (client.xOsType.getD "unknown")) client.xAppVersion false
          (some "INVALID_CREDENTIALS")
        (throw .invalidCredentials : Proc T (LoginResponse K)))
      (Program.afterBind alone (fun result => pure (Response.login result))
        (Settles (Accounted x opens b (.login email password client)))) m := by
    intro u hwrong
    rw [wp_bind]
    refine alone_createHistory hview (fun m' hbase _ => ?_) (Settles.outages hb)
    exact .rejected (hb.of_base hbase) (.inl ⟨rfl, hwrong⟩)
  have hunhashable : ∀ e, Unhashable x password e → Settles (Accounted x opens b
      (.login email password client)) (.error e) m := fun e he =>
    .rejected hb (.inr (.inr he))
  unfold AuthService.login AuthService.checkCredentials UserRepository.getByEmail
  rw [wp_bind, wp_bind, wp_bind]
  refine alone_select ?_ (.outage hb rfl)
  rw [afterBind_ok, hv]
  cases hsel : m.base.select (.userByEmail email) with
  | none =>
    simp only []
    rw [wp_bind]
    refine alone_verifyPassword (fun _ _ => ?_) hunhashable
    exact hinvalid none fun v a ha hemail => absurd hemail (hb.no_email hsel ha)
  | some user =>
    obtain ⟨hmem, hemail, hnot⟩ := Database.select_userByEmail hsel
    obtain ⟨stored, salt, hhash, hlive⟩ := hb.row_live hmem hnot
    simp only []
    rw [wp_bind]
    refine alone_verifyPassword (fun valid hvalid => ?_) hunhashable
    rw [hunsalted salt stored _ hhash] at hvalid
    cases valid with
    | false =>
      refine hinvalid (some user.id) fun v a ha hsame => ?_
      obtain ⟨r, hr, hid, -, hremail⟩ := hb.of_live ha
      have huser : r = user := Database.email_unique hr hmem (hremail.symm.trans
        (hsame.trans hemail.symm))
      subst huser
      subst hid
      rw [account_of_live hlive ha.1]
      exact hvalid
    | true =>
      simp only [afterBind_ok, wp_pure]
      by_cases hin : user.status = .inactive
      · rw [if_pos hin]
        exact .rejected hb (.inr (.inl ⟨_, _, hlive, hemail, hvalid, .inl ⟨hin, rfl⟩⟩))
      · rw [if_neg hin]
        by_cases hwith : user.status = .withdrawn
        · rw [if_pos hwith]
          exact .rejected hb (.inr (.inl ⟨_, _, hlive, hemail, hvalid, .inr ⟨hwith, rfl⟩⟩))
        · rw [if_neg hwith]
          have hactive : user.status = .active := by
            cases hst : user.status with
            | active => rfl
            | inactive => exact absurd hst hin
            | withdrawn => exact absurd hst hwith
          exact alone_openSession hb hv hlive hemail hactive hvalid

/-- Every endpoint answers as the register permits. -/
theorem endpoint_accounted (hunsalted : Unsalted x opens) (hb : Describes x b m.base)
    (hv : m.view = m.base) (hids : IdsDrawn m.drawn m.base) (q : Request K) :
    wp alone (endpoint x q) (Accounted x opens b q) m := by
  cases q with
  | signup email password name phone agreed =>
    exact signup_accounted hb hv hids email password name phone agreed
  | login email password client => exact login_accounted hunsalted hb hv email password client
  | refresh tok client => exact refresh_accounted hb hv tok client
  | logout tok dev => exact logout_accounted hb hv tok dev
  | logoutAll tok dev => exact logoutAll_accounted hb hv tok dev
  | getMe tok dev => exact getMe_accounted hb hv tok dev
  | updateMe tok dev name phone => exact updateMe_accounted hb hv tok dev name phone
  | changePassword tok dev current new =>
    exact changePassword_accounted hunsalted hb hv tok dev current new
  | deleteAccount tok dev password =>
    exact deleteAccount_accounted hunsalted hb hv tok dev password
  | listDevices tok dev => exact listDevices_accounted hb hv tok dev
  | forceLogoutDevice tok dev target => exact forceLogoutDevice_accounted hb hv tok dev target

end Endpoints

/-! ## Runs -/

variable [DecidableEq K]

/-- Bob's access token. -/
def bobsToken : Claims :=
  JwtService.accessClaims Plain.externals.settings Plain.a₃ "bob@example.com" "Bob" "phone" (0 : ℚ)
    Plain.a₁

/-- Bob signs up, logs in on his phone and asks for his profile.  A minute later he renames himself,
which fails at the commit, then again, and asks for his profile once more. -/
def bobsFirstDay : List (ServiceEvent ℚ Claims) :=
  [.start (.signup "bob@example.com" "pw" "Bob" none false)] ++ goes 0 2 ++
    [.step 0 (.uuid Plain.a₃), .step 0 (.salt "")] ++ goes 0 2 ++ [.respond 0] ++
    loginScript 1 "bob@example.com" "pw" Plain.phone Plain.a₁ Plain.r₁ ++
    [.start (.getMe bobsToken "phone")] ++ goes 2 4 ++ [.respond 2, .env (.clock 60)] ++
    [.start (.updateMe bobsToken "phone" (some "Robert") none)] ++ goes 3 5 ++
    [.step 3 .fail] ++ goes 3 1 ++ [.respond 3] ++
    [.start (.updateMe bobsToken "phone" (some "Robert") none)] ++ goes 4 6 ++ [.respond 4] ++
    [.start (.getMe bobsToken "phone")] ++ goes 5 4 ++ [.respond 5]

/-- The name and the date of the last change in a profile. -/
def profile (y : ServedRequest ℚ Claims × Except Exc (Response ℚ Claims)) : Option (String × ℚ) :=
  match y.2 with
  | .ok (.user data) => some (data.name, data.updatedAt)
  | .ok (.userUpdate data) => some (data.name, data.updatedAt)
  | _ => none

end SampleAuthApi
