import SampleAuthApi.Model.Routes
import SampleAuthApi.Sessions.Admission
import SampleAuthApi.Sessions.Headcount

/-!
# Removing a listed device

`get_devices` lists every id that a login has put into `X-Device-Id`, but the path of
`DELETE /api/v1/users/me/devices/{device_id}` only reaches ids that are not empty and contain no
`/`.  In every reachable state, a device that is listed, and is not the current one, can be removed
exactly when its id is such (`listed_device_removable_iff`).
-/

namespace SampleAuthApi

open Transactions Pool

variable {T K : Type} [Instant T] [DecidableEq K]

/-! ## Removable devices -/

/-- `get_devices` does not return the device `d` to `u`. -/
def Unlisted (x : Externals K) (w : World T K) (u : Uuid) (d : String) : Prop :=
  ∀ (y : Reply T K) (w' : World T K) (tok : K) (dev : String) (c : Claims)
    (l : List (DeviceResponse T)), ServedAlone (server x) Smooth w y w' →
    y.request = .listDevices tok dev → x.jwt.verify tok = some c → c.sub = u →
    y.result = .ok (.devices l) → ∀ entry ∈ l, entry.deviceId ≠ d

/-- With the access token `tok` of `u`, from the device `dev`, the device `d` can be removed in `w`:
the request for it reaches `force_logout_device`, and ends the session of `d` whenever the token is
let in when the request arrives, and lasts until it is answered. -/
structure Removable (x : Externals K) (w : World T K) (tok : K) (dev : String) (u : Uuid)
    (d : String) : Prop where
  reaches : dispatch .delete (deviceTarget d) = some (.forceLogoutDevice d)
  removes : ∀ (y : Reply T K) (w' : World T K), ServedAlone (server x) Smooth w y w' →
    y.request = .forceLogoutDevice tok dev d → (authenticate x w.shared tok dev).isOk = true →
    (∀ c, x.jwt.verify tok = some c → w'.shared.now < (c.exp : T)) →
    (∃ resp, y.result = .ok resp) ∧ Unlisted x w' u d ∧
      w'.shared.redis.lookup w'.shared.now (.refresh u d) = none

section Removal

variable {x : Externals K} {w w' : World T K} {y : Reply T K} {tok : K} {dev d : String}
  {c : Claims}

/-! ## Listing -/

omit [DecidableEq K] in
/-- `get_devices` changes nothing in the database. -/
lemma Served.list_committed (h : Served x w y w') (hq : y.request = .listDevices tok dev) :
    w'.shared.db.committed = w.shared.db.committed := by
  have hends := h.ends
  have hnothing : (progress y.performed).committed = [] := by
    rw [hq] at hends
    cases hres : y.result with
    | error e =>
      rw [hres] at hends
      exact hends.2.2.1
    | ok resp =>
      rw [hres] at hends
      obtain ⟨-, -, c', s, -, -, hcommitted, -⟩ := hends
      exact hcommitted
  rw [h.trail.committed, hnothing]
  rfl

omit [DecidableEq K] in
/-- The current device is the one that the caller names. -/
lemma Served.list_current (h : Served x w y w') (hq : y.request = .listDevices tok dev)
    {l : List (DeviceResponse T)} (hres : y.result = .ok (.devices l))
    {entry : DeviceResponse T} (hentry : entry ∈ l) :
    entry.isCurrent = (entry.deviceId == dev) := by
  have hends := h.ends
  rw [hq, hres] at hends
  obtain ⟨-, -, c', s, -, hdev, -, -, hresp⟩ := hends
  cases hresp
  obtain ⟨row, -, rfl⟩ := List.mem_map.mp hentry
  rw [hdev]

/-- A device without an active row is not listed. -/
lemma unlisted_of_not_active {u : Uuid} (hw : Sound x w)
    (hno : ¬ w.shared.db.committed.Active u d) : Unlisted x w u d := by
  intro y w' tok dev c l hy hq hver hsub hres entry hentry hd
  subst hsub
  obtain ⟨l', hl, hlist⟩ := (hw.served (fun _ _ he => he.2) hy).listed hq hver hres
  cases hl
  exact hno ((hlist d).mp ⟨entry, hentry, hd⟩)

/-! ## Removing -/

/-- A forced logout of an active device other than the current one, with a token that is let in,
succeeds. -/
lemma force_logout_succeeds (hinv : Invariant x w) (hacc : Accountable x w')
    (hy : ServedAlone (server x) Smooth w y w') (hq : y.request = .forceLogoutDevice tok dev d)
    (hver : x.jwt.verify tok = some c) (hauth : (authenticate x w.shared tok dev).isOk = true)
    (hexp : w'.shared.now < (c.exp : T)) (hactive : w.shared.db.committed.Active c.sub d)
    (hother : d ≠ dev) : ∃ resp, y.result = .ok resp := by
  have hserved := hinv.sound.served (fun _ _ he => he.2) hy
  have hfailed := hinv.sound.served_reliable (fun _ _ he => he.1) hy
  cases hres : y.result with
  | ok resp => exact ⟨resp, rfl⟩
  | error e =>
    have hends := hserved.ends
    rw [hq, hres] at hends
    obtain ⟨-, -, -, hrejected⟩ := hends
    rcases hrejected.resolve_left (by rw [hfailed]; simp) with haway | ⟨-, hself⟩ | ⟨rfl, -⟩
    · rw [hacc.admitted hinv hy hq hver hauth hexp hres] at haway
      cases haway
    · exact absurd hself hother
    · exact absurd hres (hserved.finds hfailed hq hver hactive)

omit [DecidableEq K] in
/-- A forced logout that succeeds ends the session of its device, in both stores. -/
lemma Served.force_logout_ends (h : Served x w y w') (hq : y.request = .forceLogoutDevice tok dev d)
    (hver : x.jwt.verify tok = some c) {resp : Response T K} (hres : y.result = .ok resp) :
    ¬ w'.shared.db.committed.Active c.sub d ∧
      w'.shared.redis.strings (.refresh c.sub d) = none := by
  have hends := h.ends
  rw [hres] at hends
  obtain ⟨-, hsucc, hrec⟩ := hends
  rw [hq] at hsucc hrec
  obtain ⟨-, c₁, hauth, t, t', hsent⟩ := hsucc
  obtain ⟨c₂, hbears, -, -, hdeact⟩ := hrec
  -- both speak of the claims of the caller's token
  cases hauth.bears.unique hbears
  obtain ⟨tok', dev', hbearer, hver'⟩ := hbears
  cases hbearer
  rw [hver] at hver'
  cases hver'
  have hredis := h.trail.redis
  rw [hsent, Redis.Store.replay_cons, Redis.Store.replay_cons] at hredis
  refine ⟨fun hact => ((h.rows_deactivated hdeact c.sub d).mp hact).2 ⟨rfl, rfl⟩, ?_⟩
  rw [hredis, Redis.Store.strings_srem, Redis.Store.strings_del]
  simp

end Removal

/-! ## The devices that are listed -/

section Listed

variable {x : Externals K} {w w' : World T K} {y : Reply T K} {tok : K} {dev : String} {c : Claims}

/-- After any run, a device that `get_devices` returns to a request served alone, other than the
current one, can be removed exactly when its id is not empty and contains no `/`. -/
theorem listed_device_removable_iff {now : T} {db : Database T} {drawn : List Uuid}
    (h : Reach (server x) AnyEvent (Pool.initial (Stores.initial now db drawn)) w)
    (hy : ServedAlone (server x) Smooth w y w') (hq : y.request = .listDevices tok dev)
    (hver : x.jwt.verify tok = some c) {l : List (DeviceResponse T)}
    (hres : y.result = .ok (.devices l)) {entry : DeviceResponse T} (hentry : entry ∈ l)
    (hother : entry.isCurrent = false) :
    Removable x w' tok dev c.sub entry.deviceId ↔
      entry.deviceId ≠ "" ∧ '/' ∉ entry.deviceId.toList := by
  constructor
  · intro hremovable
    exact (dispatch_deviceTarget _).mp hremovable.reaches
  · intro hid
    have hserved : Served x w y w' :=
      ((invariant_initial x now db drawn).reach h).sound.served (fun _ _ he => he.2) hy
    have hlater : Reach (server x) AnyEvent (Pool.initial (Stores.initial now db drawn)) w' :=
      h.trans ((reach_of_served hy).mono fun _ _ _ => trivial)
    have hinv : Invariant x w' := (invariant_initial x now db drawn).reach hlater
    have hactive : w'.shared.db.committed.Active c.sub entry.deviceId := by
      obtain ⟨l', hl, hlist⟩ := hserved.listed hq hver hres
      cases hl
      rw [hserved.list_committed hq]
      exact (hlist _).mp ⟨entry, hentry, rfl⟩
    have hne : entry.deviceId ≠ dev := by
      rw [hserved.list_current hq hres hentry] at hother
      exact beq_eq_false_iff_ne.mp hother
    refine ⟨(dispatch_deviceTarget _).mpr hid, ?_⟩
    intro z w'' hz hqz hauth hexp
    have hserved' := hinv.sound.served (fun _ _ he => he.2) hz
    obtain ⟨resp, hok⟩ := force_logout_succeeds hinv
      (Accountable.reach (hlater.trans ((reach_of_served hz).mono fun _ _ _ => trivial))) hz hqz
      hver hauth (hexp c hver) hactive hne
    obtain ⟨hgone, hstring⟩ := hserved'.force_logout_ends hqz hver hok
    refine ⟨⟨resp, hok⟩, unlisted_of_not_active hserved'.sound hgone, ?_⟩
    rw [Redis.Store.lookup, hstring]

end Listed

/-! ## A listed device -/

/-- The answer of a `get_devices` that returns the device `d`, which is not the current one. -/
def lists (d : String) (y : Reply ℚ Claims) : Bool :=
  match y.result with
  | .ok (.devices l) => l.any fun entry => entry.deviceId == d && !entry.isCurrent
  | _ => false

lemma lists_iff {d : String} {y : Reply ℚ Claims} (h : lists d y = true) :
    ∃ l, y.result = .ok (.devices l) ∧ ∃ entry ∈ l, entry.deviceId = d ∧
      entry.isCurrent = false := by
  unfold lists at h
  split at h
  · rename_i l hres
    obtain ⟨entry, hentry, hgood⟩ := List.any_eq_true.mp h
    rw [Bool.and_eq_true, beq_iff_eq, Bool.not_eq_true'] at hgood
    exact ⟨l, hres, entry, hentry, hgood⟩
  · cases h

/-- Alice lists her devices from her laptop after a login with the id `d`. -/
def listing (d : String) : List (ServiceEvent ℚ Claims) :=
  loginScript 0 "alice@example.com" "old" { xDeviceId := d } Plain.a₁ Plain.r₁ ++
    loginScript 1 "alice@example.com" "old" laptop Plain.a₂ Plain.r₂

/-- Alice's phone can be removed from her laptop. -/
theorem listed_device_removable_replay : ∃ w : World ℚ Claims,
    Removable Plain.externals w (laptopAccess 0 Plain.a₂) "laptop" Plain.aliceId "phone" := by
  obtain ⟨w, y, w', h, hq, hy, hgood⟩ := served_of_replay (S := server Plain.externals)
    anyEvent_of_check smooth_of_check 2 (listing "phone") (goes 2 4)
    (.listDevices (laptopAccess 0 Plain.a₂) "laptop") (w := Plain.start)
    (g := fun w w' => w'.log.getLast?.any (lists "phone")) (by decide +kernel)
  rw [hy.2.getLast?] at hgood
  obtain ⟨l, hres, entry, hentry, hid, hother⟩ := lists_iff hgood
  have hremovable := (listed_device_removable_iff h hy hq rfl hres hentry hother).mpr
    (by rw [hid]; decide +kernel)
  rw [hid] at hremovable
  exact ⟨w', hremovable⟩

/-- A device with a `/` in its id cannot be removed. -/
theorem listed_device_unreachable : ¬ ∀ (w w' : World ℚ Claims) (y : Reply ℚ Claims)
    (tok c : Claims) (dev : String) (l : List (DeviceResponse ℚ)) (entry : DeviceResponse ℚ),
    Reach (server Plain.externals) Orderly Plain.start w →
    ServedAlone (server Plain.externals) Smooth w y w' → y.request = .listDevices tok dev →
    Plain.jwt.verify tok = some c → y.result = .ok (.devices l) → entry ∈ l →
    entry.isCurrent = false → Removable Plain.externals w' tok dev c.sub entry.deviceId := by
  intro hclaim
  obtain ⟨w, y, w', h, hq, hy, hgood⟩ := served_of_replay (S := server Plain.externals)
    orderly_of_check smooth_of_check 2 (listing "my/phone") (goes 2 4)
    (.listDevices (laptopAccess 0 Plain.a₂) "laptop") (w := Plain.start)
    (g := fun w w' => w'.log.getLast?.any (lists "my/phone")) (by decide +kernel)
  rw [hy.2.getLast?] at hgood
  obtain ⟨l, hres, entry, hentry, hid, hother⟩ := lists_iff hgood
  have hreaches := (hclaim w w' y _ _ _ l entry h hy hq rfl hres hentry hother).reaches
  rw [hid, dispatch_deviceTarget] at hreaches
  exact hreaches.2 (by decide +kernel)

end SampleAuthApi
