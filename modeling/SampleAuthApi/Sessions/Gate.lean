import SampleAuthApi.Sessions.Current
import SampleAuthApi.Sessions.Rows

/-!
# Account gates and the login audit

`tokens_gated_iff`: `login` and `refresh` hand out tokens for ACTIVE accounts only, except when a
refresh presents the current token of an account that has lost its status since.

`login_audited_iff`: a login leaves its row in `login_histories` exactly when it is accepted.
-/

namespace SampleAuthApi

open Transactions Pool

variable {T K : Type} [Instant T]

/-! ## The gate -/

/-- Every token in the answer is one of an account that is not deleted, suspended or withdrawn. -/
def Gated (x : Externals K) (db : Database T) (y : Reply T K) : Prop :=
  ∀ tok ∈ handedOut y, ∀ c, x.jwt.verify tok = some c →
    ∃ user, db.select (.userById c.sub) = some user ∧ user.status ≠ .inactive ∧
      user.status ≠ .withdrawn

/-- The request is a refresh with the current token of an account that is not deleted, but suspended
or withdrawn. -/
def Revives (x : Externals K) (s : Stores T) (q : Request K) : Prop :=
  ∃ c user, Presents x q c ∧ validateClaims c s.now x.settings.jwtIssuer none = .ok c ∧
    s.session c.sub c.deviceId = some c.jti ∧
    s.db.committed.select (.userById c.sub) = some user ∧ user.status ≠ .active

section Statements

omit [Instant T]

/-- Statements that change a user at most by the date of the last login. -/
def Dates (wr : Write T) : Prop := wr.table ≠ .users ∨ ∃ u t, wr = lastLogin u t

lemma select_userById_of_dates {ws : List (Write T)} (h : ∀ wr ∈ ws, Dates wr) {db : Database T}
    {u : Uuid} {user : User T} (hsel : db.select (.userById u) = some user) :
    ∃ user', (Ledger.applyAll Database.apply ws db).select (.userById u) = some user' ∧
      user'.status = user.status := by
  induction ws generalizing db user with
  | nil => exact ⟨user, hsel, rfl⟩
  | cons wr ws ih =>
    have hrest : ∀ wr ∈ ws, Dates wr := fun w hw => h w (List.mem_cons_of_mem _ hw)
    rw [Ledger.applyAll_cons]
    rcases h wr List.mem_cons_self with htable | ⟨v, t, rfl⟩
    · refine ih hrest ?_
      simpa only [Database.select, Database.users_apply htable] using hsel
    · have hnext : ((Database.apply (lastLogin v t) db).getD db).select (.userById u) =
          some (if user.id = v then UserPatch.apply { lastLoginAt := some t } user else user) := by
        change (db.updateUser v _).select _ = _
        rw [Database.select_userById_updateUser rfl, hsel]
        rfl
      obtain ⟨user', hsel', hstatus⟩ := ih hrest hnext
      refine ⟨user', hsel', hstatus.trans ?_⟩
      split <;> rfl

end Statements

variable {x : Externals K} {w w' : World T K} {y : Reply T K}

/-- The status of a row that is neither suspended nor withdrawn. -/
lemma UserStatus.eq_active {s : UserStatus} : s = .active ↔ s ≠ .inactive ∧ s ≠ .withdrawn := by
  cases s <;> simp

omit [Instant T] in
/-- A user that is selected by email is selected by id. -/
lemma LoggedIn.userById {q : Request K} {f : Progress T} {u : Uuid} {d : String}
    (h : LoggedIn x q f u d) : ∃ s user, f.account = some (s, some user) ∧
      s.db.committed.select (.userById u) = some user ∧ user.status = .active := by
  obtain ⟨email, password, client, s, user, -, -, hacc, rfl, hsel, -, hactive⟩ := h
  obtain ⟨hmem, -, hlive⟩ := Database.select_userByEmail hsel
  exact ⟨s, user, hacc, Database.select_userById_of_mem hmem hlive, hactive⟩

/-- The claims of the tokens of a minted pair. -/
lemma Minted.sub {u : Uuid} {d : String} {resp : Response T K} {f : Progress T}
    (h : Minted x u d resp f) {tok : K} (htok : tok ∈ resp.tokens) {c : Claims}
    (hver : x.jwt.verify tok = some c) : c.sub = u := by
  obtain ⟨r, a, made, t, email, name, -, -, -, htokens, -⟩ := h
  rw [htokens] at htok
  simp only [List.mem_cons, List.not_mem_nil, or_false] at htok
  rcases htok with rfl | rfl
  · rw [x.jwt.verify_sign, Option.some.injEq] at hver
    rw [← hver]
    rfl
  · rw [x.jwt.verify_sign, Option.some.injEq] at hver
    rw [← hver]
    rfl

omit [Instant T] in
/-- The writes of a successful login change its user at most by the date of the last login. -/
lemma Recorded.dates {email password : String} {client : ClientInfo} {resp : Response T K}
    {f : Progress T} (h : Recorded x (.login email password client) resp f) :
    ∀ wr ∈ f.committed, Dates wr := by
  obtain ⟨u, s, write, last, row, -, -, hup, hcommitted, hlast, -⟩ := h
  rw [hcommitted]
  intro wr hwr
  rcases List.mem_cons.mp hwr with rfl | hwr
  · exact .inl (by rw [hup.table]; decide)
  · rcases List.mem_append.mp hwr with hwr | hwr
    · obtain ⟨t, rfl⟩ := hlast wr hwr
      exact .inr ⟨u, t, rfl⟩
    · rw [List.mem_singleton.mp hwr]
      exact .inl (by simp [Write.table])

/-- A request that is served alone hands out tokens for ACTIVE accounts only, unless it is a refresh
that has found its own token stored and loaded another account. -/
lemma Served.gated (h : Served x w y w')
    (hrefresh : ∀ c user, Presents x y.request c → Valid x (progress y.performed) c →
      Matched x y.request (progress y.performed) c →
      w.shared.db.committed.select (.userById c.sub) = some user → user.status = .active) :
    Gated x w'.shared.db.committed y := by
  intro tok htok c hver
  have hends := h.ends
  unfold handedOut at htok
  split at htok
  · rename_i resp hres
    rw [hres] at hends
    obtain ⟨-, hsucc, hrec⟩ := hends
    cases hq : y.request with
    | login email password client =>
      rw [hq] at hsucc hrec
      obtain ⟨u, hlogin, hminted⟩ := hsucc
      obtain ⟨s, user, hacc, hsel, hactive⟩ := hlogin.userById
      rw [h.trail.account s _ hacc] at hsel
      obtain ⟨user', hsel', hstatus⟩ := select_userById_of_dates hrec.dates hsel
      rw [← hminted.sub htok hver] at hsel'
      rw [h.trail.committed]
      exact ⟨user', hsel', UserStatus.eq_active.mp (hstatus.trans hactive)⟩
    | refresh tok' client =>
      rw [hq] at hsucc hrec hrefresh
      obtain ⟨c', ⟨hmatched, s, user, hacc, hsel⟩, hvalid, hminted⟩ := hsucc
      rw [h.trail.account s _ hacc] at hsel
      have hactive := hrefresh c' user hmatched.1 hvalid hmatched hsel
      rw [h.trail.committed, show (progress y.performed).committed = [] from hrec,
        hminted.sub htok hver]
      exact ⟨user, hsel, UserStatus.eq_active.mp hactive⟩
    | _ =>
      rw [hq] at hsucc
      rw [hsucc.1] at htok
      exact absurd htok List.not_mem_nil
  · exact absurd htok List.not_mem_nil

/-- The session that a refresh has matched was there when it arrived, if the clock stood still. -/
lemma Served.session_of_found (h : Served x w y w') (hstill : w'.shared.now = w.shared.now)
    {s : Stores T} {u : Uuid} {d : String} (hl : LookedUp (progress y.performed) s u d) :
    s.session u d = w.shared.session u d := by
  obtain ⟨hredis, hle, hle'⟩ := h.trail.found s _ hl
  have hnow : s.now = w.shared.now := le_antisymm (hle'.trans (le_of_eq hstill)) hle
  rw [Stores.session, Stores.session, hredis, hnow]

/-- A clock reading of a request during which the clock stood still. -/
lemma Served.reading (h : Served x w y w') (hstill : w'.shared.now = w.shared.now) {t : T}
    (ht : t ∈ (progress y.performed).readings) : t = w.shared.now :=
  le_antisymm ((h.trail.readings t ht).2.trans (le_of_eq hstill)) (h.trail.readings t ht).1

/-- A refresh with the current token of an account that is not deleted succeeds at an instant. -/
lemma Served.refreshes (h : Served x w y w') (hf : (progress y.performed).failed = false)
    (hstill : w'.shared.now = w.shared.now) {c : Claims} {user : User T}
    (hpres : Presents x y.request c)
    (hvalid : validateClaims c w.shared.now x.settings.jwtIssuer none = .ok c)
    (hsession : w.shared.session c.sub c.deviceId = some c.jti)
    (hsel : w.shared.db.committed.select (.userById c.sub) = some user) :
    ∃ resp, y.result = .ok resp ∧ Minted x c.sub c.deviceId resp (progress y.performed) ∧
      (progress y.performed).committed = [] := by
  obtain ⟨tok, client, hq, hver, htype, hdev⟩ := id hpres
  have hends := h.ends
  cases hres : y.result with
  | ok resp =>
    rw [hres, hq] at hends
    obtain ⟨-, ⟨c', hrot, -, hminted⟩, hrec⟩ := hends
    cases hrot.1.1.unique (hq ▸ hpres)
    exact ⟨resp, rfl, hminted, hrec⟩
  | error e =>
    rw [hres, hq] at hends
    obtain ⟨-, hrefused, -⟩ := hends
    rcases hrefused.resolve_left (by rw [hf]; simp) with
      ⟨c', ⟨hpres', s, j, hl, hs, hne⟩, -⟩ | ⟨-, hreason⟩
    · cases hpres'.unique (hq ▸ hpres)
      rw [h.session_of_found hstill hl, hsession, Option.some.injEq] at hs
      exact absurd hs.symm hne
    · rcases hreason c hver with ⟨-, ⟨t, ht, hbad⟩ | hbad | hbad⟩ | ⟨s, hl, hs⟩ |
        ⟨-, s, hacc, hnone⟩
      · rw [h.reading hstill ht] at hbad
        exact absurd hvalid hbad
      · exact absurd htype hbad
      · exact absurd hdev hbad
      · rw [h.session_of_found hstill hl, hsession] at hs
        cases hs
      · rw [h.trail.account s _ hacc, hsel] at hnone
        cases hnone

section Gate

variable {admits : List (Reply T K) → Request K → Bool}

/-- Redis and the database can be reached, and neither the clock nor an administrator moves. -/
def Still {α Q : Type} (_ : Pooled T α Q) (e : Event Q (Choice T)) : Prop :=
  Reliable e ∧ ∀ c, e ≠ .env c

omit [Instant T] in
lemma Still.unattended {α Q : Type} {w : Pooled T α Q} {e : Event Q (Choice T)} (h : Still w e) :
    Unattended e := by
  cases e with
  | env c => exact absurd rfl (h.2 c)
  | _ => trivial

/-- A request that is served alone hands out tokens for ACTIVE accounts only, if it is no refresh of
another account; at an instant, exactly if it does not revive a suspended or withdrawn account. -/
theorem tokens_gated_iff {s : Stores T} (hs : s.db.pending = []) :
    (∀ (y : Reply T K) (w' : World T K),
      ServedAlone (service (endpoint x) admits) (fun _ => Unattended) (Pool.initial s) y w' →
      (∀ c user, Presents x y.request c → s.db.committed.select (.userById c.sub) = some user →
        user.status = .active) → Gated x w'.shared.db.committed y) ∧
    ∀ (y : Reply T K) (w' : World T K),
      ServedAlone (service (endpoint x) admits) Still (Pool.initial s) y w' →
      (Gated x w'.shared.db.committed y ↔ ¬ Revives x s y.request) := by
  have hsound : Sound x (Pool.initial s : World T K) :=
    ⟨conforms_initial _, fun i => by simp [Pool.initial, serving, slot, Ledger.own, hs]⟩
  constructor
  · intro y w' hy hactive
    exact (hsound.served (fun _ _ h => h) hy).gated fun c user hpres _ _ hsel =>
      hactive c user hpres hsel
  · intro y w' hy
    have hserved := hsound.served (fun _ _ h => h.unattended) hy
    have hf := hsound.served_reliable (fun _ _ h => h.1) hy
    have hstill : w'.shared.now = s.now := ServedAlone.now hy fun v e h => h.2
    constructor
    · rintro hgated ⟨c, user, hpres, hvalid, hsession, hsel, hstatus⟩
      obtain ⟨resp, hres, hminted, hcommitted⟩ := hserved.refreshes hf hstill hpres hvalid hsession
        hsel
      obtain ⟨r, a, made, t, email, name, -, -, -, htokens, -⟩ := hminted
      have hmem : x.jwt.sign (JwtService.refreshClaims x.settings c.sub c.deviceId made r) ∈
          handedOut y := by
        simp [handedOut, hres, htokens]
      obtain ⟨user', hsel', hne⟩ := hgated _ hmem _ (x.jwt.verify_sign _)
      rw [hserved.trail.committed, hcommitted] at hsel'
      change s.db.committed.select (.userById c.sub) = _ at hsel'
      rw [hsel, Option.some.injEq] at hsel'
      subst hsel'
      exact hstatus (UserStatus.eq_active.mpr hne)
    · intro hno
      refine hserved.gated fun c user hpres hvalid hmatched hsel => ?_
      by_contra hstatus
      obtain ⟨t, ht, hval⟩ := hvalid
      obtain ⟨-, s', hl, hsession⟩ := hmatched
      rw [hserved.reading hstill ht] at hval
      rw [hserved.session_of_found hstill hl] at hsession
      exact hno ⟨c, user, hpres, hval, hsession, hsel, hstatus⟩

/-- `Still`, as a check. -/
def still {α Q : Type} (_ : Pooled T α Q) : Event Q (Choice T) → Bool
  | .step _ .fail => false
  | .env _ => false
  | _ => true

omit [Instant T] in
lemma still_of_check {α Q : Type} (w : Pooled T α Q) (e : Event Q (Choice T))
    (h : still w e = true) : Still w e := by
  cases e with
  | step i c => cases c <;> first | exact ⟨trivial, by simp⟩ | cases h
  | env c => cases h
  | _ => exact ⟨trivial, by simp⟩

/-- A login of Alice. -/
theorem tokens_gated_replay : ∃ (y : Reply ℚ Claims) (w' : World ℚ Claims),
    y.request = .login "alice@example.com" "old" Plain.phone ∧ y.result.isOk = true ∧
      Gated Plain.externals w'.shared.db.committed y := by
  obtain ⟨y, w', hq, hy, hok⟩ := served_of_check (S := server Plain.externals) still_of_check 0
    (loginCalls 0 Plain.a₁ Plain.r₁ ++ goes 0 5) (.login "alice@example.com" "old" Plain.phone)
    (w := Plain.start) (g := fun w' => w'.log.getLast?.any fun y => y.result.isOk)
    (by decide +kernel)
  rw [hy.2.getLast?, Option.any_some] at hok
  refine ⟨y, w', hq, hok, ((tokens_gated_iff rfl).2 y w' hy).mpr ?_⟩
  rintro ⟨c, user, ⟨tok, client, hq', -⟩, -⟩
  rw [hq] at hq'
  cases hq'

/-- A refresh hands out tokens for Alice after she has been suspended. -/
theorem suspended_refreshes : ¬ ∀ (s : Stores ℚ) (y : Reply ℚ Claims) (w' : World ℚ Claims),
    s.db.pending = [] →
    ServedAlone (service (endpoint Plain.externals) fun _ _ => true) (fun _ => Unattended)
      (Pool.initial s) y w' → Gated Plain.externals w'.shared.db.committed y := by
  intro hclaim
  obtain ⟨y, w', hq, hy, hgood⟩ := served_of_check (L := fun _ => Unattended)
    (S := service (endpoint Plain.externals) fun _ _ => true)
    (fun v e h => (still_of_check v e h).unattended) 0
    (goes 0 2 ++ rotateCalls 0 Plain.a₂ Plain.r₂) (.refresh (Plain.refresh 0 Plain.r₁) Plain.phone)
    (w := Pool.initial Plain.suspended)
    (g := fun w' =>
      (w'.log.getLast?.any fun y => decide (Plain.refresh 0 Plain.r₂ ∈ handedOut y)) &&
      (w'.shared.db.committed.select (.userById Plain.aliceId)).any fun (user : User ℚ) =>
        decide (user.status = .inactive))
    (by decide +kernel)
  rw [hy.2.getLast?, Option.any_some, Bool.and_eq_true, decide_eq_true_eq] at hgood
  obtain ⟨user, hsel, hne, -⟩ := hclaim Plain.suspended y w' rfl hy _ hgood.1 _ rfl
  have hinactive := hgood.2
  rw [show w'.shared.db.committed.select (.userById Plain.aliceId) = some user from hsel,
    Option.any_some, decide_eq_true_eq] at hinactive
  exact hne hinactive

end Gate

/-! ## The login audit -/

section Audit

/-- The hash that a login with this email verifies its password against. -/
def storedHash (x : Externals K) (db : Database T) (email : String) : String :=
  ((db.select (.userByEmail email)).map User.hashedPassword).getD x.dummyHash

/-- The request is a login whose credentials can be checked. -/
def Checks (x : Externals K) (db : Database T) (q : Request K) : Prop :=
  ∃ email password client b, q = .login email password client ∧
    x.pwdContext.verify password (storedHash x db email) = .ok b

/-- The request is a login with the credentials of an ACTIVE account that is not deleted. -/
def Verified (x : Externals K) (db : Database T) (q : Request K) : Prop :=
  ∃ email password client user, q = .login email password client ∧
    db.select (.userByEmail email) = some user ∧
    x.pwdContext.verify password user.hashedPassword = .ok true ∧ user.status = .active

/-- The row records the attempt: whether it succeeded and, if not, why, and the user that was found,
the device and the address of the client. -/
def Records (y : Reply T K) (row : LoginHistory T) : Prop :=
  row.success = y.result.isOk ∧ (y.result.isOk = false → row.failureReason ≠ none) ∧
  ∃ email password client s found, y.request = .login email password client ∧
    (progress y.performed).account = some (s, found) ∧ row.userId = found.map User.id ∧
    row.deviceId = client.xDeviceId ∧ row.ipAddress = client.clientIp

/-- Exactly one row has been added, and it records the attempt. -/
def Audited (db db' : Database T) (y : Reply T K) : Prop :=
  ∃ row, db'.histories = db.histories ++ [row] ∧ Records y row

omit [Instant T] in
lemma Verified.checks {db : Database T} {q : Request K} (h : Verified x db q) :
    Checks x db q := by
  obtain ⟨email, password, client, user, hq, hsel, hver, -⟩ := h
  exact ⟨email, password, client, true, hq, by simpa [storedHash, hsel] using hver⟩

/-- A login that is served alone succeeds exactly when it is verified. -/
lemma Served.login_iff (h : Served x w y w') (hf : (progress y.performed).failed = false)
    {email password : String} {client : ClientInfo}
    (hq : y.request = .login email password client) :
    y.result.isOk = true ↔ Verified x w.shared.db.committed y.request := by
  have hends := h.ends
  rw [hq] at hends ⊢
  cases hres : y.result with
  | ok resp =>
    rw [hres] at hends
    obtain ⟨-, ⟨u, hlogged, -⟩, -⟩ := hends
    obtain ⟨email', password', client', s, user, hq', -, hacc, -, hsel, hver, hact⟩ := hlogged
    cases hq'
    rw [h.trail.account s _ hacc] at hsel
    exact iff_of_true rfl ⟨email, password, client, user, rfl, hsel, hver, hact⟩
  | error e =>
    rw [hres] at hends
    obtain ⟨-, -, -, hrejected⟩ := hends
    refine iff_of_false (by simp [Except.isOk, Except.toBool]) ?_
    rintro ⟨email', password', client', user, hq', hsel, hver, hact⟩
    cases hq'
    obtain ⟨s, hacc, -, hrej⟩ := hrejected.resolve_left (by rw [hf]; simp)
    rw [h.trail.account s _ hacc, hsel] at hrej
    rcases hrej with ⟨hfalse, -⟩ | herr | ⟨-, ⟨hstatus, -⟩ | ⟨hstatus, -⟩ | ⟨-, -, hrace⟩⟩
    · rw [hver] at hfalse
      cases hfalse
    · rw [hver] at herr
      cases herr
    · rw [hact] at hstatus
      cases hstatus
    · rw [hact] at hstatus
      cases hstatus
    · -- the row was missing when it was queried, and nobody else was being served
      obtain ⟨s₁, s₂, device, hdev, ⟨hu, hd, -, hmissing⟩, href, hnone⟩ := hrace
      rw [h.trail.devices s₁ hdev] at hmissing
      rw [h.trail.refused s₂ _ href] at hnone
      obtain ⟨r, hr, hkey⟩ := Database.insertDevice_eq_none.mp hnone
      exact Database.select_device_eq_none.mp hmissing r hr
        ⟨hkey.1.trans hu, hkey.2.trans hd⟩

/-- What a login that is served alone leaves in the login histories. -/
lemma Served.histories (h : Served x w y w') {email password : String} {client : ClientInfo}
    (hq : y.request = .login email password client) :
    (y.result.isOk = true ∧ ∃ row, w'.shared.db.committed.histories =
      w.shared.db.committed.histories ++ [row] ∧ Records y row) ∨
    (y.result.isOk = false ∧
      w'.shared.db.committed.histories = w.shared.db.committed.histories) := by
  have hends := h.ends
  rw [hq] at hends
  rw [h.trail.committed]
  cases hres : y.result with
  | ok resp =>
    rw [hres] at hends
    obtain ⟨-, -, u, s, write, last, row, hlogged, -, hup, hcommitted, hlast, huser, hdev, hsuccess,
      -, -, hip⟩ := hends
    obtain ⟨_, _, _, s', user, heq, -, hacc, hid, -⟩ := hlogged
    cases heq
    have hothers : ∀ wr ∈ write :: last, wr.table ≠ .loginHistories := by
      intro wr hwr
      rcases List.mem_cons.mp hwr with rfl | hwr
      · rw [hup.table]
        decide
      · obtain ⟨t, rfl⟩ := hlast wr hwr
        simp [lastLogin, Write.table]
    refine .inl ⟨rfl, row, ?_, hsuccess.trans (by rw [hres]; rfl), fun hno => ?_, email, password,
      client, s', some user, hq, hacc, ?_, hdev, hip⟩
    · rw [hcommitted, ← List.cons_append, Ledger.applyAll_append]
      change (Ledger.applyAll Database.apply (write :: last) _).histories ++ [row] = _
      rw [histories_applyAll hothers]
    · rw [hres] at hno
      cases hno
    · rw [huser, Option.map_some, hid]
  | error e =>
    rw [hres] at hends
    obtain ⟨-, -, hcommitted, -⟩ := hends
    exact .inr ⟨rfl, by rw [hcommitted]; rfl⟩

variable [DecidableEq K]

/-- A serial run of logins with the credentials of ACTIVE accounts. -/
def VerifiedLogins (x : Externals K) (w : World T K) (e : Event (Request K) (Choice T)) : Prop :=
  Serial w e ∧ Smooth w e ∧ ∀ q, e = .start q → Verified x w.shared.db.committed q

/-- A login whose credentials can be checked leaves its row exactly when it is verified, and earlier
rows stay; a serial run of verified logins leaves one row for each of them, in order. -/
theorem login_audited_iff {now : T} {db : Database T} {drawn : List Uuid}
    (h : Reach (server x) AnyEvent (Pool.initial (Stores.initial now db drawn)) w) :
    (∀ (y : Reply T K) (w' : World T K), ServedAlone (server x) Smooth w y w' →
      y.request.isLogin = true →
      ((Checks x w.shared.db.committed y.request →
          Audited w.shared.db.committed w'.shared.db.committed y) ↔
        (Checks x w.shared.db.committed y.request → Verified x w.shared.db.committed y.request)) ∧
      w.shared.db.committed.histories <+: w'.shared.db.committed.histories) ∧
    ∀ w', w.Quiescent → Reach (server x) (VerifiedLogins x) w w' → w'.Quiescent →
      ∃ ys rows, w'.log = w.log ++ ys ∧
        w'.shared.db.committed.histories = w.shared.db.committed.histories ++ rows ∧
        List.Forall₂ Records ys rows := by
  have hw : Sound x w := ((invariant_initial x now db drawn).reach h).sound
  refine ⟨fun y w' hy hlogin => ?_, fun w' hquiet hrun hquiet' => ?_⟩
  · obtain ⟨email, password, client, hq⟩ : ∃ email password client,
        y.request = .login email password client := by
      cases hreq : y.request with
      | login email password client => exact ⟨email, password, client, rfl⟩
      | _ => rw [hreq] at hlogin; cases hlogin
    have hserved := hw.served (fun _ _ h => h.2) hy
    have hiff := hserved.login_iff (hw.served_reliable (fun _ _ h => h.1) hy) hq
    rcases hserved.histories hq with ⟨hok, row, hrows, hrecords⟩ | ⟨hno, hrows⟩
    · exact ⟨iff_of_true (fun _ => ⟨row, hrows, hrecords⟩) fun _ => hiff.mp hok,
        ⟨[row], hrows.symm⟩⟩
    · refine ⟨?_, by rw [hrows]⟩
      constructor
      · intro haudited hchecks
        obtain ⟨row, hone, -⟩ := haudited hchecks
        rw [hrows] at hone
        exact absurd hone (by simp)
      · intro hverified hchecks
        rw [hiff.mpr (hverified hchecks)] at hno
        cases hno
  · have hall := hrun.serial (I := fun w' => Sound x w' ∧ ∃ ys rows, w'.log = w.log ++ ys ∧
        w'.shared.db.committed.histories = w.shared.db.committed.histories ++ rows ∧
        List.Forall₂ Records ys rows) (fun v e he => he.1) hquiet
      ⟨hw, [], [], by simp, by simp, .nil⟩ ?_ ?_ hquiet'
    · exact hall.2
    · rintro v c v' - - ⟨hv, ys, rows, hlog, hrows, hall⟩ hK hexec
      refine ⟨hv.exec hexec, ys, rows, ?_, ?_, hall⟩
      all_goals
        cases hv.change hexec with
        | env c _ hdrift hlog' =>
          obtain ⟨-, hdb, -⟩ := drift_unattended hK.2.1.2 hdrift
          first | exact hlog'.trans hlog | rwa [hdb]
    · rintro v y v' - ⟨hv, ys, rows, hlog, hrows, hall⟩ hK hy
      have hserved := hv.served (fun _ _ h => h.2.1.2) hy
      obtain ⟨email, password, client, user, hq, hver⟩ := hK.2.2 _ rfl
      have hok := (hserved.login_iff (hv.served_reliable (fun _ _ h => h.2.1.1) hy) hq).mpr
        ⟨email, password, client, user, hq, hver⟩
      rcases hserved.histories hq with ⟨-, row, hrow, hrecords⟩ | ⟨hno, -⟩
      · refine ⟨hserved.sound, ys ++ [y], rows ++ [row], ?_, ?_, ?_⟩
        · rw [hserved.log, hlog, List.append_assoc]
        · rw [hrow, hrows, List.append_assoc]
        · exact List.rel_append hall (.cons hrecords .nil)
      · rw [hok] at hno
        cases hno

/-- A login of Alice leaves its row. -/
theorem login_audited_replay : ∃ (y : Reply ℚ Claims) (w' : World ℚ Claims),
    y.request = .login "alice@example.com" "old" Plain.phone ∧ y.result.isOk = true ∧
      Audited Plain.start.shared.db.committed w'.shared.db.committed y := by
  obtain ⟨y, w', hq, hy, hok⟩ := served_of_check (S := server Plain.externals) smooth_of_check 0
    (loginCalls 0 Plain.a₁ Plain.r₁ ++ goes 0 5) (.login "alice@example.com" "old" Plain.phone)
    (w := Plain.start) (g := fun w' => w'.log.getLast?.any fun y => y.result.isOk)
    (by decide +kernel)
  rw [hy.2.getLast?, Option.any_some] at hok
  have hverified : Verified Plain.externals Plain.start.shared.db.committed y.request :=
    ⟨_, _, _, Plain.alice, hq, rfl, rfl, rfl⟩
  have hiff := ((login_audited_iff (Reach.refl Plain.start)).1 y w' hy (by rw [hq]; rfl)).1
  exact ⟨y, w', hq, hok, hiff.mpr (fun _ => hverified) hverified.checks⟩

/-- A login with a wrong password leaves no row. -/
theorem failed_login_unaudited : ¬ ∀ (w w' : World ℚ Claims) (y : Reply ℚ Claims),
    Reach (server Plain.externals) AnyEvent Plain.start w →
    ServedAlone (server Plain.externals) Smooth w y w' → y.request.isLogin = true →
    Checks Plain.externals w.shared.db.committed y.request →
    Audited w.shared.db.committed w'.shared.db.committed y := by
  intro hclaim
  obtain ⟨y, w', hq, hy, hempty⟩ := served_of_check (S := server Plain.externals) smooth_of_check 0
    (goes 0 5) (.login "alice@example.com" "new" Plain.phone)
    (w := Plain.start) (g := fun w' => w'.shared.db.committed.histories.isEmpty)
    (by decide +kernel)
  obtain ⟨row, hrow, -⟩ := hclaim Plain.start w' y (Reach.refl _) hy (by rw [hq]; rfl)
    ⟨_, _, _, false, hq, rfl⟩
  rw [List.isEmpty_iff.mp hempty] at hrow
  simp at hrow

end Audit

end SampleAuthApi
