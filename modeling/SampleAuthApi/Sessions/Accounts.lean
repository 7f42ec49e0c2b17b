import SampleAuthApi.Sessions.Rows

/-!
# Emails

`login_reveals_nothing`: a login whose password does not verify ends in the same way whether or not
there is an account with its email, and leaves both stores as they were.

`email_checks_agree_iff`: the query by which `signup` tests for an email and the unique index on
`users.email` agree exactly on the emails that no deleted account has.
-/

namespace SampleAuthApi

open Transactions Pool

variable {T K : Type} [Instant T]

/-- No account with this email that is not deleted has this password. -/
def NoCredentials (x : Externals K) (db : Database T) (email password : String) : Prop :=
  ∀ user, db.select (.userByEmail email) = some user →
    x.pwdContext.verify password user.hashedPassword ≠ .ok true

/-- The exception that a login without valid credentials ends with. -/
def rejection (x : Externals K) (password : String) : Exc :=
  match x.pwdContext.verify password x.dummyHash with
  | .ok _ => .invalidCredentials
  | .error e => e

/-- What `verify` raises depends on the password, not on the hash it is compared with. -/
def RaisesAlike (x : Externals K) : Prop :=
  ∀ password hash hash' e, Made x hash → Made x hash' →
    x.pwdContext.verify password hash = .error e → x.pwdContext.verify password hash' = .error e

section Rejection

variable {x : Externals K} {email password : String} {dev : String} {f : Progress T} {e : Exc}

omit [Instant T] in
/-- The only rejection of a login without valid credentials. -/
lemma LoginRejected.eq_rejection {db : Database T} (hraise : RaisesAlike x)
    (hdummy : Made x x.dummyHash) (hdb : Hashed x db)
    (hno : NoCredentials x db email password)
    (h : LoginRejected x password dev f e (db.select (.userByEmail email))) :
    e = rejection x password := by
  unfold rejection
  cases hrow : db.select (.userByEmail email) with
  | none =>
    rw [hrow] at h
    rcases h with ⟨b, hb, rfl⟩ | he
    · rw [hb]
    · rw [he]
  | some user =>
    have hmade : Made x user.hashedPassword := hdb user (Database.select_userByEmail hrow).1
    have hbad := hno user hrow
    rw [hrow] at h
    rcases h with ⟨hfalse, rfl⟩ | he | ⟨htrue, -⟩
    · cases hv : x.pwdContext.verify password x.dummyHash with
      | ok b => rfl
      | error e =>
        have hsame := hraise password _ _ e hdummy hmade hv
        rw [hfalse] at hsame
        cases hsame
    · rw [hraise password _ _ e hmade hdummy he]
    · exact absurd htrue hbad

end Rejection

variable [DecidableEq K] {x : Externals K} {w w' : World T K} {y : Reply T K}
  {email password : String} {client : ClientInfo}

omit [DecidableEq K] in
/-- A login without valid credentials is rejected after one verification of its password, and leaves
both stores as they were. -/
theorem Served.rejected (h : Served x w y w') (hf : (progress y.performed).failed = false)
    (hraise : RaisesAlike x) (hdummy : Made x x.dummyHash)
    (hdb : Hashed x w.shared.db.committed) (hq : y.request = .login email password client)
    (hno : NoCredentials x w.shared.db.committed email password) :
    y.result = .error (rejection x password) ∧ (progress y.performed).checks = 1 ∧
      w'.shared.db.committed = w.shared.db.committed ∧ w'.shared.redis = w.shared.redis := by
  have hends := h.ends
  rw [hq] at hends
  cases hres : y.result with
  | ok resp =>
    rw [hres] at hends
    obtain ⟨-, ⟨u, ⟨email', password', client', s, user, hq', -, hacc, -, hsel, hver, -⟩, -⟩, -⟩ :=
      hends
    cases hq'
    rw [h.trail.account s _ hacc] at hsel
    exact absurd hver (hno user hsel)
  | error e =>
    rw [hres] at hends
    obtain ⟨-, hrefused, hcommitted, hrejected⟩ := hends
    have hsent : (progress y.performed).sent = [] :=
      hrefused.resolve_left (by rw [hf]; simp)
    obtain ⟨s, hacc, hchecks, hrej⟩ := hrejected.resolve_left (by rw [hf]; simp)
    rw [h.trail.account s _ hacc] at hrej
    refine ⟨congrArg _ (hrej.eq_rejection hraise hdummy hdb hno), hchecks, ?_, ?_⟩
    · rw [h.trail.committed, hcommitted]
      rfl
    · rw [h.trail.redis, hsent]
      rfl

/-- Two logins with the same credentials, in two states none of which has an account with these
credentials, end in the same way after one verification each, and leave the stores as they were. -/
theorem login_reveals_nothing (hraise : RaisesAlike x) (hdummy : Made x x.dummyHash)
    {now₁ now₂ : T} {db₁ db₂ : Database T} {drawn₁ drawn₂ : List Uuid} (hdb₁ : Hashed x db₁)
    (hdb₂ : Hashed x db₂) {w₁ w₂ v₁ v₂ : World T K} {y₁ y₂ : Reply T K}
    (h₁ : Reach (server x) AnyEvent (Pool.initial (Stores.initial now₁ db₁ drawn₁)) w₁)
    (h₂ : Reach (server x) AnyEvent (Pool.initial (Stores.initial now₂ db₂ drawn₂)) w₂)
    (hq₁ : y₁.request = .login email password client)
    (hq₂ : y₂.request = .login email password client)
    (hno₁ : NoCredentials x w₁.shared.db.committed email password)
    (hno₂ : NoCredentials x w₂.shared.db.committed email password)
    (hy₁ : ServedAlone (server x) Smooth w₁ y₁ v₁) (hy₂ : ServedAlone (server x) Smooth w₂ y₂ v₂) :
    (∃ e, y₁.result = .error e ∧ y₂.result = .error e) ∧
      (progress y₁.performed).checks = 1 ∧ (progress y₂.performed).checks = 1 ∧
      (v₁.shared.db.committed = w₁.shared.db.committed ∧ v₁.shared.redis = w₁.shared.redis) ∧
      v₂.shared.db.committed = w₂.shared.db.committed ∧ v₂.shared.redis = w₂.shared.redis := by
  have hw₁ : Sound x w₁ := ((invariant_initial x now₁ db₁ drawn₁).reach h₁).sound
  have hw₂ : Sound x w₂ := ((invariant_initial x now₂ db₂ drawn₂).reach h₂).sound
  obtain ⟨hr₁, hc₁, hd₁, hs₁⟩ := (hw₁.served (fun _ _ h => h.2) hy₁).rejected
    (hw₁.served_reliable (fun _ _ h => h.1) hy₁) hraise hdummy ((hashed_kept x).reach hdb₁ h₁) hq₁
    hno₁
  obtain ⟨hr₂, hc₂, hd₂, hs₂⟩ := (hw₂.served (fun _ _ h => h.2) hy₂).rejected
    (hw₂.served_reliable (fun _ _ h => h.1) hy₂) hraise hdummy ((hashed_kept x).reach hdb₂ h₂) hq₂
    hno₂
  exact ⟨⟨_, hr₁, hr₂⟩, hc₁, hc₂, ⟨hd₁, hs₁⟩, hd₂, hs₂⟩

/-- A wrong password for Alice, and the same login where nobody has an account. -/
theorem login_reveals_nothing_replay : ∃ (y₁ y₂ : Reply ℚ Claims) (e : Exc),
    y₁.request = .login "alice@example.com" "new" Plain.phone ∧ y₂.request = y₁.request ∧
      y₁.result = .error e ∧ y₂.result = .error e := by
  obtain ⟨w₁, y₁, v₁, h₁, hq₁, hy₁, hgood₁⟩ := served_of_replay (S := server Plain.externals)
    anyEvent_of_check smooth_of_check 0 [] (goes 0 5)
    (.login "alice@example.com" "new" Plain.phone) (w := Plain.start)
    (g := fun w _ => w.shared.db.committed.users.all fun r => r.hashedPassword != "new")
    (by decide +kernel)
  obtain ⟨w₂, y₂, v₂, h₂, hq₂, hy₂, hgood₂⟩ := served_of_replay (S := server Plain.externals)
    anyEvent_of_check smooth_of_check 0 [] (goes 0 5)
    (.login "alice@example.com" "new" Plain.phone)
    (w := Plain.deserted)
    (g := fun w _ => w.shared.db.committed.users.all fun r => r.hashedPassword != "new")
    (by decide +kernel)
  have hno : ∀ db : Database ℚ, (db.users.all fun r => r.hashedPassword != "new") = true →
      NoCredentials Plain.externals db "alice@example.com" "new" := by
    intro db hall user hrow hver
    have hne := List.all_eq_true.mp hall user (Database.select_userByEmail hrow).1
    have heq : ("new" == user.hashedPassword) = true := Except.ok.inj hver
    rw [beq_iff_eq] at heq
    rw [← heq] at hne
    exact absurd hne (by decide)
  obtain ⟨⟨e, hr₁, hr₂⟩, -⟩ := login_reveals_nothing (x := Plain.externals)
    (fun _ _ _ _ _ _ h => by cases h) ⟨"", "dummy", rfl⟩ (fun user _ => ⟨"", _, rfl⟩)
    (fun user _ => ⟨"", _, rfl⟩) h₁ h₂ hq₁ hq₂ (hno _ hgood₁) (hno _ hgood₂) hy₁ hy₂
  exact ⟨y₁, y₂, e, hq₁, hq₂.trans hq₁.symm, hr₁, hr₂⟩

/-! ## The two email checks of `signup` -/

section Signup

/-- A deleted account has this email. -/
def Tombstone (db : Database T) (email : String) : Prop :=
  ∃ r ∈ db.users, r.email = email ∧ r.deletedAt ≠ none

/-- Every account with this email is deleted. -/
def AllDeleted (db : Database T) (email : String) : Prop :=
  ∀ r ∈ db.users, r.email = email → r.deletedAt ≠ none

omit [Instant T] in
/-- The query finds nobody and the insert succeeds together, unless a deleted account has the
email. -/
lemma insert_agrees_iff {db : Database T} {user : User T} (hid : ∀ r ∈ db.users, r.id ≠ user.id) :
    (db.select (.userByEmail user.email) = none ↔ (db.insertUser user).isSome = true) ↔
      ¬ Tombstone db user.email := by
  have hfree : (db.insertUser user).isSome = true ↔ ∀ r ∈ db.users, r.email ≠ user.email := by
    rw [← Option.ne_none_iff_isSome, ne_eq, Database.insertUser_eq_none]
    constructor
    · intro h r hr heq
      exact h ⟨r, hr, .inr heq⟩
    · rintro h ⟨r, hr, heq | heq⟩
      · exact hid r hr heq
      · exact h r hr heq
  rw [Database.select_userByEmail_eq_none, hfree]
  constructor
  · rintro hiff ⟨r, hr, hemail, hdeleted⟩
    refine hiff.mp (fun r' hr' hemail' => ?_) r hr hemail
    rw [Database.email_unique hr' hr (hemail'.trans hemail.symm)]
    exact hdeleted
  · intro hno
    constructor
    · exact fun h r hr heq => hno ⟨r, hr, heq, h r hr heq⟩
    · exact fun h r hr heq => absurd heq (h r hr)

omit [DecidableEq K] in
/-- A signup that is served alone succeeds exactly when no row has its email. -/
theorem Served.signup_iff (h : Served x w y w') (hf : (progress y.performed).failed = false)
    (hids : IdsDrawn w.shared.drawn w.shared.db.committed) {name : String} {phone : Option String}
    {agreed : Bool} (hq : y.request = .signup email password name phone agreed)
    (hhash : ∀ salt e, x.pwdContext.hash salt password ≠ .error e) :
    y.result.isOk = true ↔ ∀ r ∈ w.shared.db.committed.users, r.email ≠ email := by
  have hends := h.ends
  rw [hq] at hends
  cases hres : y.result with
  | ok resp =>
    rw [hres] at hends
    obtain ⟨hwrote, -, user, hreg, hcommitted, -⟩ := hends
    obtain ⟨email', _, _, _, _, _, hq', hemail, -⟩ := hreg
    cases hq'
    have hacc := h.trail.accepted
    rw [hcommitted, hwrote, List.append_nil, Ledger.accepts_singleton] at hacc
    refine iff_of_true rfl fun r hr heq => ?_
    have hnone : w.shared.db.committed.insertUser user = none :=
      Database.insertUser_eq_none.mpr ⟨r, hr, .inr (heq.trans hemail.symm)⟩
    rw [Database.apply, hnone] at hacc
    cases hacc
  | error e =>
    rw [hres] at hends
    obtain ⟨-, -, -, hrejected⟩ := hends
    refine iff_of_false (by simp [Except.isOk, Except.toBool]) fun hfree => ?_
    rcases hrejected.resolve_left (by rw [hf]; simp) with ⟨-, hexists | hexists⟩ |
      ⟨-, salt, -, -, he⟩
    · obtain ⟨s, user, hacc, hsel⟩ := hexists
      rw [h.trail.account s _ hacc] at hsel
      obtain ⟨hmem, hemail, -⟩ := Database.select_userByEmail hsel
      exact hfree user hmem hemail
    · obtain ⟨s, s', user, -, -, hreg, href, hnone⟩ := hexists
      obtain ⟨email', _, _, _, _, _, hq', hemail, -, -, -, hdrawn, -⟩ := hreg
      cases hq'
      rw [h.trail.refused s' _ href] at hnone
      obtain ⟨r, hr, hid | heq⟩ := Database.insertUser_eq_none.mp hnone
      · refine h.trail.fresh user.id (by rw [hdrawn]; exact List.mem_cons_self) ?_
        rw [← hid]
        exact hids r hr
      · exact hfree r hr (heq.trans hemail)
    · exact hhash salt e he

/-- The two email checks of `signup` agree, and a signup succeeds exactly when no account that is
not deleted has its email, exactly when no deleted account has it. -/
theorem email_checks_agree_iff {now : T} {db : Database T} {drawn : List Uuid}
    (hids : IdsDrawn drawn db)
    (h : Reach (server x) AnyEvent (Pool.initial (Stores.initial now db drawn)) w)
    (email : String) :
    (∀ user : User T, user.email = email →
      (∀ r ∈ w.shared.db.committed.users, r.id ≠ user.id) →
      ((w.shared.db.committed.select (.userByEmail email) = none ↔
        (w.shared.db.committed.insertUser user).isSome = true) ↔
          ¬ Tombstone w.shared.db.committed email)) ∧
    ∀ (y : Reply T K) (w' : World T K) (password name : String) (phone : Option String)
      (agreed : Bool), ServedAlone (server x) Smooth w y w' →
      y.request = .signup email password name phone agreed →
      (∀ salt e, x.pwdContext.hash salt password ≠ .error e) →
      ((y.result.isOk = true ↔ AllDeleted w.shared.db.committed email) ↔
        ¬ Tombstone w.shared.db.committed email) := by
  constructor
  · rintro user rfl hid
    exact insert_agrees_iff hid
  · intro y w' password name phone agreed hy hq hhash
    have hw : Sound x w := ((invariant_initial x now db drawn).reach h).sound
    have hiff := (hw.served (fun _ _ h => h.2) hy).signup_iff
      (hw.served_reliable (fun _ _ h => h.1) hy) ((idsDrawn_kept x).reach hids h) hq hhash
    rw [hiff]
    constructor
    · rintro hagree ⟨r, hr, hemail, hdeleted⟩
      refine hagree.mpr (fun r' hr' hemail' => ?_) r hr hemail
      rw [Database.email_unique hr' hr (hemail'.trans hemail.symm)]
      exact hdeleted
    · intro hno
      constructor
      · exact fun hfree r hr heq => absurd heq (hfree r hr)
      · exact fun hall r hr heq => hno ⟨r, hr, heq, hall r hr heq⟩

/-- The checks agree while Alice has her account: they find and refuse her email, and Bob signs up
with his. -/
theorem email_checks_agree_replay : ∃ (y : Reply ℚ Claims) (w' : World ℚ Claims),
    ServedAlone (server Plain.externals) Smooth Plain.start y w' ∧
    y.request = .signup "bob@example.com" "pw" "Bob" none false ∧ y.result.isOk = true ∧
    ((Plain.start.shared.db.committed.select (.userByEmail "alice@example.com") = none ↔
        (Plain.start.shared.db.committed.insertUser { Plain.alice with id := Plain.a₂ }).isSome =
          true) ↔ ¬ Tombstone Plain.start.shared.db.committed "alice@example.com") ∧
    ((y.result.isOk = true ↔ AllDeleted Plain.start.shared.db.committed "bob@example.com") ↔
      ¬ Tombstone Plain.start.shared.db.committed "bob@example.com") := by
  obtain ⟨y, w', hq, hy, hok⟩ := served_of_check (S := server Plain.externals) smooth_of_check 0
    (goes 0 2 ++ draws 0 Plain.a₁ ++ [.step 0 (.salt "")] ++ goes 0 2)
    (.signup "bob@example.com" "pw" "Bob" none false) (w := Plain.start)
    (g := fun w' => w'.log.getLast?.any fun y => y.result.isOk) (by decide +kernel)
  rw [hy.2.getLast?, Option.any_some] at hok
  have hids : IdsDrawn [Plain.aliceId] Plain.start.shared.db.committed := by
    intro user huser
    rw [List.mem_singleton.mp huser]
    exact List.mem_singleton_self _
  have hother : ∀ r ∈ Plain.start.shared.db.committed.users, r.id ≠ Plain.a₂ := by
    intro r hr
    rw [List.mem_singleton.mp hr]
    decide
  exact ⟨y, w', hy, hq, hok,
    (email_checks_agree_iff (x := Plain.externals) hids (Reach.refl _) "alice@example.com").1
      { Plain.alice with id := Plain.a₂ } rfl hother,
    (email_checks_agree_iff (x := Plain.externals) hids (Reach.refl _) "bob@example.com").2
      y w' _ _ _ _ hy hq fun _ _ herr => by cases herr⟩

/-- The calls of a successful `delete_account`. -/
def deleteScript (i : ℕ) (tok : Claims) (dev password : String) : List (ServiceEvent ℚ Claims) :=
  [.start (.deleteAccount tok dev password)] ++ goes i 12 ++ [.respond i]

/-- After Alice has deleted her account, the query does not find her email and the unique index
still refuses it. -/
theorem email_checks_differ : ¬ ∀ (w : World ℚ Claims) (user : User ℚ),
    Reach (server Plain.externals) Serial Plain.start w →
    (∀ r ∈ w.shared.db.committed.users, r.id ≠ user.id) →
    (w.shared.db.committed.select (.userByEmail user.email) = none ↔
      (w.shared.db.committed.insertUser user).isSome = true) := by
  intro hclaim
  obtain ⟨w, h, hgood⟩ := reach_of_replay (S := server Plain.externals) serial_of_check
    (loginScript 0 "alice@example.com" "old" Plain.phone Plain.a₁ Plain.r₁ ++
      deleteScript 1 (Plain.access 0 Plain.a₁) "phone" "old") (w := Plain.start)
    (g := fun w => (w.shared.db.committed.select (.userByEmail "alice@example.com")).isNone &&
      (w.shared.db.committed.insertUser { Plain.alice with id := Plain.a₂ }).isNone &&
      w.shared.db.committed.users.all fun r => r.id != Plain.a₂) (v := true)
    (by decide +kernel)
  simp only [Bool.and_eq_true, Option.isNone_iff_eq_none, List.all_eq_true, bne_iff_ne] at hgood
  obtain ⟨⟨hquery, hinsert⟩, hids⟩ := hgood
  have hagree := (hclaim w { Plain.alice with id := Plain.a₂ } h hids).mp hquery
  rw [hinsert] at hagree
  cases hagree

end Signup

end SampleAuthApi
