import SampleAuthApi.Model.Scripts
import SampleAuthApi.Sessions.Accounts
import SampleAuthApi.Sessions.Indexes

/-!
# Withdrawn accounts

A row of `users` that has been deleted stays deleted, whatever the interleaving, so the account on
which a `delete_account` has succeeded has a deleted row in every later state
(`Invariant.withdrawn`).  The lookup of a login skips deleted rows.  A login with the email of such
an account is therefore answered like one with an unknown email, and never by the branch for
withdrawn accounts (`withdrawn_login_answered`).
-/

namespace SampleAuthApi

open Transactions Pool

variable {T K : Type}

/-- The account `u` has a row, and the row is deleted. -/
def Withdrawn (db : Database T) (u : Uuid) : Prop :=
  ∃ r ∈ db.users, r.id = u ∧ r.deletedAt ≠ none

section Tables

variable {db : Database T} {u : Uuid}

/-- The `UPDATE` of `soft_delete` deletes the row of an account that is there. -/
lemma withdrawn_softDelete {changes : UserPatch T} (hchanges : changes.deletedAt ≠ none)
    (h : db.Has (.id u)) : Withdrawn (db.updateUser u changes) u := by
  obtain ⟨r, hr, hid⟩ := Database.has_id.mp h
  refine ⟨changes.apply r, List.mem_map.mpr ⟨r, hr, by rw [if_pos hid]⟩, hid, ?_⟩
  intro hnone
  exact hchanges (Option.or_eq_none_iff.mp hnone).1

variable [Instant T]

/-- No statement brings a deleted row back. -/
lemma withdrawn_kept (x : Externals K) (u : Uuid) :
    Keeps (T := T) x (fun _ db => Withdrawn db u) fun _ _ => True where
  mono _ _ _ _ h := h
  mono_write _ _ _ _ _ := trivial
  may _ _ _ _ _ _ := trivial
  admin _ _ _ := trivial
  apply l wr db db' _ hdb happ := by
    obtain ⟨r, hr, hid, hdeleted⟩ := hdb
    cases wr with
    | insertUser user =>
      simp only [Database.apply, Database.insertUser] at happ
      split at happ
      · cases happ
        exact ⟨r, List.mem_append_left _ hr, hid, hdeleted⟩
      · cases happ
    | updateUser id changes =>
      cases happ
      refine ⟨_, List.mem_map.mpr ⟨r, hr, rfl⟩, ?_, ?_⟩
      · split <;> exact hid
      · split
        · intro hnone
          exact hdeleted (Option.or_eq_none_iff.mp hnone).2
        · exact hdeleted
    | insertDevice device =>
      simp only [Database.apply, Database.insertDevice] at happ
      split at happ
      · cases happ
        exact ⟨r, hr, hid, hdeleted⟩
      · cases happ
    | updateDevice u' d changes => cases happ; exact ⟨r, hr, hid, hdeleted⟩
    | insertHistory row => cases happ; exact ⟨r, hr, hid, hdeleted⟩

omit [Instant T] in
/-- The query by email does not find a deleted row. -/
lemma select_of_deleted {user : User T} (hmem : user ∈ db.users)
    (hdeleted : user.deletedAt ≠ none) : db.select (.userByEmail user.email) = none := by
  refine Database.select_userByEmail_eq_none.mpr fun r hr hemail => ?_
  rw [Database.email_unique hr hmem hemail]
  exact hdeleted

end Tables

/-! ## Deleted accounts in every run -/

/-- The request is a `delete_account` of the user `u`. -/
def DeletesAccount (x : Externals K) (q : Request K) (u : Uuid) : Prop :=
  ∃ tok dev password c, q = .deleteAccount tok dev password ∧ x.jwt.verify tok = some c ∧ u = c.sub

/-- The accounts of the requests that have committed a deletion are withdrawn. -/
def Tombstones (x : Externals K) (w : World T K) : Prop :=
  Everyone (fun q f => f.committed ≠ [] → ∀ u, DeletesAccount x q u →
    Withdrawn w.shared.db.committed u) w

variable [Instant T] [DecidableEq K] {x : Externals K} {w w' : World T K}
  {e : Event (Request K) (Choice T)} {db₀ : Database T} {u : Uuid}

/-- A withdrawn account stays withdrawn. -/
lemma Invariant.withdrawn_mono (hw : Invariant x w) (h : Change x w e w')
    (hu : Withdrawn w.shared.db.committed u) : Withdrawn w'.shared.db.committed u := by
  have hrows : Kept.Rows (fun _ db => Withdrawn db u) (fun _ _ => True) w :=
    ⟨hu, fun _ _ _ _ _ _ => trivial, fun _ _ _ _ => trivial⟩
  exact ((withdrawn_kept x u).change hw hrows h).committed

omit [Instant T] [DecidableEq K] in
/-- The account of a `delete_account` is withdrawn once its session is committed. -/
lemma withdrawn_commit {q : Request K} {f : Progress T} {resp : Response T K} {db : Database T}
    (hempty : f.committed = []) (hrec : Recorded x q resp f.commit)
    (hseen : ∀ s, f.Recalls s → ∀ k, s.db.committed.Has k → db.Has k)
    (hdel : DeletesAccount x q u) :
    Withdrawn (Ledger.applyAll Database.apply f.wrote db) u := by
  obtain ⟨tok, dev, password, c, rfl, hver, rfl⟩ := hdel
  obtain ⟨c', changes, ⟨_, _, hbearer, hver'⟩, hedits, s, t, -, hcommitted⟩ := hrec
  cases hbearer
  rw [hver] at hver'
  cases hver'
  obtain ⟨s', user, t', hacc, hsel, -, rfl⟩ := hedits
  have hwrote : f.wrote = [.updateUser c.sub
      { deletedAt := some t', status := changed user.status .withdrawn }] ++
      (s.db.committed.select (.activeDevices c.sub)).map (deactivation t) := by
    rw [← hcommitted, Progress.commit, hempty, List.nil_append]
  have hthere : db.Has (.id c.sub) := by
    obtain ⟨hmem, hid, -⟩ := Database.select_userById hsel
    exact hseen s' (.inl ⟨_, hacc⟩) _ (Database.has_id.mpr ⟨user, hmem, hid⟩)
  have hdevices : ∀ wr ∈ (s.db.committed.select (.activeDevices c.sub)).map (deactivation t),
      wr.table ≠ .users := by
    intro wr hwr
    obtain ⟨row, -, rfl⟩ := List.mem_map.mp hwr
    exact Table.noConfusion
  have hdeleted : Withdrawn (db.updateUser c.sub
      { deletedAt := some t', status := changed user.status .withdrawn }) c.sub :=
    withdrawn_softDelete (Option.some_ne_none t') hthere
  rw [hwrote, Ledger.applyAll_append, Withdrawn, users_applyAll hdevices]
  exact hdeleted

/-- The account of the deletions is kept by every event. -/
theorem Tombstones.change (hw : Tombstones x w) (hinv : Invariant x w) (hent : Entered db₀ w)
    (h : Change x w e w') : Tombstones x w' := by
  refine Everyone.change hw h (fun q f hf hne u hu => hinv.withdrawn_mono h (hf hne u hu))
    (fun q hne => absurd rfl hne) fun i c q f f' o he hnext hmay heff hf hne u hu => ?_
  rcases heff.wrote with ⟨-, hsame, -⟩ | ⟨ws, db, -, -, rfl, -⟩ | ⟨rfl, rfl, hs'⟩ | ⟨-, rfl, -⟩
  · exact hinv.withdrawn_mono h (hf (hsame ▸ hne) u hu)
  · exact hinv.withdrawn_mono h (hf hne u hu)
  · by_cases hempty : f.committed = []
    · obtain ⟨resp, -, hrec⟩ := hmay
      have hown : w.shared.db.own i = f.wrote := by rw [hinv.sound.own, hnext.serving]; rfl
      rw [hs', Ledger.committed_commit, Ledger.view, hown]
      exact withdrawn_commit hempty hrec (hent.recalled.served i q f hnext.serving) hu
    · exact hinv.withdrawn_mono h (hf hempty u hu)
  · exact hinv.withdrawn_mono h (hf hne u hu)

/-- The account of the deletions is kept along every run. -/
theorem Tombstones.reach {C : World T K → Event (Request K) (Choice T) → Prop} {now : T}
    {drawn : List Uuid}
    (h : Reach (server x) C (Pool.initial (Stores.initial now db₀ drawn)) w) : Tombstones x w := by
  have hall := h.induct (I := fun v => Invariant x v ∧ Entered db₀ v ∧ Tombstones x v)
    ⟨invariant_initial x now db₀ drawn, entered_initial now db₀ drawn,
      fun i q f hi => by simp [serving_initial] at hi, fun y hy => absurd hy List.not_mem_nil⟩
    fun v e v' _ ⟨hinv, hent, htomb⟩ _ he =>
      ⟨hinv.exec he, hent.change hinv.sound (hinv.sound.change he),
        htomb.change hinv hent (hinv.sound.change he)⟩
  exact hall.2.2

omit [DecidableEq K] in
/-- The account of a `delete_account` that has succeeded is withdrawn. -/
lemma Tombstones.withdrawn (hw : Tombstones x w) (hsound : Sound x w) {y : Reply T K}
    (hy : y ∈ w.log) (hok : y.result.isOk = true) (hdel : DeletesAccount x y.request u) :
    Withdrawn w.shared.db.committed u := by
  refine hw.logged y hy ?_ u hdel
  have hends := hsound.ends hy
  obtain ⟨tok, dev, password, c, hq, -, -⟩ := hdel
  cases hres : y.result with
  | error err =>
    rw [hres] at hok
    cases hok
  | ok resp =>
    rw [hres, hq] at hends
    obtain ⟨-, -, c', changes, -, -, s, t, -, hcommitted⟩ := hends
    rw [hcommitted]
    exact List.cons_ne_nil _ _

/-! ## Logins -/

/-- The answered request is a `delete_account` of the user `u` that has succeeded. -/
def deletedAccount (x : Externals K) (y : Reply T K) (u : Uuid) : Bool :=
  match y.request, y.result with
  | .deleteAccount tok _ _, .ok _ => (x.jwt.verify tok).any fun c => c.sub == u
  | _, _ => false

omit [Instant T] [DecidableEq K] in
lemma deletesAccount_of_check {y : Reply T K} (h : deletedAccount x y u = true) :
    y.result.isOk = true ∧ DeletesAccount x y.request u := by
  unfold deletedAccount at h
  split at h
  · rename_i tok dev password resp hq hres
    rw [Option.any_eq_true] at h
    obtain ⟨c, hver, hsub⟩ := h
    rw [hq, hres]
    exact ⟨rfl, tok, dev, password, c, rfl, hver, (beq_iff_eq.mp hsub).symm⟩
  · cases h

/-- In every reachable state, the account of every `delete_account` that has succeeded has a row,
and a login with the email and the password of that row is answered as if the email were unknown:
with `InvalidCredentialsError`, not with `AccountWithdrawnError`. -/
theorem withdrawn_login_answered (hraise : RaisesAlike x) (hdummy : Made x x.dummyHash) {now : T}
    {db : Database T} {drawn : List Uuid} (hdb : Hashed x db)
    (h : Reach (server x) AnyEvent (Pool.initial (Stores.initial now db drawn)) w) {y : Reply T K}
    (hy : y ∈ w.log) (hdel : deletedAccount x y u = true) :
    (∃ user ∈ w.shared.db.committed.users, user.id = u) ∧
    ∀ user ∈ w.shared.db.committed.users, user.id = u →
      ∀ (y' : Reply T K) (w' : World T K) (password : String) (client : ClientInfo),
        ServedAlone (server x) Smooth w y' w' →
        y'.request = .login user.email password client →
        x.pwdContext.verify password user.hashedPassword = .ok true →
        y'.result = .error .invalidCredentials := by
  have hinv : Invariant x w := (invariant_initial x now db drawn).reach h
  have hhashed : Hashed x w.shared.db.committed := (hashed_kept x).reach hdb h
  obtain ⟨hok, hrequest⟩ := deletesAccount_of_check hdel
  obtain ⟨r, hr, hid, hdeleted⟩ := (Tombstones.reach h).withdrawn hinv.sound hy hok hrequest
  refine ⟨⟨r, hr, hid⟩, fun user hmem huser y' w' password client hserved hq hver => ?_⟩
  have hrow : user = r := Database.id_unique hmem hr (huser.trans hid.symm)
  subst hrow
  have hnone : NoCredentials x w.shared.db.committed user.email password := by
    intro user' hsel
    rw [select_of_deleted hmem hdeleted] at hsel
    cases hsel
  have hrejected := ((hinv.sound.served (fun _ _ h => h.2) hserved).rejected
    (hinv.sound.served_reliable (fun _ _ h => h.1) hserved) hraise hdummy hhashed hq hnone).1
  rw [hrejected, rejection]
  cases hv : x.pwdContext.verify password x.dummyHash with
  | ok b => rfl
  | error err =>
    have hsame := hraise password _ _ err hdummy (hhashed user hmem) hv
    rw [hver] at hsame
    cases hsame

/-! ## Alice withdraws -/

/-- Alice logs in on her phone and deletes her account. -/
def withdrawalScript : List (ServiceEvent ℚ Claims) :=
  loginScript 0 "alice@example.com" "old" Plain.phone Plain.a₁ Plain.r₁ ++
    deleteScript 1 (Plain.access 0 Plain.a₁) "phone" "old"

/-- Alice's account has been deleted, and its row still has her email and her password. -/
def withdrawn (w : World ℚ Claims) : Bool :=
  (w.log.any fun y => deletedAccount Plain.externals y Plain.aliceId) &&
    w.shared.db.committed.users.any fun r => decide (r.id = Plain.aliceId) &&
      decide (r.email = "alice@example.com") && decide (r.hashedPassword = "old")

/-- Alice deletes her account and logs in with her password. -/
lemma withdrawn_run : ∃ (w w' : World ℚ Claims) (y y' : Reply ℚ Claims) (user : User ℚ),
    Reach (server Plain.externals) Serial Plain.start w ∧
    y ∈ w.log ∧ deletedAccount Plain.externals y Plain.aliceId = true ∧
    user ∈ w.shared.db.committed.users ∧ user.id = Plain.aliceId ∧ user.hashedPassword = "old" ∧
    ServedAlone (server Plain.externals) Smooth w y' w' ∧
    y'.request = .login user.email "old" Plain.phone ∧
    y'.result = .error .invalidCredentials := by
  obtain ⟨w, y', w', h, hq, hserved, hgood⟩ := served_of_replay (S := server Plain.externals)
    serial_of_check smooth_of_check 2 withdrawalScript (goes 2 5)
    (.login "alice@example.com" "old" Plain.phone) (w := Plain.start)
    (g := fun w w' => withdrawn w && w'.log.getLast?.any (answeredBy .invalidCredentials))
    (by decide +kernel)
  rw [hserved.2.getLast?, Bool.and_eq_true, withdrawn, Bool.and_eq_true, List.any_eq_true,
    List.any_eq_true] at hgood
  obtain ⟨⟨⟨y, hy, hdel⟩, user, hmem, huser⟩, hres⟩ := hgood
  simp only [Bool.and_eq_true, decide_eq_true_eq] at huser
  obtain ⟨⟨hid, hemail⟩, hhash⟩ := huser
  rw [← hemail] at hq
  exact ⟨w, w', y, y', user, h, hy, hdel, hmem, hid, hhash, hserved, hq, answeredBy_iff hres⟩

/-- Alice deletes her account and logs in with her password. -/
theorem withdrawn_login_replay : ∃ (w w' : World ℚ Claims) (y y' : Reply ℚ Claims),
    y ∈ w.log ∧ deletedAccount Plain.externals y Plain.aliceId = true ∧
    ServedAlone (server Plain.externals) Smooth w y' w' ∧
    y'.result = .error .invalidCredentials := by
  obtain ⟨w, w', y, y', user, h, hy, hdel, hmem, hid, hhash, hserved, hq, -⟩ := withdrawn_run
  refine ⟨w, w', y, y', hy, hdel, hserved, ?_⟩
  refine (withdrawn_login_answered (x := Plain.externals) (fun _ _ _ _ _ _ h => by cases h)
    ⟨"", "dummy", rfl⟩ (fun user _ => ⟨"", _, rfl⟩) (h.mono fun _ _ _ => trivial) hy hdel).2 user
    hmem hid y' w' "old" Plain.phone hserved hq ?_
  rw [hhash]
  rfl

/-- Alice, who has deleted her account, is not told so. -/
theorem withdrawn_not_told : ¬ ∀ (w w' : World ℚ Claims) (y y' : Reply ℚ Claims) (u : Uuid)
    (user : User ℚ) (password : String) (client : ClientInfo),
    Reach (server Plain.externals) Serial Plain.start w →
    y ∈ w.log → deletedAccount Plain.externals y u = true →
    user ∈ w.shared.db.committed.users → user.id = u →
    ServedAlone (server Plain.externals) Smooth w y' w' →
    y'.request = .login user.email password client →
    Plain.pwdContext.verify password user.hashedPassword = .ok true →
    y'.result = .error .accountWithdrawn := by
  intro hclaim
  obtain ⟨w, w', y, y', user, h, hy, hdel, hmem, hid, hhash, hserved, hq, hres⟩ := withdrawn_run
  have htold := hclaim w w' y y' _ user "old" Plain.phone h hy hdel hmem hid hserved hq
    (by rw [hhash]; rfl)
  rw [hres] at htold
  cases htold

end SampleAuthApi
