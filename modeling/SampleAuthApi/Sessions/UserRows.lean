import SampleAuthApi.Model.Schemas
import SampleAuthApi.Model.Scripts
import SampleAuthApi.Sessions.Indexes

/-!
# What holds of every user

`RowInvariant x Q R`: requests with the property `Q` insert only rows of `users` with the property
`R`, and change rows only in ways that keep it.  Every row then has `R` in every reachable state of
a service without an administrator that receives only such requests (`RowInvariant.reach`).

The records of users keep their shape in this way as long as no `update_me` sets an empty name
(`records_in_order`).
-/

namespace SampleAuthApi

open Transactions Pool

variable {T K : Type} [Instant T]

/-- Requests with the property `Q` keep the property `R` of rows of `users`.  A request that changes
a row has loaded it before, with the property. -/
structure RowInvariant (x : Externals K) (Q : Request K → Prop) (R : User T → Prop) : Prop where
  insert : ∀ q f user, Q q → Registers x q f user → R user
  login : ∀ t r, R r → R (UserPatch.apply { lastLoginAt := some t } r)
  edit : ∀ q f u changes, Q q → (∀ s row, f.account = some (s, some row) → R row) →
    Edits x q f u changes → ∀ r, R r → R (changes.apply r)

/-- No administrator is at work, and only requests with the property `Q` arrive. -/
def Vetted (Q : Request K → Prop) (_ : World T K) (e : Event (Request K) (Choice T)) : Prop :=
  Unattended e ∧ ∀ q, e = .start q → Q q

/-- Only requests with the property `Q` arrive, and administrators keep the property `R` of rows of
`users`. -/
def Arriving (Q : Request K → Prop) (R : User T → Prop) (_ : World T K)
    (e : Event (Request K) (Choice T)) : Prop :=
  (∀ q, e = .start q → Q q) ∧ ∀ id status, e = .env (.setStatus id status) →
    ∀ r, R r → R (UserPatch.apply { status := some status } r)

/-- The statement keeps the property `R` of rows of `users`. -/
def Write.Keeps (R : User T → Prop) : Write T → Prop
  | .insertUser user => R user
  | .updateUser _ changes => ∀ r, R r → R (changes.apply r)
  | _ => True

/-- What is known of a request while rows have the property `R`: it keeps the property, and the row
that it has loaded has it. -/
structure Respects (Q : Request K → Prop) (R : User T → Prop) (q : Request K) (f : Progress T) :
    Prop where
  request : Q q
  wrote : ∀ wr ∈ f.wrote, wr.Keeps R
  account : ∀ s row, f.account = some (s, some row) → R row

section Statements

omit [Instant T]

variable {R : User T → Prop}

lemma Write.Keeps.apply {wr : Write T} {db db' : Database T} (h : wr.Keeps R)
    (hdb : ∀ r ∈ db.users, R r) (happ : Database.apply wr db = some db') :
    ∀ r ∈ db'.users, R r := by
  cases wr with
  | insertUser user =>
    simp only [Database.apply, Database.insertUser] at happ
    split at happ
    · cases happ
      intro r hr
      rcases List.mem_append.mp hr with hr | hr
      · exact hdb r hr
      · rw [List.mem_singleton.mp hr]
        exact h
    · cases happ
  | updateUser id changes =>
    cases happ
    intro r hr
    obtain ⟨r₀, hr₀, rfl⟩ := List.mem_map.mp hr
    split
    · exact h r₀ (hdb r₀ hr₀)
    · exact hdb r₀ hr₀
  | insertDevice device =>
    simp only [Database.apply, Database.insertDevice] at happ
    split at happ
    · cases happ
      exact hdb
    · cases happ
  | updateDevice u d changes => cases happ; exact hdb
  | insertHistory row => cases happ; exact hdb

lemma keeps_applyAll {ws : List (Write T)} {db : Database T} (hws : ∀ wr ∈ ws, wr.Keeps R)
    (hdb : ∀ r ∈ db.users, R r) :
    ∀ r ∈ (Ledger.applyAll Database.apply ws db).users, R r := by
  induction ws generalizing db with
  | nil => exact hdb
  | cons wr ws ih =>
    refine ih (fun w hw => hws w (List.mem_cons_of_mem _ hw)) ?_
    change ∀ r ∈ ((Database.apply wr db).getD db).users, R r
    cases happ : Database.apply wr db with
    | none => exact hdb
    | some db' => exact (hws wr List.mem_cons_self).apply hdb happ

end Statements

section Run

variable {x : Externals K} {Q : Request K → Prop} {R : User T → Prop}

/-- The statements that a request may flush keep the property. -/
lemma RowInvariant.keeps (h : RowInvariant x Q R) {q : Request K} {f : Progress T} {wr : Write T}
    (hf : Respects Q R q f) (hmay : MayWrite x q f wr) : wr.Keeps R := by
  cases wr with
  | insertUser user => exact h.insert q f user hf.request hmay.2
  | updateUser id changes =>
    rcases hmay with ⟨d, t, -, rfl⟩ | ⟨c, -, -, hedits⟩
    · exact h.login t
    · exact h.edit q f id changes hf.request hf.account hedits
  | _ => trivial

/-- A user that a request loads is a row of what its session sees. -/
lemma Effect.account {i : ℕ} {c : Choice T} {o : Op T} {s s' : Stores T} {f f' : Progress T}
    (h : Effect i c s f o f' s') : f'.account = f.account ∨
    ∃ row, f'.account = f.account.or (some (s, row)) ∧
      ∀ user, row = some user → user ∈ (s.view i).users := by
  cases h with
  | userById id => exact .inr ⟨_, rfl, fun user h => (Database.select_userById h).1⟩
  | userByEmail email => exact .inr ⟨_, rfl, fun user h => (Database.select_userByEmail h).1⟩
  | _ => exact .inl rfl

/-- One call keeps what is known of its request. -/
lemma RowInvariant.respects (h : RowInvariant x Q R) {i : ℕ} {c : Choice T} {o : Op T}
    {s s' : Stores T} {q : Request K} {f f' : Progress T} (hdb : ∀ r ∈ s.db.committed.users, R r)
    (hown : s.db.own i = f.wrote) (hmay : MayCall x q f o) (heff : Effect i c s f o f' s')
    (hf : Respects Q R q f) : Respects Q R q f' := by
  refine ⟨hf.request, ?_, fun s₀ row hrow => ?_⟩
  · rcases heff.wrote with ⟨hsame, -, -⟩ | ⟨ws, db, rfl, -, rfl, -⟩ | ⟨-, rfl, -⟩ | ⟨-, rfl, -⟩
    · rw [hsame]
      exact hf.wrote
    · intro wr hwr
      rcases List.mem_append.mp hwr with hwr | hwr
      · exact hf.wrote wr hwr
      · exact h.keeps hf (hmay.2 wr hwr)
    · exact fun wr hwr => absurd hwr List.not_mem_nil
    · exact fun wr hwr => absurd hwr List.not_mem_nil
  · rcases heff.account with hsame | ⟨found, hacc, hmem⟩
    · exact hf.account s₀ row (hsame ▸ hrow)
    · rw [hacc] at hrow
      rcases Option.or_eq_some_iff.mp hrow with hold | ⟨-, hnew⟩
      · exact hf.account s₀ row hold
      · cases hnew
        have hview : ∀ r ∈ (s.view i).users, R r := by
          rw [Stores.view, Ledger.view, hown]
          exact keeps_applyAll hf.wrote hdb
        exact hview row (hmem row rfl)

variable [DecidableEq K] {w w' w₀ : World T K} {e : Event (Request K) (Choice T)}

/-- One event keeps the property. -/
theorem RowInvariant.change (h : RowInvariant x Q R) (hsound : Sound x w)
    (hdb : ∀ r ∈ w.shared.db.committed.users, R r) (hsince : Since w₀ (Respects Q R) w)
    (he : Arriving Q R w e) (hc : Change x w e w') :
    (∀ r ∈ w'.shared.db.committed.users, R r) ∧ Since w₀ (Respects Q R) w' := by
  constructor
  · rcases hc.committed_cases hsound with hsame |
      ⟨i, c, q, f, resp, -, hnext, -, -, -, hcommitted⟩ | ⟨id, status, rfl, happ⟩
    · rw [hsame]
      exact hdb
    · rw [hcommitted]
      exact keeps_applyAll (hsince.served i q f hnext.serving).wrote hdb
    · have hkeeps : (Write.updateUser id { status := some status }).Keeps R :=
        he.2 id status rfl
      exact hkeeps.apply hdb happ
  · refine hsince.change hc (fun q f hf => hf) (fun q hq => ?_)
      fun i c q f f' o _ hnext hmay heff hf => ?_
    · exact ⟨he.1 q hq, fun wr hwr => absurd hwr List.not_mem_nil, fun s row hrow => by cases hrow⟩
    · have hown : w.shared.db.own i = f.wrote := by rw [hsound.own, hnext.serving]; rfl
      exact h.respects hdb hown hmay heff hf

/-- A property of rows that the requests and the administrators keep holds of all rows in every
reachable state. -/
theorem RowInvariant.reach_arriving (h : RowInvariant x Q R) {now : T} {db : Database T}
    {drawn : List Uuid} (hdb : ∀ r ∈ db.users, R r)
    (hreach : Reach (server x) (Arriving Q R) (Pool.initial (Stores.initial now db drawn)) w) :
    ∀ r ∈ w.shared.db.committed.users, R r := by
  have hall := hreach.induct (I := fun v => Sound x v ∧
      (∀ r ∈ v.shared.db.committed.users, R r) ∧
      Since (Pool.initial (Stores.initial now db drawn)) (Respects Q R) v)
    ⟨sound_initial now db drawn, hdb, fun i q f hi => by simp [serving_initial] at hi, [],
      by simp, fun y hy => absurd hy List.not_mem_nil⟩
    fun v e v' _ ⟨hsound, hrows, hsince⟩ hK he =>
      ⟨hsound.exec he, h.change hsound hrows hsince hK (hsound.change he)⟩
  exact hall.2.1

/-- A property of rows that the requests keep holds of all rows in every state that is reachable
without an administrator. -/
theorem RowInvariant.reach (h : RowInvariant x Q R) {now : T} {db : Database T}
    {drawn : List Uuid} (hdb : ∀ r ∈ db.users, R r)
    (hreach : Reach (server x) (Vetted Q) (Pool.initial (Stores.initial now db drawn)) w) :
    ∀ r ∈ w.shared.db.committed.users, R r := by
  refine h.reach_arriving hdb (hreach.mono fun v e he => ⟨he.2, fun id status heq => ?_⟩)
  rw [heq] at he
  exact he.1.elim

end Run

/-! ## Deletion marks -/

/-- The status of a row is the one that its deletion mark says. -/
structure User.Marked (r : User T) : Prop where
  withdrawn : r.status = .withdrawn ↔ r.deletedAt ≠ none
  active : r.deletedAt = none → r.status = .active

section Marks

variable {r : User T}

omit [Instant T] in
lemma User.marked_of_active (hstatus : r.status = .active) (hlive : r.deletedAt = none) :
    r.Marked := by
  refine ⟨⟨fun h => ?_, fun h => absurd hlive h⟩, fun _ => hstatus⟩
  rw [hstatus] at h
  cases h

omit [Instant T] in
/-- Changes to other columns keep the marks. -/
lemma User.Marked.apply {changes : UserPatch T} (h : r.Marked) (hstatus : changes.status = none)
    (hdeleted : changes.deletedAt = none) : (changes.apply r).Marked := by
  have hs : (changes.apply r).status = r.status := by simp [UserPatch.apply, hstatus]
  have hd : (changes.apply r).deletedAt = r.deletedAt := by simp [UserPatch.apply, hdeleted]
  exact ⟨by rw [hs, hd]; exact h.withdrawn, by rw [hs, hd]; exact h.active⟩

omit [Instant T] in
/-- `soft_delete` withdraws a row, whatever it is by then. -/
lemma User.marked_softDelete {user : User T} (h : user.Marked) (hlive : user.deletedAt = none)
    (t : T) : (UserPatch.apply
      { deletedAt := some t, status := changed user.status .withdrawn } r).Marked := by
  have hchanged : changed user.status .withdrawn = some UserStatus.withdrawn := by
    rw [h.active hlive]
    rfl
  rw [hchanged]
  refine ⟨⟨fun _ => ?_, fun _ => rfl⟩, fun hnone => ?_⟩
  · exact Option.some_ne_none t
  · cases hnone

omit [Instant T] in
/-- All requests keep the deletion marks in step with the status. -/
lemma marked_invariant (x : Externals K) :
    RowInvariant (T := T) x (fun _ => True) User.Marked where
  insert q f user _ h := by
    obtain ⟨_, _, _, _, _, _, -, -, -, -, -, -, hstatus, hlive⟩ := h
    exact User.marked_of_active hstatus hlive
  login t r h := h.apply rfl rfl
  edit q f u changes _ hacc hedits r h := by
    cases q with
    | updateMe tok dev name phone =>
      obtain ⟨t, -, hdeleted, hstatus, -⟩ := hedits
      exact h.apply hstatus hdeleted
    | changePassword tok dev current new =>
      obtain ⟨user, salt, hash, t, -, -, rfl⟩ := hedits
      exact h.apply rfl rfl
    | deleteAccount tok dev password =>
      obtain ⟨s, user, t, hload, hsel, -, rfl⟩ := hedits
      exact User.marked_softDelete (hacc s user hload) (Database.select_userById hsel).2.2 t
    | _ => exact hedits.elim

end Marks

/-! ## Records -/

/-- A record of a user as `signup` makes it. -/
structure User.InOrder (x : Externals K) (r : User T) : Prop where
  name : 1 ≤ r.name.length ∧ r.name.length ≤ 100
  password : ∃ salt password, PasswordPolicy password ∧
    x.pwdContext.hash salt password = .ok r.hashedPassword
  marks : r.Marked

/-- The request is an `update_me` with an empty name. -/
def Request.blanksName : Request K → Bool
  | .updateMe _ _ (some name) _ => name == ""
  | _ => false

section Edits

omit [Instant T]

variable {x : Externals K} {q : Request K} {f : Progress T} {u : Uuid} {changes : UserPatch T}

/-- Only `update_me` sets a name, the one it is given. -/
lemma Edits.name {name : String} (h : Edits x q f u changes) (hname : changes.name = some name) :
    ∃ tok dev phone, q = .updateMe tok dev (some name) phone := by
  cases q with
  | updateMe tok dev newName phone =>
    obtain ⟨t, -, -, -, -, hset, -⟩ := h
    exact ⟨tok, dev, phone, by rw [hset name hname]⟩
  | changePassword tok dev current new =>
    obtain ⟨user, salt, hash, t, -, -, rfl⟩ := h
    cases hname
  | deleteAccount tok dev password =>
    obtain ⟨s, user, t, -, -, -, rfl⟩ := h
    cases hname
  | _ => exact h.elim

/-- Only `change_password` sets a hash, one of the new password. -/
lemma Edits.password {hash : String} (h : Edits x q f u changes)
    (hhash : changes.hashedPassword = some hash) : ∃ tok dev current new salt,
      q = .changePassword tok dev current new ∧ x.pwdContext.hash salt new = .ok hash := by
  cases q with
  | updateMe tok dev newName phone =>
    obtain ⟨t, hnone, -⟩ := h
    rw [hnone] at hhash
    cases hhash
  | changePassword tok dev current new =>
    obtain ⟨user, salt, hash', t, -, hmade, rfl⟩ := h
    exact ⟨tok, dev, current, new, salt, rfl, by rw [changed_eq_some hhash]; exact hmade⟩
  | deleteAccount tok dev password =>
    obtain ⟨s, user, t, -, -, -, rfl⟩ := h
    cases hhash
  | _ => exact h.elim

end Edits

omit [Instant T] in
/-- Accepted requests keep the records in order, if they do not set an empty name. -/
lemma inOrder_invariant (x : Externals K) (emailStr : String → Except String String) :
    RowInvariant (T := T) x (fun q => q.Validated emailStr ∧ q.blanksName = false)
      (User.InOrder x) where
  insert q f user hq h := by
    have hmarks := (marked_invariant x).insert q f user trivial h
    obtain ⟨email, password, name, phone, agreed, salt, rfl, -, hname, -, hhash, -, -, -⟩ := h
    obtain ⟨⟨body, hbody⟩, -⟩ := hq
    obtain ⟨hmin, hmax, hpolicy⟩ := SignupRequest.validate_ok hbody
    rw [← hname] at hmin hmax
    exact ⟨⟨hmin, hmax⟩, ⟨salt, password, hpolicy, hhash⟩, hmarks⟩
  login t r h := ⟨h.name, h.password, (marked_invariant x).login t r h.marks⟩
  edit q f u changes hq hacc hedits r h := by
    refine ⟨?_, ?_, (marked_invariant x).edit q f u changes trivial
      (fun s row hrow => (hacc s row hrow).marks) hedits r h.marks⟩
    · cases hname : changes.name with
      | none =>
        rw [UserPatch.apply, hname]
        exact h.name
      | some name =>
        obtain ⟨tok, dev, phone, rfl⟩ := hedits.name hname
        obtain ⟨⟨body, hbody⟩, hblank⟩ := hq
        have hne : name.length ≠ 0 := by
          intro hzero
          rw [Request.blanksName, String.length_eq_zero_iff.mp hzero] at hblank
          cases hblank
        rw [UserPatch.apply, hname]
        exact ⟨Nat.one_le_iff_ne_zero.mpr hne, UserUpdateRequest.validate_ok hbody name rfl⟩
    · cases hhash : changes.hashedPassword with
      | none =>
        rw [UserPatch.apply, hhash]
        exact h.password
      | some hash =>
        obtain ⟨tok, dev, current, new, salt, rfl, hmade⟩ := hedits.password hhash
        obtain ⟨⟨body, hbody⟩, -⟩ := hq
        rw [UserPatch.apply, hhash]
        exact ⟨salt, new, PasswordChangeRequest.validate_ok hbody, hmade⟩

section Runs

variable [DecidableEq K] {x : Externals K} {w w' : World T K}

/-- In every state that a service reaches by accepted requests, in any order and interleaving, none
of which sets an empty name, the records of all users are in order: the name has 1 to 100
characters, the hash is that of a password that meets the policy, and the status is that of the
deletion mark. -/
theorem records_in_order (emailStr : String → Except String String) {now : T} {db : Database T}
    {drawn : List Uuid} (hdb : ∀ r ∈ db.users, r.InOrder x)
    (h : Reach (server x) (Vetted fun q => q.Validated emailStr ∧ q.blanksName = false)
      (Pool.initial (Stores.initial now db drawn)) w) :
    ∀ r ∈ w.shared.db.committed.users, r.InOrder x :=
  (inOrder_invariant x emailStr).reach hdb h

end Runs

/-! ## Alice's record -/

/-- The fields of the request are accepted as they are. -/
def accepted (emailStr : String → Except String String) : Request K → Bool
  | .signup email password name phoneNumber marketingAgreed =>
    let body : SignupRequest := ⟨email, password, name, phoneNumber, marketingAgreed⟩
    decide (body.validate emailStr = .ok body)
  | .login email password _ =>
    let body : LoginRequest := ⟨email, password⟩
    decide (body.validate emailStr = .ok body)
  | .updateMe _ _ name phoneNumber =>
    let body : UserUpdateRequest := ⟨name, phoneNumber⟩
    decide (body.validate = .ok body)
  | .changePassword _ _ currentPassword newPassword =>
    let body : PasswordChangeRequest := ⟨currentPassword, newPassword⟩
    decide (body.validate = .ok body)
  | _ => true

omit [Instant T] in
lemma validated_of_accepted {emailStr : String → Except String String} {q : Request K}
    (h : accepted emailStr q = true) : q.Validated emailStr := by
  cases q with
  | signup email password name phone agreed => exact ⟨_, of_decide_eq_true h⟩
  | login email password client => exact ⟨_, of_decide_eq_true h⟩
  | updateMe tok dev name phone => exact ⟨_, of_decide_eq_true h⟩
  | changePassword tok dev current new => exact ⟨_, of_decide_eq_true h⟩
  | _ => trivial

/-- Requests arrive one after another, their fields are accepted and satisfy `p`, and no
administrator is at work. -/
def vetted (p : Request K → Bool) (w : World T K) (e : Event (Request K) (Choice T)) : Bool :=
  serial w e && match e with
    | .start q => accepted .ok q && p q
    | .env (.setStatus _ _) => false
    | _ => true

omit [Instant T] in
lemma vetted_of_check {p : Request K → Bool} (w : World T K) (e : Event (Request K) (Choice T))
    (h : vetted p w e = true) :
    Serial w e ∧ Vetted (fun q => q.Validated .ok ∧ p q = true) w e := by
  obtain ⟨hserial, hmatch⟩ := Bool.and_eq_true_iff.mp h
  refine ⟨serial_of_check w e hserial, ?_⟩
  cases e with
  | start q =>
    obtain ⟨haccepted, hp⟩ := Bool.and_eq_true_iff.mp hmatch
    refine ⟨trivial, fun q' hq => ?_⟩
    cases hq
    exact ⟨validated_of_accepted haccepted, hp⟩
  | env c =>
    refine ⟨?_, fun q hq => by cases hq⟩
    cases c with
    | setStatus id status => cases hmatch
    | _ => trivial
  | _ => exact ⟨trivial, fun q hq => by cases hq⟩

/-- Alice signs up and logs in on her phone. -/
def joinScript : List (ServiceEvent ℚ Claims) :=
  [.start (.signup "alice@example.com" "Passw0rd!" "Alice" none false)] ++ goes 0 2 ++
    draws 0 Plain.aliceId ++ [.step 0 (.salt "")] ++ goes 0 2 ++ [.respond 0] ++
    loginScript 1 "alice@example.com" "Passw0rd!" Plain.phone Plain.a₁ Plain.r₁

/-- Alice changes her name. -/
def renameScript (name : String) : List (ServiceEvent ℚ Claims) :=
  [.start (.updateMe (Plain.access 0 Plain.a₁) "phone" (some name) none)] ++ goes 2 6 ++
    [.respond 2]

/-- Alice's record after she has joined and changed her name to a longer one. -/
theorem records_in_order_replay : ∃ (w : World ℚ Claims) (r : User ℚ),
    r ∈ w.shared.db.committed.users ∧ r.name = "Alice Liddell" ∧ r.InOrder Plain.externals := by
  obtain ⟨w, h, hgood⟩ := reach_of_replay (S := server Plain.externals)
    (vetted_of_check (p := fun q => !q.blanksName)) (joinScript ++ renameScript "Alice Liddell")
    (w := Plain.deserted)
    (g := fun w => w.shared.db.committed.users.any fun r => decide (r.name = "Alice Liddell"))
    (v := true) (by decide +kernel)
  obtain ⟨r, hr, hname⟩ := List.any_eq_true.mp hgood
  refine ⟨w, r, hr, of_decide_eq_true hname, records_in_order .ok (x := Plain.externals)
    (fun r hr => absurd hr List.not_mem_nil) (h.mono fun v e he => ⟨he.2.1, fun q hq => ?_⟩) r hr⟩
  obtain ⟨hvalid, hblank⟩ := he.2.2 q hq
  exact ⟨hvalid, (Bool.not_eq_true' _).mp hblank⟩

/-- Alice's record after she has joined and changed her name to the empty one, which is accepted. -/
theorem records_blank : ¬ ∀ w : World ℚ Claims,
    Reach (server Plain.externals)
      (fun v e => Serial v e ∧ Vetted (fun q => q.Validated .ok) v e) Plain.deserted w →
    ∀ r ∈ w.shared.db.committed.users, r.InOrder Plain.externals := by
  intro hclaim
  obtain ⟨w, h, hgood⟩ := reach_of_replay (S := server Plain.externals)
    (vetted_of_check (p := fun _ => true)) (joinScript ++ renameScript "") (w := Plain.deserted)
    (g := fun w => w.shared.db.committed.users.any fun r => decide (r.name = ""))
    (v := true) (by decide +kernel)
  obtain ⟨r, hr, hname⟩ := List.any_eq_true.mp hgood
  have horder := hclaim w
    (h.mono fun v e he => ⟨he.1, he.2.1, fun q hq => (he.2.2 q hq).1⟩) r hr
  have hmin := horder.name.1
  rw [of_decide_eq_true hname] at hmin
  exact absurd hmin (by decide)

end SampleAuthApi
