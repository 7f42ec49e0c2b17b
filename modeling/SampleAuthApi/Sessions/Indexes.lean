import SampleAuthApi.Sessions.Rows

/-!
# The unique indexes in every run

Whatever the interleaving, the entries of the unique indexes are those of the first database and
those that requests have committed, no two requests have committed the same entry, and no entry
disappears (`Entered.reach`).
-/

namespace SampleAuthApi

open Transactions Ledger Pool

variable {T K : Type}

/-! ## The indexes of the tables -/

/-- An entry of a unique index: an id or an email of a user, both of them together, or the user and
the device of a device row. -/
inductive Entry : Type
  | id (id : Uuid)
  | email (email : String)
  | account (id : Uuid) (email : String)
  | device (userId : Uuid) (deviceId : String)
  deriving DecidableEq

/-- The entries of a row of `users`. -/
def User.entries (r : User T) : List Entry := [.id r.id, .email r.email, .account r.id r.email]

/-- The entry of a row of `user_devices`. -/
def UserDevice.entry (r : UserDevice T) : Entry := .device r.userId r.deviceId

/-- The entries that a statement adds. -/
def Write.entries : Write T → List Entry
  | .insertUser user => user.entries
  | .insertDevice device => [device.entry]
  | _ => []

/-- The indexes have the entry `k`. -/
def Database.Has (db : Database T) (k : Entry) : Prop :=
  (∃ r ∈ db.users, k ∈ r.entries) ∨ ∃ r ∈ db.devices, k = r.entry

section Tables

variable {db : Database T} {k : Entry}

@[simp] theorem Database.has_id {id : Uuid} : db.Has (.id id) ↔ ∃ r ∈ db.users, r.id = id := by
  simp [Database.Has, User.entries, UserDevice.entry, eq_comm]

@[simp] theorem Database.has_email {email : String} :
    db.Has (.email email) ↔ ∃ r ∈ db.users, r.email = email := by
  simp [Database.Has, User.entries, UserDevice.entry, eq_comm]

@[simp] theorem Database.has_account {id : Uuid} {email : String} :
    db.Has (.account id email) ↔ ∃ r ∈ db.users, r.id = id ∧ r.email = email := by
  simp [Database.Has, User.entries, UserDevice.entry, eq_comm]

@[simp] theorem Database.has_device {u : Uuid} {d : String} :
    db.Has (.device u d) ↔ ∃ r ∈ db.devices, r.userId = u ∧ r.deviceId = d := by
  simp [Database.Has, User.entries, UserDevice.entry, eq_comm]

lemma Database.has_apply {wr : Write T} {db' : Database T} (h : Database.apply wr db = some db') :
    db'.Has k ↔ db.Has k ∨ k ∈ wr.entries := by
  cases wr with
  | insertUser user =>
    simp only [Database.apply, Database.insertUser] at h
    split at h
    · cases h
      simp only [Database.Has, Write.entries, List.mem_append, List.mem_singleton]
      grind
    · cases h
  | updateUser id changes =>
    cases h
    have hkeep : ∀ r : User T, (if r.id = id then changes.apply r else r).entries = r.entries := by
      intro r
      split <;> rfl
    simp [Database.Has, Database.updateUser, Write.entries, hkeep]
  | insertDevice device =>
    simp only [Database.apply, Database.insertDevice] at h
    split at h
    · cases h
      simp only [Database.Has, Write.entries, List.mem_append, List.mem_singleton]
      grind
    · cases h
  | updateDevice u d changes =>
    cases h
    have hkeep : ∀ r : UserDevice T,
        (if r.userId = u ∧ r.deviceId = d then changes.apply r else r).entry = r.entry := by
      intro r
      split <;> rfl
    simp [Database.Has, Database.updateDevice, Write.entries, hkeep]
  | insertHistory row => cases h; simp [Database.Has, Database.insertHistory, Write.entries]

/-- The unique indexes refuse a statement exactly when an entry that it adds is there. -/
theorem index : Index (Database.apply (T := T)) Write.conflicts Write.entries Database.Has where
  has_apply _ _ _ _ h := Database.has_apply h
  refuses wr db := by
    cases wr with
    | insertUser user =>
      rw [Database.apply, Database.insertUser_eq_none]
      simp only [Write.entries, User.entries, List.mem_cons, List.not_mem_nil, or_false,
        exists_eq_or_imp, exists_eq_left, Database.has_id, Database.has_email,
        Database.has_account]
      grind
    | insertDevice device =>
      rw [Database.apply, Database.insertDevice_eq_none]
      simp [Write.entries, UserDevice.entry, UserDevice.sameKey]
    | _ => simp [Database.apply, Write.entries]
  conflict wr wr' k hk hk' := by
    cases wr with
    | insertUser user =>
      cases wr' with
      | insertUser user' =>
        simp only [Write.entries, User.entries, List.mem_cons, List.not_mem_nil, or_false] at hk hk'
        simp only [Write.conflicts, Bool.or_eq_true, beq_iff_eq]
        grind
      | insertDevice device =>
        simp only [Write.entries, User.entries, UserDevice.entry, List.mem_cons, List.not_mem_nil,
          or_false] at hk hk'
        grind
      | _ => cases hk'
    | insertDevice device =>
      cases wr' with
      | insertUser user =>
        simp only [Write.entries, User.entries, UserDevice.entry, List.mem_cons, List.not_mem_nil,
          or_false] at hk hk'
        grind
      | insertDevice device' =>
        simp only [Write.entries, UserDevice.entry, List.mem_cons, List.not_mem_nil,
          or_false] at hk hk'
        simp only [Write.conflicts, Bool.and_eq_true, beq_iff_eq]
        grind
      | _ => cases hk'
    | _ => cases hk

lemma filter_eq_singleton {α : Type} {l : List α} (hl : l.Nodup) {p : α → Bool} {a : α}
    (ha : a ∈ l) (hp : ∀ b ∈ l, p b = true ↔ b = a) : l.filter p = [a] := by
  classical
  calc l.filter p = l.filter (fun b => b = a) :=
        List.filter_congr fun b hb => by rw [Bool.eq_iff_iff, hp b hb, decide_eq_true_iff]
    _ = List.replicate (l.count a) a := List.filter_eq a
    _ = [a] := by rw [List.count_eq_one_of_mem hl ha]; rfl

/-- A row is the only one with its email. -/
lemma Database.filter_email {user : User T} (h : user ∈ db.users) :
    (db.users.filter fun r => decide (r.email = user.email)) = [user] := by
  refine filter_eq_singleton ?_ h fun r hr => ?_
  · exact db.users_email.imp fun hne heq => hne (congrArg User.email heq)
  · rw [decide_eq_true_iff]
    constructor
    · exact fun heq => Database.email_unique hr h heq
    · rintro rfl
      rfl

/-- A device row is the only one with its key. -/
lemma Database.filter_device {row : UserDevice T} (h : row ∈ db.devices) :
    (db.devices.filter fun r => decide (r.userId = row.userId ∧ r.deviceId = row.deviceId)) =
      [row] := by
  refine filter_eq_singleton ?_ h fun r hr => ?_
  · refine db.devices_key.imp fun hne heq => hne ?_
    rw [heq]
    exact ⟨rfl, rfl⟩
  · rw [decide_eq_true_iff]
    constructor
    · exact fun heq => Database.device_unique hr h heq
    · rintro rfl
      exact ⟨rfl, rfl⟩

end Tables

/-! ## What requests remember -/

/-- Some request that is being served or has been answered has the property `P`. -/
def Somebody (P : Request K → Progress T → Prop) (w : World T K) : Prop :=
  (∃ i q f, serving w i = some (q, f) ∧ P q f) ∨ ∃ y ∈ w.log, P y.request (progress y.performed)

/-- The property `P` holds of every request that is being served or has been answered since the
state `w₀`. -/
structure Since (w₀ : World T K) (P : Request K → Progress T → Prop) (w : World T K) : Prop where
  /-- The requests being served. -/
  served : ∀ i q f, serving w i = some (q, f) → P q f
  /-- The requests answered since then. -/
  logged : ∃ ys, w.log = w₀.log ++ ys ∧ ∀ y ∈ ys, P y.request (progress y.performed)

/-- The request remembers what it has read in the state `s`, or that a flush was refused there. -/
def Progress.Recalls (f : Progress T) (s : Stores T) : Prop :=
  (∃ row, f.account = some (s, row)) ∨ f.devices = some s ∨ ∃ ws, f.refused = some (s, ws)

section Memory

variable [Instant T]

/-- A call adds the state it is made in to what its request remembers, and no other. -/
lemma Effect.recalls {i : ℕ} {c : Choice T} {o : Op T} {s s' s₀ : Stores T} {f f' : Progress T}
    (h : Effect i c s f o f' s') (hs : f'.Recalls s₀) : f.Recalls s₀ ∨ s₀ = s := by
  have hload : ∀ row, (f.load s row).Recalls s₀ → f.Recalls s₀ ∨ s₀ = s := by
    rintro row (⟨row', hacc⟩ | hdev | href)
    · rcases Option.or_eq_some_iff.mp hacc with hacc | ⟨-, hacc⟩
      · exact .inl (.inl ⟨row', hacc⟩)
      · cases hacc
        exact .inr rfl
    · exact .inl (.inr (.inl hdev))
    · exact .inl (.inr (.inr href))
  have hfound : ({ f with devices := some s } : Progress T).Recalls s₀ → f.Recalls s₀ ∨ s₀ = s := by
    rintro (hacc | hdev | href)
    · exact .inl (.inl hacc)
    · cases hdev
      exact .inr rfl
    · exact .inl (.inr (.inr href))
  cases h with
  | userById id => exact hload _ hs
  | userByEmail email => exact hload _ hs
  | deviceRow u d => exact hfound hs
  | activeDevices u => exact hfound hs
  | integrity ws =>
    rcases hs with hacc | hdev | ⟨ws', href⟩
    · exact .inl (.inl hacc)
    · exact .inl (.inr (.inl hdev))
    · cases href
      exact .inr rfl
  | _ => exact .inl hs

variable [DecidableEq K] {x : Externals K} {w w' : World T K} {e : Event (Request K) (Choice T)}

/-- One event keeps that some request has a property, if every call keeps the property. -/
theorem Somebody.change {P : Request K → Progress T → Prop} (hw : Somebody P w)
    (h : Change x w e w')
    (hstep : ∀ i c q f f' o, Effect i c w.shared f o f' w'.shared → P q f → P q f') :
    Somebody P w' := by
  cases h with
  | start q _ hadm hshared hlog hslots hserve =>
    rcases hw with ⟨i, q', f, hi, hP⟩ | ⟨y, hy, hP⟩
    · refine .inl ⟨i, q', f, ?_, hP⟩
      have hlt : i ≠ w.slots.length := by
        rintro rfl
        rw [serving_length] at hi
        cases hi
      rw [hserve, if_neg hlt, hi]
    · exact .inr ⟨y, hlog ▸ hy, hP⟩
  | step i c q f f' o _ hnext hmay heff hlog hslots hserve =>
    rcases hw with ⟨j, q', g, hj, hP⟩ | ⟨y, hy, hP⟩
    · by_cases hij : j = i
      · subst hij
        rw [hnext.serving] at hj
        cases hj
        exact .inl ⟨j, q, f', by rw [hserve, if_pos rfl], hstep j c q f f' o heff hP⟩
      · exact .inl ⟨j, q', g, by rw [hserve, if_neg hij, hj], hP⟩
    · exact .inr ⟨y, hlog ▸ hy, hP⟩
  | respond i y _ hserved hends hshared hlog hslots hserve =>
    rcases hw with ⟨j, q', g, hj, hP⟩ | ⟨z, hz, hP⟩
    · by_cases hij : j = i
      · subst hij
        rw [hserved] at hj
        cases hj
        exact .inr ⟨y, by rw [hlog]; exact List.mem_append_right _ List.mem_cons_self, hP⟩
      · exact .inl ⟨j, q', g, by rw [hserve, if_neg hij, hj], hP⟩
    · exact .inr ⟨z, by rw [hlog]; exact List.mem_append_left _ hz, hP⟩
  | env c _ hdrift hlog hslots hserve =>
    rcases hw with ⟨i, q', f, hi, hP⟩ | ⟨y, hy, hP⟩
    · exact .inl ⟨i, q', f, by rw [hserve, hi], hP⟩
    · exact .inr ⟨y, hlog ▸ hy, hP⟩

/-- One event keeps a property of every request since `w₀`, if it holds before the first call of a
request that arrives and every call keeps it. -/
theorem Since.change {w₀ : World T K} {P P' : Request K → Progress T → Prop} (hw : Since w₀ P w)
    (h : Change x w e w') (hmono : ∀ q f, P q f → P' q f) (hstart : ∀ q, e = .start q → P' q {})
    (hstep : ∀ i c q f f' o, e = .step i c → NextCall w i q f o → MayCall x q f o →
      Effect i c w.shared f o f' w'.shared → P q f → P' q f') : Since w₀ P' w' := by
  obtain ⟨hserved, ys, hys, hP⟩ := hw
  cases h with
  | start q _ hadm hshared hlog hslots hserve =>
    refine ⟨fun j q' f hj => ?_, ys, hlog.trans hys, fun y hy => hmono _ _ (hP y hy)⟩
    rw [hserve] at hj
    split at hj
    · cases hj
      exact hstart q rfl
    · exact hmono _ _ (hserved j q' f hj)
  | step i c q f f' o _ hnext hmay heff hlog hslots hserve =>
    refine ⟨fun j q' g hj => ?_, ys, hlog.trans hys, fun y hy => hmono _ _ (hP y hy)⟩
    rw [hserve] at hj
    split at hj
    · cases hj
      exact hstep i c q f f' o rfl hnext hmay heff (hserved i q f hnext.serving)
    · exact hmono _ _ (hserved j q' g hj)
  | respond i z _ hz hends hshared hlog hslots hserve =>
    refine ⟨fun j q' g hj => ?_, ys ++ [z], ?_, fun y hy => ?_⟩
    · rw [hserve] at hj
      split at hj
      · cases hj
      · exact hmono _ _ (hserved j q' g hj)
    · rw [hlog, hys, List.append_assoc]
    · rcases List.mem_append.mp hy with hy | hy
      · exact hmono _ _ (hP y hy)
      · rw [List.mem_singleton.mp hy]
        exact hmono _ _ (hserved i _ _ hz)
  | env c _ hdrift hlog hslots hserve =>
    refine ⟨fun j q' g hj => ?_, ys, hlog.trans hys, fun y hy => hmono _ _ (hP y hy)⟩
    rw [hserve] at hj
    exact hmono _ _ (hserved j q' g hj)

end Memory

/-! ## Entries in every run -/

/-- The request has committed a statement that adds the entry `k`. -/
def Progress.Commits (f : Progress T) (k : Entry) : Prop := ∃ wr ∈ f.committed, k ∈ wr.entries

/-- The entries of the indexes after a run that began with the database `db₀`. -/
structure Entered (db₀ : Database T) (w : World T K) : Prop where
  /-- No two open transactions add the same entry, and none adds one that is there. -/
  exclusive : Exclusive Write.entries Database.Has w.shared.db
  /-- The entries of the first database are there. -/
  grown : ∀ k, db₀.Has k → w.shared.db.committed.Has k
  /-- Committed entries are there. -/
  kept : Everyone (fun _ f => ∀ k, f.Commits k → w.shared.db.committed.Has k) w
  /-- There are no other entries. -/
  origin : ∀ k, w.shared.db.committed.Has k → db₀.Has k ∨ Somebody (fun _ f => f.Commits k) w
  /-- No two requests have committed the same entry. -/
  apart : Everypair (fun _ f _ f' => ∀ k, f.Commits k → ¬ f'.Commits k) w
  /-- The entries that a request has seen are there. -/
  recalled : Everyone (fun _ f => ∀ s, f.Recalls s → ∀ k, s.db.committed.Has k →
    w.shared.db.committed.Has k) w

section Entries

lemma commits_commit {f : Progress T} {k : Entry} :
    f.commit.Commits k ↔ f.Commits k ∨ ∃ wr ∈ f.wrote, k ∈ wr.entries := by
  simp only [Progress.Commits, Progress.commit, List.mem_append, or_and_right, exists_or]

lemma not_commits_start (k : Entry) : ¬ ({} : Progress T).Commits k := by
  rintro ⟨wr, hwr, -⟩
  cases hwr

lemma not_recalls_start (s : Stores T) : ¬ ({} : Progress T).Recalls s := by
  rintro (⟨row, hrow⟩ | hdev | ⟨ws, hws⟩)
  · cases hrow
  · cases hdev
  · cases hws

variable [Instant T]

/-- A call adds to what its request has committed only at a commit. -/
lemma Effect.commits {i : ℕ} {c : Choice T} {o : Op T} {s s' : Stores T} {f f' : Progress T}
    (h : Effect i c s f o f' s') :
    (∀ k, f'.Commits k ↔ f.Commits k) ∨
      (f' = f.commit ∧ s' = { s with db := s.db.commit Database.apply i }) := by
  rcases h.wrote with ⟨-, hc, -⟩ | ⟨ws, db, -, -, rfl, -⟩ | ⟨-, hf, hs⟩ | ⟨-, rfl, -⟩
  · refine .inl fun k => ?_
    rw [Progress.Commits, Progress.Commits, hc]
  · exact .inl fun k => Iff.rfl
  · exact .inr ⟨hf, hs⟩
  · exact .inl fun k => Iff.rfl

variable [DecidableEq K] {x : Externals K} {w w' : World T K} {e : Event (Request K) (Choice T)}
  {db₀ : Database T}

omit [DecidableEq K] in
/-- The entries that the open transaction of a request adds are not there. -/
lemma Entered.absent (hw : Entered db₀ w) (hsound : Sound x w) {i : ℕ} {q : Request K}
    {f : Progress T} (hi : serving w i = some (q, f)) {wr : Write T} (hwr : wr ∈ f.wrote)
    {k : Entry} (hk : k ∈ wr.entries) : ¬ w.shared.db.committed.Has k := by
  refine hw.exclusive.absent i wr ?_ k hk
  rw [hsound.own, hi]
  exact hwr

omit [DecidableEq K] in
/-- The entries after the commit of a request. -/
lemma Entered.has_commit (hw : Entered db₀ w) (hsound : Sound x w) {i : ℕ} {q : Request K}
    {f : Progress T} (hi : serving w i = some (q, f)) (k : Entry) :
    (w.shared.db.commit Database.apply i).committed.Has k ↔
      w.shared.db.committed.Has k ∨ ∃ wr ∈ f.wrote, k ∈ wr.entries := by
  have hown : w.shared.db.own i = f.wrote := by rw [hsound.own, hi]; rfl
  rw [Ledger.committed_commit, Ledger.view,
    index.has_applyAll (hw.exclusive.accepted index i), hown]

/-- What one event does to the entries: only a commit adds some, those of its session. -/
lemma Entered.entries (hw : Entered db₀ w) (h : Change x w e w') :
    Exclusive Write.entries Database.Has w'.shared.db ∧
    ((∀ k, w'.shared.db.committed.Has k ↔ w.shared.db.committed.Has k) ∨
      ∃ i q f, serving w i = some (q, f) ∧ serving w' i = some (q, f.commit) ∧
        w'.shared.db = w.shared.db.commit Database.apply i) := by
  have hstay : ∀ s : Stores T, s.db = w.shared.db → Exclusive Write.entries Database.Has s.db ∧
      ∀ k, s.db.committed.Has k ↔ w.shared.db.committed.Has k := by
    intro s hs
    rw [hs]
    exact ⟨hw.exclusive, fun _ => Iff.rfl⟩
  cases h with
  | start q _ hadm hshared =>
    exact (hstay _ (by rw [hshared])).imp id .inl
  | step i c q f f' o _ hnext hmay heff hlog hslots hserve =>
    rcases heff.wrote with ⟨-, -, hdb⟩ | ⟨ws, db, -, hflush, -, hs'⟩ | ⟨-, rfl, hs'⟩ | ⟨-, -, hs'⟩
    · exact (hstay _ hdb).imp id .inl
    · rw [hs']
      refine ⟨hw.exclusive.flush index hflush, .inl fun k => ?_⟩
      rw [Ledger.committed_flush hflush]
    · refine ⟨by rw [hs']; exact hw.exclusive.commit index i, .inr ⟨i, q, f, hnext.serving, ?_, ?_⟩⟩
      · rw [hserve, if_pos rfl]
      · rw [hs']
    · rw [hs']
      exact ⟨hw.exclusive.rollback i, .inl fun _ => Iff.rfl⟩
  | respond i y _ hserved hends hshared =>
    exact (hstay _ (by rw [hshared])).imp id .inl
  | env c _ hdrift =>
    rcases drift_db hdrift with ⟨-, hdb⟩ | ⟨id, status, -, hdb⟩
    · exact (hstay _ (by rw [hdb])).imp id .inl
    · have hsame : ∀ k, (w.shared.db.committed.updateUser id { status := some status }).Has k ↔
          w.shared.db.committed.Has k := by
        intro k
        have happ := index.has_apply (.updateUser id { status := some status })
          w.shared.db.committed _ k rfl
        simpa [Write.entries] using happ
      rw [hdb]
      exact ⟨hw.exclusive.of_committed fun k hk => (hsame k).mp hk, .inl hsame⟩

/-- No event removes an entry. -/
lemma Entered.has_mono (hw : Entered db₀ w) (hsound : Sound x w) (h : Change x w e w') {k : Entry}
    (hk : w.shared.db.committed.Has k) : w'.shared.db.committed.Has k := by
  rcases (hw.entries h).2 with hsame | ⟨i, q, f, hi, -, hdb⟩
  · exact (hsame k).mpr hk
  · rw [hdb]
    exact (hw.has_commit hsound hi k).mpr (.inl hk)

/-- The account of the entries is kept by every event. -/
theorem Entered.change (hw : Entered db₀ w) (hsound : Sound x w) (h : Change x w e w') :
    Entered db₀ w' := by
  have hmono : ∀ k, w.shared.db.committed.Has k → w'.shared.db.committed.Has k :=
    fun _ => hw.has_mono hsound h
  refine ⟨(hw.entries h).1, fun k hk => hmono k (hw.grown k hk), ?_, fun k hk => ?_, ?_, ?_⟩
  · refine hw.kept.change h (fun q f hf k hk => hmono k (hf k hk))
      (fun q k hk => (not_commits_start k hk).elim)
      fun i c q f f' o he hnext hmay heff hf k hk => ?_
    rcases heff.commits with hsame | ⟨rfl, hs'⟩
    · exact hmono k (hf k ((hsame k).mp hk))
    · rw [hs']
      exact (hw.has_commit hsound hnext.serving k).mpr ((commits_commit.mp hk).imp (hf k) id)
  · have hsome : w.shared.db.committed.Has k →
        db₀.Has k ∨ Somebody (fun _ f => f.Commits k) w' := by
      intro hold
      refine (hw.origin k hold).imp id fun hsome => hsome.change h ?_
      intro i c q f f' o heff hP
      rcases heff.commits with hsame | ⟨rfl, -⟩
      · exact (hsame k).mpr hP
      · exact commits_commit.mpr (.inl hP)
    rcases (hw.entries h).2 with hsame | ⟨i, q, f, hi, hi', hdb⟩
    · exact hsome ((hsame k).mp hk)
    · rw [hdb] at hk
      rcases (hw.has_commit hsound hi k).mp hk with hold | hnew
      · exact hsome hold
      · exact .inr (.inl ⟨i, q, f.commit, hi', commits_commit.mpr (.inr hnew)⟩)
  · refine hw.apart.change h (fun q f q' f' hR k hk hk' => hR k hk' hk)
      (fun q _ q' f' _ k hk => (not_commits_start k hk).elim)
      fun i c q f f' o q' g he hnext hmay heff hother hR k hk hg => ?_
    rcases heff.commits with hsame | ⟨rfl, -⟩
    · exact hR k ((hsame k).mp hk) hg
    · rcases commits_commit.mp hk with hk | ⟨wr, hwr, hkey⟩
      · exact hR k hk hg
      · -- the other request has committed the entry, so no open transaction adds it
        refine hw.absent hsound hnext.serving hwr hkey ?_
        rcases hother with ⟨j, -, hj⟩ | ⟨y, hy, -, rfl⟩
        · exact hw.kept.served j q' g hj k hg
        · exact hw.kept.logged y hy k hg
  · refine hw.recalled.change h (fun q f hf s hs k hk => hmono k (hf s hs k hk))
      (fun q s hs => (not_recalls_start s hs).elim)
      fun i c q f f' o he hnext hmay heff hf s hs k hk => ?_
    rcases heff.recalls hs with hs | rfl
    · exact hmono k (hf s hs k hk)
    · exact hmono k hk

omit [Instant T] [DecidableEq K] in
theorem entered_initial (now : T) (db : Database T) (drawn : List Uuid) :
    Entered db (Pool.initial (Stores.initial now db drawn) : World T K) where
  exclusive := exclusive_of_pending rfl
  grown _ hk := hk
  kept := ⟨fun i q f hi => by simp [serving_initial] at hi, fun y hy => absurd hy List.not_mem_nil⟩
  origin _ hk := .inl hk
  apart := ⟨fun i j q f q' f' _ hi => by simp [serving_initial] at hi,
    fun i q f hi => by simp [serving_initial] at hi, List.Pairwise.nil⟩
  recalled := ⟨fun i q f hi => by simp [serving_initial] at hi,
    fun y hy => absurd hy List.not_mem_nil⟩

/-- The account of the entries is kept along every run. -/
theorem Entered.reach {C : World T K → Event (Request K) (Choice T) → Prop} {now : T}
    {db : Database T} {drawn : List Uuid}
    (h : Reach (server x) C (Pool.initial (Stores.initial now db drawn)) w) : Entered db w := by
  have hboth := h.induct (I := fun v => Sound x v ∧ Entered db v)
    ⟨sound_initial now db drawn, entered_initial now db drawn⟩
    fun v e v' _ hv _ he => ⟨hv.1.exec he, hv.2.change hv.1 (hv.1.change he)⟩
  exact hboth.2

end Entries

end SampleAuthApi
