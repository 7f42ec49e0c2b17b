import SampleAuthApi.Sessions.Served

/-!
# What holds of all rows

`Keeps x P W`: the statements `W` keep the property `P` of databases, and the service only flushes
such statements.  `P` then holds of the committed database in every reachable state
(`Keeps.reach`), however the transactions are interleaved.  Both may refer to the `uuid4` values
that have been drawn.
-/

namespace SampleAuthApi

open Transactions Pool

variable {T K : Type} [Instant T]

/-! ## Commits -/

section Commits

variable [DecidableEq K] {x : Externals K} {w w' : World T K} {e : Event (Request K) (Choice T)}

/-- Only a commit and an administrator change the committed rows. -/
lemma Change.committed_cases (h : Change x w e w') (hsound : Sound x w) :
    w'.shared.db.committed = w.shared.db.committed ∨
    (∃ i c q f resp, e = .step i c ∧ NextCall w i q f .commit ∧ Recorded x q resp f.commit ∧
      serving w' i = some (q, f.commit) ∧
      w'.shared.db = w.shared.db.commit Database.apply i ∧
      w'.shared.db.committed = Ledger.applyAll Database.apply f.wrote w.shared.db.committed) ∨
    ∃ id status, e = .env (.setStatus id status) ∧
      Database.apply (.updateUser id { status := some status }) w.shared.db.committed =
        some w'.shared.db.committed := by
  cases h with
  | start q _ hadm hshared => exact .inl (by rw [hshared])
  | step i c q f f' o _ hnext hmay heff hlog hslots hserve =>
    rcases heff.wrote with ⟨-, -, hdb⟩ | ⟨ws, db, -, hflush, -, hs'⟩ | ⟨rfl, rfl, hs'⟩ | ⟨-, -, hs'⟩
    · exact .inl (by rw [hdb])
    · refine .inl ?_
      rw [hs', Ledger.committed_flush hflush]
    · obtain ⟨resp, -, hrec⟩ := hmay
      have hown : w.shared.db.own i = f.wrote := by rw [hsound.own, hnext.serving]; rfl
      refine .inr (.inl ⟨i, c, q, f, resp, rfl, hnext, hrec, ?_, by rw [hs'], ?_⟩)
      · rw [hserve, if_pos rfl]
      · rw [hs', Ledger.committed_commit, Ledger.view, hown]
    · exact .inl (by rw [hs', Ledger.committed_rollback])
  | respond i y _ hserved hends hshared => exact .inl (by rw [hshared])
  | env c _ hdrift =>
    rcases drift_db hdrift with ⟨-, hdb⟩ | ⟨id, status, rfl, hdb⟩
    · exact .inl (by rw [hdb])
    · exact .inr (.inr ⟨id, status, rfl, by rw [hdb]; rfl⟩)

/-- Only a commit changes the committed rows, unless an administrator is at work. -/
lemma Change.committed (h : Change x w e w') (hu : Unattended e) (hsound : Sound x w) :
    w'.shared.db.committed = w.shared.db.committed ∨ ∃ i q f resp, serving w i = some (q, f) ∧
      Recorded x q resp f.commit ∧ serving w' i = some (q, f.commit) ∧
      w'.shared.db = w.shared.db.commit Database.apply i ∧
      w'.shared.db.committed = Ledger.applyAll Database.apply f.wrote w.shared.db.committed := by
  rcases h.committed_cases hsound with hsame | ⟨i, c, q, f, resp, -, hnext, hcommit⟩ |
    ⟨id, status, rfl, -⟩
  · exact .inl hsame
  · exact .inr ⟨i, q, f, resp, hnext.serving, hcommit⟩
  · exact hu.elim

end Commits

/-! ## Statements that keep a property -/

/-- The statements `W` keep the property `P` of databases, and the service only flushes such
statements. -/
structure Keeps (x : Externals K) (P : List Uuid → Database T → Prop)
    (W : List Uuid → Write T → Prop) : Prop where
  mono : ∀ l l' db, (∀ u ∈ l, u ∈ l') → P l db → P l' db
  mono_write : ∀ l l' wr, (∀ u ∈ l, u ∈ l') → W l wr → W l' wr
  may : ∀ q f wr l, (∀ u ∈ f.drawn, u ∈ l) → MayWrite x q f wr → W l wr
  admin : ∀ l id status, W l (.updateUser id { status := some status })
  apply : ∀ l wr db db', W l wr → P l db → Database.apply wr db = some db' → P l db'

section Keeps

variable {x : Externals K} {P : List Uuid → Database T → Prop} {W : List Uuid → Write T → Prop}

/-- A list of writes that keep the property keeps it. -/
theorem Keeps.applyAll (h : Keeps x P W) {l : List Uuid} {ws : List (Write T)} {db : Database T}
    (hws : ∀ wr ∈ ws, W l wr) (hdb : P l db) :
    P l (Ledger.applyAll Database.apply ws db) := by
  induction ws generalizing db with
  | nil => exact hdb
  | cons wr ws ih =>
    refine ih (fun w hw => hws w (List.mem_cons_of_mem _ hw)) ?_
    change P l ((Database.apply wr db).getD db)
    cases happ : Database.apply wr db with
    | none => exact hdb
    | some db' => exact h.apply l wr db db' (hws wr List.mem_cons_self) hdb happ

/-- The committed database has the property, and the uncommitted statements keep it. -/
structure Kept.Rows (P : List Uuid → Database T → Prop) (W : List Uuid → Write T → Prop)
    (w : World T K) : Prop where
  committed : P w.shared.drawn w.shared.db.committed
  pending : Everyone (fun _ f => ∀ wr ∈ f.wrote, W w.shared.drawn wr) w

variable [DecidableEq K] {w w' : World T K} {e : Event (Request K) (Choice T)}

/-- What every write keeps, every event keeps. -/
theorem Keeps.change (h : Keeps x P W) (hw : Invariant x w) (hrows : Kept.Rows P W w)
    (hc : Change x w e w') : Kept.Rows P W w' := by
  have hgrow := hc.frame.2
  refine ⟨?_, hrows.pending.change hc (fun q f hf wr hwr => ?_) (fun q wr hwr => ?_) ?_⟩
  · refine h.mono _ _ _ hgrow ?_
    rcases hc.committed_cases hw.sound with hsame |
      ⟨i, c, q, f, resp, -, hnext, -, -, -, hcommitted⟩ | ⟨id, status, -, happ⟩
    · rw [hsame]
      exact hrows.committed
    · rw [hcommitted]
      exact h.applyAll (hrows.pending.served i q f hnext.serving) hrows.committed
    · exact h.apply _ _ _ _ (h.admin _ id status) hrows.committed happ
  · exact h.mono_write _ _ wr hgrow (hf wr hwr)
  · exact absurd hwr List.not_mem_nil
  · intro i c q f f' o he hnext hmay heff hf wr hwr
    have hdrawn : ∀ u ∈ f.drawn, u ∈ w'.shared.drawn := fun u hu =>
      hgrow u (hw.drawn.served i q f hnext.serving u hu)
    have hold : ∀ wr ∈ f.wrote, W w'.shared.drawn wr := fun wr hwr =>
      h.mono_write _ _ wr hgrow (hf wr hwr)
    rcases heff.wrote with ⟨hsame, -, -⟩ | ⟨ws, db, rfl, -, rfl, -⟩ | ⟨-, rfl, -⟩ | ⟨-, rfl, -⟩
    · exact hold wr (hsame ▸ hwr)
    · rcases List.mem_append.mp hwr with hwr | hwr
      · exact hold wr hwr
      · exact h.may q f wr _ hdrawn (hmay.2 wr hwr)
    · exact absurd hwr List.not_mem_nil
    · exact absurd hwr List.not_mem_nil

/-- A property of databases that every statement of the service keeps holds in every reachable
state. -/
theorem Keeps.reach (h : Keeps x P W) {C : World T K → Event (Request K) (Choice T) → Prop}
    {now : T} {db : Database T} {drawn : List Uuid} (hdb : P drawn db)
    (hreach : Reach (server x) C (Pool.initial (Stores.initial now db drawn)) w) :
    P w.shared.drawn w.shared.db.committed := by
  have hrows := hreach.induct (I := fun w => Invariant x w ∧ Kept.Rows P W w)
    ⟨invariant_initial x now db drawn, hdb, fun i q f hi => by simp [serving_initial] at hi,
      fun e he => absurd he List.not_mem_nil⟩
    fun v e v' _ hv _ he => ⟨hv.1.exec he, h.change hv.1 hv.2 (hv.1.sound.change he)⟩
  exact hrows.2.committed

end Keeps

/-! ## Tables -/

section Tables

omit [Instant T]

/-- Statements on one table keep what the statements on the others leave alone. -/
lemma applyAll_frame {β : Type} {π : Database T → β} {ws : List (Write T)}
    (h : ∀ wr ∈ ws, ∀ db, π ((Database.apply wr db).getD db) = π db) (db : Database T) :
    π (Ledger.applyAll Database.apply ws db) = π db := by
  induction ws generalizing db with
  | nil => rfl
  | cons wr ws ih =>
    rw [Ledger.applyAll_cons, ih fun w hw => h w (List.mem_cons_of_mem _ hw)]
    exact h wr List.mem_cons_self db

/-- Writes to other tables leave the users alone. -/
lemma users_applyAll {ws : List (Write T)} (h : ∀ wr ∈ ws, wr.table ≠ .users) (db : Database T) :
    (Ledger.applyAll Database.apply ws db).users = db.users :=
  applyAll_frame (fun wr hwr _ => Database.users_apply (h wr hwr)) db

/-- Writes to other tables leave the devices alone. -/
lemma devices_applyAll {ws : List (Write T)} (h : ∀ wr ∈ ws, wr.table ≠ .userDevices)
    (db : Database T) : (Ledger.applyAll Database.apply ws db).devices = db.devices :=
  applyAll_frame (fun wr hwr _ => Database.devices_apply (h wr hwr)) db

/-- Writes to other tables leave the histories alone. -/
lemma histories_applyAll {ws : List (Write T)} (h : ∀ wr ∈ ws, wr.table ≠ .loginHistories)
    (db : Database T) : (Ledger.applyAll Database.apply ws db).histories = db.histories :=
  applyAll_frame (fun wr hwr _ => Database.histories_apply (h wr hwr)) db

/-- An upsert of a device writes to its table. -/
lemma Upserts.table {s : Stores T} {u : Uuid} {d : String} {wr : Write T} (h : Upserts s u d wr) :
    wr.table = .userDevices := by
  cases wr with
  | insertDevice device => rfl
  | updateDevice u' d' c => rfl
  | _ => exact h.elim

end Tables

/-! ## Password hashes -/

section Hashes

/-- The hash is one that the password context has made. -/
def Made (x : Externals K) (hash : String) : Prop :=
  ∃ salt password, x.pwdContext.hash salt password = .ok hash

/-- Every stored hash is one that the password context has made. -/
def Hashed (x : Externals K) (db : Database T) : Prop :=
  ∀ user ∈ db.users, Made x user.hashedPassword

variable {x : Externals K}

/-- Requests write no hash but that of some password. -/
lemma hashed_kept (x : Externals K) :
    Keeps (T := T) x (fun _ db => Hashed x db) fun _ wr => match wr with
      | .insertUser user => Made x user.hashedPassword
      | .updateUser _ changes => ∀ hash, changes.hashedPassword = some hash → Made x hash
      | _ => True where
  mono _ _ _ _ h := h
  mono_write _ _ _ _ h := h
  may q f wr l _ h := by
    cases wr with
    | insertUser user =>
      obtain ⟨-, _, password, _, _, _, salt, -, -, -, -, hhash, -⟩ := h
      exact ⟨salt, password, hhash⟩
    | updateUser id changes =>
      intro hash hchanges
      rcases h with ⟨d, t, -, rfl⟩ | ⟨c, -, -, hedits⟩
      · cases hchanges
      · cases q with
        | updateMe tok dev name phone =>
          obtain ⟨t, hnone, -⟩ := hedits
          rw [hnone] at hchanges
          cases hchanges
        | changePassword tok dev current new =>
          obtain ⟨user, salt, hash', t, -, hhash, rfl⟩ := hedits
          rw [changed_eq_some hchanges]
          exact ⟨salt, new, hhash⟩
        | deleteAccount tok dev password =>
          obtain ⟨s, user, t, -, -, -, rfl⟩ := hedits
          cases hchanges
        | _ => exact hedits.elim
    | _ => trivial
  admin l id status hash h := by cases h
  apply l wr db db' hwr hdb happ := by
    cases wr with
    | insertUser user =>
      simp only [Database.apply, Database.insertUser] at happ
      split at happ
      · cases happ
        intro r hr
        rcases List.mem_append.mp hr with hr | hr
        · exact hdb r hr
        · rw [List.mem_singleton.mp hr]
          exact hwr
      · cases happ
    | updateUser id changes =>
      cases happ
      intro r hr
      obtain ⟨r₀, hr₀, rfl⟩ := List.mem_map.mp hr
      split
      · change Made x (changes.hashedPassword.getD r₀.hashedPassword)
        cases hh : changes.hashedPassword with
        | none => exact hdb r₀ hr₀
        | some hash => exact hwr hash hh
      · exact hdb r₀ hr₀
    | insertDevice device =>
      simp only [Database.apply, Database.insertDevice] at happ
      split at happ
      · cases happ
        exact hdb
      · cases happ
    | updateDevice u d changes => cases happ; exact hdb
    | insertHistory row => cases happ; exact hdb

end Hashes

/-! ## Ids -/

/-- Every id of a user has been drawn. -/
def IdsDrawn (drawn : List Uuid) (db : Database T) : Prop := ∀ user ∈ db.users, user.id ∈ drawn

/-- Requests insert users only under ids that have been drawn. -/
lemma idsDrawn_kept (x : Externals K) :
    Keeps (T := T) x IdsDrawn fun l wr => match wr with
      | .insertUser user => user.id ∈ l
      | _ => True where
  mono _ _ _ hsub h user hu := hsub _ (h user hu)
  mono_write l l' wr hsub h := by
    cases wr with
    | insertUser user => exact hsub _ h
    | _ => trivial
  may q f wr l hdrawn h := by
    cases wr with
    | insertUser user =>
      obtain ⟨-, _, _, _, _, _, _, -, -, -, -, -, hid, -⟩ := h
      exact hdrawn _ (by rw [hid]; exact List.mem_cons_self)
    | _ => trivial
  admin _ _ _ := trivial
  apply l wr db db' hwr hdb happ := by
    cases wr with
    | insertUser user =>
      simp only [Database.apply, Database.insertUser] at happ
      split at happ
      · cases happ
        intro r hr
        rcases List.mem_append.mp hr with hr | hr
        · exact hdb r hr
        · rw [List.mem_singleton.mp hr]
          exact hwr
      · cases happ
    | updateUser id changes =>
      cases happ
      intro r hr
      obtain ⟨r₀, hr₀, rfl⟩ := List.mem_map.mp hr
      have hid : (if r₀.id = id then changes.apply r₀ else r₀).id = r₀.id := by
        split <;> rfl
      rw [hid]
      exact hdb r₀ hr₀
    | insertDevice device =>
      simp only [Database.apply, Database.insertDevice] at happ
      split at happ
      · cases happ
        exact hdb
      · cases happ
    | updateDevice u d changes => cases happ; exact hdb
    | insertHistory row => cases happ; exact hdb

end SampleAuthApi
