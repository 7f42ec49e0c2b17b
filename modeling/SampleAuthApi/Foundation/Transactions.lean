import Mathlib

/-!
# Read-committed transactions

A `Ledger` holds the committed state of a database and the writes that open transactions have
flushed but not committed.  A transaction reads the committed state with its own writes on top.  A
flush waits while another transaction holds a conflicting uncommitted write, and fails when the
writes violate a constraint of what the transaction sees; a commit publishes the writes of one
transaction, a rollback drops them.
-/

namespace Transactions

/-- A database with the uncommitted writes of its open transactions, oldest first. -/
structure Ledger (D W : Type) where
  /-- The committed state. -/
  committed : D
  /-- The uncommitted writes, each with the number of its transaction. -/
  pending : List (ℕ × W)

namespace Ledger

variable {D W : Type} (apply : W → D → Option D) (conflicts : W → W → Bool)

/-- The uncommitted writes of transaction `i`. -/
def own (l : Ledger D W) (i : ℕ) : List W :=
  (l.pending.filter fun p => p.1 == i).map Prod.snd

/-- The state after a list of writes; a write that its constraint refuses is skipped. -/
def applyAll (ws : List W) (d : D) : D := ws.foldl (fun d w => (apply w d).getD d) d

/-- What transaction `i` reads. -/
def view (l : Ledger D W) (i : ℕ) : D := applyAll apply (l.own i) l.committed

/-- Another transaction holds an uncommitted write that conflicts with one of `ws`. -/
def blocked (l : Ledger D W) (i : ℕ) (ws : List W) : Bool :=
  l.pending.any fun p => p.1 != i && ws.any fun w => conflicts w p.2

/-- The writes `ws` keep every constraint of `d`. -/
def accepts : List W → D → Bool
  | [], _ => true
  | w :: ws, d => match apply w d with
    | some d' => accepts ws d'
    | none => false

/-- Flush the writes of transaction `i`: `none` while it has to wait, otherwise whether the
constraints hold, and the ledger after it. -/
def flush (l : Ledger D W) (i : ℕ) (ws : List W) : Option (Bool × Ledger D W) :=
  if l.blocked conflicts i ws then none
  else if accepts apply ws (l.view apply i) then
    some (true, { l with pending := l.pending ++ ws.map fun w => (i, w) })
  else some (false, l)

/-- The ledger without the uncommitted writes of transaction `i`. -/
def rollback (l : Ledger D W) (i : ℕ) : Ledger D W :=
  { l with pending := l.pending.filter fun p => p.1 != i }

/-- Publish the writes of transaction `i`. -/
def commit (l : Ledger D W) (i : ℕ) : Ledger D W :=
  { l.rollback i with committed := l.view apply i }

variable {apply conflicts} {l l' : Ledger D W} {i j : ℕ} {ws : List W} {b : Bool}

@[simp] theorem applyAll_nil (d : D) : applyAll apply [] d = d := rfl

@[simp] theorem applyAll_cons (w : W) (ws : List W) (d : D) :
    applyAll apply (w :: ws) d = applyAll apply ws ((apply w d).getD d) := rfl

/-- Writes in sequence are applied one after the other. -/
theorem applyAll_append (ws ws' : List W) (d : D) :
    applyAll apply (ws ++ ws') d = applyAll apply ws' (applyAll apply ws d) :=
  List.foldl_append

@[simp] theorem own_nil (d : D) (i : ℕ) : (⟨d, []⟩ : Ledger D W).own i = [] := rfl

/-- Writes in sequence are accepted if the second part is, after the first. -/
theorem accepts_append (ws ws' : List W) (d : D) :
    accepts apply (ws ++ ws') d = true ↔
      accepts apply ws d = true ∧ accepts apply ws' (applyAll apply ws d) = true := by
  induction ws generalizing d with
  | nil => simp [accepts]
  | cons w ws ih =>
    cases h : apply w d with
    | none => simp [accepts, h]
    | some d' => simpa [accepts, h] using ih d'

/-- A single write is accepted if it can be applied. -/
theorem accepts_singleton (w : W) (d : D) : accepts apply [w] d = (apply w d).isSome := by
  unfold accepts
  cases apply w d <;> rfl

/-- What a flush can do. -/
theorem flush_cases (h : l.flush apply conflicts i ws = some (b, l')) :
    (b = true ∧ accepts apply ws (l.view apply i) = true ∧
      l' = { l with pending := l.pending ++ ws.map fun w => (i, w) }) ∨
    (b = false ∧ accepts apply ws (l.view apply i) = false ∧ l' = l) := by
  unfold flush at h
  split at h
  · cases h
  · split at h
    · rename_i ha
      cases h
      exact .inl ⟨rfl, ha, rfl⟩
    · rename_i ha
      cases h
      exact .inr ⟨rfl, by simpa using ha, rfl⟩

/-- A flush commits nothing. -/
theorem committed_flush (h : l.flush apply conflicts i ws = some (b, l')) :
    l'.committed = l.committed := by
  rcases flush_cases h with ⟨-, -, rfl⟩ | ⟨-, -, rfl⟩ <;> rfl

/-- A flush leaves the writes of the other transactions alone. -/
theorem own_flush_of_ne (h : l.flush apply conflicts i ws = some (b, l')) (hj : j ≠ i) :
    l'.own j = l.own j := by
  rcases flush_cases h with ⟨-, -, rfl⟩ | ⟨-, -, rfl⟩
  · have hnil : (ws.map fun w => (i, w)).filter (fun p => p.1 == j) = [] := by
      simp [List.filter_eq_nil_iff, Ne.symm hj]
    simp [own, hnil]
  · rfl

/-- A flush that keeps the constraints adds its writes to those of its transaction. -/
theorem own_flush_self (h : l.flush apply conflicts i ws = some (true, l')) :
    l'.own i = l.own i ++ ws := by
  rcases flush_cases h with ⟨-, -, rfl⟩ | ⟨hb, -, -⟩
  · have hall : (ws.map fun w => (i, w)).filter (fun p => p.1 == i) = ws.map fun w => (i, w) := by
      simp [List.filter_eq_self]
    simp [own, hall, Function.comp_def]
  · cases hb

/-- A rollback leaves the committed data alone. -/
@[simp] theorem committed_rollback : (l.rollback i).committed = l.committed := rfl

/-- A commit publishes what its transaction sees. -/
@[simp] theorem committed_commit : (l.commit apply i).committed = l.view apply i := rfl

/-- A rollback drops the writes of its transaction. -/
@[simp] theorem own_rollback_self : (l.rollback i).own i = [] := by
  simp [own, rollback, List.filter_filter]

/-- A rollback leaves the other transactions alone. -/
theorem own_rollback_of_ne (hj : j ≠ i) : (l.rollback i).own j = l.own j := by
  have hfun : (fun p : ℕ × W => (p.1 == j && p.1 != i)) = fun p => p.1 == j := by
    funext p
    by_cases hp : p.1 = j
    · simp [hp, hj]
    · simp [hp]
  simp [own, rollback, List.filter_filter, hfun]

/-- A commit leaves its transaction without writes. -/
@[simp] theorem own_commit_self : (l.commit apply i).own i = [] :=
  own_rollback_self (l := l)

/-- A commit leaves the other transactions alone. -/
theorem own_commit_of_ne (hj : j ≠ i) : (l.commit apply i).own j = l.own j :=
  own_rollback_of_ne (l := l) hj

/-- The writes of a transaction are those that are pending under its name. -/
theorem mem_own {w : W} : w ∈ l.own i ↔ (i, w) ∈ l.pending := by
  constructor
  · intro hw
    obtain ⟨⟨j, w'⟩, hp, rfl⟩ := List.mem_map.mp hw
    obtain ⟨hmem, hj⟩ := List.mem_filter.mp hp
    rwa [← beq_iff_eq.mp hj]
  · intro hp
    exact List.mem_map.mpr ⟨(i, w), List.mem_filter.mpr ⟨hp, by simp⟩, rfl⟩

/-! ## Locks -/

/-- No two open transactions hold conflicting writes: what has been flushed is locked. -/
def Locked (conflicts : W → W → Bool) (l : Ledger D W) : Prop :=
  ∀ i j, i ≠ j → ∀ w ∈ l.own i, ∀ w' ∈ l.own j, conflicts w w' = false

/-- Without pending writes no lock is held. -/
theorem locked_of_pending (h : l.pending = []) : Locked conflicts l := by
  intro i j _ w hw
  rw [mem_own, h] at hw
  cases hw

/-- A flush that does not have to wait conflicts with no other open transaction. -/
theorem not_conflicts_of_flush (h : l.flush apply conflicts i ws = some (b, l')) {w w' : W}
    (hw : w ∈ ws) (hw' : w' ∈ l.own j) (hj : j ≠ i) : conflicts w w' = false := by
  by_contra hconflict
  rw [Bool.not_eq_false] at hconflict
  have hany : l.blocked conflicts i ws = true := by
    refine List.any_eq_true.mpr ⟨(j, w'), mem_own.mp hw', ?_⟩
    have hsome : (ws.any fun w => conflicts w w') = true :=
      List.any_eq_true.mpr ⟨w, hw, hconflict⟩
    simp [hsome, hj]
  simp [Ledger.flush, hany] at h

/-- A flush that is carried out takes its locks. -/
theorem Locked.flush (hl : Locked conflicts l)
    (hsymm : ∀ w w', conflicts w w' = conflicts w' w)
    (h : l.flush apply conflicts i ws = some (b, l')) : Locked conflicts l' := by
  rcases flush_cases h with ⟨rfl, -, -⟩ | ⟨-, -, rfl⟩
  · have hself : l'.own i = l.own i ++ ws := own_flush_self h
    intro j k hjk w hw w' hw'
    by_cases hj : j = i
    · subst hj
      rw [own_flush_of_ne h (Ne.symm hjk)] at hw'
      rw [hself] at hw
      rcases List.mem_append.mp hw with hw | hw
      · exact hl j k hjk w hw w' hw'
      · exact not_conflicts_of_flush h hw hw' (Ne.symm hjk)
    · rw [own_flush_of_ne h hj] at hw
      by_cases hk : k = i
      · subst hk
        rw [hself] at hw'
        rcases List.mem_append.mp hw' with hw' | hw'
        · exact hl j k hjk w hw w' hw'
        · rw [hsymm]
          exact not_conflicts_of_flush h hw' hw hj
      · rw [own_flush_of_ne h hk] at hw'
        exact hl j k hjk w hw w' hw'
  · exact hl

/-- A rollback gives locks back. -/
theorem Locked.rollback (hl : Locked conflicts l) (i : ℕ) : Locked conflicts (l.rollback i) := by
  have hsub : ∀ j, ∀ w ∈ (l.rollback i).own j, w ∈ l.own j := by
    intro j w hw
    by_cases hj : j = i
    · subst hj
      rw [own_rollback_self] at hw
      cases hw
    · rwa [own_rollback_of_ne hj] at hw
  intro j k hjk w hw w' hw'
  exact hl j k hjk w (hsub j w hw) w' (hsub k w' hw')

/-- A commit gives locks back. -/
theorem Locked.commit (hl : Locked conflicts l) (i : ℕ) : Locked conflicts (l.commit apply i) :=
  hl.rollback i

/-! ## Unique indexes -/

section Indexes

variable {κ : Type} {keys : W → List κ} {has : D → κ → Prop}

/-- `keys w` are the entries that the write `w` adds to the unique indexes, and `has d k` says that
the indexes of `d` have the entry `k`: a write is refused exactly when an entry that it adds is
there, and it conflicts with every other write that adds one of its entries. -/
structure Index (apply : W → D → Option D) (conflicts : W → W → Bool) (keys : W → List κ)
    (has : D → κ → Prop) : Prop where
  has_apply : ∀ w d d' k, apply w d = some d' → (has d' k ↔ has d k ∨ k ∈ keys w)
  refuses : ∀ w d, apply w d = none ↔ ∃ k ∈ keys w, has d k
  conflict : ∀ w w' k, k ∈ keys w → k ∈ keys w' → conflicts w w' = true

/-- No entry is added by two of the writes. -/
def Distinct (keys : W → List κ) (ws : List W) : Prop :=
  ws.Pairwise fun w w' => ∀ k ∈ keys w, k ∉ keys w'

/-- Writes keep the constraints exactly when the entries that they add are not there and no entry is
added twice. -/
theorem Index.accepts_iff (h : Index apply conflicts keys has) {d : D} :
    accepts apply ws d = true ↔
      (∀ w ∈ ws, ∀ k ∈ keys w, ¬ has d k) ∧ Distinct keys ws := by
  induction ws generalizing d with
  | nil => simp [accepts, Distinct]
  | cons w ws ih =>
    rw [Distinct, List.pairwise_cons]
    cases happ : apply w d with
    | none =>
      obtain ⟨k, hk, hhas⟩ := (h.refuses w d).mp happ
      constructor
      · intro hacc
        simp [accepts, happ] at hacc
      · rintro ⟨habs, -⟩
        exact absurd hhas (habs w List.mem_cons_self k hk)
    | some d' =>
      have hfree : ∀ k ∈ keys w, ¬ has d k := by
        intro k hk hhas
        rw [(h.refuses w d).mpr ⟨k, hk, hhas⟩] at happ
        cases happ
      have hacc : accepts apply (w :: ws) d = accepts apply ws d' := by simp [accepts, happ]
      rw [hacc, ih]
      constructor
      · rintro ⟨habs, hdist⟩
        refine ⟨fun v hv k hk hhas => ?_, fun v hv k hk hk' => ?_, hdist⟩
        · rcases List.mem_cons.mp hv with rfl | hv
          · exact hfree k hk hhas
          · exact habs v hv k hk ((h.has_apply w d d' k happ).mpr (.inl hhas))
        · exact habs v hv k hk' ((h.has_apply w d d' k happ).mpr (.inr hk))
      · rintro ⟨habs, hnew, hdist⟩
        refine ⟨fun v hv k hk hhas => ?_, hdist⟩
        rcases (h.has_apply w d d' k happ).mp hhas with hhas | hk'
        · exact habs v (List.mem_cons_of_mem _ hv) k hk hhas
        · exact hnew v hv k hk' hk

/-- The entries after writes that keep the constraints. -/
theorem Index.has_applyAll (h : Index apply conflicts keys has) {d : D} {k : κ}
    (hacc : accepts apply ws d = true) :
    has (applyAll apply ws d) k ↔ has d k ∨ ∃ w ∈ ws, k ∈ keys w := by
  induction ws generalizing d with
  | nil => simp
  | cons w ws ih =>
    cases happ : apply w d with
    | none => simp [accepts, happ] at hacc
    | some d' =>
      have hrest : accepts apply ws d' = true := by simpa [accepts, happ] using hacc
      rw [applyAll_cons, happ, Option.getD_some, ih hrest, h.has_apply w d d' k happ, or_assoc]
      simp only [List.mem_cons, exists_eq_or_imp]

/-- The entries that open transactions add to the indexes are not in the committed state, no two
transactions add the same one, and no transaction adds one twice. -/
structure Exclusive (keys : W → List κ) (has : D → κ → Prop) (l : Ledger D W) : Prop where
  absent : ∀ i, ∀ w ∈ l.own i, ∀ k ∈ keys w, ¬ has l.committed k
  apart : ∀ i j, ∀ w ∈ l.own i, ∀ w' ∈ l.own j, ∀ k ∈ keys w, k ∈ keys w' → i = j
  distinct : ∀ i, Distinct keys (l.own i)

/-- The writes of an open transaction keep the constraints of the committed state. -/
theorem Exclusive.accepted (hl : Exclusive keys has l) (hidx : Index apply conflicts keys has)
    (i : ℕ) : accepts apply (l.own i) l.committed = true :=
  hidx.accepts_iff.mpr ⟨hl.absent i, hl.distinct i⟩

/-- Without pending writes no key is claimed. -/
theorem exclusive_of_pending (h : l.pending = []) : Exclusive keys has l := by
  have hown : ∀ i, l.own i = [] := fun i => by simp [own, h]
  refine ⟨fun i w hw => ?_, fun i j w hw => ?_, fun i => ?_⟩
  · rw [hown] at hw
    cases hw
  · rw [hown] at hw
    cases hw
  · rw [hown]
    exact List.Pairwise.nil

/-- A flush that does not have to wait adds no entry that another transaction adds. -/
theorem Index.not_blocked (h : Index apply conflicts keys has)
    (hf : l.flush apply conflicts i ws = some (b, l')) {w w' : W} (hw : w ∈ ws)
    (hw' : w' ∈ l.own j) {k : κ} (hk : k ∈ keys w) (hk' : k ∈ keys w') : i = j := by
  by_contra hne
  have hconflict := h.conflict w w' k hk hk'
  rw [not_conflicts_of_flush hf hw hw' (Ne.symm hne)] at hconflict
  cases hconflict

/-- A flush that is carried out claims only free keys. -/
theorem Exclusive.flush (hl : Exclusive keys has l) (hidx : Index apply conflicts keys has)
    (h : l.flush apply conflicts i ws = some (b, l')) : Exclusive keys has l' := by
  rcases flush_cases h with ⟨rfl, hacc, -⟩ | ⟨-, -, rfl⟩
  · have hself : l'.own i = l.own i ++ ws := own_flush_self h
    have hall : accepts apply (l.own i ++ ws) l.committed = true :=
      (accepts_append _ _ _).mpr ⟨hl.accepted hidx i, hacc⟩
    obtain ⟨habs, hdist⟩ := hidx.accepts_iff.mp hall
    have hmem : ∀ j, ∀ w ∈ l'.own j, w ∈ l.own j ∨ (j = i ∧ w ∈ ws) := by
      intro j w hw
      by_cases hj : j = i
      · subst hj
        rw [hself] at hw
        exact (List.mem_append.mp hw).imp id fun hw => ⟨rfl, hw⟩
      · rw [own_flush_of_ne h hj] at hw
        exact .inl hw
    refine ⟨fun j w hw k hk => ?_, fun j j' w hw w' hw' k hk hk' => ?_, fun j => ?_⟩
    · rw [committed_flush h]
      rcases hmem j w hw with hw | ⟨rfl, hw⟩
      · exact hl.absent j w hw k hk
      · exact habs w (List.mem_append_right _ hw) k hk
    · rcases hmem j w hw with hw | ⟨rfl, hw⟩ <;> rcases hmem j' w' hw' with hw' | ⟨rfl, hw'⟩
      · exact hl.apart j j' w hw w' hw' k hk hk'
      · exact (hidx.not_blocked h hw' hw hk' hk).symm
      · exact hidx.not_blocked h hw hw' hk hk'
      · rfl
    · by_cases hj : j = i
      · rw [hj, hself]
        exact hdist
      · rw [own_flush_of_ne h hj]
        exact hl.distinct j
  · exact hl

/-- A rollback gives keys back. -/
theorem Exclusive.rollback (hl : Exclusive keys has l) (i : ℕ) :
    Exclusive keys has (l.rollback i) := by
  have hmem : ∀ j, ∀ w ∈ (l.rollback i).own j, w ∈ l.own j := by
    intro j w hw
    by_cases hj : j = i
    · rw [hj, own_rollback_self] at hw
      cases hw
    · rwa [own_rollback_of_ne hj] at hw
  refine ⟨fun j w hw => hl.absent j w (hmem j w hw),
    fun j j' w hw w' hw' => hl.apart j j' w (hmem j w hw) w' (hmem j' w' hw'), fun j => ?_⟩
  by_cases hj : j = i
  · rw [hj, own_rollback_self]
    exact List.Pairwise.nil
  · rw [own_rollback_of_ne hj]
    exact hl.distinct j

/-- A commit turns the claimed keys of its transaction into present ones. -/
theorem Exclusive.commit (hl : Exclusive keys has l) (hidx : Index apply conflicts keys has)
    (i : ℕ) : Exclusive keys has (l.commit apply i) := by
  refine ⟨fun j w hw k hk hhas => ?_, (hl.rollback i).apart, (hl.rollback i).distinct⟩
  by_cases hj : j = i
  · rw [hj, own_commit_self] at hw
    cases hw
  · rw [own_commit_of_ne hj] at hw
    rcases (hidx.has_applyAll (hl.accepted hidx i)).mp hhas with hold | ⟨w', hw', hk'⟩
    · exact hl.absent j w hw k hk hold
    · exact hj (hl.apart j i w hw w' hw' k hk hk')

/-- A change of the committed state that adds no entry. -/
theorem Exclusive.of_committed (hl : Exclusive keys has l) {d : D}
    (hd : ∀ k, has d k → has l.committed k) : Exclusive keys has { l with committed := d } :=
  ⟨fun i w hw k hk hhas => hl.absent i w hw k hk (hd k hhas), hl.apart, hl.distinct⟩

end Indexes

end Ledger

end Transactions
