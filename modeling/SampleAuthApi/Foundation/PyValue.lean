import SampleAuthApi.Foundation.Text

/-!
# Python values and JSON

The values that a JSON body is parsed into, with the other objects that may stand beside them in a
dictionary of the program.  `PyValue.accepts` is whether a JSON encoder takes a value: it refuses
byte strings, integers outside 64 bits, strings that have no UTF-8 encoding, keys included, and
every object it does not know, wherever they stand in the value (`PyValue.accepts_iff`).  Encoders
also bound how deep a value nests (`PyValue.depth`).
-/

/-- A Python value. -/
inductive PyValue : Type
  | none
  | bool (b : Bool)
  | int (n : ℤ)
  /-- a float, by its `repr` -/
  | float (repr : String)
  | str (s : PyString)
  | bytes (b : Bytes)
  /-- a list or a tuple -/
  | list (items : List PyValue)
  /-- a dictionary whose keys are strings -/
  | dict (entries : List (PyString × PyValue))
  /-- any other object, such as an exception, by its `str` -/
  | object (text : PyString)

namespace PyValue

/-- A text as a value. -/
def text (s : String) : PyValue := .str (.ofString s)

/-- The integer fits in 64 bits, signed or unsigned. -/
def Fits (n : ℤ) : Prop := -2 ^ 63 ≤ n ∧ n < 2 ^ 64

instance (n : ℤ) : Decidable (Fits n) := inferInstanceAs (Decidable (-2 ^ 63 ≤ n ∧ n < 2 ^ 64))

mutual

/-- The encoder takes the value. -/
def accepts : PyValue → Bool
  | .none => true
  | .bool _ => true
  | .int n => decide (Fits n)
  | .float _ => true
  | .str s => decide s.Encodable
  | .bytes _ => false
  | .list items => acceptsItems items
  | .dict entries => acceptsEntries entries
  | .object _ => false

/-- The encoder takes the items of a list. -/
def acceptsItems : List PyValue → Bool
  | [] => true
  | v :: items => accepts v && acceptsItems items

/-- The encoder takes the entries of a dictionary. -/
def acceptsEntries : List (PyString × PyValue) → Bool
  | [] => true
  | e :: entries => acceptsEntry e && acceptsEntries entries

/-- The encoder takes an entry of a dictionary. -/
def acceptsEntry : PyString × PyValue → Bool
  | (key, v) => decide key.Encodable && accepts v

end

mutual

/-- How deep lists and dictionaries are nested in the value; empty ones do not count. -/
def depth : PyValue → ℕ
  | .list items => depthItems items
  | .dict entries => depthEntries entries
  | _ => 0

/-- How deep the items of a list are nested, with the list. -/
def depthItems : List PyValue → ℕ
  | [] => 0
  | v :: items => max (depth v + 1) (depthItems items)

/-- How deep the entries of a dictionary are nested, with the dictionary. -/
def depthEntries : List (PyString × PyValue) → ℕ
  | [] => 0
  | e :: entries => max (depthEntry e + 1) (depthEntries entries)

/-- How deep an entry of a dictionary is nested. -/
def depthEntry : PyString × PyValue → ℕ
  | (_, v) => depth v

end

/-- The value `v` stands in the value, at any depth; the keys of a dictionary stand in it. -/
inductive Within (v : PyValue) : PyValue → Prop
  | refl : Within v v
  | item {w : PyValue} {items : List PyValue} (hw : w ∈ items) (h : Within v w) :
      Within v (.list items)
  | entry {key : PyString} {w : PyValue} {entries : List (PyString × PyValue)}
      (hw : (key, w) ∈ entries) (h : Within v w) : Within v (.dict entries)
  | key {key : PyString} {w : PyValue} {entries : List (PyString × PyValue)}
      (hw : (key, w) ∈ entries) (h : v = .str key) : Within v (.dict entries)

/-- A part of a part is a part. -/
theorem Within.trans {u v w : PyValue} (huv : u.Within v) (hvw : v.Within w) : u.Within w := by
  induction hvw with
  | refl => exact huv
  | item hmem _ ih => exact .item hmem ih
  | entry hmem _ ih => exact .entry hmem ih
  | key hmem hv =>
    subst hv
    cases huv with
    | refl => exact .key hmem rfl

/-- A value that the encoder refuses by itself. -/
def Refused : PyValue → Prop
  | .int n => ¬ Fits n
  | .str s => ¬ s.Encodable
  | .bytes _ => True
  | .object _ => True
  | _ => False

/-- An integer is encoded if it has 64 bits. -/
@[simp] theorem accepts_int {n : ℤ} : (int n).accepts = true ↔ Fits n := by
  rw [accepts, decide_eq_true_eq]

/-- A string is encoded if it has no surrogates. -/
@[simp] theorem accepts_str {s : PyString} : (str s).accepts = true ↔ s.Encodable := by
  rw [accepts, decide_eq_true_eq]

/-- An integer outside of 64 bits is refused by itself. -/
@[simp] theorem refused_int {n : ℤ} : (int n).Refused ↔ ¬ Fits n := by
  rw [Refused]

/-- A string with a surrogate is refused by itself. -/
@[simp] theorem refused_str {s : PyString} : (str s).Refused ↔ ¬ s.Encodable := by
  rw [Refused]

/-- The items of a list are encoded one by one. -/
theorem acceptsItems_iff {items : List PyValue} :
    acceptsItems items = true ↔ ∀ v ∈ items, accepts v = true := by
  induction items with
  | nil => simp [acceptsItems]
  | cons v items ih => simp [acceptsItems, ih]

/-- The entries of a dictionary are encoded one by one, with their keys. -/
theorem acceptsEntries_iff {entries : List (PyString × PyValue)} :
    acceptsEntries entries = true ↔
      ∀ key v, (key, v) ∈ entries → key.Encodable ∧ accepts v = true := by
  induction entries with
  | nil => simp [acceptsEntries]
  | cons e entries ih =>
    obtain ⟨key, v⟩ := e
    simp only [acceptsEntries, acceptsEntry, Bool.and_eq_true, decide_eq_true_eq, ih,
      List.mem_cons, Prod.mk.injEq]
    constructor
    · rintro ⟨hhead, htail⟩ key' v' (⟨rfl, rfl⟩ | hmem)
      · exact hhead
      · exact htail key' v' hmem
    · intro h
      exact ⟨h key v (.inl ⟨rfl, rfl⟩), fun key' v' hmem => h key' v' (.inr hmem)⟩

@[simp] theorem depth_none : none.depth = 0 := by
  rw [depth] <;> simp

@[simp] theorem depth_bool (b : Bool) : (bool b).depth = 0 := by
  rw [depth] <;> simp

@[simp] theorem depth_int (n : ℤ) : (int n).depth = 0 := by
  rw [depth] <;> simp

@[simp] theorem depth_str (s : PyString) : (str s).depth = 0 := by
  rw [depth] <;> simp

@[simp] theorem depth_text (s : String) : (text s).depth = 0 := depth_str _

/-- A list is one level deeper than its items. -/
theorem depth_list_le {items : List PyValue} {n : ℕ} :
    (list items).depth ≤ n ↔ ∀ v ∈ items, v.depth + 1 ≤ n := by
  rw [depth]
  induction items with
  | nil => simp [depthItems]
  | cons v items ih => simp [depthItems, ih]

/-- A dictionary is one level deeper than its values. -/
theorem depth_dict_le {entries : List (PyString × PyValue)} {n : ℕ} :
    (dict entries).depth ≤ n ↔ ∀ key v, (key, v) ∈ entries → v.depth + 1 ≤ n := by
  rw [depth]
  induction entries with
  | nil => simp [depthEntries]
  | cons e entries ih =>
    obtain ⟨key, v⟩ := e
    simp only [depthEntries, depthEntry, sup_le_iff, ih, List.mem_cons, Prod.mk.injEq]
    constructor
    · rintro ⟨hhead, htail⟩ key' v' (⟨rfl, rfl⟩ | hmem)
      · exact hhead
      · exact htail key' v' hmem
    · intro h
      exact ⟨h key v (.inl ⟨rfl, rfl⟩), fun key' v' hmem => h key' v' (.inr hmem)⟩

/-- What stands in a value is not nested deeper than the value. -/
theorem Within.depth_le {v w : PyValue} (h : v.Within w) : v.depth ≤ w.depth := by
  induction h with
  | refl => exact le_rfl
  | item hmem _ ih =>
    have hdepth := depth_list_le.mp le_rfl _ hmem
    omega
  | entry hmem _ ih =>
    have hdepth := depth_dict_le.mp le_rfl _ _ hmem
    omega
  | key hmem hv =>
    rw [hv, depth]
    exact Nat.zero_le _

/-- What stands in an accepted value is not refused. -/
theorem not_refused_of_accepts {v w : PyValue} (hw : v.Within w) (h : w.accepts = true) :
    ¬ v.Refused := by
  induction hw with
  | refl =>
    intro href
    cases v with
    | int n => exact refused_int.mp href (accepts_int.mp h)
    | str s => exact refused_str.mp href (accepts_str.mp h)
    | bytes b => cases h
    | object t => cases h
    | _ => exact href.elim
  | item hmem _ ih => exact ih (acceptsItems_iff.mp h _ hmem)
  | entry hmem _ ih => exact ih (acceptsEntries_iff.mp h _ _ hmem).2
  | key hmem hv =>
    subst hv
    rw [refused_str, not_not]
    exact (acceptsEntries_iff.mp h _ _ hmem).1

mutual

/-- A value in which nothing is refused is accepted. -/
theorem accepts_of_within : ∀ w : PyValue, (∀ v : PyValue, v.Within w → ¬ v.Refused) →
    w.accepts = true
  | .none, _ => rfl
  | .bool _, _ => rfl
  | .int _, h => accepts_int.mpr (not_not.mp (mt refused_int.mpr (h _ .refl)))
  | .float _, _ => rfl
  | .str _, h => accepts_str.mpr (not_not.mp (mt refused_str.mpr (h _ .refl)))
  | .bytes _, h => (h _ .refl trivial).elim
  | .list items, h => acceptsItems_of_within items fun _ hw v hv => h v (.item hw hv)
  | .dict entries, h =>
    acceptsEntries_of_within entries
      (fun key _ hw => not_not.mp (mt refused_str.mpr (h (.str key) (.key hw rfl))))
      fun _ _ hw v hv => h v (.entry hw hv)
  | .object _, h => (h _ .refl trivial).elim

/-- Items without a refused part are encoded. -/
theorem acceptsItems_of_within : ∀ items : List PyValue,
    (∀ w ∈ items, ∀ v : PyValue, v.Within w → ¬ v.Refused) → acceptsItems items = true
  | [], _ => rfl
  | w :: items, h => by
    rw [acceptsItems, Bool.and_eq_true]
    exact ⟨accepts_of_within w fun v hv => h w (List.mem_cons_self ..) v hv,
      acceptsItems_of_within items fun w' hw' => h w' (List.mem_cons_of_mem _ hw')⟩

/-- Entries without a refused part are encoded. -/
theorem acceptsEntries_of_within : ∀ entries : List (PyString × PyValue),
    (∀ key w, (key, w) ∈ entries → key.Encodable) →
    (∀ key w, (key, w) ∈ entries → ∀ v : PyValue, v.Within w → ¬ v.Refused) →
      acceptsEntries entries = true
  | [], _, _ => rfl
  | (key, w) :: entries, hkeys, h => by
    rw [acceptsEntries, acceptsEntry, Bool.and_eq_true, Bool.and_eq_true, decide_eq_true_eq]
    exact ⟨⟨hkeys key w (List.mem_cons_self ..),
      accepts_of_within w fun v hv => h key w (List.mem_cons_self ..) v hv⟩,
      acceptsEntries_of_within entries
        (fun key' w' hw' => hkeys key' w' (List.mem_cons_of_mem _ hw'))
        fun key' w' hw' => h key' w' (List.mem_cons_of_mem _ hw')⟩

end

/-- The encoder takes a value exactly when it refuses nothing that stands in it. -/
theorem accepts_iff {w : PyValue} : w.accepts = true ↔ ∀ v : PyValue, v.Within w → ¬ v.Refused :=
  ⟨fun h _ hv => not_refused_of_accepts hv h, accepts_of_within w⟩

end PyValue
