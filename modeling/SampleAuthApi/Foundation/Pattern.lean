import Mathlib.Data.List.Basic

/-!
# Patterns

Regular expressions over texts, with character classes, bounded repetition and the two anchors, and
what it means that a pattern matches at the beginning of a text.  Without the flag for lines `$`
matches at the end of the text and before a line feed at the end.
-/

/-- A relation between what has been read, what is read and what is left of a text. -/
abbrev Reads : Type := List Char → List Char → List Char → Prop

/-- One relation after another. -/
def Reads.seq (r r' : Reads) : Reads := fun before taken after =>
  ∃ first second, taken = first ++ second ∧ r before first (second ++ after) ∧
    r' (before ++ first) second after

/-- A relation `n` times. -/
def Reads.times (r : Reads) : ℕ → Reads
  | 0 => fun _ taken _ => taken = []
  | n + 1 => r.seq (r.times n)

/-- A regular expression. -/
inductive TextPattern
  /-- One character of a class. -/
  | oneOf (p : Char → Bool)
  /-- `pq`. -/
  | seq (p q : TextPattern)
  /-- `p{lo,hi}`. -/
  | between (lo hi : ℕ) (p : TextPattern)
  /-- `^`. -/
  | start
  /-- `$`. -/
  | stop

namespace TextPattern

/-- What a pattern reads. -/
def reads : TextPattern → Reads
  | oneOf p => fun _ taken _ => ∃ c, taken = [c] ∧ p c = true
  | seq p q => p.reads.seq q.reads
  | between lo hi p => fun before taken after =>
    ∃ n, lo ≤ n ∧ n ≤ hi ∧ p.reads.times n before taken after
  | start => fun before taken _ => before = [] ∧ taken = []
  | stop => fun _ taken after => taken = [] ∧ (after = [] ∨ after = ['\n'])

/-- `re.match`: the pattern reads a prefix of the text. -/
def MatchesPrefix (p : TextPattern) (text : List Char) : Prop :=
  ∃ taken after, text = taken ++ after ∧ p.reads [] taken after

variable {p : Char → Bool} {q : TextPattern} {before taken after : List Char}

/-- Nothing is read before the beginning. -/
theorem reads_start_seq : (seq start q).reads [] taken after ↔ q.reads [] taken after := by
  constructor
  · rintro ⟨first, second, rfl, ⟨-, rfl⟩, h⟩
    exact h
  · intro h
    exact ⟨[], taken, rfl, ⟨rfl, rfl⟩, h⟩

/-- A class reads one character of what is read. -/
theorem reads_oneOf_seq : (seq (oneOf p) q).reads before taken after ↔
    ∃ c rest, taken = c :: rest ∧ p c = true ∧ q.reads (before ++ [c]) rest after := by
  constructor
  · rintro ⟨first, second, rfl, ⟨c, rfl, hc⟩, h⟩
    exact ⟨c, second, rfl, hc, h⟩
  · rintro ⟨c, rest, rfl, hc, h⟩
    exact ⟨[c], rest, rfl, ⟨c, rfl, hc⟩, h⟩

/-- What a pattern reads before the end. -/
theorem reads_seq_stop : (seq q stop).reads before taken after ↔
    q.reads before taken after ∧ (after = [] ∨ after = ['\n']) := by
  constructor
  · rintro ⟨first, second, rfl, h, rfl, hend⟩
    rw [List.append_nil]
    exact ⟨h, hend⟩
  · rintro ⟨h, hend⟩
    exact ⟨taken, [], (List.append_nil taken).symm, h, rfl, hend⟩

/-- A class read `n` times reads `n` characters of it. -/
theorem times_oneOf (n : ℕ) : (oneOf p).reads.times n before taken after ↔
    taken.length = n ∧ ∀ c ∈ taken, p c = true := by
  induction n generalizing before taken with
  | zero =>
    change taken = [] ↔ _
    rw [List.length_eq_zero_iff]
    constructor
    · rintro rfl
      exact ⟨rfl, fun c hc => absurd hc List.not_mem_nil⟩
    · rintro ⟨hnil, -⟩
      exact hnil
  | succ n ih =>
    constructor
    · rintro ⟨first, second, rfl, ⟨c, rfl, hc⟩, h⟩
      obtain ⟨hlength, hall⟩ := ih.mp h
      refine ⟨by simp [hlength], fun d hd => ?_⟩
      rcases List.mem_cons.mp hd with rfl | hd
      · exact hc
      · exact hall d hd
    · rintro ⟨hlength, hall⟩
      obtain ⟨c, rest, rfl⟩ := List.exists_cons_of_length_eq_add_one hlength
      have hrest : rest.length = n := by simpa using hlength
      refine ⟨[c], rest, rfl, ⟨c, rfl, hall c List.mem_cons_self⟩, ih.mpr ⟨hrest, ?_⟩⟩
      exact fun d hd => hall d (List.mem_cons_of_mem c hd)

/-- A class in a bounded repetition. -/
theorem reads_between_oneOf {lo hi : ℕ} : (between lo hi (oneOf p)).reads before taken after ↔
    lo ≤ taken.length ∧ taken.length ≤ hi ∧ ∀ c ∈ taken, p c = true := by
  constructor
  · rintro ⟨n, hlo, hhi, h⟩
    obtain ⟨rfl, hall⟩ := (times_oneOf n).mp h
    exact ⟨hlo, hhi, hall⟩
  · rintro ⟨hlo, hhi, hall⟩
    exact ⟨taken.length, hlo, hhi, (times_oneOf _).mpr ⟨rfl, hall⟩⟩

end TextPattern
