import SampleAuthApi.Foundation.Text

/-!
# JSON texts

`dumps` and `loads` with the defaults of Python's `json`: `dumps` writes ASCII with the separators
`", "` and `": "` and escapes a code point above `0xFFFF` as a surrogate pair; `loads` is the strict
reader, which joins escaped surrogate pairs and keeps the last of several entries of one name.
Numbers with a fraction or an exponent, `NaN` and `Infinity` are left out: `dumps` has no value for
them and `loads` refuses them.

Not every string survives the pair: a high surrogate directly followed by a low one comes back as
one code point.  `loads_dumps` is the round trip of all other values.
-/

/-- A value that JSON can hold; the entries of an object are in insertion order. -/
inductive Json
  | null
  | bool (b : Bool)
  | int (n : ℤ)
  | str (s : PyString)
  | arr (vs : List Json)
  | obj (fs : List (PyString × Json))

namespace Json

/-- A code point. -/
abbrev Point : Type := Fin 0x110000

/-! ## Writing -/

/-- Four lower-case hexadecimal digits. -/
def hex4 (n : ℕ) : List Char :=
  [Nat.digitChar (n / 4096 % 16), Nat.digitChar (n / 256 % 16), Nat.digitChar (n / 16 % 16),
    Nat.digitChar (n % 16)]

/-- The escape of one UTF-16 code unit. -/
def escapeUnit (n : ℕ) : List Char := '\\' :: 'u' :: hex4 n

/-- The first code unit of a code point above `0xFFFF`. -/
def high (n : ℕ) : ℕ := 0xD800 + (n - 0x10000) / 0x400

/-- The second code unit of a code point above `0xFFFF`. -/
def low (n : ℕ) : ℕ := 0xDC00 + (n - 0x10000) % 0x400

/-- The characters that have an escape of their own. -/
def shortEscape (n : ℕ) : Option Char :=
  if n = 0x22 then some '"'
  else if n = 0x5C then some '\\'
  else if n = 0x08 then some 'b'
  else if n = 0x0C then some 'f'
  else if n = 0x0A then some 'n'
  else if n = 0x0D then some 'r'
  else if n = 0x09 then some 't'
  else none

/-- One code point inside a string. -/
def escape (n : ℕ) : List Char :=
  match shortEscape n with
  | some c => ['\\', c]
  | none =>
    if 0x20 ≤ n ∧ n ≤ 0x7E then [Char.ofNat n]
    else if n < 0x10000 then escapeUnit n
    else escapeUnit (high n) ++ escapeUnit (low n)

/-- A string without its opening quote. -/
def closeString (ps : List Point) : List Char := ps.flatMap (escape ·.val) ++ ['"']

/-- The digits of an integer. -/
def dumpsInt (n : ℤ) : List Char :=
  if n < 0 then '-' :: Nat.toDigits 10 n.natAbs else Nat.toDigits 10 n.natAbs

mutual

/-- `json.dumps`. -/
def dumps : Json → List Char
  | .null => ['n', 'u', 'l', 'l']
  | .bool true => ['t', 'r', 'u', 'e']
  | .bool false => ['f', 'a', 'l', 's', 'e']
  | .int n => dumpsInt n
  | .str s => '"' :: closeString s.points
  | .arr [] => ['[', ']']
  | .arr (v :: vs) => '[' :: (dumps v ++ dumpsItems vs)
  | .obj [] => ['{', '}']
  | .obj ((k, v) :: fs) =>
    '{' :: '"' :: (closeString k.points ++ ':' :: ' ' :: (dumps v ++ dumpsEntries fs))

/-- The rest of an array. -/
def dumpsItems : List Json → List Char
  | [] => [']']
  | v :: vs => ',' :: ' ' :: (dumps v ++ dumpsItems vs)

/-- The rest of an object. -/
def dumpsEntries : List (PyString × Json) → List Char
  | [] => ['}']
  | (k, v) :: fs =>
    ',' :: ' ' :: '"' :: (closeString k.points ++ ':' :: ' ' :: (dumps v ++ dumpsEntries fs))

end

/-! ## Reading -/

/-- A hexadecimal digit of either case. -/
def hexDigit (c : Char) : Option ℕ :=
  if '0' ≤ c ∧ c ≤ '9' then some (c.toNat - 0x30)
  else if 'a' ≤ c ∧ c ≤ 'f' then some (c.toNat - 0x57)
  else if 'A' ≤ c ∧ c ≤ 'F' then some (c.toNat - 0x37)
  else none

/-- Four hexadecimal digits. -/
def hexUnit (a b c d : Char) : Option Point := do
  let a ← hexDigit a
  let b ← hexDigit b
  let c ← hexDigit c
  let d ← hexDigit d
  some (Fin.ofNat 0x110000 (a * 4096 + b * 256 + c * 16 + d))

/-- What a backslash and one character stand for. -/
def unescape : Char → Option Point
  | '"' => some 0x22
  | '\\' => some 0x5C
  | '/' => some 0x2F
  | 'b' => some 0x08
  | 'f' => some 0x0C
  | 'n' => some 0x0A
  | 'r' => some 0x0D
  | 't' => some 0x09
  | _ => none

/-- `scanstring` up to the closing quote, with each `\u` escape as it stands. -/
def scan : List Char → Option (List Point × List Char)
  | [] => none
  | '"' :: cs => some ([], cs)
  | '\\' :: 'u' :: a :: b :: c :: d :: cs =>
    (hexUnit a b c d).bind fun p => (scan cs).map fun (ps, rest) => (p :: ps, rest)
  | '\\' :: c :: cs => (unescape c).bind fun p => (scan cs).map fun (ps, rest) => (p :: ps, rest)
  | c :: cs =>
    if c.toNat < 0x20 then none
    else (scan cs).map fun (ps, rest) => (PyString.point c :: ps, rest)

/-- The code unit is the first of a pair. -/
def IsHigh (p : Point) : Prop := 0xD800 ≤ p.val ∧ p.val ≤ 0xDBFF

/-- The code unit is the second of a pair. -/
def IsLow (p : Point) : Prop := 0xDC00 ≤ p.val ∧ p.val ≤ 0xDFFF

instance (p : Point) : Decidable (IsHigh p) :=
  inferInstanceAs (Decidable (0xD800 ≤ p.val ∧ p.val ≤ 0xDBFF))

instance (p : Point) : Decidable (IsLow p) :=
  inferInstanceAs (Decidable (0xDC00 ≤ p.val ∧ p.val ≤ 0xDFFF))

/-- The code points of a list of code units. -/
def join : List Point → List Point
  | p :: q :: ps =>
    if IsHigh p ∧ IsLow q then
      Fin.ofNat 0x110000 (0x10000 + (p.val - 0xD800) * 0x400 + (q.val - 0xDC00)) :: join ps
    else p :: join (q :: ps)
  | ps => ps

/-- A string without its opening quote. -/
def openString (cs : List Char) : Option (PyString × List Char) :=
  (scan cs).map fun (ps, rest) => (⟨join ps⟩, rest)

/-- White space. -/
def isSpace (c : Char) : Bool := c = ' ' || c = '\t' || c = '\n' || c = '\r'

/-- The text after white space. -/
def skip (cs : List Char) : List Char := cs.dropWhile isSpace

/-- A number without sign: a zero, or digits of which the first is not zero. -/
def natural : List Char → Option (ℕ × List Char)
  | [] => none
  | '0' :: cs => some (0, cs)
  | c :: cs =>
    if c.isDigit then
      some (Nat.ofDigitChars 10 ((c :: cs).takeWhile Char.isDigit) 0,
        (c :: cs).dropWhile Char.isDigit)
    else none

/-- `dict` on a list of entries: the last entry of a name gives its value, the first its place. -/
def setEntry (fs : List (PyString × Json)) (k : PyString) (v : Json) : List (PyString × Json) :=
  if fs.any fun f => f.1 = k then fs.map fun f => if f.1 = k then (k, v) else f else fs ++ [(k, v)]

/-- `dict` on a list of entries. -/
def dict (fs : List (PyString × Json)) : List (PyString × Json) :=
  fs.foldl (fun d f => setEntry d f.1 f.2) []

mutual

/-- `scan_once`, with a bound for the depth of the recursion. -/
def value : ℕ → List Char → Option (Json × List Char)
  | 0, _ => none
  | n + 1, cs =>
    match cs with
    | '"' :: cs => (openString cs).map fun (s, rest) => (.str s, rest)
    | '{' :: cs =>
      match skip cs with
      | '}' :: rest => some (.obj [], rest)
      | cs => (entries n cs).map fun (fs, rest) => (.obj (dict fs), rest)
    | '[' :: cs =>
      match skip cs with
      | ']' :: rest => some (.arr [], rest)
      | cs => (items n cs).map fun (vs, rest) => (.arr vs, rest)
    | 'n' :: 'u' :: 'l' :: 'l' :: rest => some (.null, rest)
    | 't' :: 'r' :: 'u' :: 'e' :: rest => some (.bool true, rest)
    | 'f' :: 'a' :: 'l' :: 's' :: 'e' :: rest => some (.bool false, rest)
    | '-' :: cs => (natural cs).map fun (m, rest) => (.int (-m), rest)
    | cs => (natural cs).map fun (m, rest) => (.int m, rest)

/-- The items of an array, of which there is at least one. -/
def items : ℕ → List Char → Option (List Json × List Char)
  | 0, _ => none
  | n + 1, cs =>
    (value n cs).bind fun (v, rest) =>
      match skip rest with
      | ']' :: rest => some ([v], rest)
      | ',' :: rest => (items n (skip rest)).map fun (vs, rest) => (v :: vs, rest)
      | _ => none

/-- The entries of an object, of which there is at least one. -/
def entries : ℕ → List Char → Option (List (PyString × Json) × List Char)
  | 0, _ => none
  | n + 1, cs =>
    match cs with
    | '"' :: cs =>
      (openString cs).bind fun (k, rest) =>
        match skip rest with
        | ':' :: rest =>
          (value n (skip rest)).bind fun (v, rest) =>
            match skip rest with
            | '}' :: rest => some ([(k, v)], rest)
            | ',' :: rest => (entries n (skip rest)).map fun (fs, rest) => ((k, v) :: fs, rest)
            | _ => none
        | _ => none
    | _ => none

end

/-- `json.loads`. -/
def loads (cs : List Char) : Option Json :=
  (value (2 * cs.length + 1) (skip cs)).bind fun (v, rest) =>
    if skip rest = [] then some v else none

/-! ## Strings -/

/-- A hexadecimal digit is read as what it was written for. -/
lemma hexDigit_digitChar {d : ℕ} (h : d < 16) : hexDigit (Nat.digitChar d) = some d := by
  revert d
  decide

/-- Four digits are read as the number that they were written for. -/
lemma hexUnit_hex4 {n : ℕ} (h : n < 0x10000) :
    hexUnit (Nat.digitChar (n / 4096 % 16)) (Nat.digitChar (n / 256 % 16))
      (Nat.digitChar (n / 16 % 16)) (Nat.digitChar (n % 16)) = some (Fin.ofNat 0x110000 n) := by
  have hd : ∀ m, hexDigit (Nat.digitChar (m % 16)) = some (m % 16) := fun m =>
    hexDigit_digitChar (Nat.mod_lt m (by decide))
  have hn : n / 4096 % 16 * 4096 + n / 256 % 16 * 256 + n / 16 % 16 * 16 + n % 16 = n := by omega
  simp only [hexUnit, hd, Option.bind_eq_bind, Option.bind_some, hn]

/-- `\u` with four digits is scanned as its code unit. -/
lemma scan_escapeUnit {n : ℕ} (h : n < 0x10000) (cs : List Char) :
    scan (escapeUnit n ++ cs) =
      (scan cs).map fun (ps, rest) => (Fin.ofNat 0x110000 n :: ps, rest) := by
  simp only [escapeUnit, hex4, List.cons_append, List.nil_append, scan]
  rw [hexUnit_hex4 h, Option.bind_some]

/-- The code units of a code point. -/
def units (p : Point) : List Point :=
  if p.val < 0x10000 then [p] else [Fin.ofNat _ (high p.val), Fin.ofNat _ (low p.val)]

/-- A short escape is scanned as its code point. -/
lemma scan_short {n : ℕ} {c : Char} (h : shortEscape n = some c) (cs : List Char) :
    scan ('\\' :: c :: cs) =
      (scan cs).map fun (ps, rest) => (Fin.ofNat 0x110000 n :: ps, rest) := by
  unfold shortEscape at h
  split_ifs at h <;> cases h <;> subst n <;> rfl

/-- A character that needs no escape is scanned as itself. -/
lemma scan_plain {c : Char} (hlow : 0x20 ≤ c.toNat) (hquote : c ≠ '"') (hback : c ≠ '\\')
    (cs : List Char) :
    scan (c :: cs) = (scan cs).map fun (ps, rest) => (PyString.point c :: ps, rest) := by
  rw [scan, if_neg (by omega)]
  all_goals simp_all


/-- A number below the surrogates is the code of its character. -/
lemma toNat_ofNat {n : ℕ} (h : n < 0xD800) : (Char.ofNat n).toNat = n := by
  rw [Char.ofNat, dif_pos (Or.inl h)]
  rfl

lemma fin_ofNat_val (p : Point) : Fin.ofNat 0x110000 p.val = p :=
  Fin.ext (Nat.mod_eq_of_lt p.isLt)

/-- A written code point is read as its code units. -/
lemma scan_escape (p : Point) (cs : List Char) :
    scan (escape p.val ++ cs) = (scan cs).map fun (ps, rest) => (units p ++ ps, rest) := by
  unfold escape
  cases hs : shortEscape p.val with
  | some c =>
    have hp : units p = [p] := by
      unfold shortEscape at hs
      have hlt : p.val < 0x10000 := by
        split_ifs at hs <;> omega
      exact if_pos hlt
    simp only [List.cons_append, List.nil_append]
    rw [scan_short hs, fin_ofNat_val, hp]
    rfl
  | none =>
    split_ifs with hplain hunit
    · have hnat : (Char.ofNat p.val).toNat = p.val := toNat_ofNat (by omega)
      have hquote : Char.ofNat p.val ≠ '"' := fun h => by
        have hq : p.val = 0x22 := by rw [← hnat, h]; rfl
        simp [shortEscape, hq] at hs
      have hback : Char.ofNat p.val ≠ '\\' := fun h => by
        have hq : p.val = 0x5C := by rw [← hnat, h]; rfl
        simp [shortEscape, hq] at hs
      have hpoint : PyString.point (Char.ofNat p.val) = p := Fin.ext hnat
      rw [List.singleton_append, scan_plain (by omega) hquote hback, hpoint, units,
        if_pos (by omega)]
      rfl
    · rw [scan_escapeUnit hunit, fin_ofNat_val, units, if_pos hunit]
      rfl
    · have hlt := p.isLt
      rw [List.append_assoc, scan_escapeUnit (by unfold high; omega),
        scan_escapeUnit (by unfold low; omega), Option.map_map, units, if_neg hunit]
      rfl

/-- A written string is scanned as its code units. -/
lemma scan_closeString (ps : List Point) (cs : List Char) :
    scan (closeString ps ++ cs) = some (ps.flatMap units, cs) := by
  unfold closeString
  induction ps with
  | nil => rfl
  | cons p ps ih =>
    rw [List.flatMap_cons, List.append_assoc, List.append_assoc, scan_escape,
      ← List.append_assoc, ih, List.flatMap_cons]
    rfl

/-- No code unit that starts a pair is directly followed by one that ends a pair. -/
def Unpaired (ps : List Point) : Prop := ps.IsChain fun p q => ¬ (IsHigh p ∧ IsLow q)

/-- The code units of an unpaired string join to its code points. -/
lemma join_flatMap_units {ps : List Point} (h : Unpaired ps) : join (ps.flatMap units) = ps := by
  induction ps with
  | nil => rfl
  | cons p ps ih =>
    have hrest := ih h.tail
    rw [List.flatMap_cons]
    by_cases hp : p.val < 0x10000
    · rw [units, if_pos hp, List.singleton_append]
      cases ps with
      | nil => rfl
      | cons q ps =>
        rw [List.flatMap_cons] at hrest ⊢
        have hne : ¬ (IsHigh p ∧ IsLow q) := (List.isChain_cons_cons.mp h).1
        by_cases hq : q.val < 0x10000
        · rw [units, if_pos hq, List.singleton_append] at hrest ⊢
          rw [join, if_neg hne, hrest]
        · have hlow : ¬ (IsHigh p ∧ IsLow (Fin.ofNat _ (high q.val))) := by
            have hlt := q.isLt
            rintro ⟨-, hl⟩
            unfold IsLow high at hl
            rw [Fin.val_ofNat, Nat.mod_eq_of_lt (by omega)] at hl
            omega
          rw [units, if_neg hq, List.cons_append] at hrest ⊢
          rw [join, if_neg hlow, hrest]
    · have hlt := p.isLt
      have hhigh : (Fin.ofNat 0x110000 (high p.val)).val = high p.val :=
        Nat.mod_eq_of_lt (by unfold high; omega)
      have hlow : (Fin.ofNat 0x110000 (low p.val)).val = low p.val :=
        Nat.mod_eq_of_lt (by unfold low; omega)
      have hpair : IsHigh (Fin.ofNat 0x110000 (high p.val)) ∧
          IsLow (Fin.ofNat 0x110000 (low p.val)) := by
        unfold IsHigh IsLow
        rw [hhigh, hlow]
        unfold high low
        omega
      rw [units, if_neg hp, List.cons_append, List.singleton_append, join, if_pos hpair, hrest,
        hhigh, hlow]
      refine congrArg (· :: ps) (Fin.ext ?_)
      rw [Fin.val_ofNat]
      unfold high low
      omega

/-- The string with its closing quote is read back. -/
lemma openString_closeString {s : PyString} (h : Unpaired s.points) (cs : List Char) :
    openString (closeString s.points ++ cs) = some (s, cs) := by
  simp only [openString, scan_closeString, Option.map_some, join_flatMap_units h]

/-! ## Numbers -/

/-- The text does not go on with a digit. -/
def Stops (cs : List Char) : Prop := ∀ c ∈ cs.head?, c.isDigit = false

/-- The digits in front of something else are taken as a whole. -/
lemma takeWhile_digits {ds cs : List Char} (hds : ∀ c ∈ ds, c.isDigit) (hcs : Stops cs) :
    (ds ++ cs).takeWhile Char.isDigit = ds ∧ (ds ++ cs).dropWhile Char.isDigit = cs := by
  have hstop : cs.takeWhile Char.isDigit = [] ∧ cs.dropWhile Char.isDigit = cs := by
    cases cs with
    | nil => exact ⟨rfl, rfl⟩
    | cons c cs =>
      have hc : c.isDigit = false := hcs c rfl
      simp [hc]
  rw [List.takeWhile_append_of_pos hds, List.dropWhile_append_of_pos hds, hstop.1, hstop.2]
  simp

/-- A number has a first digit. -/
lemma exists_toDigits (m : ℕ) : ∃ c cs, Nat.toDigits 10 m = c :: cs ∧ c.isDigit := by
  obtain ⟨c, cs, hcs⟩ := List.exists_cons_of_ne_nil (Nat.toDigits_ne_nil (n := m) (b := 10))
  have hmem : c ∈ Nat.toDigits 10 m := by
    rw [hcs]
    exact List.mem_cons_self
  exact ⟨c, cs, hcs, Nat.isDigit_of_mem_toDigits (by decide) (by decide) hmem⟩

/-- The digits of a positive number do not start with a zero. -/
lemma head_toDigits {m : ℕ} (h : 0 < m) : ∃ c cs, Nat.toDigits 10 m = c :: cs ∧ c ≠ '0' := by
  induction m using Nat.strong_induction_on with
  | _ m ih =>
    by_cases hm : m < 10
    · have hall : ∀ d < 10, 0 < d → Nat.digitChar d ≠ '0' := by decide
      exact ⟨Nat.digitChar m, [], Nat.toDigits_of_lt_base hm, hall m hm h⟩
    · obtain ⟨c, cs, hcs, hc⟩ := ih (m / 10) (by omega) (by omega)
      exact ⟨c, cs ++ [Nat.digitChar (m % 10)],
        by rw [Nat.toDigits_of_base_le (by decide) (by omega), hcs, List.cons_append], hc⟩

/-- A number is read up to its last digit. -/
lemma natural_toDigits (m : ℕ) {cs : List Char} (h : Stops cs) :
    natural (Nat.toDigits 10 m ++ cs) = some (m, cs) := by
  rcases Nat.eq_zero_or_pos m with rfl | hm
  · rw [Nat.toDigits_zero]
    rfl
  · have hdigits : ∀ c ∈ Nat.toDigits 10 m, c.isDigit := fun c hc =>
      Nat.isDigit_of_mem_toDigits (by decide) (by decide) hc
    obtain ⟨htake, hdrop⟩ := takeWhile_digits hdigits h
    have hval := Nat.ofDigitChars_ten_toDigits (n := m)
    obtain ⟨c, ds, hds, hc⟩ := head_toDigits hm
    have hdigit : c.isDigit := hdigits c (by rw [hds]; exact List.mem_cons_self)
    rw [hds, List.cons_append] at htake hdrop ⊢
    rw [natural, if_pos hdigit, htake, hdrop, ← hds, hval]
    exact hc

/-! ## Values -/

mutual

/-- The strings are unpaired, and no object has two entries of one name. -/
def Proper : Json → Prop
  | .str s => Unpaired s.points
  | .arr vs => ProperItems vs
  | .obj fs => (fs.map Prod.fst).Nodup ∧ ProperEntries fs
  | _ => True

/-- `Proper`, for the items of an array. -/
def ProperItems : List Json → Prop
  | [] => True
  | v :: vs => Proper v ∧ ProperItems vs

/-- `Proper`, for the entries of an object. -/
def ProperEntries : List (PyString × Json) → Prop
  | [] => True
  | (k, v) :: fs => Unpaired k.points ∧ Proper v ∧ ProperEntries fs

end

/-- The value is read back from its text, whatever follows. -/
def Reads (v : Json) : Prop :=
  ∀ n rest, Stops rest → 2 * (dumps v ++ rest).length + 1 ≤ n →
    value n (dumps v ++ rest) = some (v, rest)

/-- The first character of a value is neither white space nor a closing bracket. -/
lemma head_dumps (v : Json) : ∃ c cs, dumps v = c :: cs ∧ isSpace c = false ∧ c ≠ ']' := by
  cases v with
  | null => exact ⟨_, _, rfl, rfl, by decide⟩
  | bool b => cases b <;> exact ⟨_, _, rfl, rfl, by decide⟩
  | int n =>
    by_cases hn : n < 0
    · exact ⟨'-', Nat.toDigits 10 n.natAbs, if_pos hn, rfl, by decide⟩
    · obtain ⟨c, cs, hcs, hc⟩ := exists_toDigits n.natAbs
      refine ⟨c, cs, (if_neg hn).trans hcs, ?_, ?_⟩
      · unfold isSpace
        simp only [Bool.or_eq_false_iff, decide_eq_false_iff_not]
        refine ⟨⟨⟨?_, ?_⟩, ?_⟩, ?_⟩ <;> rintro rfl <;> revert hc <;> decide
      · rintro rfl
        revert hc
        decide
  | str s => exact ⟨_, _, rfl, rfl, by decide⟩
  | arr vs => cases vs <;> exact ⟨_, _, rfl, rfl, by decide⟩
  | obj fs =>
    cases fs with
    | nil => exact ⟨_, _, rfl, rfl, by decide⟩
    | cons f fs => exact ⟨_, _, rfl, rfl, by decide⟩

/-- What is written starts with no space. -/
lemma skip_dumps (v : Json) (rest : List Char) : skip (dumps v ++ rest) = dumps v ++ rest := by
  obtain ⟨c, cs, hv, hc, -⟩ := head_dumps v
  rw [hv, List.cons_append, skip, List.dropWhile_cons_of_neg (by simp [hc])]

/-- A digit starts a number. -/
lemma value_digit {n : ℕ} {c : Char} (h : c.isDigit) (cs : List Char) :
    value (n + 1) (c :: cs) = (natural (c :: cs)).map fun (m, rest) => (.int m, rest) := by
  rw [value]
  all_goals
    rintro _ ⟨⟩
    revert h
    decide

/-- Integers are read back. -/
lemma reads_int (m : ℤ) : Reads (.int m) := by
  rintro (_ | n) rest hrest hn
  · omega
  · change value (n + 1) (dumpsInt m ++ rest) = _
    unfold dumpsInt
    split_ifs with hm
    · have hneg : -(m.natAbs : ℤ) = m := by omega
      simp only [List.cons_append, value, natural_toDigits _ hrest, Option.map_some, hneg]
    · have hpos : (m.natAbs : ℤ) = m := by omega
      obtain ⟨c, cs, hcs, hdigit⟩ := exists_toDigits m.natAbs
      have hread := natural_toDigits m.natAbs hrest
      rw [hcs, List.cons_append] at hread ⊢
      simp only [value_digit hdigit, hread, Option.map_some, hpos]

/-- No number goes on with a character that is no digit. -/
lemma stops_cons {c : Char} {cs : List Char} (h : c.isDigit = false) : Stops (c :: cs) := by
  intro d hd
  cases hd
  exact h

/-- No number goes on behind an item. -/
lemma stops_dumpsItems (vs : List Json) (rest : List Char) : Stops (dumpsItems vs ++ rest) := by
  cases vs <;> exact stops_cons rfl

/-- No number goes on behind an entry. -/
lemma stops_dumpsEntries (fs : List (PyString × Json)) (rest : List Char) :
    Stops (dumpsEntries fs ++ rest) := by
  cases fs <;> exact stops_cons rfl

/-- Only spaces are skipped. -/
lemma skip_cons {c : Char} (h : isSpace c = false) (cs : List Char) : skip (c :: cs) = c :: cs :=
  List.dropWhile_cons_of_neg (by simp [h])

/-- The items of an array are read back if each of them is. -/
lemma items_dumpsItems {v : Json} {vs : List Json} (hv : Reads v) (hvs : ∀ u ∈ vs, Reads u)
    {n : ℕ} {rest : List Char} (hn : 2 * (dumps v ++ (dumpsItems vs ++ rest)).length + 2 ≤ n) :
    items n (dumps v ++ (dumpsItems vs ++ rest)) = some (v :: vs, rest) := by
  induction vs generalizing v n with
  | nil =>
    obtain ⟨n, rfl⟩ : ∃ m, n = m + 1 := ⟨n - 1, by omega⟩
    rw [items, hv n _ (stops_dumpsItems _ _) (by omega), Option.bind_some]
    rfl
  | cons u vs ih =>
    obtain ⟨n, rfl⟩ : ∃ m, n = m + 1 := ⟨n - 1, by omega⟩
    have hu : Reads u := hvs u List.mem_cons_self
    have hrest : ∀ t ∈ vs, Reads t := fun t ht => hvs t (List.mem_cons_of_mem _ ht)
    have hskip : skip (' ' :: (dumps u ++ (dumpsItems vs ++ rest))) =
        dumps u ++ (dumpsItems vs ++ rest) := skip_dumps u _
    have hlen : 2 * (dumps u ++ (dumpsItems vs ++ rest)).length + 2 ≤ n := by
      simp only [dumpsItems, List.cons_append, List.append_assoc, List.length_append,
        List.length_cons] at hn ⊢
      omega
    rw [items, hv n _ (stops_dumpsItems _ _) (by omega), Option.bind_some]
    simp only [dumpsItems, List.cons_append, List.append_assoc]
    rw [skip_cons rfl]
    simp only [hskip, ih hu hrest hlen, Option.map_some]

/-- A list is read back if its items are. -/
lemma reads_arr {vs : List Json} (h : ∀ v ∈ vs, Reads v) : Reads (.arr vs) := by
  rintro (_ | n) rest hrest hn
  · omega
  · cases vs with
    | nil => rfl
    | cons v vs =>
      have hv : Reads v := h v List.mem_cons_self
      have hvs : ∀ u ∈ vs, Reads u := fun u hu => h u (List.mem_cons_of_mem _ hu)
      obtain ⟨c, cs, hc, -, hclose⟩ := head_dumps v
      simp only [dumps, List.cons_append, List.append_assoc, List.length_cons] at hn ⊢
      have hread : items n (dumps v ++ (dumpsItems vs ++ rest)) = some (v :: vs, rest) :=
        items_dumpsItems hv hvs (by omega)
      rw [value, skip_dumps]
      rw [hc, List.cons_append] at hread ⊢
      split
      · rename_i hd
        cases hd
        exact absurd rfl hclose
      · rw [hread, Option.map_some]

/-- The entries of an object are read back if their names are unpaired and their values are read
back. -/
lemma entries_dumpsEntries {k : PyString} {v : Json} {fs : List (PyString × Json)}
    (hk : Unpaired k.points) (hv : Reads v)
    (hfs : ∀ f ∈ fs, Unpaired f.1.points ∧ Reads f.2) {n : ℕ} {rest : List Char}
    (hn : 2 * (closeString k.points ++ ':' :: ' ' ::
      (dumps v ++ (dumpsEntries fs ++ rest))).length + 3 ≤ n) :
    entries n ('"' :: (closeString k.points ++ ':' :: ' ' ::
      (dumps v ++ (dumpsEntries fs ++ rest)))) = some ((k, v) :: fs, rest) := by
  induction fs generalizing k v n with
  | nil =>
    obtain ⟨n, rfl⟩ : ∃ m, n = m + 1 := ⟨n - 1, by omega⟩
    simp only [List.length_append, List.length_cons] at hn
    have hskip := skip_dumps v (dumpsEntries [] ++ rest)
    have hread := hv n (dumpsEntries [] ++ rest) (stops_dumpsEntries _ _)
      (by simp only [List.length_append]; omega)
    rw [entries, openString_closeString hk, Option.bind_some]
    change (value n (skip (dumps v ++ _))).bind _ = _
    rw [hskip, hread, Option.bind_some]
    rfl
  | cons f fs ih =>
    obtain ⟨n, rfl⟩ : ∃ m, n = m + 1 := ⟨n - 1, by omega⟩
    obtain ⟨k', v'⟩ := f
    obtain ⟨hk', hv'⟩ : Unpaired k'.points ∧ Reads v' := hfs (k', v') List.mem_cons_self
    have hrest : ∀ f ∈ fs, Unpaired f.1.points ∧ Reads f.2 :=
      fun f hf => hfs f (List.mem_cons_of_mem _ hf)
    simp only [dumpsEntries, List.length_append, List.length_cons] at hn
    have hskip := skip_dumps v (dumpsEntries ((k', v') :: fs) ++ rest)
    have hread := hv n (dumpsEntries ((k', v') :: fs) ++ rest) (stops_dumpsEntries _ _)
      (by simp only [dumpsEntries, List.length_append, List.length_cons]; omega)
    have hnext := ih hk' hv' hrest (n := n)
      (by simp only [List.length_append, List.length_cons]; omega)
    rw [entries, openString_closeString hk, Option.bind_some]
    change (value n (skip (dumps v ++ _))).bind _ = _
    rw [hskip, hread, Option.bind_some]
    simp only [dumpsEntries, List.cons_append, List.append_assoc]
    rw [skip_cons rfl]
    change (entries n (skip ('"' :: _))).map _ = _
    rw [skip_cons rfl, hnext, Option.map_some]

/-- Entries of different names make up an object as they are. -/
lemma dict_of_nodup {fs : List (PyString × Json)} (h : (fs.map Prod.fst).Nodup) : dict fs = fs := by
  have hgen : ∀ d : List (PyString × Json), ((d ++ fs).map Prod.fst).Nodup →
      fs.foldl (fun d f => setEntry d f.1 f.2) d = d ++ fs := by
    clear h
    induction fs with
    | nil => simp
    | cons f fs ih =>
      intro d hd
      have hnew : setEntry d f.1 f.2 = d ++ [f] := by
        refine if_neg fun hany => ?_
        obtain ⟨g, hg, hgf⟩ := List.any_eq_true.mp hany
        rw [List.map_append, List.map_cons, List.nodup_append] at hd
        exact hd.2.2 _ (List.mem_map_of_mem hg) _ List.mem_cons_self (by simpa using hgf)
      rw [List.foldl_cons, hnew, ih _ (by simpa using hd)]
      simp
  exact hgen [] (by simpa using h)

/-- A dictionary with distinct keys is read back if its values are. -/
lemma reads_obj {fs : List (PyString × Json)} (hdistinct : (fs.map Prod.fst).Nodup)
    (h : ∀ f ∈ fs, Unpaired f.1.points ∧ Reads f.2) : Reads (.obj fs) := by
  rintro (_ | n) rest hrest hn
  · omega
  · cases fs with
    | nil => rfl
    | cons f fs =>
      obtain ⟨k, v⟩ := f
      obtain ⟨hk, hv⟩ : Unpaired k.points ∧ Reads v := h (k, v) List.mem_cons_self
      have hfs : ∀ f ∈ fs, Unpaired f.1.points ∧ Reads f.2 :=
        fun f hf => h f (List.mem_cons_of_mem _ hf)
      simp only [dumps, List.cons_append, List.append_assoc, List.length_cons] at hn ⊢
      have hread : entries n ('"' :: (closeString k.points ++ ':' :: ' ' ::
          (dumps v ++ (dumpsEntries fs ++ rest)))) = some ((k, v) :: fs, rest) :=
        entries_dumpsEntries hk hv hfs (by omega)
      rw [value, skip_cons rfl]
      split
      · rename_i hd
        cases hd
      · simp only [hread, Option.map_some, dict_of_nodup hdistinct]

mutual

/-- Every proper value is read back. -/
theorem reads : ∀ v, Proper v → Reads v
  | .null, _ => by rintro (_ | n) rest - hn <;> first | omega | rfl
  | .bool true, _ => by rintro (_ | n) rest - hn <;> first | omega | rfl
  | .bool false, _ => by rintro (_ | n) rest - hn <;> first | omega | rfl
  | .int m, _ => reads_int m
  | .str s, h => by
    rintro (_ | n) rest - hn
    · omega
    · simp only [dumps, List.cons_append, value, openString_closeString (s := s) h, Option.map_some]
  | .arr vs, h => reads_arr (reads_items vs h)
  | .obj fs, h => reads_obj h.1 (reads_entries fs h.2)

/-- The items of a proper list are read back. -/
theorem reads_items : ∀ vs, ProperItems vs → ∀ v ∈ vs, Reads v
  | [], _ => by simp
  | v :: vs, h => List.forall_mem_cons.mpr ⟨reads v h.1, reads_items vs h.2⟩

/-- The entries of a proper dictionary are read back. -/
theorem reads_entries : ∀ fs, ProperEntries fs → ∀ f ∈ fs, Unpaired f.1.points ∧ Reads f.2
  | [], _ => by simp
  | (_, v) :: fs, h => List.forall_mem_cons.mpr ⟨⟨h.1, reads v h.2.1⟩, reads_entries fs h.2.2⟩

end

/-- `json.loads` undoes `json.dumps`. -/
theorem loads_dumps {v : Json} (h : Proper v) : loads (dumps v) = some v := by
  have hskip := skip_dumps v []
  have hread := reads v h (2 * (dumps v).length + 1) [] (by simp [Stops]) (by simp)
  rw [List.append_nil] at hskip hread
  rw [loads, hskip, hread, Option.bind_some]
  rfl

/-! ## ASCII -/

/-- The text is ASCII. -/
def Ascii (cs : List Char) : Prop := ∀ c ∈ cs, c.toNat < 128

@[simp] theorem ascii_nil : Ascii [] := by simp [Ascii]

@[simp] theorem ascii_cons {c : Char} {cs : List Char} :
    Ascii (c :: cs) ↔ c.toNat < 128 ∧ Ascii cs := List.forall_mem_cons

@[simp] theorem ascii_append {cs ds : List Char} : Ascii (cs ++ ds) ↔ Ascii cs ∧ Ascii ds :=
  List.forall_mem_append

/-- An escape is ASCII. -/
lemma ascii_escapeUnit (n : ℕ) : Ascii (escapeUnit n) := by
  have hdigit : ∀ d < 16, (Nat.digitChar d).toNat < 128 := by decide
  simp only [escapeUnit, hex4, ascii_cons, ascii_nil, and_true]
  exact ⟨by decide, by decide, hdigit _ (Nat.mod_lt _ (by decide)),
    hdigit _ (Nat.mod_lt _ (by decide)), hdigit _ (Nat.mod_lt _ (by decide)),
    hdigit _ (Nat.mod_lt _ (by decide))⟩

/-- Every code point is written in ASCII. -/
lemma ascii_escape (n : ℕ) : Ascii (escape n) := by
  unfold escape
  cases hs : shortEscape n with
  | some c =>
    have hc : c.toNat < 128 := by
      unfold shortEscape at hs
      split_ifs at hs <;> cases hs <;> decide
    simp only [ascii_cons, ascii_nil, and_true]
    exact ⟨by decide, hc⟩
  | none =>
    split_ifs with hplain
    · have hnat : (Char.ofNat n).toNat = n := toNat_ofNat (by omega)
      simp only [ascii_cons, ascii_nil, and_true]
      omega
    · exact ascii_escapeUnit n
    · exact ascii_append.mpr ⟨ascii_escapeUnit _, ascii_escapeUnit _⟩

/-- A string is written in ASCII. -/
lemma ascii_closeString (ps : List Point) : Ascii (closeString ps) := by
  refine ascii_append.mpr ⟨fun c hc => ?_, by simp⟩
  obtain ⟨p, -, hp⟩ := List.mem_flatMap.mp hc
  exact ascii_escape p.val c hp

/-- An integer is written in ASCII. -/
lemma ascii_dumpsInt (n : ℤ) : Ascii (dumpsInt n) := by
  have hdigits : Ascii (Nat.toDigits 10 n.natAbs) := fun c hc => by
    have hdigit : c.isDigit := Nat.isDigit_of_mem_toDigits (by decide) (by decide) hc
    exact lt_of_le_of_lt (Char.isDigit_iff_toNat.mp hdigit).2 (by decide)
  unfold dumpsInt
  split
  · exact ascii_cons.mpr ⟨by decide, hdigits⟩
  · exact hdigits

mutual

/-- `json.dumps` writes ASCII. -/
theorem ascii_dumps : ∀ v, Ascii (dumps v)
  | .null => by simp [dumps]
  | .bool true => by simp [dumps]
  | .bool false => by simp [dumps]
  | .int n => ascii_dumpsInt n
  | .str s => ascii_cons.mpr ⟨by decide, ascii_closeString _⟩
  | .arr [] => by simp [dumps]
  | .arr (v :: vs) => by
    simp only [dumps, ascii_cons, ascii_append]
    exact ⟨by decide, ascii_dumps v, ascii_dumpsItems vs⟩
  | .obj [] => by simp [dumps]
  | .obj ((k, v) :: fs) => by
    simp only [dumps, ascii_cons, ascii_append]
    exact ⟨by decide, by decide, ascii_closeString _, by decide, by decide, ascii_dumps v,
      ascii_dumpsEntries fs⟩

/-- The items of a list are written in ASCII. -/
theorem ascii_dumpsItems : ∀ vs, Ascii (dumpsItems vs)
  | [] => by simp [dumpsItems]
  | v :: vs => by
    simp only [dumpsItems, ascii_cons, ascii_append]
    exact ⟨by decide, by decide, ascii_dumps v, ascii_dumpsItems vs⟩

/-- The entries of a dictionary are written in ASCII. -/
theorem ascii_dumpsEntries : ∀ fs, Ascii (dumpsEntries fs)
  | [] => by simp [dumpsEntries]
  | (k, v) :: fs => by
    simp only [dumpsEntries, ascii_cons, ascii_append]
    exact ⟨by decide, by decide, by decide, ascii_closeString _, by decide, by decide,
      ascii_dumps v, ascii_dumpsEntries fs⟩

end

/-- The text of a string is unpaired. -/
theorem unpaired_ofString (s : String) : Unpaired (PyString.ofString s).points := by
  refine List.Pairwise.isChain (List.pairwise_of_forall_mem_list fun p hp q _ hpq => ?_)
  obtain ⟨c, -, rfl⟩ := List.mem_map.mp hp
  refine PyString.not_isSurrogate_point c ?_
  obtain ⟨⟨hlow, hhigh⟩, -⟩ := hpq
  exact ⟨hlow, by omega⟩

end Json
