import SampleAuthApi.Foundation.Text

/-!
# Request paths

Percent-encoding of byte strings, and path patterns: a list of literal texts and of segments, each
of which matches one or more characters other than `/`.  Decoding inverts encoding
(`Percent.decode_encode`), and a pattern that ends in a segment captures exactly the texts that are
not empty and contain no `/` (`PathPattern.matchPath_literal_segment`).
-/

namespace Percent

/-- The byte of `%`. -/
def percent : UInt8 := 0x25

/-- The upper-case hexadecimal digit of a number below 16. -/
def hexDigit (n : UInt8) : UInt8 := if n < 10 then 0x30 + n else 0x37 + n

/-- The value of a hexadecimal digit. -/
def hexValue (b : UInt8) : Option UInt8 :=
  if 0x30 ≤ b && b ≤ 0x39 then some (b - 0x30)
  else if 0x41 ≤ b && b ≤ 0x46 then some (b - 0x37)
  else if 0x61 ≤ b && b ≤ 0x66 then some (b - 0x57)
  else none

/-- Letters, digits and `-._~` stand for themselves. -/
def unreserved (b : UInt8) : Bool :=
  (0x30 ≤ b && b ≤ 0x39) || (0x41 ≤ b && b ≤ 0x5A) || (0x61 ≤ b && b ≤ 0x7A) ||
    [0x2D, 0x2E, 0x5F, 0x7E].contains b

/-- The encoding of one byte. -/
def encodeByte (b : UInt8) : List UInt8 :=
  if unreserved b then [b] else [percent, hexDigit (b / 16), hexDigit (b % 16)]

/-- The percent-encoding of a byte string. -/
def encode (bs : List UInt8) : List UInt8 := bs.flatMap encodeByte

/-- The byte that two hexadecimal digits stand for. -/
def hexByte (h l : UInt8) : Option UInt8 := do
  let a ← hexValue h
  let b ← hexValue l
  pure (16 * a + b)

/-- Percent-decoding.  A `%` without two hexadecimal digits after it stands for itself. -/
def decode : List UInt8 → List UInt8
  | [] => []
  | [b] => [b]
  | [b, b'] => [b, b']
  | b :: h :: l :: rest =>
    if b = percent then
      match hexByte h l with
      | some v => v :: decode rest
      | none => b :: decode (h :: l :: rest)
    else b :: decode (h :: l :: rest)

theorem decode_cons_of_ne {b : UInt8} (hb : b ≠ percent) (bs : List UInt8) :
    decode (b :: bs) = b :: decode bs := by
  match bs with
  | [] => rfl
  | [_] => rfl
  | _ :: _ :: _ => rw [decode, if_neg hb]

theorem hexByte_hexDigit (b : UInt8) :
    hexByte (hexDigit (b / 16)) (hexDigit (b % 16)) = some b := by
  revert b
  decide +kernel

theorem ne_percent_of_unreserved {b : UInt8} (h : unreserved b = true) : b ≠ percent := by
  rintro rfl
  revert h
  decide

/-- Decoding reads an encoded byte back. -/
theorem decode_encodeByte_append (b : UInt8) (bs : List UInt8) :
    decode (encodeByte b ++ bs) = b :: decode bs := by
  unfold encodeByte
  split
  · rename_i h
    exact decode_cons_of_ne (ne_percent_of_unreserved h) bs
  · simp only [List.cons_append, List.nil_append]
    rw [decode, if_pos rfl, hexByte_hexDigit]

/-- Decoding inverts encoding. -/
@[simp] theorem decode_encode (bs : List UInt8) : decode (encode bs) = bs := by
  induction bs with
  | nil => rfl
  | cons b bs ih =>
    change decode (encodeByte b ++ encode bs) = b :: bs
    rw [decode_encodeByte_append, ih]

/-- Decoding leaves a beginning without `%` alone. -/
theorem decode_append_of_notMem {bs : List UInt8} (h : percent ∉ bs) (cs : List UInt8) :
    decode (bs ++ cs) = bs ++ decode cs := by
  induction bs with
  | nil => rfl
  | cons b bs ih =>
    obtain ⟨hb, hbs⟩ := not_or.mp (mt List.mem_cons.mpr h)
    rw [List.cons_append, decode_cons_of_ne (Ne.symm hb), ih hbs, List.cons_append]

end Percent

/-! ## Patterns -/

/-- A part of a path pattern. -/
inductive PathPart : Type
  /-- the text itself -/
  | literal (text : List Char)
  /-- one or more characters other than `/` -/
  | segment

/-- A path pattern. -/
abbrev PathPattern : Type := List PathPart

namespace PathPattern

/-- The captured segments of a path that matches the pattern as a whole. -/
def matchPath : PathPattern → List Char → Option (List (List Char))
  | [], [] => some []
  | [], _ :: _ => none
  | .literal text :: parts, path =>
    if text.isPrefixOf path then matchPath parts (path.drop text.length) else none
  | .segment :: parts, path =>
    let captured := path.takeWhile (· != '/')
    if captured = [] then none
    else (matchPath parts (path.drop captured.length)).map (captured :: ·)

/-- A text matches only itself. -/
theorem matchPath_literal {text path : List Char} :
    matchPath [.literal text] path = if path = text then some [] else none := by
  rw [matchPath]
  split
  · rename_i hprefix
    obtain ⟨rest, rfl⟩ := List.isPrefixOf_iff_prefix.mp hprefix
    rw [List.drop_left]
    cases rest with
    | nil => simp [matchPath]
    | cons c cs => simp [matchPath]
  · rename_i hprefix
    split
    · rename_i heq
      subst heq
      exact absurd (List.isPrefixOf_iff_prefix.mpr List.prefix_rfl) hprefix
    · rfl

/-- A final segment captures the rest of the path, unless it is empty or contains a `/`. -/
theorem matchPath_segment {path : List Char} {captures : List (List Char)} :
    matchPath [.segment] path = some captures ↔
      captures = [path] ∧ path ≠ [] ∧ '/' ∉ path := by
  have hall : (∀ c ∈ path, (c != '/') = true) ↔ '/' ∉ path := by
    constructor
    · intro h hmem
      exact absurd (h '/' hmem) (by decide)
    · intro h c hc
      rw [bne_iff_ne]
      rintro rfl
      exact h hc
  constructor
  · intro h
    unfold matchPath at h
    simp only at h
    split at h
    · cases h
    · rename_i hne
      obtain ⟨rest, hrest, rfl⟩ := Option.map_eq_some_iff.mp h
      cases hdrop : path.drop (path.takeWhile (· != '/')).length with
      | cons c cs =>
        rw [hdrop] at hrest
        cases hrest
      | nil =>
        rw [hdrop] at hrest
        cases hrest
        have hwhole : path.takeWhile (· != '/') = path := by
          have hlen := List.drop_eq_nil_iff.mp hdrop
          have hpre := List.takeWhile_prefix (l := path) (· != '/')
          exact hpre.eq_of_length_le hlen
        rw [hwhole] at hne ⊢
        exact ⟨rfl, hne, hall.mp fun c hc => List.takeWhile_eq_self_iff.mp hwhole c hc⟩
  · rintro ⟨rfl, hne, hslash⟩
    have hwhole : path.takeWhile (· != '/') = path :=
      List.takeWhile_eq_self_iff.mpr fun c hc => hall.mpr hslash c hc
    unfold matchPath
    simp only [hwhole, if_neg hne, List.drop_length]
    rfl

/-- A literal text followed by a final segment. -/
theorem matchPath_literal_segment {text rest : List Char} {captures : List (List Char)} :
    matchPath [.literal text, .segment] (text ++ rest) = some captures ↔
      captures = [rest] ∧ rest ≠ [] ∧ '/' ∉ rest := by
  have hprefix : text.isPrefixOf (text ++ rest) = true := by
    rw [List.isPrefixOf_iff_prefix]
    exact List.prefix_append text rest
  rw [matchPath, if_pos hprefix, List.drop_left, matchPath_segment]

end PathPattern
