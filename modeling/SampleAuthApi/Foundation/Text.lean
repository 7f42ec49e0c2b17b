import Mathlib

/-!
# Bytes and text

The two readings of bytes as text that a web service meets, strict UTF-8 and Latin-1, and the byte
strings on which they agree.  `PyString` is a string of code points that may hold surrogates, which
no UTF-8 text contains.
-/

/-- A byte string. -/
abbrev Bytes : Type := ByteArray

namespace Bytes

/-- Strict UTF-8. -/
def decodeUtf8 (b : Bytes) : Option String := String.fromUTF8? b

/-- Latin-1: every byte is the code point of its value. -/
def decodeLatin1 (b : Bytes) : String := String.ofList (b.data.toList.map fun u => Char.ofUInt8 u)

/-- The bytes that UTF-8 has for the code point of the value of a byte. -/
def latin1Utf8 (u : UInt8) : List UInt8 :=
  if u.toNat < 128 then [u] else [(0xC0 : UInt8) ||| (u >>> 6), (0x80 : UInt8) ||| (u &&& 0x3F)]

/-- The UTF-8 bytes of a Latin-1 text. -/
def latin1ToUtf8 (b : Bytes) : Bytes := (b.data.toList.flatMap latin1Utf8).toByteArray

/-- The UTF-8 bytes of a text. -/
def utf8 (s : String) : List UInt8 := s.toByteArray.data.toList

/-- Every byte is below 128. -/
def Ascii (b : Bytes) : Prop := ∀ u ∈ b.data.toList, u.toNat < 128

instance (b : Bytes) : Decidable b.Ascii :=
  inferInstanceAs (Decidable (∀ u ∈ b.data.toList, u.toNat < 128))

/-- Bytes are decoded to the string that they encode. -/
theorem decodeUtf8_eq_some {b : Bytes} {s : String} :
    b.decodeUtf8 = some s ↔ b = s.toByteArray := by
  unfold decodeUtf8 String.fromUTF8?
  constructor
  · intro h
    split at h
    · cases h
      rfl
    · cases h
  · rintro rfl
    rw [dif_pos s.isValidUTF8]
    rfl

@[simp] theorem decodeUtf8_toByteArray (s : String) : Bytes.decodeUtf8 s.toByteArray = some s :=
  decodeUtf8_eq_some.mpr rfl

@[simp] theorem toByteArray_utf8 (s : String) : (utf8 s).toByteArray = s.toByteArray := by
  unfold utf8
  exact ByteArray.ext (by simp)

/-- Strings in sequence are encoded one after the other. -/
theorem utf8_append (s t : String) : utf8 (s ++ t) = utf8 s ++ utf8 t := by
  unfold utf8
  rw [String.toByteArray_append, ByteArray.data_append, Array.toList_append]

/-- Different strings have different encodings. -/
theorem utf8_injective : Function.Injective utf8 := by
  intro s t h
  have hbytes : s.toByteArray = t.toByteArray := by
    rw [← toByteArray_utf8 s, h, toByteArray_utf8]
  have hdecoded : Bytes.decodeUtf8 s.toByteArray = Bytes.decodeUtf8 t.toByteArray := by
    rw [hbytes]
  rw [decodeUtf8_toByteArray, decodeUtf8_toByteArray] at hdecoded
  exact Option.some.inj hdecoded

/-- The code point of a byte takes one or two bytes in UTF-8. -/
theorem utf8EncodeChar_ofUInt8 (u : UInt8) :
    String.utf8EncodeChar (Char.ofUInt8 u) = latin1Utf8 u := by
  revert u
  decide +kernel

/-- Latin-1 text in UTF-8. -/
theorem toByteArray_decodeLatin1 (b : Bytes) : b.decodeLatin1.toByteArray = b.latin1ToUtf8 := by
  unfold decodeLatin1 latin1ToUtf8
  rw [String.toByteArray_ofList, List.utf8Encode, List.flatMap_map]
  congr 1
  refine List.flatMap_congr fun u _ => ?_
  exact utf8EncodeChar_ofUInt8 u

/-- UTF-8 reads the bytes `b` as what Latin-1 reads in the bytes `c` exactly when `b` is the UTF-8
form of `c`. -/
theorem decodeUtf8_eq_decodeLatin1 {b c : Bytes} :
    b.decodeUtf8 = some c.decodeLatin1 ↔ b = c.latin1ToUtf8 := by
  rw [decodeUtf8_eq_some, toByteArray_decodeLatin1]

/-- The code point of a byte takes one byte if it is ASCII. -/
theorem latin1Utf8_length (u : UInt8) : (latin1Utf8 u).length = if u.toNat < 128 then 1 else 2 := by
  unfold latin1Utf8
  split <;> rfl

/-- No byte gets shorter in UTF-8, and the ASCII bytes are those that keep their length. -/
lemma length_flatMap_latin1Utf8 (l : List UInt8) :
    l.length ≤ (l.flatMap latin1Utf8).length ∧
      ((l.flatMap latin1Utf8).length = l.length → ∀ u ∈ l, u.toNat < 128) := by
  induction l with
  | nil => simp
  | cons u l ih =>
    obtain ⟨hle, hascii⟩ := ih
    rw [List.flatMap_cons, List.length_append, latin1Utf8_length, List.length_cons]
    split
    · rename_i hu
      refine ⟨by omega, fun hlen => ?_⟩
      simp only [List.mem_cons, forall_eq_or_imp]
      exact ⟨hu, hascii (by omega)⟩
    · exact ⟨by omega, fun hlen => by omega⟩

/-- A byte string is its own UTF-8 form exactly when it is ASCII. -/
theorem latin1ToUtf8_eq_self {b : Bytes} : b.latin1ToUtf8 = b ↔ b.Ascii := by
  constructor
  · intro h
    have hlen : (b.data.toList.flatMap latin1Utf8).length = b.data.toList.length := by
      have hsize := congrArg ByteArray.size h
      simpa [latin1ToUtf8] using hsize
    exact (length_flatMap_latin1Utf8 _).2 hlen
  · intro h
    have hflat : b.data.toList.flatMap latin1Utf8 = b.data.toList := by
      rw [List.flatMap_congr fun u hu => by rw [latin1Utf8, if_pos (h u hu)]]
      simp
    unfold latin1ToUtf8
    rw [hflat]
    exact ByteArray.ext (by simp)

/-- On ASCII the two readings agree. -/
theorem Ascii.decodeUtf8 {b : Bytes} (h : b.Ascii) : b.decodeUtf8 = some b.decodeLatin1 :=
  decodeUtf8_eq_decodeLatin1.mpr (latin1ToUtf8_eq_self.mpr h).symm

end Bytes

/-- A string of code points, surrogates included. -/
structure PyString where
  /-- The code points. -/
  points : List (Fin 0x110000)
  deriving DecidableEq

namespace PyString

/-- A code point that UTF-8 does not encode. -/
def IsSurrogate (p : Fin 0x110000) : Prop := 0xD800 ≤ p.val ∧ p.val ≤ 0xDFFF

instance (p : Fin 0x110000) : Decidable (IsSurrogate p) :=
  inferInstanceAs (Decidable (0xD800 ≤ p.val ∧ p.val ≤ 0xDFFF))

/-- The string has a UTF-8 encoding. -/
def Encodable (s : PyString) : Prop := ∀ p ∈ s.points, ¬ IsSurrogate p

instance (s : PyString) : Decidable s.Encodable :=
  inferInstanceAs (Decidable (∀ p ∈ s.points, ¬ IsSurrogate p))

lemma char_toNat_lt (c : Char) : c.toNat < 0x110000 := by
  have hvalid := c.valid
  unfold UInt32.isValidChar Nat.isValidChar at hvalid
  unfold Char.toNat
  omega

/-- The code point of a character. -/
def point (c : Char) : Fin 0x110000 := ⟨c.toNat, char_toNat_lt c⟩

/-- A text as a string of code points. -/
def ofString (s : String) : PyString := ⟨s.toList.map point⟩

@[simp] theorem point_val (c : Char) : (point c).val = c.toNat := rfl

/-- Different characters have different code points. -/
theorem point_injective : Function.Injective point := by
  intro c d h
  have hnat : (point c).val = (point d).val := by rw [h]
  exact Char.toNat_inj.mp hnat

/-- Different strings have different code points. -/
theorem ofString_injective : Function.Injective ofString := by
  intro s t h
  have hlist : s.toList.map point = t.toList.map point := congrArg points h
  exact String.toList_injective (List.map_injective_iff.mpr point_injective hlist)

/-- The code point of a character is no surrogate. -/
theorem not_isSurrogate_point (c : Char) : ¬ IsSurrogate (point c) := by
  have hvalid := c.valid
  unfold UInt32.isValidChar Nat.isValidChar at hvalid
  unfold IsSurrogate
  rw [point_val, Char.toNat]
  omega

/-- A code point that is no surrogate is that of a character. -/
lemma exists_point {p : Fin 0x110000} (h : ¬ IsSurrogate p) : ∃ c, point c = p := by
  have hvalid : p.val.isValidChar := by
    unfold IsSurrogate at h
    unfold Nat.isValidChar
    omega
  refine ⟨Char.ofNatAux p.val hvalid, Fin.ext ?_⟩
  rfl

/-- The encodable strings are the texts. -/
theorem encodable_iff {s : PyString} : s.Encodable ↔ ∃ t, s = ofString t := by
  constructor
  · intro h
    have hpoints : ∀ l : List (Fin 0x110000), (∀ p ∈ l, ¬ IsSurrogate p) →
        ∃ cs : List Char, cs.map point = l := by
      intro l
      induction l with
      | nil => exact fun _ => ⟨[], rfl⟩
      | cons p l ih =>
        intro hl
        obtain ⟨c, hc⟩ := exists_point (hl p (List.mem_cons_self ..))
        obtain ⟨cs, hcs⟩ := ih fun q hq => hl q (List.mem_cons_of_mem _ hq)
        exact ⟨c :: cs, by rw [List.map_cons, hc, hcs]⟩
    obtain ⟨cs, hcs⟩ := hpoints s.points h
    refine ⟨String.ofList cs, ?_⟩
    unfold ofString
    rw [String.toList_ofList, hcs]
  · rintro ⟨t, rfl⟩ p hp
    obtain ⟨c, -, rfl⟩ := List.mem_map.mp hp
    exact not_isSurrogate_point c

/-- The character of a code point. -/
def char? (p : Fin 0x110000) : Option Char :=
  if h : p.val.isValidChar then some (Char.ofNatAux p.val h) else none

/-- The text with the given code points, unless there is a surrogate among them. -/
def text? (s : PyString) : Option String := (s.points.mapM char?).map String.ofList

lemma char?_point (c : Char) : char? (point c) = some c := dif_pos c.valid

/-- A text is read back from its code points. -/
@[simp] theorem text?_ofString (s : String) : (ofString s).text? = some s := by
  have hall : ∀ cs : List Char, (cs.map point).mapM char? = some cs := fun cs => by
    induction cs with
    | nil => rfl
    | cons c cs ih => simp [List.mapM_cons, char?_point, ih]
  unfold text? ofString
  rw [hall, Option.map_some, String.ofList_toList]

end PyString
