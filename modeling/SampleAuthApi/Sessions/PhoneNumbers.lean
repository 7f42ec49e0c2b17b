import SampleAuthApi.Foundation.Pattern
import SampleAuthApi.Sessions.UserRows

/-!
# Phone numbers

`validate_phone_number` matches `^01[016789]\d{7,8}$`, where `\d` is a decimal digit of any script
and `$` also matches before a line feed at the end.  The schemas therefore accept a phone number
exactly when it is one of ten or eleven ASCII digits or a stray one (`matchesPhone_iff`), and the
rows of the users hold phone numbers of ASCII digits as long as no stray one arrives
(`phone_numbers_in_form`).
-/

namespace SampleAuthApi

open Transactions Pool

variable {T K : Type}

/-! ## The pattern -/

/-- `^01[016789]\d{7,8}$`. -/
def phonePattern : TextPattern :=
  .seq .start <| .seq (.oneOf fun c => c == '0') <| .seq (.oneOf fun c => c == '1') <|
    .seq (.oneOf "016789".toList.contains) <| .seq (.between 7 8 (.oneOf isDecimal)) .stop

/-- The text is `01`, the character `c` of a prefix, the digits `ds`, and `rest`. -/
structure Dials (p : Char → Bool) (s : String) (c : Char) (ds rest : List Char) : Prop where
  text : s.toList = '0' :: '1' :: c :: (ds ++ rest)
  second : c ∈ "016789".toList
  length : ds.length = 7 ∨ ds.length = 8
  digits : ∀ d ∈ ds, p d = true

/-- A mobile phone number, in ASCII digits. -/
def IsPhoneNumber (s : String) : Prop := ∃ c ds, Dials Char.isDigit s c ds []

/-- A phone number with a line feed after it, or with a digit of another script. -/
def StrayPhone (s : String) : Prop := ∃ c ds rest, Dials isDecimal s c ds rest ∧
  (rest = ['\n'] ∨ rest = [] ∧ ∃ d ∈ ds, d.isDigit = false)

section Pattern

variable {s : String} {c : Char} {ds rest : List Char}

lemma isDecimal_of_isDigit {d : Char} (h : d.isDigit = true) : isDecimal d = true := by
  have hrange : 0x30 ≤ d.toNat ∧ d.toNat < 0x30 + 10 := by
    simp only [Char.isDigit, Bool.and_eq_true, decide_eq_true_eq] at h
    obtain ⟨hlo, hhi⟩ := h
    have hlo' : 0x30 ≤ d.toNat := hlo
    have hhi' : d.toNat ≤ 0x39 := hhi
    exact ⟨hlo', by omega⟩
  refine List.any_eq_true.mpr ⟨0x30, List.mem_cons_self, ?_⟩
  rw [Bool.and_eq_true, decide_eq_true_eq, decide_eq_true_eq]
  exact hrange

/-- The digits of a text are what is in front of its first character of another kind. -/
lemma takeWhile_digits (hds : ∀ d ∈ ds, isDecimal d = true) (hrest : rest = [] ∨ rest = ['\n']) :
    (ds ++ rest).takeWhile isDecimal = ds := by
  rw [List.takeWhile_append_of_pos hds]
  rcases hrest with rfl | rfl
  · exact List.append_nil ds
  · have hfeed : isDecimal '\n' = false := by decide
    rw [List.takeWhile_cons_of_neg (by simp [hfeed]), List.append_nil]

/-- What the reader of phone numbers accepts. -/
lemma matchesPhone_eq_true : matchesPhone s = true ↔
    ∃ c ds rest, Dials isDecimal s c ds rest ∧ (rest = [] ∨ rest = ['\n']) := by
  constructor
  · intro h
    unfold matchesPhone at h
    split at h
    · rename_i c text htext
      simp only [Bool.and_eq_true, Bool.or_eq_true, beq_iff_eq, List.contains_iff_mem] at h
      obtain ⟨⟨hc, hlength⟩, hend⟩ := h
      obtain ⟨rest, hsplit⟩ := List.takeWhile_prefix isDecimal (l := text)
      have hdrop : text.drop (text.takeWhile isDecimal).length = rest :=
        calc text.drop (text.takeWhile isDecimal).length
            = (text.takeWhile isDecimal ++ rest).drop (text.takeWhile isDecimal).length := by
              rw [hsplit]
          _ = rest := List.drop_left
      rw [hdrop] at hend
      refine ⟨c, text.takeWhile isDecimal, rest,
        ⟨by rw [hsplit, htext], hc, hlength, fun d hd => ?_⟩, hend⟩
      exact List.mem_takeWhile_imp hd
    · cases h
  · rintro ⟨c, ds, rest, ⟨htext, hc, hlength, hds⟩, hrest⟩
    unfold matchesPhone
    simp only [htext, takeWhile_digits hds hrest, List.drop_left, Bool.and_eq_true, Bool.or_eq_true,
      beq_iff_eq, List.contains_iff_mem]
    exact ⟨⟨hc, hlength⟩, hrest⟩

/-- The reader of phone numbers is `re.match` with the pattern. -/
theorem matchesPhone_iff_matches :
    matchesPhone s = true ↔ phonePattern.MatchesPrefix s.toList := by
  rw [matchesPhone_eq_true]
  unfold phonePattern TextPattern.MatchesPrefix
  simp only [TextPattern.reads_start_seq, TextPattern.reads_oneOf_seq, TextPattern.reads_seq_stop,
    TextPattern.reads_between_oneOf, beq_iff_eq, List.contains_iff_mem]
  constructor
  · rintro ⟨c, ds, rest, ⟨htext, hc, hlength, hds⟩, hrest⟩
    refine ⟨'0' :: '1' :: c :: ds, rest, htext, '0', _, rfl, rfl, '1', _, rfl, rfl, c, ds, rfl, hc,
      ⟨?_, ?_, hds⟩, hrest⟩
    · omega
    · omega
  · rintro ⟨taken, rest, htext, -, _, rfl, rfl, -, _, rfl, rfl, c, ds, rfl, hc, ⟨hlo, hhi, hds⟩,
      hrest⟩
    exact ⟨c, ds, rest, ⟨htext, hc, by omega, hds⟩, hrest⟩

/-- A text is divided in one way only. -/
lemma Dials.unique {p q : Char → Bool} {c' : Char} {ds' rest' : List Char}
    (h : Dials p s c ds rest) (h' : Dials q s c' ds' rest') : ds ++ rest = ds' ++ rest' := by
  have htext := h.text
  rw [h'.text] at htext
  simp only [List.cons.injEq, true_and] at htext
  exact htext.2.symm

/-- The reader accepts phone numbers and stray ones. -/
theorem matchesPhone_iff : matchesPhone s = true ↔ IsPhoneNumber s ∨ StrayPhone s := by
  rw [matchesPhone_eq_true]
  constructor
  · rintro ⟨c, ds, rest, h, rfl | rfl⟩
    · by_cases hascii : ∀ d ∈ ds, d.isDigit = true
      · exact .inl ⟨c, ds, h.text, h.second, h.length, hascii⟩
      · push Not at hascii
        obtain ⟨d, hd, hne⟩ := hascii
        exact .inr ⟨c, ds, [], h, .inr ⟨rfl, d, hd, Bool.eq_false_iff.mpr hne⟩⟩
    · exact .inr ⟨c, ds, ['\n'], h, .inl rfl⟩
  · rintro (⟨c, ds, h⟩ | ⟨c, ds, rest, h, rfl | ⟨rfl, -⟩⟩)
    · exact ⟨c, ds, [], ⟨h.text, h.second, h.length, fun d hd =>
        isDecimal_of_isDigit (h.digits d hd)⟩, .inl rfl⟩
    · exact ⟨c, ds, _, h, .inr rfl⟩
    · exact ⟨c, ds, _, h, .inl rfl⟩

/-- A phone number is not stray. -/
lemma IsPhoneNumber.not_stray (h : IsPhoneNumber s) : ¬ StrayPhone s := by
  obtain ⟨c, ds, h⟩ := h
  rintro ⟨c', ds', rest, h', hstray⟩
  have hsame : ds = ds' ++ rest := by
    have happend := h.unique h'
    rwa [List.append_nil] at happend
  rcases hstray with rfl | ⟨rfl, d, hd, hfalse⟩
  · have hfeed := h.digits '\n' (by rw [hsame]; simp)
    exact absurd hfeed (by decide)
  · rw [List.append_nil] at hsame
    subst hsame
    rw [h.digits d hd] at hfalse
    cases hfalse

lemma Dials.length_toList {p : Char → Bool} (h : Dials p s c ds rest) :
    s.length = 3 + ds.length + rest.length := by
  rw [← String.length_toList, h.text]
  simp only [List.length_cons, List.length_append]
  omega

/-- A phone number has ten or eleven characters. -/
theorem IsPhoneNumber.length (h : IsPhoneNumber s) : s.length = 10 ∨ s.length = 11 := by
  obtain ⟨c, ds, h⟩ := h
  have hlength := h.length_toList
  have hds := h.length
  simp only [List.length_nil] at hlength
  omega

/-- The characters of a phone number are ASCII digits. -/
theorem IsPhoneNumber.digits (h : IsPhoneNumber s) : ∀ d ∈ s.toList, d.isDigit = true := by
  obtain ⟨c, ds, h⟩ := h
  have hprefix : "016789".toList.all Char.isDigit = true := by decide +kernel
  intro d hd
  rw [h.text, List.append_nil] at hd
  rcases List.mem_cons.mp hd with rfl | hd
  · rfl
  rcases List.mem_cons.mp hd with rfl | hd
  · rfl
  rcases List.mem_cons.mp hd with rfl | hd
  · exact List.all_eq_true.mp hprefix _ h.second
  · exact h.digits d hd

end Pattern

/-! ## The schemas -/

/-- The validation reports no error of the field. -/
def PassesField {α : Type} (field : String) (r : Except (List FieldError) α) : Prop :=
  ∀ es, r = .error es → ∀ e ∈ es, e.loc ≠ [field]

section Schemas

variable {s : String}

lemma checkPhoneNumber_some {r : Option String} :
    checkPhoneNumber (some s) = .ok r ↔ r = some s ∧ s.length ≤ 20 ∧ matchesPhone s = true := by
  have hbind : checkPhoneNumber (some s) = ((checkLength 0 20 s).map some).bind fun v =>
      validator (validatePhoneNumber v) := rfl
  rw [hbind]
  cases hlen : checkLength 0 20 s with
  | error violation =>
    constructor
    · intro h
      cases h
    · rintro ⟨-, hmax, -⟩
      have hok := checkLength_eq_ok.mpr ⟨rfl, Nat.zero_le s.length, hmax⟩
      rw [hlen] at hok
      cases hok
  | ok s' =>
    obtain ⟨rfl, -, hmax⟩ := checkLength_eq_ok.mp hlen
    change validator (validatePhoneNumber (some s')) = .ok r ↔ _
    rw [validator_eq_ok]
    unfold validatePhoneNumber
    cases hmatch : matchesPhone s' <;> simp [hmatch, hmax, eq_comm]

/-- A phone number is accepted exactly when the pattern matches: the bound on its length adds
nothing. -/
lemma checkPhoneNumber_ok : (∃ r, checkPhoneNumber (some s) = .ok r) ↔ matchesPhone s = true := by
  constructor
  · rintro ⟨r, h⟩
    exact (checkPhoneNumber_some.mp h).2.2
  · intro h
    obtain ⟨c, ds, rest, hdials, hrest⟩ := matchesPhone_eq_true.mp h
    have hlength := hdials.length_toList
    have hds := hdials.length
    have hshort : rest.length ≤ 1 := by
      rcases hrest with rfl | rfl <;> simp
    exact ⟨some s, checkPhoneNumber_some.mpr ⟨rfl, by omega, h⟩⟩

/-- The error of a field names the field. -/
lemma loc_of_mem_failure {α : Type} {field : String} {r : Except Violation α} {e : FieldError}
    (h : e ∈ failure field r) : e.loc = [field] := by
  cases r with
  | ok v => cases h
  | error violation =>
    rw [List.mem_singleton.mp h]

/-- `SignupRequest` accepts what the pattern matches. -/
theorem SignupRequest.accepts_phone (emailStr : String → Except String String)
    {body : SignupRequest} (hphone : body.phoneNumber = some s) :
    PassesField "phone_number" (body.validate emailStr) ↔ matchesPhone s = true := by
  rw [← checkPhoneNumber_ok, ← hphone]
  unfold SignupRequest.validate
  constructor
  · intro h
    cases hcheck : checkPhoneNumber body.phoneNumber with
    | ok r => exact ⟨r, rfl⟩
    | error violation =>
      rw [hcheck] at h
      split at h
      · rename_i hok
        cases hok
      · exact absurd rfl (h _ rfl ⟨["phone_number"], violation⟩ (by simp [failure]))
  · rintro ⟨r, hcheck⟩ es hes e he
    rw [hcheck] at hes
    split at hes
    · cases hes
    · cases hes
      simp only [List.mem_append] at he
      rcases he with ((he | he) | he) | he
      · rw [loc_of_mem_failure he]; decide
      · rw [loc_of_mem_failure he]; decide
      · rw [loc_of_mem_failure he]; decide
      · cases he

/-- `UserUpdateRequest` accepts what the pattern matches. -/
theorem UserUpdateRequest.accepts_phone {body : UserUpdateRequest}
    (hphone : body.phoneNumber = some s) :
    PassesField "phone_number" body.validate ↔ matchesPhone s = true := by
  rw [← checkPhoneNumber_ok, ← hphone]
  unfold UserUpdateRequest.validate
  constructor
  · intro h
    cases hcheck : checkPhoneNumber body.phoneNumber with
    | ok r => exact ⟨r, rfl⟩
    | error violation =>
      rw [hcheck] at h
      split at h
      · rename_i hok
        cases hok
      · exact absurd rfl (h _ rfl ⟨["phone_number"], violation⟩ (by simp [failure]))
  · rintro ⟨r, hcheck⟩ es hes e he
    rw [hcheck] at hes
    split at hes
    · unfold UserUpdateRequest.checkAtLeastOneField at hes
      split at hes
      · cases hes
        rw [List.mem_singleton.mp he]
        exact (List.cons_ne_nil _ _).symm
      · cases hes
    · cases hes
      simp only [List.mem_append] at he
      rcases he with he | he
      · rw [loc_of_mem_failure he]; decide
      · cases he

/-- An accepted phone number matches the pattern. -/
lemma matchesPhone_of_check {v : Option String} (h : checkPhoneNumber v = .ok (some s)) :
    matchesPhone s = true := by
  cases v with
  | none => cases h
  | some s' =>
    obtain ⟨hsame, -, hmatch⟩ := checkPhoneNumber_some.mp h
    cases hsame
    exact hmatch

/-- The phone number of an accepted `SignupRequest`. -/
lemma SignupRequest.matchesPhone_of_ok {emailStr : String → Except String String}
    {body r : SignupRequest} (h : body.validate emailStr = .ok r)
    (hphone : r.phoneNumber = some s) : matchesPhone s = true := by
  unfold SignupRequest.validate at h
  split at h
  · rename_i email password name phoneNumber _ _ _ hcheck
    cases h
    change phoneNumber = some s at hphone
    exact matchesPhone_of_check (hphone ▸ hcheck)
  · cases h

/-- The phone number of an accepted `UserUpdateRequest`. -/
lemma UserUpdateRequest.matchesPhone_of_ok {body r : UserUpdateRequest} (h : body.validate = .ok r)
    (hphone : r.phoneNumber = some s) : matchesPhone s = true := by
  unfold UserUpdateRequest.validate UserUpdateRequest.checkAtLeastOneField at h
  split at h
  · rename_i name phoneNumber _ hcheck
    split at h
    · cases h
    · cases h
      change phoneNumber = some s at hphone
      exact matchesPhone_of_check (hphone ▸ hcheck)
  · cases h

end Schemas

/-! ## Stored phone numbers -/

/-- The phone number that a request stores. -/
def Request.phoneNumber? : Request K → Option String
  | .signup _ _ _ phoneNumber _ => phoneNumber
  | .updateMe _ _ _ phoneNumber => phoneNumber
  | _ => none

/-- The requests that arrive have been accepted, and none of them has a stray phone number. -/
def Dialable (emailStr : String → Except String String) (_ : World T K)
    (e : Event (Request K) (Choice T)) : Prop :=
  ∀ q, e = .start q → q.Validated emailStr ∧ ∀ s, q.phoneNumber? = some s → ¬ StrayPhone s

/-- The phone number of the row is one of ASCII digits, or was there in the beginning. -/
def User.InForm (db : Database T) (r : User T) : Prop :=
  ∀ s, r.phoneNumber = some s →
    IsPhoneNumber s ∨ ∃ r₀ ∈ db.users, r₀.phoneNumber = some s

section Rows

variable [Instant T] {x : Externals K} {emailStr : String → Except String String}

omit [Instant T] in
/-- The phone number of an accepted request. -/
lemma Request.Validated.matchesPhone {q : Request K} (h : q.Validated emailStr) {s : String}
    (hphone : q.phoneNumber? = some s) : SampleAuthApi.matchesPhone s = true := by
  cases q with
  | signup email password name phone agreed =>
    obtain ⟨body, hbody⟩ := h
    exact SignupRequest.matchesPhone_of_ok hbody hphone
  | updateMe tok dev name phone =>
    obtain ⟨body, hbody⟩ := h
    exact UserUpdateRequest.matchesPhone_of_ok hbody hphone
  | _ => cases hphone

omit [Instant T] in
/-- A change without a phone number keeps the one of the row. -/
lemma User.InForm.apply {db : Database T} {r : User T} (h : r.InForm db) {changes : UserPatch T}
    (hphone : ∀ s, changes.phoneNumber = some s → IsPhoneNumber s) :
    (changes.apply r).InForm db := by
  intro s hs
  rcases Option.or_eq_some_iff.mp hs with hnew | ⟨-, hold⟩
  · exact .inl (hphone s hnew)
  · exact h s hold

omit [Instant T] in
/-- Accepted requests without stray phone numbers keep the phone numbers of the rows in form. -/
lemma inForm_invariant (x : Externals K) (emailStr : String → Except String String)
    (db : Database T) :
    RowInvariant (T := T) x (fun q => q.Validated emailStr ∧
      ∀ s, q.phoneNumber? = some s → ¬ StrayPhone s) (User.InForm db) where
  insert q f user hq h := by
    obtain ⟨email, password, name, phone, agreed, salt, rfl, -, -, hphone, -⟩ := h
    intro s hs
    have hrequest : (Request.signup (K := K) email password name phone agreed).phoneNumber? =
        some s := by rw [← hs, hphone]; rfl
    exact .inl ((matchesPhone_iff.mp (hq.1.matchesPhone hrequest)).resolve_right
      (hq.2 s hrequest))
  login t r h := h.apply fun s hs => by cases hs
  edit q f u changes hq _ hedits r h := by
    refine h.apply fun s hs => ?_
    cases q with
    | updateMe tok dev name phone =>
      obtain ⟨t, -, -, -, -, -, hset⟩ := hedits
      have hrequest : (Request.updateMe tok dev name phone).phoneNumber? = some s := hset s hs
      exact (matchesPhone_iff.mp (hq.1.matchesPhone hrequest)).resolve_right (hq.2 s hrequest)
    | changePassword tok dev current new =>
      obtain ⟨user, salt, hash, t, -, -, rfl⟩ := hedits
      cases hs
    | deleteAccount tok dev password =>
      obtain ⟨s', user, t, -, -, -, rfl⟩ := hedits
      cases hs
    | _ => exact hedits.elim

variable [DecidableEq K]

/-- Each of the two schemas accepts exactly the phone numbers of ASCII digits, if the text is not a
stray one; and in every run on accepted requests without stray phone numbers every phone number of a
row has ten or eleven ASCII digits, unless it was there in the beginning. -/
theorem phone_numbers_in_form (emailStr : String → Except String String) :
    (∀ (s : String) (body : SignupRequest) (update : UserUpdateRequest),
      body.phoneNumber = some s → update.phoneNumber = some s →
      ((PassesField "phone_number" (body.validate emailStr) ↔ IsPhoneNumber s) ∧
        (PassesField "phone_number" update.validate ↔ IsPhoneNumber s) ↔ ¬ StrayPhone s)) ∧
    ∀ (now : T) (db : Database T) (drawn : List Uuid) (w : World T K),
      Reach (server x) (Dialable emailStr) (Pool.initial (Stores.initial now db drawn)) w →
      ∀ r ∈ w.shared.db.committed.users, ∀ s, r.phoneNumber = some s →
        (IsPhoneNumber s ∧ (s.length = 10 ∨ s.length = 11) ∧ ∀ d ∈ s.toList, d.isDigit = true) ∨
        ∃ r₀ ∈ db.users, r₀.phoneNumber = some s := by
  constructor
  · intro s body update hbody hupdate
    rw [SignupRequest.accepts_phone emailStr hbody, UserUpdateRequest.accepts_phone hupdate,
      and_self, matchesPhone_iff]
    constructor
    · intro h hstray
      exact (h.mp (.inr hstray)).not_stray hstray
    · intro hstray
      exact or_iff_left hstray
  · intro now db drawn w hreach r hr s hs
    have hrows := (inForm_invariant x emailStr db).reach_arriving
      (fun r hr s hs => .inr ⟨r, hr, hs⟩)
      (hreach.mono fun v e he => ⟨he, fun id status _ r h => h.apply fun s hs => by cases hs⟩)
    rcases hrows r hr s hs with hphone | hold
    · exact .inl ⟨hphone, hphone.length, hphone.digits⟩
    · exact .inr hold

end Rows

/-! ## Alice's phone number -/

/-- `Dialable`, as a check: the phone numbers have ASCII digits only. -/
def dialable (_ : World ℚ Claims) : ServiceEvent ℚ Claims → Bool
  | .start q => accepted .ok q && q.phoneNumber?.all fun s => s.toList.all Char.isDigit
  | _ => true

lemma dialable_of_check (w : World ℚ Claims) (e : ServiceEvent ℚ Claims)
    (h : dialable w e = true) : Dialable .ok w e := by
  rintro q rfl
  obtain ⟨haccepted, hdigits⟩ := Bool.and_eq_true_iff.mp h
  refine ⟨validated_of_accepted haccepted, fun s hs hstray => ?_⟩
  rw [hs, Option.all_some, List.all_eq_true] at hdigits
  obtain ⟨c, ds, rest, hdials, hrest⟩ := hstray
  have hmem : ∀ d ∈ ds ++ rest, d ∈ s.toList := fun d hd => by
    rw [hdials.text]
    simp [List.mem_append.mp hd]
  rcases hrest with rfl | ⟨rfl, d, hd, hfalse⟩
  · have hfeed := hdigits '\n' (hmem '\n' (by simp))
    exact absurd hfeed (by decide)
  · rw [hdigits d (hmem d (List.mem_append_left _ hd))] at hfalse
    cases hfalse

/-- Alice signs up with a phone number, logs in on her phone and changes the number. -/
def phoneScript (first second : String) : List (ServiceEvent ℚ Claims) :=
  [.start (.signup "alice@example.com" "Passw0rd!" "Alice" (some first) false)] ++ goes 0 2 ++
    draws 0 Plain.aliceId ++ [.step 0 (.salt "")] ++ goes 0 2 ++ [.respond 0] ++
    loginScript 1 "alice@example.com" "Passw0rd!" Plain.phone Plain.a₁ Plain.r₁ ++
    [.start (.updateMe (Plain.access 0 Plain.a₁) "phone" none (some second))] ++ goes 2 6 ++
    [.respond 2]

/-- Alice's phone number after she has changed it. -/
theorem phone_numbers_in_form_replay : ∃ (w : World ℚ Claims) (r : User ℚ),
    r ∈ w.shared.db.committed.users ∧ r.phoneNumber = some "0161234567" ∧
    IsPhoneNumber "0161234567" ∧ PassesField "phone_number" (UserUpdateRequest.validate
      { phoneNumber := some "0161234567" }) := by
  obtain ⟨w, h, hgood⟩ := reach_of_replay (S := server Plain.externals) dialable_of_check
    (phoneScript "01012345678" "0161234567") (w := Plain.deserted)
    (g := fun w => w.shared.db.committed.users.any fun r =>
      decide (r.phoneNumber = some "0161234567"))
    (v := true) (by decide +kernel)
  obtain ⟨r, hr, hphone⟩ := List.any_eq_true.mp hgood
  have hphone := of_decide_eq_true hphone
  obtain ⟨haccepts, hstored⟩ := phone_numbers_in_form (T := ℚ) (K := Claims)
    (x := Plain.externals) .ok
  have hnumber : IsPhoneNumber "0161234567" := by
    rcases hstored 0 Database.empty [] w h r hr _ hphone with ⟨hnumber, -⟩ | ⟨r₀, hr₀, -⟩
    · exact hnumber
    · cases hr₀
  refine ⟨w, r, hr, hphone, hnumber, ?_⟩
  exact ((haccepts "0161234567" ⟨"", "", "", some "0161234567", false⟩ ⟨none, some "0161234567"⟩
    rfl rfl).mpr hnumber.not_stray).2.mpr hnumber

/-- The text is not a phone number, both schemas accept it, and it can be stored. -/
def SlipsThrough (s : String) : Prop :=
  ¬ IsPhoneNumber s ∧
  (∀ body : SignupRequest, body.phoneNumber = some s →
    PassesField "phone_number" (body.validate .ok)) ∧
  (∀ body : UserUpdateRequest, body.phoneNumber = some s →
    PassesField "phone_number" body.validate) ∧
  ∃ (w : World ℚ Claims) (r : User ℚ), Reach (server Plain.externals)
    (fun _ e => ∀ q, e = .start q → q.Validated .ok) Plain.deserted w ∧
    r ∈ w.shared.db.committed.users ∧ r.phoneNumber = some s

/-- `SlipsThrough`, as a check. -/
def slipsThrough (s : String) : Bool :=
  matchesPhone s && (s.toList.any fun d => !d.isDigit) &&
    (runWith (server Plain.externals) (vetted fun _ => true) (phoneScript "01012345678" s)
      Plain.deserted).any fun w =>
        w.shared.db.committed.users.any fun r => decide (r.phoneNumber = some s)

lemma slipsThrough_of_check {s : String} (h : slipsThrough s = true) : SlipsThrough s := by
  unfold slipsThrough at h
  rw [Bool.and_eq_true, Bool.and_eq_true, List.any_eq_true, Option.any_eq_true] at h
  obtain ⟨⟨hmatch, d, hd, hother⟩, w, hrun, hrow⟩ := h
  obtain ⟨r, hr, hphone⟩ := List.any_eq_true.mp hrow
  refine ⟨fun hnumber => ?_, fun body hbody => (SignupRequest.accepts_phone .ok hbody).mpr hmatch,
    fun body hbody => (UserUpdateRequest.accepts_phone hbody).mpr hmatch, w, r, ?_, hr,
    of_decide_eq_true hphone⟩
  · rw [hnumber.digits d hd] at hother
    cases hother
  · refine (reach_of_runWith vetted_of_check hrun).mono fun v e he q hq => ?_
    exact (he.2.2 q hq).1

/-- A phone number with a line feed after it, and one with an Arabic-Indic digit. -/
theorem stray_phones_stored :
    SlipsThrough "01012345678\n" ∧ SlipsThrough "0101234567\u0668" := by
  constructor
  · exact slipsThrough_of_check (by decide +kernel)
  · exact slipsThrough_of_check (by decide +kernel)

end SampleAuthApi
