import SampleAuthApi.Model.Api

/-!
# `app.schemas`

The constraints that the request schemas put on the fields of a body whose fields have the declared
types.  A schema reports the fields that break a constraint, in the order of their declaration, and
runs its model validator when no field does.  `EmailStr` is third-party code and is a parameter: it
returns the normalized address, or the message of its error.
-/

namespace SampleAuthApi

/-! ## Characters -/

/-- The zeros of the runs of ten decimal digits in Unicode. -/
def decimalZeros : List ℕ :=
  [0x30, 0x660, 0x6f0, 0x7c0, 0x966, 0x9e6, 0xa66, 0xae6, 0xb66, 0xbe6, 0xc66, 0xce6, 0xd66, 0xde6,
    0xe50, 0xed0, 0xf20, 0x1040, 0x1090, 0x17e0, 0x1810, 0x1946, 0x19d0, 0x1a80, 0x1a90, 0x1b50,
    0x1bb0, 0x1c40, 0x1c50, 0xa620, 0xa8d0, 0xa900, 0xa9d0, 0xa9f0, 0xaa50, 0xabf0, 0xff10, 0x104a0,
    0x10d30, 0x11066, 0x110f0, 0x11136, 0x111d0, 0x112f0, 0x11450, 0x114d0, 0x11650, 0x116c0,
    0x11730, 0x118e0, 0x11950, 0x11c50, 0x11d50, 0x11da0, 0x11f50, 0x16a60, 0x16ac0, 0x16b50,
    0x1d7ce, 0x1d7d8, 0x1d7e2, 0x1d7ec, 0x1d7f6, 0x1e140, 0x1e2f0, 0x1e4f0, 0x1e950, 0x1fbf0]

/-- `\d` of a pattern over strings: the decimal digits of all scripts. -/
def isDecimal (c : Char) : Bool :=
  decimalZeros.any fun z => decide (z ≤ c.toNat) && decide (c.toNat < z + 10)

/-- The class `[!@#$%^&*(),.?":\x7b\x7d|<>]`. -/
def specialCharacters : List Char := "!@#$%^&*(),.?\":\x7b\x7d|<>".toList

/-- `^01[016789]\d{7,8}$`: the `$` of `re.match` also matches before a newline at the end. -/
def matchesPhone (v : String) : Bool :=
  match v.toList with
  | '0' :: '1' :: c :: rest =>
    let digits := (rest.takeWhile isDecimal).length
    "016789".toList.contains c && (digits == 7 || digits == 8) &&
      (rest.drop digits == [] || rest.drop digits == ['\n'])
  | _ => false

/-! ## Constraints -/

/-- A constraint that the value of a field breaks. -/
inductive Violation
  | stringTooShort (minLength : ℕ)
  | stringTooLong (maxLength : ℕ)
  | valueError (message : String)
  deriving DecidableEq

/-- An entry of a `ValidationError`. -/
structure FieldError where
  loc : List String
  violation : Violation
  deriving DecidableEq

/-- `Field(min_length=…, max_length=…)`; a missing minimum is `0`. -/
def checkLength (minLength maxLength : ℕ) (v : String) : Except Violation String :=
  if v.length < minLength then .error (.stringTooShort minLength)
  else if maxLength < v.length then .error (.stringTooLong maxLength)
  else .ok v

/-- A `field_validator` that raises `ValueError`. -/
def validator {α : Type} (r : Except String α) : Except Violation α := r.mapError .valueError

/-- `validate_password_strength`. -/
def validatePasswordStrength (v : String) : Except String String :=
  if !v.toList.any Char.isAlpha then .error "Password must contain at least one letter"
  else if !v.toList.any isDecimal then .error "Password must contain at least one digit"
  else if !v.toList.any specialCharacters.contains then
    .error "Password must contain at least one special character"
  else .ok v

/-- `validate_phone_number`. -/
def validatePhoneNumber (v : Option String) : Except String (Option String) :=
  if v.any fun s => !matchesPhone s then .error "Invalid phone number format" else .ok v

/-- A new password: `Field(min_length=8, max_length=100)` and `validate_password`. -/
def checkPassword (v : String) : Except Violation String := do
  let v ← checkLength 8 100 v
  validator (validatePasswordStrength v)

/-- A phone number: `Field(default=None, max_length=20)` and `validate_phone_number`. -/
def checkPhoneNumber (v : Option String) : Except Violation (Option String) := do
  let v ← match v with
    | none => .ok none
    | some s => (checkLength 0 20 s).map some
  validator (validatePhoneNumber v)

/-- The error of a field, if it breaks a constraint. -/
def failure {α : Type} (field : String) : Except Violation α → List FieldError
  | .ok _ => []
  | .error violation => [⟨[field], violation⟩]

/-! ## Schemas -/

/-- `SignupRequest`. -/
structure SignupRequest where
  email : String
  password : String
  name : String
  phoneNumber : Option String := none
  marketingAgreed : Bool := false
  deriving DecidableEq

/-- The validation of a `SignupRequest`. -/
def SignupRequest.validate (emailStr : String → Except String String) (body : SignupRequest) :
    Except (List FieldError) SignupRequest :=
  match validator (emailStr body.email), checkPassword body.password, checkLength 1 100 body.name,
    checkPhoneNumber body.phoneNumber with
  | .ok email, .ok password, .ok name, .ok phoneNumber =>
    .ok ⟨email, password, name, phoneNumber, body.marketingAgreed⟩
  | email, password, name, phoneNumber =>
    .error (failure "email" email ++ failure "password" password ++ failure "name" name ++
      failure "phone_number" phoneNumber)

/-- `LoginRequest`. -/
structure LoginRequest where
  email : String
  password : String
  deriving DecidableEq

/-- The validation of a `LoginRequest`. -/
def LoginRequest.validate (emailStr : String → Except String String) (body : LoginRequest) :
    Except (List FieldError) LoginRequest :=
  match validator (emailStr body.email) with
  | .ok email => .ok ⟨email, body.password⟩
  | email => .error (failure "email" email)

/-- `UserUpdateRequest`. -/
structure UserUpdateRequest where
  name : Option String := none
  phoneNumber : Option String := none
  deriving DecidableEq

/-- `UserUpdateRequest.check_at_least_one_field`. -/
def UserUpdateRequest.checkAtLeastOneField (body : UserUpdateRequest) :
    Except String UserUpdateRequest :=
  if body.name.isNone && body.phoneNumber.isNone then
    .error "At least one field must be provided"
  else .ok body

/-- The name of a `UserUpdateRequest`: `Field(default=None, max_length=100)`. -/
def UserUpdateRequest.checkName (v : Option String) : Except Violation (Option String) :=
  match v with
  | none => .ok none
  | some s => (checkLength 0 100 s).map some

/-- The validation of a `UserUpdateRequest`. -/
def UserUpdateRequest.validate (body : UserUpdateRequest) :
    Except (List FieldError) UserUpdateRequest :=
  match UserUpdateRequest.checkName body.name, checkPhoneNumber body.phoneNumber with
  | .ok name, .ok phoneNumber =>
    (UserUpdateRequest.checkAtLeastOneField ⟨name, phoneNumber⟩).mapError fun message =>
      [⟨[], .valueError message⟩]
  | name, phoneNumber => .error (failure "name" name ++ failure "phone_number" phoneNumber)

/-- `PasswordChangeRequest`. -/
structure PasswordChangeRequest where
  currentPassword : String
  newPassword : String
  deriving DecidableEq

/-- The validation of a `PasswordChangeRequest`. -/
def PasswordChangeRequest.validate (body : PasswordChangeRequest) :
    Except (List FieldError) PasswordChangeRequest :=
  match checkPassword body.newPassword with
  | .ok newPassword => .ok ⟨body.currentPassword, newPassword⟩
  | newPassword => .error (failure "new_password" newPassword)

/-- The fields of the request come from a body that its schema has accepted.  The other bodies have
no constraints. -/
def Request.Validated {K : Type} (emailStr : String → Except String String) : Request K → Prop
  | .signup email password name phoneNumber marketingAgreed => ∃ body,
    SignupRequest.validate emailStr body =
      .ok ⟨email, password, name, phoneNumber, marketingAgreed⟩
  | .login email password _ => ∃ body, LoginRequest.validate emailStr body = .ok ⟨email, password⟩
  | .updateMe _ _ name phoneNumber => ∃ body,
    UserUpdateRequest.validate body = .ok ⟨name, phoneNumber⟩
  | .changePassword _ _ currentPassword newPassword => ∃ body,
    PasswordChangeRequest.validate body = .ok ⟨currentPassword, newPassword⟩
  | _ => True

/-! ## What the schemas accept -/

/-- The password policy. -/
structure PasswordPolicy (password : String) : Prop where
  minLength : 8 ≤ password.length
  maxLength : password.length ≤ 100
  letter : ∃ c ∈ password.toList, c.isAlpha = true
  digit : ∃ c ∈ password.toList, isDecimal c = true
  special : ∃ c ∈ password.toList, c ∈ specialCharacters

lemma checkLength_eq_ok {lo hi : ℕ} {v r : String} :
    checkLength lo hi v = .ok r ↔ r = v ∧ lo ≤ v.length ∧ v.length ≤ hi := by
  unfold checkLength
  split
  · rename_i hshort
    constructor
    · intro h
      cases h
    · rintro ⟨-, hmin, -⟩
      exact absurd hmin (not_le.mpr hshort)
  · rename_i hlo
    split
    · rename_i hlong
      constructor
      · intro h
        cases h
      · rintro ⟨-, -, hmax⟩
        exact absurd hmax (not_le.mpr hlong)
    · rename_i hhi
      constructor
      · intro h
        cases h
        exact ⟨rfl, not_lt.mp hlo, not_lt.mp hhi⟩
      · rintro ⟨rfl, -, -⟩
        rfl

lemma validator_eq_ok {α : Type} {r : Except String α} {v : α} :
    validator r = .ok v ↔ r = .ok v := by
  cases r with
  | ok v' =>
    change Except.ok v' = Except.ok v ↔ _
    rw [Except.ok.injEq, Except.ok.injEq]
  | error message =>
    constructor
    · intro h
      cases h
    · intro h
      cases h

lemma validatePasswordStrength_eq_ok {v r : String} : validatePasswordStrength v = .ok r ↔
    r = v ∧ (∃ c ∈ v.toList, c.isAlpha = true) ∧ (∃ c ∈ v.toList, isDecimal c = true) ∧
      ∃ c ∈ v.toList, c ∈ specialCharacters := by
  have hspecial : v.toList.any specialCharacters.contains = true ↔
      ∃ c ∈ v.toList, c ∈ specialCharacters := by
    simp only [List.any_eq_true, List.contains_iff_mem]
  unfold validatePasswordStrength
  rw [← hspecial, ← List.any_eq_true, ← List.any_eq_true]
  cases v.toList.any Char.isAlpha <;> cases v.toList.any isDecimal <;>
    cases v.toList.any specialCharacters.contains <;> simp [eq_comm]

/-- A new password is accepted exactly when it meets the policy, and is not changed. -/
theorem checkPassword_eq_ok {v r : String} :
    checkPassword v = .ok r ↔ r = v ∧ PasswordPolicy v := by
  unfold checkPassword
  cases hlen : checkLength 8 100 v with
  | error violation =>
    constructor
    · intro h
      cases h
    · rintro ⟨-, hpolicy⟩
      have hok := checkLength_eq_ok.mpr ⟨rfl, hpolicy.minLength, hpolicy.maxLength⟩
      rw [hlen] at hok
      cases hok
  | ok v' =>
    obtain ⟨rfl, hmin, hmax⟩ := checkLength_eq_ok.mp hlen
    change validator (validatePasswordStrength v') = .ok r ↔ _
    rw [validator_eq_ok, validatePasswordStrength_eq_ok]
    constructor
    · rintro ⟨hr, hletter, hdigit, hspecial⟩
      exact ⟨hr, hmin, hmax, hletter, hdigit, hspecial⟩
    · rintro ⟨hr, -, -, hletter, hdigit, hspecial⟩
      exact ⟨hr, hletter, hdigit, hspecial⟩

/-- The name and the password of an accepted `SignupRequest`. -/
theorem SignupRequest.validate_ok {emailStr : String → Except String String}
    {body r : SignupRequest} (h : body.validate emailStr = .ok r) :
    1 ≤ r.name.length ∧ r.name.length ≤ 100 ∧ PasswordPolicy r.password := by
  unfold SignupRequest.validate at h
  split at h
  · rename_i email password name phoneNumber _ hpassword hname _
    cases h
    obtain ⟨rfl, hmin, hmax⟩ := checkLength_eq_ok.mp hname
    obtain ⟨rfl, hpolicy⟩ := checkPassword_eq_ok.mp hpassword
    exact ⟨hmin, hmax, hpolicy⟩
  · cases h

/-- The name of an accepted `UserUpdateRequest` may be empty. -/
theorem UserUpdateRequest.validate_ok {body r : UserUpdateRequest} (h : body.validate = .ok r) :
    ∀ name, r.name = some name → name.length ≤ 100 := by
  unfold UserUpdateRequest.validate at h
  split at h
  · rename_i name phoneNumber hname _
    unfold UserUpdateRequest.checkAtLeastOneField at h
    split at h
    · cases h
    · cases h
      rintro n rfl
      unfold UserUpdateRequest.checkName at hname
      split at hname
      · cases hname
      · rename_i s _
        cases hlen : checkLength 0 100 s with
        | error violation =>
          rw [hlen] at hname
          cases hname
        | ok s' =>
          rw [hlen] at hname
          cases hname
          obtain ⟨rfl, -, hmax⟩ := checkLength_eq_ok.mp hlen
          exact hmax
  · cases h

/-- The new password of an accepted `PasswordChangeRequest`. -/
theorem PasswordChangeRequest.validate_ok {body r : PasswordChangeRequest}
    (h : body.validate = .ok r) : PasswordPolicy r.newPassword := by
  unfold PasswordChangeRequest.validate at h
  split at h
  · rename_i newPassword hpassword
    cases h
    obtain ⟨rfl, hpolicy⟩ := checkPassword_eq_ok.mp hpassword
    exact hpolicy
  · cases h

end SampleAuthApi
