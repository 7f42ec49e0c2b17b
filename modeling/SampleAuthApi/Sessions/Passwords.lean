import SampleAuthApi.Foundation.Text
import SampleAuthApi.Model.Schemas
import SampleAuthApi.Sessions.Admission

/-!
# Passwords

The schemas bound a new password by 100 characters, while `bcrypt` uses the first 72 bytes of its
UTF-8 encoding and refuses the character `U+0000`.  A password that the schemas accept is compared
in full exactly when it has fewer than 72 bytes and no such character
(`compared_in_full_iff`).
-/

/-- A list that agrees with a short one on the first `n` elements is that list. -/
lemma List.eq_of_take_eq {α : Type} {n : ℕ} {l l' : List α} (h : l'.take n = l.take n)
    (hlt : l.length < n) : l' = l := by
  rw [List.take_of_length_le hlt.le] at h
  have hlen : min n l'.length = l.length := by rw [← List.length_take, h]
  have hshort : l'.length ≤ n := by omega
  rwa [List.take_of_length_le hshort] at h

namespace SampleAuthApi

open Transactions Pool
open Program (Returns wp wp_bind wp_mono afterBind_ok)

variable {T K : Type} [Instant T]

/-! ## `bcrypt` -/

/-- The part of a password that is hashed. -/
def bcryptKey (password : String) : List UInt8 := (Bytes.utf8 password).take 72

/-- The password has a character that `bcrypt` refuses. -/
abbrev HasNul (password : String) : Prop := '\x00' ∈ password.toList

/-- The password context is `passlib` with `bcrypt`, in a version that cuts passwords.  Passwords of
more than 4096 characters are refused as well. -/
structure Bcrypt (ctx : CryptContext) : Prop where
  nul : ∀ salt p, HasNul p → ctx.hash salt p = .error .passwordValue
  hashes : ∀ salt p, ¬ HasNul p → p.length ≤ 4096 → ∃ h, ctx.hash salt p = .ok h
  verifies : ∀ salt p h q, ctx.hash salt p = .ok h → ¬ HasNul q → q.length ≤ 4096 →
    ctx.verify q h = .ok (decide (bcryptKey q = bcryptKey p))
  /-- What verifies has the same key. -/
  sound : ∀ salt p h q, ctx.hash salt p = .ok h → ctx.verify q h = .ok true →
    bcryptKey q = bcryptKey p
  hash_error : ∀ salt p e, ctx.hash salt p = .error e → e = .passwordValue
  verify_error : ∀ q h e, ctx.verify q h = .error e → e = .passwordValue

section Bcrypt

variable {x : Externals K} {p q h : String}

omit [Instant T] in
/-- `hash_password` under the salt that is drawn. -/
lemma eval_hashPassword {answers : (o : Op T) → Except Exc o.Reply} {salt : String}
    (hsalt : answers .gensalt = .ok salt) :
    (hashPassword x p).eval answers = x.pwdContext.hash salt p := by
  unfold hashPassword
  rw [Program.eval_bind, Program.eval_perform, hsalt, Program.ok_bind]
  cases x.pwdContext.hash salt p <;> rfl

omit [Instant T] in
/-- The hashes that `hash_password` returns. -/
lemma returns_hashPassword :
    Returns (hashPassword x p : Proc T String) h ↔ ∃ salt, x.pwdContext.hash salt p = .ok h := by
  unfold hashPassword
  rw [Program.returns_bind]
  constructor
  · rintro ⟨salt, -, hreturn⟩
    refine ⟨salt, ?_⟩
    cases hhash : x.pwdContext.hash salt p with
    | ok h' =>
      rw [hhash] at hreturn
      cases hreturn
      rfl
    | error e =>
      rw [hhash] at hreturn
      cases hreturn
  · rintro ⟨salt, hhash⟩
    refine ⟨salt, .call (.ok salt) (.ret salt), ?_⟩
    rw [hhash]
    exact .ret h

omit [Instant T] in
/-- The answers of `verify_password`. -/
lemma returns_verifyPassword {b : Bool} :
    Returns (verifyPassword x q h : Proc T Bool) b ↔ x.pwdContext.verify q h = .ok b := by
  unfold verifyPassword
  rw [Program.returns_bind]
  constructor
  · rintro ⟨-, -, hreturn⟩
    cases hverify : x.pwdContext.verify q h with
    | ok b' =>
      rw [hverify] at hreturn
      cases hreturn
      rfl
    | error e =>
      rw [hverify] at hreturn
      cases hreturn
  · intro hverify
    refine ⟨(), .call (.ok ()) (.ret ()), ?_⟩
    rw [hverify]
    exact .ret b

/-- A password of fewer than 72 bytes is the only one with its key. -/
lemma eq_of_bcryptKey_eq (hshort : (Bytes.utf8 p).length < 72) (hkey : bcryptKey q = bcryptKey p) :
    q = p :=
  Bytes.utf8_injective (List.eq_of_take_eq hkey hshort)

/-- What follows the first 72 bytes of a password is not hashed. -/
lemma bcryptKey_append (hlong : 72 ≤ (Bytes.utf8 p).length) (s : String) :
    bcryptKey (p ++ s) = bcryptKey p := by
  unfold bcryptKey
  rw [Bytes.utf8_append, List.take_append_of_le_length hlong]

end Bcrypt

/-! ## Requests that check a password -/

/-- The request has found an account whose password is `p`. -/
def FoundWith (x : Externals K) (p : String) (f : Progress T) : Prop :=
  ∃ s user, f.account = some (s, some user) ∧
    Returns (hashPassword x p : Proc T String) user.hashedPassword

/-- The password that the request has presented verifies against the account that it has found. -/
def Passes (x : Externals K) (f : Progress T) (password : String) : Prop :=
  ∃ s user, f.account = some (s, some user) ∧
    x.pwdContext.verify password user.hashedPassword = .ok true

/-- A change of the password answers `SamePasswordError` only if the new password verifies. -/
def SameOnly (x : Externals K) (q : Request K) (r : Except Exc (Response T K)) (f : Progress T) :
    Prop :=
  ∀ tok dev current new, q = .changePassword tok dev current new → r = .error .samePassword →
    Passes x f new

/-- `SamePasswordError`. -/
def Exc.same (e : Exc) : Bool := e == .samePassword

lemma same_of_external (e : Exc) (h : e.external = true) : e.same = false := by
  cases e <;> first | rfl | cases h

section Same

variable {x : Externals K} {q : Request K} {tok : K} {dev : String}

lemma Spares.hashPassword (hb : Bcrypt x.pwdContext) (p : String) :
    Spares (T := T) Exc.same q (hashPassword x p) := by
  refine Spares.bind (Spares.call same_of_external _) fun salt => Spares.ofExcept fun e he => ?_
  rw [hb.hash_error salt p e he]
  rfl

lemma Spares.verifyPassword (hb : Bcrypt x.pwdContext) (p h : String) :
    Spares (T := T) Exc.same q (verifyPassword x p h) := by
  refine Spares.bind (Spares.call same_of_external _) fun _ => Spares.ofExcept fun e he => ?_
  rw [hb.verify_error p h e he]
  rfl

/-- `get_current_user` does not raise `SamePasswordError`. -/
lemma Spares.getCurrentUser : Spares (T := T) Exc.same q (getCurrentUser x tok dev) := by
  have hdecode : Spares (T := T) Exc.same q (JwtService.decodeAccessToken x tok) := by
    have hjwt : Spares (T := T) Exc.same q
        (jwtDecode x tok (some x.settings.jwtAudience)) := by
      unfold jwtDecode
      cases x.jwt.verify tok with
      | none => exact Spares.pure _
      | some c => exact Spares.bind (Spares.call same_of_external _) fun t => Spares.pure _
    refine Spares.bind hjwt fun r => ?_
    cases r with
    | error e =>
      cases e with
      | expiredSignature => exact Spares.throw rfl
      | invalidToken => exact Spares.throw rfl
    | ok c =>
      by_cases htype : c.type = .access
      · simp only [htype, ne_eq, not_true_eq_false, if_false]
        cases hemail : c.email with
        | none => exact Spares.throw rfl
        | some email =>
          cases hname : c.name with
          | none => exact Spares.throw rfl
          | some name => exact Spares.pure _
      · simp only [ne_eq, htype, not_false_eq_true, if_true]
        exact Spares.throw rfl
  refine Spares.bind hdecode fun payload => ?_
  by_cases hdev : payload.deviceId = dev
  · simp only [hdev, ne_eq, not_true_eq_false, if_false]
    refine Spares.bind (Spares.call same_of_external _) fun blacklisted => ?_
    cases blacklisted with
    | true => exact Spares.throw_bind rfl
    | false => exact Spares.pure _
  · simp only [ne_eq, hdev, not_false_eq_true, if_true]
    exact Spares.throw_bind rfl

/-- `get_current_user` loads no row. -/
lemma wp_getCurrentUser_account (hb : q.bearer? = some (tok, dev)) :
    wp (bystander q) (SampleAuthApi.getCurrentUser x tok dev)
      (fun r f => (∀ user, r = .ok user → f.account = none) ∧
        ∀ e, r = .error e → e.same = false) ({} : Progress T) := by
  have hnone : wp (onlooker x q) (SampleAuthApi.getCurrentUser x tok dev)
      (fun r f => ∀ user, r = .ok user → f.account = none) ({} : Progress T) := by
    refine wp_getCurrentUser hb rfl (fun c t s email name hauth hdev user hr => rfl) ?_
    intro e f hsent hwrote hc he user hr
    cases hr
  exact wp_watch_and _ _ _ (wp_watch_any _ _ _ hnone) (Spares.getCurrentUser {})

/-- What sets the new password does not raise `SamePasswordError`. -/
lemma Spares.setPassword (hb : Bcrypt x.pwdContext) (u : Uuid) (user : User T) (new : String) :
    Spares Exc.same q (do
      let hashedPassword ← SampleAuthApi.hashPassword x new
      let now ← utcnow
      let _ ← UserRepository.update user
        { hashedPassword := changed user.hashedPassword hashedPassword, updatedAt := some now }
      let _ ← TokenStore.deleteAllRefreshTokens u
      let _ ← UserDeviceRepository.deactivateAllDevices u) := by
  have hcall : ∀ o : Op T, Spares Exc.same q (Program.perform o) :=
    Spares.call same_of_external
  have hsweep : Spares (T := T) Exc.same q (TokenStore.deleteAllRefreshTokens u) := by
    refine Spares.bind (hcall _) fun (ds : Finset String) => ?_
    by_cases hcard : 0 < ds.card
    · simp only [hcard, if_true]
      exact Spares.bind (hcall _) fun _ => Spares.pure _
    · simp only [hcard, if_false]
      exact Spares.bind (hcall _) fun _ => Spares.pure _
  have hdevices : Spares (T := T) Exc.same q (UserDeviceRepository.deactivateAllDevices u) :=
    Spares.bind (hcall _) fun _ => Spares.bind (hcall _) fun _ =>
      Spares.bind (hcall _) fun _ => Spares.pure _
  refine Spares.bind (Spares.hashPassword hb new) fun hash => Spares.bind (hcall _) fun t => ?_
  refine Spares.bind (Spares.bind (hcall _) fun _ => Spares.pure _) fun _ => ?_
  exact Spares.bind hsweep fun _ => Spares.bind hdevices fun _ => Spares.pure _

/-- `change_password` raises `SamePasswordError` only if the new password verifies. -/
lemma wp_changePassword_same (hb : Bcrypt x.pwdContext) (u : Uuid) (current : String)
    {new : String} {f : Progress T} (hf : f.account = none) :
    wp (bystander q) (UserService.changePassword x u current new)
      (fun r f' => r = .error .samePassword → Passes x f' new) f := by
  have hother : ∀ (e : Exc) (f' : Progress T), e ≠ .samePassword →
      (.error e : Except Exc Unit) = .error .samePassword → Passes x f' new := by
    intro e f' hne he
    cases he
    exact absurd rfl hne
  unfold UserService.changePassword UserRepository.getById
  rw [wp_bind]
  refine wp_select trivial (fun s row hrow => ?_) (hother _ _ (by simp))
  cases row with
  | none => exact hother _ _ (by simp)
  | some user =>
    rw [afterBind_ok]
    have hfound : (f.note s (.select (.userById u)) (.ok (some user))).account =
        some (s, some user) := by
      change f.account.or (some (s, some user)) = _
      rw [hf, Option.none_or]
    unfold SampleAuthApi.verifyPassword
    simp only
    rw [wp_bind, wp_bind]
    refine wp_checkpw trivial ?_
    rw [afterBind_ok, Program.wp_ofExcept]
    cases hcur : x.pwdContext.verify current user.hashedPassword with
    | error e =>
      rw [hb.verify_error _ _ e hcur]
      exact hother _ _ (by simp)
    | ok b =>
      cases b with
      | false => exact hother _ _ (by simp)
      | true =>
        simp only [afterBind_ok, Bool.not_true, Bool.false_eq_true, if_false]
        rw [wp_bind, wp_bind]
        refine wp_checkpw trivial ?_
        rw [afterBind_ok, Program.wp_ofExcept]
        cases hnew : x.pwdContext.verify new user.hashedPassword with
        | error e =>
          rw [hb.verify_error _ _ e hnew]
          exact hother _ _ (by simp)
        | ok b =>
          cases b with
          | true => exact fun _ => ⟨s, user, hfound, hnew⟩
          | false =>
            simp only [afterBind_ok, Bool.false_eq_true, if_false]
            refine wp_mono (observer_monotone _ q) (fun r f' hspared he => ?_)
              (Spares.setPassword hb u user new _)
            have hsame := hspared _ he
            cases hsame

/-- `get_db` raises `SamePasswordError` only if its endpoint does. -/
lemma wp_getDb_same {α : Type} {p : Proc T α} {new : String} {f : Progress T}
    (h : wp (bystander q) p (fun r f' => r = .error .samePassword → Passes x f' new) f) :
    wp (bystander q) (getDb p) (fun r f' => r = .error .samePassword → Passes x f' new) f := by
  have hback : ∀ (e : Exc) (f' : Progress T), (e = .samePassword → Passes x f' new) →
      wp (bystander q) (do
        Program.perform Op.rollback
        throw e : Proc T α) (fun r f' => r = .error .samePassword → Passes x f' new) f' := by
    intro e f' hsame
    rw [wp_bind]
    refine wp_rollback trivial ?_
    intro he
    cases he
    exact hsame rfl
  unfold getDb
  rw [Program.wp_tryCatch, wp_bind]
  refine wp_mono (observer_monotone _ q) (fun r f' hr => ?_) h
  cases r with
  | error e => exact hback e f' fun he => hr (by rw [he])
  | ok a =>
    rw [afterBind_ok, wp_bind]
    refine wp_commit trivial ?_ (hback _ _ (by simp))
    intro he
    cases he

/-- Every endpoint keeps its contract, and a change of the password answers `SamePasswordError` only
if the new password verifies. -/
lemma endpoint_same (hb : Bcrypt x.pwdContext) (q : Request K) :
    wp (onlooker x q) (endpoint x q)
      (fun r f => Ends x q r f ∧ SameOnly x q r f) ({} : Progress T) := by
  have hends := endpoint_conforms (T := T) x q
  have hvacuous : (∀ tok dev current new, q ≠ .changePassword tok dev current new) →
      wp (onlooker x q) (endpoint x q)
        (fun r f => Ends x q r f ∧ SameOnly x q r f) ({} : Progress T) := by
    intro hq
    refine wp_mono (observer_monotone _ q) (fun r f hr => ⟨hr, ?_⟩) hends
    intro tok dev current new heq
    exact absurd heq (hq tok dev current new)
  cases q with
  | changePassword tok dev current new =>
    have hsame : wp (bystander (.changePassword tok dev current new))
        (endpoint x (.changePassword tok dev current new))
        (fun r f => r = .error .samePassword → Passes x f new) ({} : Progress T) := by
      change wp _ (SampleAuthApi.getCurrentUser x tok dev >>= _) _ _
      rw [wp_bind]
      refine wp_mono (observer_monotone _ _) (fun r f hr => ?_)
        (wp_getCurrentUser_account (x := x) rfl)
      cases r with
      | error e =>
        intro he
        cases he
        have hspared := hr.2 _ rfl
        cases hspared
      | ok user =>
        refine wp_getDb_same ?_
        rw [wp_bind]
        refine wp_mono (observer_monotone _ _) (fun r' f' hr' => ?_)
          (wp_changePassword_same hb user.userId current (hr.1 user rfl))
        cases r' with
        | error e =>
          intro he
          cases he
          exact hr' rfl
        | ok b =>
          intro he
          cases he
    refine wp_mono (observer_monotone _ _) (fun r f hr => ⟨hr.1, ?_⟩)
      (wp_watch_and _ _ _ hends hsame)
    intro tok' dev' current' new' heq
    cases heq
    exact hr.2
  | _ => exact hvacuous fun _ _ _ _ heq => by cases heq

end Same

/-! ## Passwords that are compared in full -/

variable [DecidableEq K]

/-- The password `p` is hashed, and nothing else is taken for it: by `verify_password`, by a login
that succeeds, and by a change of the password that answers `SamePasswordError`. -/
structure ComparedInFull (T : Type) [Instant T] (x : Externals K) (p : String) : Prop where
  hashes : ∀ (answers : (o : Op T) → Except Exc o.Reply) salt, answers .gensalt = .ok salt →
    ∃ h, (hashPassword x p).eval answers = .ok h
  verifies : ∀ h, Returns (hashPassword x p : Proc T String) h → ∀ q,
    Returns (verifyPassword x q h : Proc T Bool) true ↔ q = p
  login : ∀ (now : T) (db : Database T) (drawn : List Uuid) (w : World T K),
    Reach (server x) AnyEvent (Pool.initial (Stores.initial now db drawn)) w → ∀ y ∈ w.log,
    ∀ email q client resp, y.request = .login email q client → y.result = .ok resp →
      FoundWith x p (progress y.performed) → q = p
  change : ∀ (now : T) (db : Database T) (drawn : List Uuid) (w : World T K),
    Reach (server x) AnyEvent (Pool.initial (Stores.initial now db drawn)) w → ∀ y ∈ w.log,
    ∀ tok dev current new, y.request = .changePassword tok dev current new →
      y.result = .error .samePassword → FoundWith x p (progress y.performed) → new = p

/-- Answers under which only a salt is drawn. -/
def saltOnly : (o : Op T) → Except Exc o.Reply
  | .gensalt => .ok ""
  | _ => .error .unavailable

section Full

variable {x : Externals K} {p : String}

omit [DecidableEq K] in
/-- A password of fewer than 72 bytes is the only one that verifies against its hash. -/
lemma verify_eq_true_iff (hb : Bcrypt x.pwdContext) (hnul : ¬ HasNul p)
    (hlen : p.length ≤ 4096) (hshort : (Bytes.utf8 p).length < 72) {salt h q : String}
    (hhash : x.pwdContext.hash salt p = .ok h) : x.pwdContext.verify q h = .ok true ↔ q = p := by
  constructor
  · intro hverify
    exact eq_of_bcryptKey_eq hshort (hb.sound salt p h q hhash hverify)
  · rintro rfl
    rw [hb.verifies salt q h q hhash hnul hlen, decide_eq_true rfl]

omit [Instant T] [DecidableEq K] in
/-- A request that has found an account whose password is `p`, and has verified another one, has
verified `p`. -/
lemma eq_of_passes (hunique : ∀ salt h, x.pwdContext.hash salt p = .ok h → ∀ q,
      x.pwdContext.verify q h = .ok true → q = p) {f : Progress T} {q : String}
    (hfound : FoundWith x p f) (hverified : Passes x f q) : q = p := by
  obtain ⟨s, user, hacc, hhash⟩ := hfound
  obtain ⟨s', user', hacc', hverify⟩ := hverified
  rw [hacc, Option.some.injEq, Prod.mk.injEq, Option.some.injEq] at hacc'
  obtain ⟨-, rfl⟩ := hacc'
  obtain ⟨salt, hhash⟩ := returns_hashPassword.mp hhash
  exact hunique salt _ hhash q hverify

/-- A password that the schemas accept is compared in full exactly when it has no character `U+0000`
and fewer than 72 bytes in UTF-8. -/
theorem compared_in_full_iff (hb : Bcrypt x.pwdContext) (hp : checkPassword p = .ok p) :
    ComparedInFull T x p ↔ '\x00' ∉ p.toList ∧ (Bytes.utf8 p).length < 72 := by
  have hlen : p.length ≤ 100 := (checkPassword_eq_ok.mp hp).2.maxLength
  constructor
  · intro hfull
    have hnul : ¬ HasNul p := by
      intro hnul
      obtain ⟨h, hhash⟩ := hfull.hashes saltOnly "" rfl
      rw [eval_hashPassword rfl, hb.nul "" p hnul] at hhash
      cases hhash
    refine ⟨hnul, ?_⟩
    by_contra hlong
    obtain ⟨h, hhash⟩ := hb.hashes "" p hnul (by omega)
    have hnul' : ¬ HasNul (p ++ "x") := by
      intro hmem
      rw [HasNul, String.toList_append, List.mem_append] at hmem
      exact hmem.elim hnul (by decide)
    have hlen' : (p ++ "x").length = p.length + 1 := by
      rw [String.length_append]
      rfl
    have hverify := hb.verifies "" p h (p ++ "x") hhash hnul' (by omega)
    rw [bcryptKey_append (not_lt.mp hlong), decide_eq_true rfl] at hverify
    have hsame := (hfull.verifies h (returns_hashPassword.mpr ⟨"", hhash⟩) (p ++ "x")).mp
      (returns_verifyPassword.mpr hverify)
    rw [hsame] at hlen'
    omega
  · rintro ⟨hnul, hshort⟩
    have hunique : ∀ salt h, x.pwdContext.hash salt p = .ok h → ∀ q,
        x.pwdContext.verify q h = .ok true ↔ q = p := fun salt h hhash q =>
      verify_eq_true_iff hb hnul (by omega) hshort hhash
    have hverified : ∀ salt h, x.pwdContext.hash salt p = .ok h → ∀ q,
        x.pwdContext.verify q h = .ok true → q = p := fun salt h hhash q =>
      (hunique salt h hhash q).mp
    refine ⟨?_, ?_, ?_, ?_⟩
    · intro answers salt hsalt
      obtain ⟨h, hhash⟩ := hb.hashes salt p hnul (by omega)
      exact ⟨h, (eval_hashPassword hsalt).trans hhash⟩
    · intro h hreturns q
      obtain ⟨salt, hhash⟩ := returns_hashPassword.mp hreturns
      rw [returns_verifyPassword]
      exact hunique salt h hhash q
    · intro now db drawn w hreach y hy email q client resp hq hres hfound
      have hends := ((invariant_initial x now db drawn).reach hreach).sound.conforms.log y hy
      rw [hq, hres] at hends
      obtain ⟨-, ⟨u, ⟨email', q', client', s, user, hlogin, -, hacc, -, -, hverify, -⟩, -⟩, -⟩ :=
        hends
      cases hlogin
      exact eq_of_passes hverified hfound ⟨s, user, hacc, hverify⟩
    · intro now db drawn w hreach y hy tok dev current new hq hres hfound
      have hsame := (kept_and_of_reach (endpoint_same hb) hreach).conforms.log y hy
      exact eq_of_passes hverified hfound (hsame.2 tok dev current new hq hres)

end Full

/-! ## Readable hashes -/

namespace Plain

/-- A text for the part of a password that is hashed. -/
def digest (p : String) : String := String.ofList ((bcryptKey p).map Char.ofUInt8)

/-- The passwords that `passlib` does not refuse. -/
abbrev Hashable (p : String) : Prop := ¬ HasNul p ∧ p.length ≤ 4096

/-- `passlib` with `bcrypt`, with hashes that can be read. -/
def bcrypt : CryptContext where
  hash _ p := if Hashable p then .ok (digest p) else .error .passwordValue
  verify q h := if Hashable q then .ok (digest q == h) else .error .passwordValue

/-- The plain service, with passwords that are hashed. -/
def hashing : Externals Claims := { externals with pwdContext := bcrypt }

lemma digest_inj {p q : String} : digest q = digest p ↔ bcryptKey q = bcryptKey p := by
  have hchar : Function.Injective Char.ofUInt8 := by
    intro u v h
    have hval : (Char.ofUInt8 u).toNat = (Char.ofUInt8 v).toNat := by rw [h]
    exact UInt8.toNat_inj.mp hval
  constructor
  · intro h
    exact List.map_injective_iff.mpr hchar (String.ofList_injective h)
  · intro h
    rw [digest, h, digest]

lemma bcrypt_hash {salt p : String} {r : Except Exc String} (h : bcrypt.hash salt p = r) :
    (Hashable p ∧ r = .ok (digest p)) ∨ (¬ Hashable p ∧ r = .error .passwordValue) := by
  subst h
  by_cases hp : Hashable p
  · exact .inl ⟨hp, if_pos hp⟩
  · exact .inr ⟨hp, if_neg hp⟩

lemma bcrypt_verify {q h : String} {r : Except Exc Bool} (hr : bcrypt.verify q h = r) :
    (Hashable q ∧ r = .ok (digest q == h)) ∨ (¬ Hashable q ∧ r = .error .passwordValue) := by
  subst hr
  by_cases hq : Hashable q
  · exact .inl ⟨hq, if_pos hq⟩
  · exact .inr ⟨hq, if_neg hq⟩

theorem bcrypt_lawful : Bcrypt bcrypt where
  nul salt p hnul := if_neg fun hp => hp.1 hnul
  hashes salt p hnul hlen := ⟨digest p, if_pos ⟨hnul, hlen⟩⟩
  verifies salt p h q hhash hnul hlen := by
    rcases bcrypt_hash hhash with ⟨-, hr⟩ | ⟨-, hr⟩
    · cases hr
      rcases bcrypt_verify (q := q) (h := digest p) rfl with ⟨-, hq⟩ | ⟨hq, -⟩
      · rw [hq, Bool.beq_eq_decide_eq, decide_eq_decide.mpr digest_inj]
      · exact absurd ⟨hnul, hlen⟩ hq
    · cases hr
  sound salt p h q hhash hverify := by
    rcases bcrypt_hash hhash with ⟨-, hr⟩ | ⟨-, hr⟩
    · cases hr
      rcases bcrypt_verify hverify with ⟨-, hq⟩ | ⟨-, hq⟩
      · exact digest_inj.mp (beq_iff_eq.mp (Except.ok.inj hq).symm)
      · cases hq
    · cases hr
  hash_error salt p e hhash := by
    rcases bcrypt_hash hhash with ⟨-, hr⟩ | ⟨-, hr⟩
    · cases hr
    · exact Except.error.inj hr
  verify_error q h e hverify := by
    rcases bcrypt_verify hverify with ⟨-, hr⟩ | ⟨-, hr⟩
    · cases hr
    · exact Except.error.inj hr

end Plain

/-- A password that is compared in full. -/
theorem compared_in_full_short : ComparedInFull ℚ Plain.hashing "Passw0rd!" :=
  (compared_in_full_iff Plain.bcrypt_lawful (by decide +kernel)).mpr (by decide +kernel)

/-- A password of 24 syllables, each of three bytes, and of three more characters. -/
def longPassword : String := "비밀번호비밀번호비밀번호비밀번호비밀번호비밀번호a1!"

/-- The three last characters of a long password are not compared. -/
theorem long_password_cut : ¬ ∀ p, checkPassword p = .ok p → ComparedInFull ℚ Plain.hashing p := by
  intro hclaim
  have hfull := hclaim longPassword (by decide +kernel)
  have hhash : Plain.hashing.pwdContext.hash "" longPassword = .ok (Plain.digest longPassword) := by
    decide +kernel
  have hverify : Plain.hashing.pwdContext.verify
      "비밀번호비밀번호비밀번호비밀번호비밀번호비밀번호z9?" (Plain.digest longPassword) = .ok true := by
    decide +kernel
  have hsame := (hfull.verifies _ (returns_hashPassword.mpr ⟨"", hhash⟩) _).mp
    (returns_verifyPassword.mpr hverify)
  exact absurd hsame (by decide +kernel)

end SampleAuthApi
