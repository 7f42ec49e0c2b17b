import Mathlib

/-!
# Programs that call an environment

A `Program` is a request handler seen from outside: it returns a value, raises an exception, or
issues one call and continues with the answer.  The answer to a call is a value of the call's own
reply type or an exception, so a `try`/`except` around a call sees the failures of the environment
as well as the exceptions of the program itself.

`Program.wp` is the weakest precondition of a program over states that a given *observer* moves
from one call to the next.  The observer is a parameter: it may be the environment itself, or only
what an onlooker remembers of the calls made so far.
-/

/-- A program that issues calls `o : O`, each answered by a value of `R o` or an exception in
`E`, and ends with a value in `α` or an exception in `E`. -/
inductive Program (O : Type) (R : O → Type) (E α : Type) : Type
  /-- The program returns `a`. -/
  | ret (a : α)
  /-- The program raises `e`. -/
  | raise (e : E)
  /-- The program issues the call `o` and continues with the answer. -/
  | call (o : O) (k : Except E (R o) → Program O R E α)

namespace Program

variable {O : Type} {R : O → Type} {E α β γ σ : Type}

/-- Sequential composition: an exception of the first program skips the second. -/
def bind : Program O R E α → (α → Program O R E β) → Program O R E β
  | ret a, f => f a
  | raise e, _ => raise e
  | call o k, f => call o fun r => (k r).bind f

/-- Run `handler` on the exception that `p` raises, if it raises one. -/
def tryCatch : Program O R E α → (E → Program O R E α) → Program O R E α
  | ret a, _ => ret a
  | raise e, handler => handler e
  | call o k, handler => call o fun r => (k r).tryCatch handler

/-- Continue with the answer to a call, re-raising the exception it may be. -/
def ofExcept : Except E α → Program O R E α
  | .ok a => ret a
  | .error e => raise e

/-- The single call `o`. -/
def perform (o : O) : Program O R E (R o) := call o ofExcept

instance : Monad (Program O R E) where
  pure := ret
  bind := bind

/-- The result of a program that issues no further call. -/
def result? : Program O R E α → Option (Except E α)
  | ret a => some (.ok a)
  | raise e => some (.error e)
  | call _ _ => none

/-- The next call of a program that has not ended. -/
def next? : Program O R E α → Option O
  | call o _ => some o
  | _ => none

@[simp] theorem result?_ret (a : α) : (ret a : Program O R E α).result? = some (.ok a) := rfl

@[simp] theorem result?_raise (e : E) : (raise e : Program O R E α).result? = some (.error e) := rfl

@[simp] theorem result?_call (o : O) (k : Except E (R o) → Program O R E α) :
    (call o k).result? = none := rfl

@[simp] theorem next?_call (o : O) (k : Except E (R o) → Program O R E α) :
    (call o k).next? = some o := rfl

/-! ## Results under given answers -/

/-- The result of a program whose calls are answered by `answers`. -/
def eval (answers : (o : O) → Except E (R o)) : Program O R E α → Except E α
  | ret a => .ok a
  | raise e => .error e
  | call o k => (k (answers o)).eval answers

@[simp] theorem ok_bind (a : α) (f : α → Except E β) : (Except.ok a >>= f) = f a := rfl

@[simp] theorem error_bind (e : E) (f : α → Except E β) :
    (Except.error e >>= f) = Except.error e := rfl

@[simp] theorem eval_pure (answers : (o : O) → Except E (R o)) (a : α) :
    (pure a : Program O R E α).eval answers = .ok a := rfl

@[simp] theorem eval_raise (answers : (o : O) → Except E (R o)) (e : E) :
    (raise e : Program O R E α).eval answers = .error e := rfl

@[simp] theorem eval_perform (answers : (o : O) → Except E (R o)) (o : O) :
    (perform o : Program O R E (R o)).eval answers = answers o := by
  simp only [perform, eval]
  cases answers o <;> rfl

/-- Programs in sequence are evaluated one after the other. -/
@[simp] theorem eval_bind (answers : (o : O) → Except E (R o)) (p : Program O R E α)
    (f : α → Program O R E β) :
    (p >>= f).eval answers = p.eval answers >>= fun a => (f a).eval answers := by
  change (p.bind f).eval answers = _
  induction p with
  | ret a => rfl
  | raise e => rfl
  | call o k ih => exact ih (answers o)

/-- Some answers of the environment make the program return `a`. -/
inductive Returns : Program O R E α → α → Prop
  /-- The program returns at once. -/
  | ret (a : α) : Returns (.ret a) a
  /-- The program returns after the answer `r` to its next call. -/
  | call {o : O} {k : Except E (R o) → Program O R E α} {a : α} (r : Except E (R o))
      (h : Returns (k r) a) : Returns (.call o k) a

/-- A program whose calls are answered returns what it evaluates to. -/
theorem returns_of_eval {answers : (o : O) → Except E (R o)} {p : Program O R E α} {a : α}
    (h : p.eval answers = .ok a) : Returns p a := by
  induction p with
  | ret b =>
    rw [← Except.ok.inj h]
    exact .ret b
  | raise e => cases h
  | call o k ih => exact .call (answers o) (ih (answers o) h)

/-- What a sequence returns is what its second part returns after its first part returned. -/
theorem returns_bind {p : Program O R E α} {f : α → Program O R E β} {b : β} :
    Returns (p >>= f) b ↔ ∃ a, Returns p a ∧ Returns (f a) b := by
  change Returns (p.bind f) b ↔ _
  induction p with
  | ret a =>
    constructor
    · intro h
      exact ⟨a, .ret a, h⟩
    · rintro ⟨a', ⟨⟩, h⟩
      exact h
  | raise e =>
    constructor
    · intro h
      cases h
    · rintro ⟨a, ⟨⟩, -⟩
  | call o k ih =>
    constructor
    · rintro (_ | ⟨r, h⟩)
      obtain ⟨a, ha, hf⟩ := (ih r).mp h
      exact ⟨a, .call r ha, hf⟩
    · rintro ⟨a, _ | ⟨r, ha⟩, hf⟩
      exact .call r ((ih r).mpr ⟨a, ha, hf⟩)

/-- A value returns only itself. -/
@[simp] theorem returns_pure {a b : α} : Returns (pure a : Program O R E α) b ↔ b = a := by
  constructor
  · rintro ⟨⟩
    rfl
  · rintro rfl
    exact .ret b

/-- An exception returns nothing. -/
@[simp] theorem returns_raise {e : E} {a : α} : ¬ Returns (raise e : Program O R E α) a := by
  rintro ⟨⟩

/-! ## Weakest preconditions -/

/-- How an onlooker with memory `σ` sees one call: `A o s k` is what must hold of `s` so that
`k` holds of every answer to `o` and of the memory after it. -/
abbrev Observer (O : Type) (R : O → Type) (E σ : Type) : Type :=
  (o : O) → σ → (Except E (R o) → σ → Prop) → Prop

/-- An observer is monotone when weakening the goal weakens the requirement. -/
def Observer.Monotone (A : Observer O R E σ) : Prop :=
  ∀ o s (k k' : Except E (R o) → σ → Prop), (∀ r s', k r s' → k' r s') → A o s k → A o s k'

/-- The weakest precondition of `p` for the postcondition `Q`, under the observer `A`. -/
def wp (A : Observer O R E σ) : Program O R E α → (Except E α → σ → Prop) → σ → Prop
  | ret a, Q, s => Q (.ok a) s
  | raise e, Q, s => Q (.error e) s
  | call o k, Q, s => A o s fun r s' => (k r).wp A Q s'

variable (A : Observer O R E σ)

@[simp] theorem wp_ret (a : α) (Q : Except E α → σ → Prop) (s : σ) :
    wp A (ret a) Q s = Q (.ok a) s := rfl

@[simp] theorem wp_pure (a : α) (Q : Except E α → σ → Prop) (s : σ) :
    wp A (pure a) Q s = Q (.ok a) s := rfl

@[simp] theorem wp_raise (e : E) (Q : Except E α → σ → Prop) (s : σ) :
    wp A (raise e) Q s = Q (.error e) s := rfl

/-- A call is judged by the onlooker, and the rest by the answer. -/
theorem wp_call (o : O) (k : Except E (R o) → Program O R E α) (Q : Except E α → σ → Prop) (s : σ) :
    wp A (call o k) Q s = A o s fun r s' => wp A (k r) Q s' := rfl

/-- A result that is at hand. -/
@[simp] theorem wp_ofExcept (x : Except E α) (Q : Except E α → σ → Prop) (s : σ) :
    wp A (ofExcept x) Q s = Q x s := by
  cases x <;> rfl

/-- A single call. -/
@[simp] theorem wp_perform (o : O) (Q : Except E (R o) → σ → Prop) (s : σ) :
    wp A (perform o) Q s = A o s Q := by
  simp [perform, wp_call]

/-- The postcondition that `p` must meet so that `p >>= f` meets `Q`. -/
def afterBind (f : α → Program O R E β) (Q : Except E β → σ → Prop) (x : Except E α) (s : σ) :
    Prop :=
  match x with
  | .ok a => wp A (f a) Q s
  | .error e => Q (.error e) s

@[simp] theorem afterBind_ok (f : α → Program O R E β) (Q : Except E β → σ → Prop) (a : α)
    (s : σ) : afterBind A f Q (.ok a) s = wp A (f a) Q s := rfl

@[simp] theorem afterBind_error (f : α → Program O R E β) (Q : Except E β → σ → Prop) (e : E)
    (s : σ) : afterBind A f Q (.error e) s = Q (.error e) s := rfl

/-- Weakest preconditions compose along sequencing. -/
@[simp] theorem wp_bind (p : Program O R E α) (f : α → Program O R E β)
    (Q : Except E β → σ → Prop) (s : σ) :
    wp A (p >>= f) Q s = wp A p (afterBind A f Q) s := by
  change wp A (p.bind f) Q s = _
  induction p generalizing s with
  | ret a => rfl
  | raise e => rfl
  | call o k ih =>
    simp only [bind, wp_call]
    congr 1
    funext r s'
    exact ih r s'

/-- The postcondition that `p` must meet so that `p.tryCatch handler` meets `Q`. -/
def afterTry (handler : E → Program O R E α) (Q : Except E α → σ → Prop) (x : Except E α)
    (s : σ) : Prop :=
  match x with
  | .ok a => Q (.ok a) s
  | .error e => wp A (handler e) Q s

@[simp] theorem afterTry_ok (handler : E → Program O R E α) (Q : Except E α → σ → Prop) (a : α)
    (s : σ) : afterTry A handler Q (.ok a) s = Q (.ok a) s := rfl

@[simp] theorem afterTry_error (handler : E → Program O R E α) (Q : Except E α → σ → Prop) (e : E)
    (s : σ) : afterTry A handler Q (.error e) s = wp A (handler e) Q s := rfl

/-- Weakest preconditions compose along exception handlers. -/
@[simp] theorem wp_tryCatch (p : Program O R E α) (handler : E → Program O R E α)
    (Q : Except E α → σ → Prop) (s : σ) :
    wp A (p.tryCatch handler) Q s = wp A p (afterTry A handler Q) s := by
  induction p generalizing s with
  | ret a => rfl
  | raise e => rfl
  | call o k ih =>
    simp only [tryCatch, wp_call]
    congr 1
    funext r s'
    exact ih r s'

variable {A}

/-- The rule of consequence. -/
theorem wp_mono (hA : A.Monotone) {p : Program O R E α} {Q Q' : Except E α → σ → Prop}
    (hQ : ∀ x s, Q x s → Q' x s) {s : σ} (h : wp A p Q s) : wp A p Q' s := by
  induction p generalizing s with
  | ret a => exact hQ _ _ h
  | raise e => exact hQ _ _ h
  | call o k ih => exact hA o s _ _ (fun r s' hr => ih r hr) h

end Program
