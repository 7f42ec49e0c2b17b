import SampleAuthApi.Foundation.Program

/-!
# Outcomes of programs

`Ends step p s x s'` says that `p`, started in the state `s`, may end with `x` in the state `s'`,
where `step` relates a call and the state before it to the answers it may get and the state after
it.  The weakest precondition under the observer `demonic step` speaks of all of them
(`wp_demonic`), so the rules of `Program.wp` prove facts about every outcome.

`attempt` and `andFinally` are the exception handlers of a program that passes exceptions on, and
`interpret` lets a program act through another one: every call of the first is carried out by a
program of the second.
-/

namespace Program

variable {O O' : Type} {R : O → Type} {R' : O' → Type} {E α β σ : Type}

/-- The outcome of `p` as a value. -/
def attempt : Program O R E α → Program O R E (Except E α)
  | ret a => ret (.ok a)
  | raise e => ret (.error e)
  | call o k => call o fun r => (k r).attempt

/-- `try: p finally: cleanup`. -/
def andFinally (p : Program O R E α) (cleanup : Program O R E Unit) : Program O R E α := do
  let x ← p.attempt
  cleanup
  ofExcept x

/-- Carry out `p` by `act`; an exception that `act` raises is the answer to the call. -/
def interpret (act : (o : O') → Program O R E (R' o)) : Program O' R' E α → Program O R E α
  | ret a => ret a
  | raise e => raise e
  | call o k => (act o).attempt.bind fun r => (k r).interpret act

/-! ## Outcomes -/

/-- The answers that a call may get, with the state before and after it. -/
abbrev Step (O : Type) (R : O → Type) (E σ : Type) : Type :=
  (o : O) → σ → Except E (R o) → σ → Prop

/-- The program may end with this result, and in this state. -/
inductive Ends (step : Step O R E σ) : Program O R E α → σ → Except E α → σ → Prop
  /-- The program has returned. -/
  | ret (a : α) (s : σ) : Ends step (.ret a) s (.ok a) s
  /-- The program has raised an exception. -/
  | raise (e : E) (s : σ) : Ends step (.raise e) s (.error e) s
  /-- A call is answered and the program goes on. -/
  | call {o : O} {k : Except E (R o) → Program O R E α} {s s' s'' : σ} {r : Except E (R o)}
      {x : Except E α} (h : step o s r s') (hk : Ends step (k r) s' x s'') :
      Ends step (.call o k) s x s''

/-- The observer for which a call may be answered in every way that `step` allows. -/
def demonic (step : Step O R E σ) : Observer O R E σ := fun o s k =>
  ∀ r s', step o s r s' → k r s'

variable {step : Step O R E σ}

theorem demonic_monotone : (demonic step).Monotone := by
  intro o s k k' hk h r s' hstep
  exact hk r s' (h r s' hstep)

/-- The weakest precondition is what holds before every outcome that meets the postcondition. -/
theorem wp_demonic {p : Program O R E α} {Q : Except E α → σ → Prop} {s : σ} :
    wp (demonic step) p Q s ↔ ∀ x s', Ends step p s x s' → Q x s' := by
  induction p generalizing s with
  | ret a =>
    constructor
    · rintro h _ _ ⟨⟩
      exact h
    · intro h
      exact h _ _ (.ret a s)
  | raise e =>
    constructor
    · rintro h _ _ ⟨⟩
      exact h
    · intro h
      exact h _ _ (.raise e s)
  | call o k ih =>
    constructor
    · rintro h x s' (_ | _ | ⟨hstep, hk⟩)
      exact (ih _).mp (h _ _ hstep) x s' hk
    · intro h r s' hstep
      exact (ih r).mpr fun x s'' hk => h x s'' (.call hstep hk)

/-! ## Rules -/

variable (A : Observer O R E σ)

@[simp] theorem wp_attempt (p : Program O R E α) (Q : Except E (Except E α) → σ → Prop) (s : σ) :
    wp A p.attempt Q s = wp A p (fun x s' => Q (.ok x) s') s := by
  induction p generalizing s with
  | ret a => rfl
  | raise e => rfl
  | call o k ih =>
    simp only [attempt, wp_call]
    congr 1
    funext r s'
    exact ih r s'

/-- What must hold after `p` so that `cleanup` and then the outcome of `p` meet `Q`. -/
def afterFinally (cleanup : Program O R E Unit) (Q : Except E α → σ → Prop) (x : Except E α)
    (s : σ) : Prop :=
  wp A cleanup (afterBind A (fun _ => ofExcept x) Q) s

@[simp] theorem wp_andFinally (p : Program O R E α) (cleanup : Program O R E Unit)
    (Q : Except E α → σ → Prop) (s : σ) :
    wp A (p.andFinally cleanup) Q s = wp A p (afterFinally A cleanup Q) s := by
  unfold andFinally
  rw [wp_bind, wp_attempt]
  congr 1
  funext x s'
  simp only [afterBind_ok, wp_bind]
  rfl

/-- A program keeps an invariant under any interpretation whose calls keep it. -/
theorem wp_interpret_of_invariant {A : Observer O R E σ} (hA : A.Monotone) {I : σ → Prop}
    {act : (o : O') → Program O R E (R' o)} (hact : ∀ o s, I s → wp A (act o) (fun _ => I) s)
    (p : Program O' R' E α) {s : σ} (hs : I s) :
    wp A (p.interpret act) (fun _ => I) s := by
  induction p generalizing s with
  | ret a => exact hs
  | raise e => exact hs
  | call o k ih =>
    change wp A ((act o).attempt >>= fun r => (k r).interpret act) (fun _ => I) s
    rw [wp_bind, wp_attempt]
    exact wp_mono hA (fun r s' hs' => ih r hs') (hact o s hs)

end Program
