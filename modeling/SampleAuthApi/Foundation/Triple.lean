import SampleAuthApi.Foundation.Program

/-!
# Pre- and postconditions of programs

`Meets A P p Q` is the triple of a program under an onlooker `A`: from a memory that satisfies `P`
the program only issues calls that the onlooker accepts, and if it returns `a`, the memory and `a`
satisfy `Q`.  Nothing is said of a program that raises, so a handler that always raises meets every
postcondition.

`Within A n` bounds the calls themselves, with no memory: a program makes at most `n` calls, each of
which satisfies `A`, whatever it is answered.
-/

namespace Program

variable {O : Type} {R : O → Type} {E α β σ : Type}

/-! ## Triples -/

/-- From a memory that satisfies `P` the program `p` keeps to the onlooker `A`, and what it returns
satisfies `Q`. -/
def Meets (A : Observer O R E σ) (P : σ → Prop) (p : Program O R E α) (Q : α → σ → Prop) : Prop :=
  ∀ s, P s → wp A p (fun r s' => ∀ a, r = .ok a → Q a s') s

namespace Meets

variable {A : Observer O R E σ} {P P' : σ → Prop} {Q Q' : α → σ → Prop} {S : β → σ → Prop}

/-- A program that only returns a value needs it to satisfy the postcondition. -/
theorem pure {a : α} (h : ∀ s, P s → Q a s) : Meets A P (pure a) Q := by
  intro s hs b hb
  cases hb
  exact h s hs

/-- A program that raises meets every postcondition. -/
theorem raise {e : E} : Meets A P (raise e) Q := by
  intro s _ a ha
  cases ha

/-- What follows an exception is not run. -/
theorem raise_bind {e : E} {f : α → Program O R E β} :
    Meets A P ((Program.raise e : Program O R E α) >>= f) S := raise

/-- A result that is at hand. -/
theorem ofExcept {r : Except E α} (h : ∀ a s, r = .ok a → P s → Q a s) :
    Meets A P (ofExcept r) Q := by
  intro s hs
  rw [wp_ofExcept]
  intro a ha
  exact h a s ha hs

/-- The rule of consequence. -/
theorem imp (hA : A.Monotone) {p : Program O R E α} (h : Meets A P p Q) (hP : ∀ s, P' s → P s)
    (hQ : ∀ a s, Q a s → Q' a s) : Meets A P' p Q' := by
  intro s hs
  exact wp_mono hA (fun r s' hr a ha => hQ a s' (hr a ha)) (h s (hP s hs))

/-- The rule of sequencing: the second program starts from the postcondition of the first. -/
theorem bind (hA : A.Monotone) {p : Program O R E α} {f : α → Program O R E β}
    (hp : Meets A P p Q) (hf : ∀ a, Meets A (Q a) (f a) S) : Meets A P (p >>= f) S := by
  intro s hs
  rw [wp_bind]
  refine wp_mono hA (fun r s' hr => ?_) (hp s hs)
  cases r with
  | ok a => exact hf a s' (hr a rfl)
  | error e =>
    intro b hb
    cases hb

/-- A program with a handler that starts from any memory. -/
theorem tryCatch (hA : A.Monotone) {p : Program O R E α} {handler : E → Program O R E α}
    (hp : Meets A P p Q) (hh : ∀ e, Meets A (fun _ => True) (handler e) Q) :
    Meets A P (p.tryCatch handler) Q := by
  intro s hs
  rw [wp_tryCatch]
  refine wp_mono hA (fun r s' hr => ?_) (hp s hs)
  cases r with
  | ok a => exact hr
  | error e => exact hh e s' trivial

end Meets

/-! ## Bounds -/

/-- The program makes at most `n` calls, whatever the answers, and each of them satisfies `A`. -/
def Within (A : O → Prop) : Program O R E α → ℕ → Prop
  | ret _, _ => True
  | .raise _, _ => True
  | call o k, n => A o ∧ ∃ m, m + 1 = n ∧ ∀ r, (k r).Within A m

namespace Within

variable {A B : O → Prop} {n m : ℕ}

/-- A value costs no call. -/
theorem pure {a : α} : (pure a : Program O R E α).Within A n := trivial

/-- An exception costs no call. -/
theorem raise {e : E} : (Program.raise e : Program O R E α).Within A n := trivial

/-- What follows an exception costs nothing. -/
theorem raise_bind {e : E} {f : α → Program O R E β} :
    ((Program.raise e : Program O R E α) >>= f).Within A n := trivial

/-- A result that is at hand costs no call. -/
theorem ofExcept {r : Except E α} : (Program.ofExcept r : Program O R E α).Within A n := by
  cases r <;> trivial

/-- A single call. -/
theorem perform {o : O} (h : A o) : (perform o : Program O R E (R o)).Within A 1 :=
  ⟨h, 0, rfl, fun r => by cases r <;> trivial⟩

/-- A bound may be raised, and the condition on the calls weakened. -/
theorem mono {p : Program O R E α} (h : p.Within A n) (hA : ∀ o, A o → B o) (hn : n ≤ m) :
    p.Within B m := by
  induction p generalizing n m with
  | ret a => trivial
  | raise e => trivial
  | call o k ih =>
    obtain ⟨ho, n', rfl, hk⟩ := h
    obtain ⟨m', rfl⟩ : ∃ m', m = m' + 1 := ⟨m - 1, by omega⟩
    exact ⟨hA o ho, m', rfl, fun r => ih r (hk r) (by omega)⟩

/-- The bounds of two programs in sequence add up. -/
theorem bind {p : Program O R E α} {f : α → Program O R E β} (hp : p.Within A n)
    (hf : ∀ a, (f a).Within A m) : (p >>= f).Within A (n + m) := by
  change (p.bind f).Within A (n + m)
  induction p generalizing n with
  | ret a => exact (hf a).mono (fun _ h => h) (Nat.le_add_left m n)
  | raise e => trivial
  | call o k ih =>
    obtain ⟨ho, n', rfl, hk⟩ := hp
    exact ⟨ho, n' + m, by omega, fun r => ih r (hk r)⟩

/-- What is computed from the result costs nothing. -/
theorem map {p : Program O R E α} (f : α → β) (hp : p.Within A n) :
    (p >>= fun a => Pure.pure (f a)).Within A n :=
  bind (m := 0) hp fun _ => trivial

/-- The bound of a handler is added to the bound of what it guards. -/
theorem tryCatch {p : Program O R E α} {handler : E → Program O R E α} (hp : p.Within A n)
    (hh : ∀ e, (handler e).Within A m) : (p.tryCatch handler).Within A (n + m) := by
  induction p generalizing n with
  | ret a => trivial
  | raise e => exact (hh e).mono (fun _ h => h) (Nat.le_add_left m n)
  | call o k ih =>
    obtain ⟨ho, n', rfl, hk⟩ := hp
    exact ⟨ho, n' + m, by omega, fun r => ih r (hk r)⟩

/-- A program whose calls the onlooker accepts in a memory that satisfies `P`, and which leave it
such a memory, keeps `P`. -/
theorem meets {O' : Observer O R E σ} {P : σ → Prop} {p : Program O R E α}
    (h : p.Within A n)
    (hA : ∀ o, A o → ∀ s, P s → ∀ K : Except E (R o) → σ → Prop,
      (∀ r s', P s' → K r s') → O' o s K) : Meets O' P p fun _ => P := by
  induction p generalizing n with
  | ret a => exact Meets.pure fun _ hs => hs
  | raise e => exact Meets.raise
  | call o k ih =>
    obtain ⟨ho, n', -, hk⟩ := h
    intro s hs
    exact hA o ho s hs _ fun r s' hs' => ih r (hk r) s' hs'

end Within

end Program
