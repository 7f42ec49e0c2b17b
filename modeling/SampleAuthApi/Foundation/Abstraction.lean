import SampleAuthApi.Foundation.Drain

/-!
# One system seen as another

Two systems that run the same programs may keep different shared states.  `Refines f I A S S'` says
that `f` reads the states of `S` as states of `S'`: on states that satisfy `I` and for calls that
satisfy `A`, a call is answered in `S` exactly as in `S'`, and `f` commutes with what it does.

Then the two pools run in lockstep: whatever list of events is tried, it is possible in both or in
neither, and the answers are the same (`Refines.runWith`).
-/

variable {O : Type} {R : O → Type} {E α Q σ τ C : Type}

/-- A call as seen through `f`. -/
def Record.map (f : σ → τ) (c : Record O R E σ) : Record O R E τ := ⟨f c.before, c.op, c.reply⟩

/-- A request being served, as seen through `f`. -/
def Thread.map (f : σ → τ) (th : Thread O R E α Q σ) : Thread O R E α Q τ :=
  ⟨th.request, th.program, th.performed.map (Record.map f)⟩

/-- An answered request, as seen through `f`. -/
def Exchange.map (f : σ → τ) (y : Exchange O R E α Q σ) : Exchange O R E α Q τ :=
  ⟨y.request, y.result, y.performed.map (Record.map f)⟩

namespace Pool

/-- A pool as seen through `f`. -/
def map (f : σ → τ) (w : Pool O R E α Q σ) : Pool O R E α Q τ :=
  ⟨f w.shared, w.slots.map (Option.map (Thread.map f)), w.log.map (Exchange.map f)⟩

/-- The states of `S`, read by `f`, behave like those of `S'` as long as they satisfy `I` and the
calls satisfy `A`. -/
structure Refines (f : σ → τ) (I : σ → Prop) (A : O → Prop) (S : System O R E α Q σ C)
    (S' : System O R E α Q τ C) : Prop where
  /-- The programs are the same. -/
  body : ∀ q, S'.body q = S.body q
  /-- The same requests may arrive. -/
  admits : ∀ l q, S'.admits (l.map (Exchange.map f)) q = S.admits l q
  /-- A call has the same answer, and `f` reads the state after it. -/
  perform : ∀ i c o s, I s → A o →
    S'.perform i c o (f s) = (S.perform i c o s).map fun p => (p.1, f p.2)
  /-- A call keeps the invariant. -/
  keeps : ∀ i c o s r s', I s → A o → S.perform i c o s = some (r, s') → I s'
  /-- The environment makes the same moves. -/
  drift : ∀ c s, I s → S'.drift c (f s) = (S.drift c s).map f
  /-- A move of the environment keeps the invariant. -/
  drift_keeps : ∀ c s s', I s → S.drift c s = some s' → I s'

@[simp] theorem map_initial (f : σ → τ) (s : σ) :
    (initial s : Pool O R E α Q σ).map f = initial (f s) := rfl

@[simp] theorem slot_map (f : σ → τ) (w : Pool O R E α Q σ) (i : ℕ) :
    (w.map f).slot i = (w.slot i).map (Thread.map f) := by
  unfold slot map
  rw [List.getElem?_map]
  cases w.slots[i]? <;> rfl

namespace Refines

variable {f : σ → τ} {I : σ → Prop} {A : O → Prop} {S : System O R E α Q σ C}
  {S' : System O R E α Q τ C} {w w' : Pool O R E α Q σ} {n : ℕ}

/-- An event is possible in both pools or in neither, and leads to the same pool. -/
theorem exec (h : Refines f I A S S') (hI : I w.shared) (hA : Budgeted A n w) (e : Event Q C) :
    Pool.exec S' e (w.map f) = (Pool.exec S e w).map (Pool.map f) := by
  cases e with
  | start q =>
    have hadmits : S'.admits (w.map f).log q = S.admits w.log q := h.admits w.log q
    simp only [Pool.exec]
    rw [hadmits, h.body]
    split
    · simp [map, Thread.map]
    · rfl
  | step i c =>
    simp only [Pool.exec, slot_map]
    cases hslot : w.slot i with
    | none => rfl
    | some th =>
      obtain ⟨q, p, tr⟩ := th
      cases p with
      | ret a => rfl
      | raise e => rfl
      | call o k =>
        obtain ⟨m, ⟨ho, -⟩, -⟩ := hA i _ hslot
        change (S'.perform i c o (f w.shared)).map _ = _
        rw [h.perform i c o w.shared hI ho, Option.map_map, Option.map_map]
        refine Option.map_congr fun p _ => ?_
        simp [map, Thread.map, Record.map, List.map_set]
  | respond i =>
    simp only [Pool.exec, slot_map]
    cases hslot : w.slot i with
    | none => rfl
    | some th =>
      change th.program.result?.map _ = (th.program.result?.map _).map _
      rw [Option.map_map]
      refine Option.map_congr fun x _ => ?_
      simp [map, Thread.map, Exchange.map, List.map_set]
  | env c =>
    change (S'.drift c (f w.shared)).map _ = ((S.drift c w.shared).map _).map _
    rw [h.drift c w.shared hI, Option.map_map, Option.map_map]
    rfl

/-- Every event keeps the invariant. -/
theorem shared_exec (h : Refines f I A S S') (hI : I w.shared) (hA : Budgeted A n w)
    {e : Event Q C} (he : Pool.exec S e w = some w') : I w'.shared := by
  rcases exec_cases he with ⟨q, -, -, rfl⟩ | ⟨i, c, q, o, k, tr, r, s, -, hslot, hp, rfl⟩ |
    ⟨i, th, x, -, -, -, rfl⟩ | ⟨c, s, -, hd, rfl⟩
  · exact hI
  · obtain ⟨m, ⟨ho, -⟩, -⟩ := hA i _ hslot
    exact h.keeps i c o w.shared r s hI ho hp
  · exact hI
  · exact h.drift_keeps c w.shared s hI hd

/-- The two pools run in lockstep. -/
theorem runWith (h : Refines f I A S S') (hbody : ∀ q, (S.body q).Within A n) (hI : I w.shared)
    (hA : Budgeted A n w) (k : Event Q C → Bool) (es : List (Event Q C)) :
    Pool.runWith S' (fun _ e => k e) es (w.map f) =
      (Pool.runWith S (fun _ e => k e) es w).map (Pool.map f) := by
  induction es generalizing w with
  | nil => rfl
  | cons e es ih =>
    simp only [Pool.runWith]
    split
    · rw [h.exec hI hA e]
      cases he : Pool.exec S e w with
      | none => rfl
      | some v => exact ih (h.shared_exec hI hA he) (hA.exec hbody he)
    · rfl

end Refines

end Pool
