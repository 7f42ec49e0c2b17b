import SampleAuthApi.Foundation.Serial

/-!
# Sequential specifications

A `SerialObject` answers one request at a time: it says which results a request may have in
each state, and what the state is after the result.  Its state is computed from the requests and
their results alone, so a history of both can be checked against it (`SerialObject.Explains`).

A serial run follows such an object if every request that is served alone does
(`Reach.explained`); what the object is shown of a request may include circumstances in which it was
served.  For a single request there is an onlooker: one whose memory follows the shared state and
the calls of the request (`Follows`) knows the result that the request is answered with
(`ServedAlone.answer`).
-/

/-- An object that is used by one request after the other. -/
structure SerialObject (Q E α B : Type) where
  /-- The results that a request may have. -/
  permits : B → Q → Except E α → Prop
  /-- The state after a request and its result. -/
  next : B → Q → Except E α → B

namespace SerialObject

variable {Q E α B : Type} (X : SerialObject Q E α B)

/-- The state after a history. -/
def replay (b : B) (ys : List (Q × Except E α)) : B := ys.foldl (fun b y => X.next b y.1 y.2) b

/-- Every result of a history is permitted in the state after the history before it. -/
def Explains (b : B) : List (Q × Except E α) → Prop
  | [] => True
  | y :: ys => X.permits b y.1 y.2 ∧ Explains (X.next b y.1 y.2) ys

@[simp] theorem replay_nil (b : B) : X.replay b [] = b := rfl

/-- The last answer is replayed last. -/
theorem replay_concat (b : B) (ys : List (Q × Except E α)) (y : Q × Except E α) :
    X.replay b (ys ++ [y]) = X.next (X.replay b ys) y.1 y.2 := by
  simp [replay]

/-- A history is explained answer by answer. -/
theorem explains_concat {b : B} {ys : List (Q × Except E α)} {y : Q × Except E α} :
    X.Explains b (ys ++ [y]) ↔ X.Explains b ys ∧ X.permits (X.replay b ys) y.1 y.2 := by
  induction ys generalizing b with
  | nil => simp [Explains]
  | cons z ys ih =>
    have hrest := ih (b := X.next b z.1 z.2)
    constructor
    · rintro ⟨hz, hys⟩
      obtain ⟨hys, hy⟩ := hrest.mp hys
      exact ⟨⟨hz, hys⟩, hy⟩
    · rintro ⟨⟨hz, hys⟩, hy⟩
      exact ⟨hz, hrest.mpr ⟨hys, hy⟩⟩

/-- A result that an explained history has is one that was permitted. -/
theorem Explains.permits {b : B} {ys zs : List (Q × Except E α)} {y : Q × Except E α}
    (h : X.Explains b (ys ++ y :: zs)) : X.permits (X.replay b ys) y.1 y.2 := by
  induction ys generalizing b with
  | nil => exact h.1
  | cons z ys ih => exact ih h.2

end SerialObject

namespace Pool

variable {O : Type} {R : O → Type} {E α Q P σ C B M : Type}

/-- The answered requests, as far as they are shown by `seen`, with their results. -/
def history (seen : Exchange O R E α Q σ → P) (w : Pool O R E α Q σ) : List (P × Except E α) :=
  w.log.map fun y => (seen y, y.result)

/-- An answer is added to the history. -/
theorem history_concat {seen : Exchange O R E α Q σ → P} {w w' : Pool O R E α Q σ}
    {y : Exchange O R E α Q σ} (h : w'.log = w.log ++ [y]) :
    w'.history seen = w.history seen ++ [(seen y, y.result)] := by
  simp [history, h]

variable {S : System O R E α Q σ C} {K : Pool O R E α Q σ → Event Q C → Prop}
  {w w' : Pool O R E α Q σ}

/-- While only one slot makes calls, nothing is answered. -/
theorem Reach.log_of_only {n : ℕ} (h : Reach S (fun v e => K v e ∧ Only n v e) w w') :
    w'.log = w.log := by
  refine h.induct (I := fun u => u.log = w.log) rfl fun u e u' _ hu hK he => ?_
  rcases exec_cases he with ⟨_, rfl, -, -⟩ | ⟨_, _, _, _, _, _, _, _, -, -, -, rfl⟩ |
    ⟨_, _, _, rfl, -⟩ | ⟨_, _, -, -, rfl⟩
  · exact hK.2.elim
  · exact hu
  · exact hK.2.elim
  · exact hu

/-- The log after a request that was served alone. -/
theorem ServedAlone.log {y : Exchange O R E α Q σ} (h : ServedAlone S K w y w') :
    w'.log = w.log ++ [y] := by
  obtain ⟨hq, v, v', harrive, hrun, -, hlog⟩ := h
  rw [hlog, hrun.log_of_only, (serves_of_start hq harrive).2.2]

/-! ## Runs -/

/-- In a serial run the results of the answered requests are those that a sequential object permits,
if each request that is served alone has such a result and leaves a state that the object
describes. -/
theorem Reach.explained (X : SerialObject P E α B) (seen : Exchange O R E α Q σ → P)
    (Rel : B → σ → Prop) {b : B}
    (hserial : ∀ v e, K v e → Serial v e) (h : Reach S K w w') (hq : w.Quiescent)
    (hlog : w.log = []) (hb : Rel b w.shared)
    (henv : ∀ v c s b, K v (.env c) → S.drift c v.shared = some s → Rel b v.shared → Rel b s)
    (hserve : ∀ v y v' b, Reach S K w v → K v (.start y.request) → ServedAlone S K v y v' →
      Rel b v.shared → X.permits b (seen y) y.result ∧ Rel (X.next b (seen y) y.result) v'.shared)
    (hq' : w'.Quiescent) :
    X.Explains b (w'.history seen) ∧ Rel (X.replay b (w'.history seen)) w'.shared := by
  refine h.serial
    (I := fun v => X.Explains b (v.history seen) ∧ Rel (X.replay b (v.history seen)) v.shared)
    hserial hq ?_ (fun v c v' _ _ hI hK he => ?_) (fun v y v' hreach hI hK hserved => ?_) hq'
  · simp only [history, hlog, List.map_nil]
    exact ⟨trivial, hb⟩
  · rcases exec_cases he with ⟨_, heq, -⟩ | ⟨_, _, _, _, _, _, _, _, heq, -⟩ |
      ⟨_, _, _, heq, -⟩ | ⟨_, s, heq, hs, rfl⟩
    · cases heq
    · cases heq
    · cases heq
    · cases heq
      exact ⟨hI.1, henv v c s _ hK hs hI.2⟩
  · obtain ⟨hpermits, hrel⟩ := hserve v y v' _ hreach hK hserved hI.2
    rw [history_concat hserved.log, X.explains_concat, X.replay_concat]
    exact ⟨⟨hI.1, hpermits⟩, hrel⟩

/-! ## One request -/

/-- The memory of the onlooker `A` follows the shared state and the calls of slot `n`, newest first,
while only this slot makes calls. -/
structure Follows (S : System O R E α Q σ C) (K : Pool O R E α Q σ → Event Q C → Prop) (n : ℕ)
    (A : Program.Observer O R E M) (Rel : σ → List (Record O R E σ) → M → Prop) : Prop where
  /-- The onlooker has considered the answer to a call. -/
  perform : ∀ v c o r s tr m (k : Except E (R o) → M → Prop), K v (.step n c) →
    Rel v.shared tr m → A o m k → S.perform n c o v.shared = some (r, s) →
    ∃ m', Rel s (⟨v.shared, o, r⟩ :: tr) m' ∧ k r m'
  /-- The environment does nothing that the onlooker would notice. -/
  drift : ∀ v c s tr m, K v (.env c) → Rel v.shared tr m → S.drift c v.shared = some s → Rel s tr m

/-- A program that follows the memory does so in fewer runs. -/
theorem Follows.mono {L : Pool O R E α Q σ → Event Q C → Prop} {n : ℕ}
    {A : Program.Observer O R E M} {Rel : σ → List (Record O R E σ) → M → Prop}
    (h : Follows S K n A Rel) (hL : ∀ v e, L v e → K v e) : Follows S L n A Rel :=
  ⟨fun v c o r s tr m k he => h.perform v c o r s tr m k (hL v _ he),
    fun v c s tr m he => h.drift v c s tr m (hL v _ he)⟩

/-- What the onlooker requires of the program of a slot. -/
def Foresees (A : Program.Observer O R E M) (Rel : σ → List (Record O R E σ) → M → Prop)
    (Q' : Except E α → M → Prop) (n : ℕ) (v : Pool O R E α Q σ) : Prop :=
  ∀ th, v.slot n = some th → ∃ m, Rel v.shared th.performed m ∧ Program.wp A th.program Q' m

/-- One event of the slot keeps what is foreseen. -/
theorem Follows.step {A : Program.Observer O R E M} {Rel : σ → List (Record O R E σ) → M → Prop}
    {Q' : Except E α → M → Prop} {n : ℕ} {e : Event Q C} (h : Follows S K n A Rel)
    (hw : Foresees A Rel Q' n w) (hK : K w e) (hn : Only n w e) (he : exec S e w = some w') :
    Foresees A Rel Q' n w' := by
  rcases exec_cases he with ⟨_, rfl, -⟩ | ⟨i, c, q, o, k, tr, r, s, rfl, hslot, hp, rfl⟩ |
    ⟨_, _, _, rfl, -⟩ | ⟨c, s, rfl, hs, rfl⟩
  · exact hn.elim
  · have hi : i = n := hn
    subst hi
    obtain ⟨m, hrel, hwp⟩ := hw _ hslot
    rw [Program.wp_call] at hwp
    obtain ⟨m', hrel', hk⟩ := h.perform w c o r s tr m _ hK hrel hwp hp
    intro th hth
    rw [slot_set (slot_lt hslot), if_pos rfl] at hth
    cases hth
    exact ⟨m', hrel', hk⟩
  · exact hn.elim
  · intro th hth
    obtain ⟨m, hrel, hwp⟩ := hw th hth
    exact ⟨m, h.drift w c s th.performed m hK hrel hs, hwp⟩

/-- The onlooker knows the result of a request that is served alone. -/
theorem ServedAlone.answer {A : Program.Observer O R E M}
    {Rel : σ → List (Record O R E σ) → M → Prop} {Q' : Except E α → M → Prop} {m : M}
    {y : Exchange O R E α Q σ} (h : ServedAlone S K w y w')
    (hfollows : Follows S K w.slots.length A Rel) (hm : Rel w.shared [] m)
    (hwp : Program.wp A (S.body y.request) Q' m) :
    ∃ m', Rel w'.shared y.performed m' ∧ Q' y.result m' := by
  obtain ⟨hq, v, v', harrive, hrun, hanswer, hlog⟩ := h
  have hserves := (serves_of_start hq harrive).1
  have hfirst : Foresees A Rel Q' w.slots.length v := by
    rcases exec_cases harrive with ⟨q, he, -, rfl⟩ | ⟨_, _, _, _, _, _, _, _, he, -⟩ |
      ⟨_, _, _, he, -⟩ | ⟨_, _, he, -⟩
    · cases he
      intro th hth
      rw [slot_append, if_pos rfl] at hth
      cases hth
      exact ⟨m, hm, hwp⟩
    all_goals cases he
  have hlast : Foresees A Rel Q' w.slots.length v' :=
    hrun.induct (I := fun u => Foresees A Rel Q' w.slots.length u) hfirst
      fun u e u' _ hu hK he => hfollows.step hu hK.1 hK.2 he
  rcases exec_cases hanswer with ⟨_, he, -⟩ | ⟨_, _, _, _, _, _, _, _, he, -⟩ |
    ⟨i, th, r, he, hslot, hres, rfl⟩ | ⟨_, _, he, -⟩
  · cases he
  · cases he
  · cases he
    obtain ⟨m', hrel, hwp'⟩ := hlast th hslot
    obtain rfl : y = ⟨th.request, r, th.performed⟩ := by
      have heq := List.append_cancel_left hlog
      cases heq
      rfl
    refine ⟨m', hrel, ?_⟩
    cases hprog : th.program with
    | ret a => rw [hprog] at hres hwp'; cases hres; exact hwp'
    | raise err => rw [hprog] at hres hwp'; cases hres; exact hwp'
    | call o k => rw [hprog] at hres; cases hres
  · cases he

end Pool
