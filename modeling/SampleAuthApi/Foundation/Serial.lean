import SampleAuthApi.Foundation.Pool

/-!
# Serial runs

In a serial run a request arrives only while no other is being served, so the run is a sequence of
requests that are served one after another, each alone, with moves of the environment in between.
`Reach.serial` is the induction rule that this gives: what holds at the start and is kept by the
environment and by every request served alone holds whenever no request is being served.
-/

namespace Pool

variable {O : Type} {R : O → Type} {E α Q σ C : Type}

/-- Slot `n` is the only one that makes calls; the environment may move. -/
def Only (n : ℕ) (_ : Pool O R E α Q σ) : Event Q C → Prop
  | .step i _ => i = n
  | .env _ => True
  | _ => False

/-- The request `q` in slot `n` is the only one being served. -/
def Serves (w : Pool O R E α Q σ) (n : ℕ) (q : Q) : Prop :=
  n < w.slots.length ∧ (∃ th, w.slot n = some th ∧ th.request = q) ∧ ∀ j, j ≠ n → w.slot j = none

variable {S : System O R E α Q σ C} {K : Pool O R E α Q σ → Event Q C → Prop}
  {w w' : Pool O R E α Q σ} {n : ℕ} {q : Q}

theorem Serves.not_quiescent (h : w.Serves n q) : ¬ w.Quiescent := by
  intro hq
  obtain ⟨-, ⟨th, hth, -⟩, -⟩ := h
  rw [hq n] at hth
  cases hth

theorem Quiescent.only {i : ℕ} {th : Thread O R E α Q σ} (h : w.Quiescent)
    (hth : w.slot i = some th) : False := by
  rw [h i] at hth
  cases hth

/-- The slots after an answer. -/
theorem Serves.respond (h : w.Serves n q) (s : σ) (l : List (Exchange O R E α Q σ)) :
    (⟨s, w.slots.set n none, l⟩ : Pool O R E α Q σ).Quiescent := by
  intro j
  rw [slot_set h.1]
  split
  · rfl
  · rename_i hj
    exact h.2.2 j hj

/-- A request that arrives while no other is being served is the only one. -/
theorem serves_of_start (hq : w.Quiescent) (h : exec S (.start q) w = some w') :
    w'.Serves w.slots.length q ∧ w'.shared = w.shared ∧ w'.log = w.log := by
  rcases exec_cases h with ⟨q', he, -, rfl⟩ | ⟨_, _, _, _, _, _, _, _, he, -⟩ | ⟨_, _, _, he, -⟩ |
    ⟨_, _, he, -⟩
  · cases he
    refine ⟨⟨by simp, ⟨⟨q, S.body q, []⟩, by rw [slot_append, if_pos rfl], rfl⟩, fun j hj => ?_⟩,
      rfl, rfl⟩
    rw [slot_append, if_neg hj]
    exact hq j
  all_goals cases he

/-- Calls of the only slot and moves of the environment leave it the only one. -/
theorem Serves.step {e : Event Q C} (h : w.Serves n q) (he : Only n w e)
    (hexec : exec S e w = some w') : w'.Serves n q := by
  rcases exec_cases hexec with ⟨_, rfl, -⟩ | ⟨i, c, q', o, k, tr, r, s, rfl, hslot, -, rfl⟩ |
    ⟨_, _, _, rfl, -⟩ | ⟨c, s, rfl, -, rfl⟩
  · exact he.elim
  · obtain ⟨hlt, ⟨th, hth, hreq⟩, hothers⟩ := h
    have hi : i = n := he
    subst hi
    rw [hslot] at hth
    cases hth
    refine ⟨by simpa using hlt, ⟨⟨q', k r, ⟨w.shared, o, r⟩ :: tr⟩, ?_, hreq⟩, fun j hj => ?_⟩
    · rw [slot_set hlt, if_pos rfl]
    · rw [slot_set hlt, if_neg hj]
      exact hothers j hj
  · exact he.elim
  · exact h

theorem Serves.reach (h : w.Serves n q)
    (hreach : Reach S (fun v e => K v e ∧ Only n v e) w w') : w'.Serves n q :=
  hreach.induct (I := fun v => v.Serves n q) h fun _ _ _ _ hv hK he => hv.step hK.2 he

/-- A request that is served alone, from its arrival while no other is being served to its answer:
only its own slot makes calls. -/
def ServedAlone (S : System O R E α Q σ C) (K : Pool O R E α Q σ → Event Q C → Prop)
    (w : Pool O R E α Q σ) (y : Exchange O R E α Q σ) (w' : Pool O R E α Q σ) : Prop :=
  w.Quiescent ∧ Answered S (fun v e => K v e ∧ Only w.slots.length v e) w y w'

theorem ServedAlone.quiescent {y : Exchange O R E α Q σ} (h : ServedAlone S K w y w') :
    w'.Quiescent := by
  obtain ⟨hq, v, v', harrive, hrun, hanswer, -⟩ := h
  have hserves := (serves_of_start hq harrive).1.reach hrun
  rcases exec_cases hanswer with ⟨_, he, -⟩ | ⟨_, _, _, _, _, _, _, _, he, -⟩ |
    ⟨i, th, x, he, -, -, rfl⟩ | ⟨_, _, he, -⟩
  · cases he
  · cases he
  · cases he
    exact hserves.respond _ _
  · cases he

/-- The run in which a request is served alone. -/
theorem ServedAlone.reach {L : Pool O R E α Q σ → Event Q C → Prop} {y : Exchange O R E α Q σ}
    (h : ServedAlone S K w y w') (hstart : L w (.start y.request))
    (hserve : ∀ v e, K v e → Only w.slots.length v e → L v e)
    (hrespond : ∀ v, L v (.respond w.slots.length)) : Reach S L w w' := by
  obtain ⟨-, v, v', harrive, hrun, hanswer, -⟩ := h
  have hmid : Reach S L w v' :=
    hrun.induct (I := fun u => Reach S L w u) ((Reach.refl w).tail hstart harrive)
      fun u e u' _ hu hK he => hu.tail (hserve u e hK.1 hK.2) he
  exact hmid.tail (hrespond v') hanswer

/-- Nothing is being served and `I` holds, or one request is being served, alone since it arrived in
a state where `I` held. -/
def Midway (S : System O R E α Q σ C) (K : Pool O R E α Q σ → Event Q C → Prop)
    (I : Pool O R E α Q σ → Prop) (w w' : Pool O R E α Q σ) : Prop :=
  (w'.Quiescent ∧ I w') ∨ ∃ u q v, Reach S K w u ∧ u.Quiescent ∧ I u ∧ K u (.start q) ∧
    exec S (.start q) u = some v ∧ Reach S (fun v e => K v e ∧ Only u.slots.length v e) v w' ∧
    w'.Serves u.slots.length q

/-- What holds at the start of a serial run and is kept by the environment and by every request
that is served alone, holds whenever no request is being served. -/
theorem Reach.serial {I : Pool O R E α Q σ → Prop} (hserial : ∀ v e, K v e → Serial v e)
    (h : Reach S K w w') (hq : w.Quiescent) (h0 : I w)
    (henv : ∀ v c v', Reach S K w v → v.Quiescent → I v → K v (.env c) →
      exec S (.env c) v = some v' → I v')
    (hserve : ∀ v y v', Reach S K w v → I v → K v (.start y.request) → ServedAlone S K v y v' →
      I v') (hq' : w'.Quiescent) : I w' := by
  have hrun : Midway S K I w w' := by
    refine h.induct (I := Midway S K I w) (.inl ⟨hq, h0⟩) fun v e v' hreach hv hK he => ?_
    rcases hv with ⟨hvq, hI⟩ | ⟨u, q, v₁, hu, huq, hIu, hKu, hstart, hserved, hserves⟩
    · have hexec := he
      rcases exec_cases he with ⟨q, rfl, -⟩ | ⟨i, c, _, _, _, _, _, _, -, hslot, -⟩ |
        ⟨i, th, _, -, hslot, -⟩ | ⟨c, s, rfl, -, rfl⟩
      · exact .inr ⟨v, q, v', hreach, hvq, hI, hK, hexec, Reach.refl _,
          (serves_of_start hvq hexec).1⟩
      · exact (hvq.only hslot).elim
      · exact (hvq.only hslot).elim
      · exact .inl ⟨hvq, henv v c _ hreach hvq hI hK hexec⟩
    · have hstep : Only u.slots.length v e → Midway S K I w v' := fun honly =>
        .inr ⟨u, q, v₁, hu, huq, hIu, hKu, hstart, hserved.tail ⟨hK, honly⟩ he,
          hserves.step honly he⟩
      have hexec := he
      rcases exec_cases he with ⟨q', rfl, -⟩ | ⟨i, c, _, _, _, _, _, _, rfl, hslot, -⟩ |
        ⟨i, th, x, rfl, hslot, hx, rfl⟩ | ⟨c, s, rfl, -, rfl⟩
      · exact (hserves.not_quiescent (hserial v _ hK)).elim
      · refine hstep ?_
        by_contra hi
        rw [hserves.2.2 i hi] at hslot
        cases hslot
      · have hi : i = u.slots.length := by
          by_contra hi
          rw [hserves.2.2 i hi] at hslot
          cases hslot
        subst hi
        obtain ⟨th', hth', hreq⟩ := hserves.2.1
        rw [hslot] at hth'
        cases hth'
        subst hreq
        exact .inl ⟨hserves.respond _ _, hserve u ⟨th.request, x, th.performed⟩ _ hu hIu hKu
          ⟨huq, v₁, v, hstart, hserved, hexec, rfl⟩⟩
      · exact hstep trivial
  rcases hrun with ⟨-, hI⟩ | ⟨u, q, v, -, -, -, -, -, -, hserves⟩
  · exact hI
  · exact (hserves.not_quiescent hq').elim

/-! ## Replays -/

/-- `Only`, as a check. -/
def only (n : ℕ) (_ : Pool O R E α Q σ) : Event Q C → Bool
  | .step i _ => i == n
  | .env _ => true
  | _ => false

theorem only_of_check {e : Event Q C} (h : only n w e = true) : Only n w e := by
  cases e with
  | step i c => exact beq_iff_eq.mp h
  | env c => trivial
  | _ => cases h

/-- No request is being served, as a check. -/
def quiescent (w : Pool O R E α Q σ) : Bool := w.slots.all Option.isNone

theorem quiescent_of_check (h : quiescent w = true) : w.Quiescent := by
  intro i
  unfold slot
  cases hi : w.slots[i]? with
  | none => rfl
  | some x =>
    have hx := List.all_eq_true.mp h x (List.mem_of_getElem? hi)
    rw [Option.isNone_iff_eq_none] at hx
    subst hx
    rfl

/-- `Serial`, as a check. -/
def serial (w : Pool O R E α Q σ) : Event Q C → Bool
  | .start _ => quiescent w
  | _ => true

theorem serial_of_check (w : Pool O R E α Q σ) (e : Event Q C) (h : serial w e = true) :
    Serial w e := by
  cases e with
  | start q => exact quiescent_of_check h
  | _ => trivial

/-- A replay of a run before a request and of the run in which it is served alone in slot `n`. -/
theorem served_of_replay {K L : Pool O R E α Q σ → Event Q C → Prop}
    {k l : Pool O R E α Q σ → Event Q C → Bool} (hk : ∀ w e, k w e = true → K w e)
    (hl : ∀ w e, l w e = true → L w e) (n : ℕ) (es es' : List (Event Q C)) (q : Q)
    {w : Pool O R E α Q σ} {g : Pool O R E α Q σ → Pool O R E α Q σ → Bool}
    (h : (do
      let v ← runWith S k es w
      let v' ← (exec S (.start q) v).bind (runWith S (fun w e => l w e && only n w e) es')
      let w' ← exec S (.respond v.slots.length) v'
      pure (v.slots.length == n && quiescent v && g v w')) = some true) :
    ∃ v y w', Reach S K w v ∧ y.request = q ∧ ServedAlone S L v y w' ∧ g v w' = true := by
  obtain ⟨v, y, w', hreach, hq, hserved, hgood⟩ := answered_of_replay
    (L := fun w e => L w e ∧ Only n w e) hk
    (fun w e he => by
      rw [Bool.and_eq_true] at he
      exact ⟨hl w e he.1, only_of_check he.2⟩)
    es es' q (g := fun v w' => v.slots.length == n && quiescent v && g v w') h
  simp only [Bool.and_eq_true, beq_iff_eq] at hgood
  obtain ⟨⟨hn, hquiet⟩, hg⟩ := hgood
  subst hn
  exact ⟨v, y, w', hreach, hq, ⟨quiescent_of_check hquiet, hserved⟩, hg⟩

/-- A replay of the run in which a request is served alone. -/
theorem served_of_check {L : Pool O R E α Q σ → Event Q C → Prop}
    {l : Pool O R E α Q σ → Event Q C → Bool} (hl : ∀ w e, l w e = true → L w e) (n : ℕ)
    (es' : List (Event Q C)) (q : Q) {w : Pool O R E α Q σ} {g : Pool O R E α Q σ → Bool}
    (h : (do
      let v' ← (exec S (.start q) w).bind (runWith S (fun w e => l w e && only n w e) es')
      let w' ← exec S (.respond w.slots.length) v'
      pure (w.slots.length == n && quiescent w && g w')) = some true) :
    ∃ y w', y.request = q ∧ ServedAlone S L w y w' ∧ g w' = true := by
  obtain ⟨v, y, w', hreach, hq, hserved, hg⟩ := served_of_replay (K := fun _ _ => False)
    (k := fun _ _ => false) (fun _ _ h => by cases h) hl n [] es' q (w := w)
    (g := fun _ w' => g w') h
  have hv : v = w := hreach.induct (I := fun v => v = w) rfl fun _ _ _ _ _ hno _ => hno.elim
  subst hv
  exact ⟨y, w', hq, hserved, hg⟩

end Pool
