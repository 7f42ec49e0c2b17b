import SampleAuthApi.Foundation.Pool
import SampleAuthApi.Foundation.Transactions
import SampleAuthApi.Foundation.Triple

/-!
# Pools that drain, and transactions that wait

A pool whose programs make at most `n` calls works off its requests: `Pool.fuel` is an upper bound
of the calls and answers that are left, and every call and every answer uses up some of it, so a run
without arrivals is bounded in whatever order the scheduler picks the slots.

Such a run can only end early when every program waits, so a pool in which some program can always
go on answers all its requests (`Budgeted.drains`).

`Ledger.Waits` is the wait-for relation of read-committed transactions, and a flush has to wait
exactly when some transaction is waited for.  Transactions that take their rows in the order of a
rank never all wait (`Ledger.not_waits`).
-/

namespace Pool

variable {O : Type} {R : O → Type} {E α Q σ C : Type}

/-- The event is a call or an answer. -/
def works : Event Q C → Bool
  | .step _ _ | .respond _ => true
  | _ => false

/-- The event is not an arrival. -/
def Closed : Event Q C → Prop
  | .start _ => False
  | _ => True

/-- The number of requests being served. -/
def inFlight (w : Pool O R E α Q σ) : ℕ := w.slots.countP Option.isSome

/-- What one slot can still do when programs make at most `n` calls: its calls and its answer. -/
def slotFuel (n : ℕ) : Option (Thread O R E α Q σ) → ℕ
  | some th => n + 1 - th.performed.length
  | none => 0

/-- What the pool can still do. -/
def fuel (n : ℕ) (w : Pool O R E α Q σ) : ℕ := (w.slots.map (slotFuel n)).sum

/-- The slots have not exceeded the bound of `n` calls, and what is left of them will not; the calls
that are left satisfy `A`. -/
def Budgeted (A : O → Prop) (n : ℕ) (w : Pool O R E α Q σ) : Prop :=
  ∀ i th, w.slot i = some th → ∃ m, th.program.Within A m ∧ th.performed.length + m ≤ n

variable {A : O → Prop} {S : System O R E α Q σ C} {K : Pool O R E α Q σ → Event Q C → Prop}
  {w w' : Pool O R E α Q σ} {n i : ℕ}

/-- There is fuel for every request being served. -/
theorem fuel_le (n : ℕ) (w : Pool O R E α Q σ) : w.fuel n ≤ (n + 1) * w.inFlight := by
  unfold fuel inFlight
  induction w.slots with
  | nil => simp
  | cons x l ih =>
    cases x with
    | none => simpa [slotFuel] using ih
    | some th =>
      have hth : slotFuel n (some th) ≤ n + 1 := Nat.sub_le _ _
      simp only [List.map_cons, List.sum_cons, List.countP_cons, Option.isSome_some, if_true]
      rw [Nat.mul_add, Nat.mul_one]
      omega

/-- The sum over a list after one entry has been rewritten. -/
lemma sum_map_set {β : Type} (f : β → ℕ) {l : List β} {b : β} (hi : l[i]? = some b) (c : β) :
    ((l.set i c).map f).sum + f b = (l.map f).sum + f c := by
  induction l generalizing i with
  | nil => simp at hi
  | cons a l ih =>
    cases i with
    | zero =>
      obtain rfl : a = b := by simpa using hi
      simp only [List.set_cons_zero, List.map_cons, List.sum_cons]
      omega
    | succ i =>
      have hrest := ih (i := i) (by simpa using hi)
      simp only [List.set_cons_succ, List.map_cons, List.sum_cons]
      omega

lemma getElem?_of_slot {th : Thread O R E α Q σ} (h : w.slot i = some th) :
    w.slots[i]? = some (some th) := by
  unfold slot at h
  cases hi : w.slots[i]? with
  | none => rw [hi] at h; cases h
  | some x => rw [hi] at h; exact congrArg some h

theorem budgeted_initial (s : σ) : Budgeted A n (initial s : Pool O R E α Q σ) :=
  fun i th hi => by simp at hi

/-- Every event keeps the budget, if the programs keep it. -/
theorem Budgeted.exec (hbody : ∀ q, (S.body q).Within A n) (hw : Budgeted A n w)
    {e : Event Q C} (h : Pool.exec S e w = some w') : Budgeted A n w' := by
  rcases exec_cases h with ⟨q, -, -, rfl⟩ | ⟨i, c, q, o, k, tr, r, s, -, hslot, -, rfl⟩ |
    ⟨i, th, x, -, hslot, -, rfl⟩ | ⟨c, s, -, -, rfl⟩
  · intro j th hj
    rw [slot_append] at hj
    split at hj
    · cases Option.some.inj hj
      exact ⟨n, hbody q, by simp⟩
    · exact hw j th hj
  · intro j th hj
    rw [slot_set (slot_lt hslot)] at hj
    split at hj
    · cases Option.some.inj hj
      obtain ⟨m, ⟨-, m', rfl, hk⟩, hm⟩ := hw i _ hslot
      refine ⟨m', hk r, ?_⟩
      simp only [List.length_cons] at hm ⊢
      omega
    · exact hw j th hj
  · intro j th' hj
    rw [slot_set (slot_lt hslot)] at hj
    split at hj
    · cases hj
    · exact hw j th' hj
  · exact fun j th hj => hw j th hj

theorem Reach.budgeted (hbody : ∀ q, (S.body q).Within A n)
    (h : Reach S K w w') (hw : Budgeted A n w) : Budgeted A n w' :=
  h.induct (I := Budgeted A n) hw fun _ _ _ _ hv _ he => hv.exec hbody he

/-- A call and an answer use up fuel, and without arrivals none is gained. -/
theorem Budgeted.fuel_exec (hw : Budgeted A n w) {e : Event Q C} (hclosed : Closed e)
    (h : Pool.exec S e w = some w') :
    w'.fuel n + (if works e then 1 else 0) ≤ w.fuel n := by
  rcases exec_cases h with ⟨q, rfl, -⟩ | ⟨i, c, q, o, k, tr, r, s, rfl, hslot, -, rfl⟩ |
    ⟨i, th, x, rfl, hslot, -, rfl⟩ | ⟨c, s, rfl, -, rfl⟩
  · exact hclosed.elim
  · obtain ⟨m, ⟨-, m', rfl, -⟩, hm⟩ := hw i _ hslot
    have hsum := sum_map_set (slotFuel n) (getElem?_of_slot hslot)
      (some ⟨q, k r, ⟨w.shared, o, r⟩ :: tr⟩)
    simp only [slotFuel, List.length_cons] at hsum hm
    simp only [fuel, works, if_true]
    omega
  · obtain ⟨m, -, hm⟩ := hw i _ hslot
    have hsum := sum_map_set (slotFuel n) (getElem?_of_slot hslot) none
    simp only [slotFuel] at hsum
    simp only [fuel, works, if_true]
    omega
  · simp [fuel, works]

/-- The calls and answers of a run without arrivals are paid for by the fuel, whatever the order in
which the slots are scheduled. -/
theorem Budgeted.countP_le (hbody : ∀ q, (S.body q).Within A n)
    {k : Pool O R E α Q σ → Event Q C → Bool} {es : List (Event Q C)} (hw : Budgeted A n w)
    (hclosed : ∀ e ∈ es, Closed e) (h : runWith S k es w = some w') :
    es.countP works + w'.fuel n ≤ w.fuel n := by
  induction es generalizing w with
  | nil =>
    cases Option.some.inj h
    simp
  | cons e es ih =>
    simp only [runWith] at h
    split at h
    · obtain ⟨v, hv, hrest⟩ := Option.bind_eq_some_iff.mp h
      have hfirst := hw.fuel_exec (hclosed e List.mem_cons_self) hv
      have hlast := ih (hw.exec hbody hv) (fun e' he' => hclosed e' (List.mem_cons_of_mem _ he'))
        hrest
      rw [List.countP_cons]
      omega
    · cases h

/-- No event can happen that is a call of some choice in `allowed`, or an answer. -/
def Stuck (S : System O R E α Q σ C) (allowed : Event Q C → Prop) (w : Pool O R E α Q σ) : Prop :=
  ∀ e, works e = true → allowed e → Pool.exec S e w = none

/-- In a stuck pool every program that has not been answered waits at a call. -/
theorem Stuck.waits {allowed : Event Q C → Prop} (h : Stuck S allowed w)
    (hanswer : ∀ j, allowed (.respond j)) {th : Thread O R E α Q σ} (hi : w.slot i = some th) :
    ∃ q o k tr, th = ⟨q, .call o k, tr⟩ ∧
      ∀ c, allowed (.step i c) → S.perform i c o w.shared = none := by
  obtain ⟨q, p, tr⟩ := th
  have hrespond := h (.respond i) rfl (hanswer i)
  simp only [Pool.exec, hi] at hrespond
  cases p with
  | ret a => cases hrespond
  | raise e => cases hrespond
  | call o k =>
    refine ⟨q, o, k, tr, rfl, fun c hc => ?_⟩
    have hstep := h (.step i c) rfl hc
    simp only [Pool.exec, hi] at hstep
    exact Option.map_eq_none_iff.mp hstep

/-- Where every state without further work is one without requests, all requests can be answered:
each call and each answer uses up fuel, and while a request is left there is something to do. -/
theorem Budgeted.drains (hbody : ∀ q, (S.body q).Within A n)
    (hlive : ∀ v, Stuck S (K v) v → v.Quiescent) (hw : Budgeted A n w) :
    ∃ w', Reach S (fun v e => works e = true ∧ K v e) w w' ∧ w'.Quiescent := by
  induction hfuel : w.fuel n using Nat.strong_induction_on generalizing w with
  | h m ih =>
    by_cases hstuck : Stuck S (K w) w
    · exact ⟨w, .refl _, hlive w hstuck⟩
    · simp only [Stuck, not_forall] at hstuck
      obtain ⟨e, hworks, hallowed, hmoves⟩ := hstuck
      obtain ⟨v, hv⟩ := Option.ne_none_iff_exists'.mp hmoves
      have hclosed : Closed e := by
        cases e with
        | start q => cases hworks
        | _ => trivial
      have hless := hw.fuel_exec hclosed hv
      rw [hworks, if_pos rfl] at hless
      obtain ⟨w', hreach, hquiet⟩ := ih (v.fuel n) (by omega) (hw.exec hbody hv) rfl
      exact ⟨w', ((Reach.refl w).tail ⟨hworks, hallowed⟩ hv).trans hreach, hquiet⟩

end Pool

namespace Transactions.Ledger

variable {D W : Type} {apply : W → D → Option D} {conflicts : W → W → Bool} {l l' : Ledger D W}
  {i j : ℕ} {ws : List W}

/-- Transaction `i`, which wants to flush `ws`, waits for transaction `j`. -/
def Waits (conflicts : W → W → Bool) (l : Ledger D W) (i : ℕ) (ws : List W) (j : ℕ) : Prop :=
  j ≠ i ∧ ∃ w ∈ ws, ∃ w' ∈ l.own j, conflicts w w' = true

/-- A flush has to wait exactly when there is a transaction that it waits for. -/
theorem flush_eq_none_iff :
    l.flush apply conflicts i ws = none ↔ ∃ j, Waits conflicts l i ws j := by
  have hblocked : l.blocked conflicts i ws = true ↔ ∃ j, Waits conflicts l i ws j := by
    constructor
    · intro h
      obtain ⟨⟨j, w'⟩, hp, hw⟩ := List.any_eq_true.mp h
      simp only [Bool.and_eq_true, bne_iff_ne] at hw
      obtain ⟨w, hmem, hc⟩ := List.any_eq_true.mp hw.2
      exact ⟨j, hw.1, w, hmem, w', mem_own.mpr hp, hc⟩
    · rintro ⟨j, hne, w, hmem, w', hown, hc⟩
      refine List.any_eq_true.mpr ⟨(j, w'), mem_own.mp hown, ?_⟩
      simp only [Bool.and_eq_true, bne_iff_ne]
      exact ⟨hne, List.any_eq_true.mpr ⟨w, hmem, hc⟩⟩
  rw [← hblocked]
  unfold flush
  split
  · rename_i h
    exact iff_of_true rfl h
  · rename_i h
    refine iff_of_false ?_ h
    split <;> exact fun hno => by cases hno

/-- A flush is one without locks, as soon as it need not wait. -/
theorem flush_eq_ite (l : Ledger D W) (i : ℕ) (ws : List W) :
    l.flush apply conflicts i ws = if l.blocked conflicts i ws then none
      else l.flush apply (fun _ _ => false) i ws := by
  have hfree : l.blocked (fun _ _ => false) i ws = false := by simp [blocked]
  simp only [flush, hfree]
  rfl

/-- Nobody waits for a transaction that has written nothing. -/
theorem Waits.own_ne_nil (h : Waits conflicts l i ws j) : l.own j ≠ [] := by
  obtain ⟨-, w, -, w', hown, -⟩ := h
  exact List.ne_nil_of_mem hown

/-- Transactions that take their rows in the order of a rank never all wait: if whoever is waited
for waits itself, nobody waits.  `ask i` is what transaction `i` wants to flush. -/
theorem not_waits {rank : W → ℕ} {n : ℕ}
    (hrank : ∀ w w', conflicts w w' = true → rank w = rank w' ∧ rank w < n) {ask : ℕ → List W}
    (horder : ∀ i, ∀ w ∈ ask i, ∀ w' ∈ l.own i, rank w' < rank w)
    (hall : ∀ i j, Waits conflicts l i (ask i) j → ∃ k, Waits conflicts l j (ask j) k) :
    ¬ Waits conflicts l i (ask i) j := by
  -- the ranks of the rows along the waits increase, and are bounded
  have hbound : ∀ m i j, ∀ w ∈ ask i, ∀ w' ∈ l.own j, conflicts w w' = true → j ≠ i →
      n - rank w ≠ m := by
    intro m
    induction m using Nat.strong_induction_on with
    | h m ih =>
      rintro i j w hw w' hw' hc hne rfl
      obtain ⟨heq, hlt⟩ := hrank w w' hc
      obtain ⟨k, hk, v, hv, v', hv', hc'⟩ := hall i j ⟨hne, w, hw, w', hw', hc⟩
      have hmore : rank w' < rank v := horder j v hv w' hw'
      have hlt' : rank v < n := (hrank v v' hc').2
      exact ih (n - rank v) (by omega) j k v hv v' hv' hc' hk rfl
  rintro ⟨hne, w, hw, w', hw', hc⟩
  exact hbound _ i j w hw w' hw' hc hne rfl

end Transactions.Ledger
