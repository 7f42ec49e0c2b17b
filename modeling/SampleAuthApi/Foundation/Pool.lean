import Mathlib
import SampleAuthApi.Foundation.Program

/-!
# Pools of interleaved programs

A `Pool` runs any number of programs over one shared state.  A request starts a program in a slot
of its own, the scheduler picks which slot issues its next call, the environment may move the
shared state on its own, and a program that has ended is answered: its slot is emptied and the
`Exchange` (the request, its result and the record of its calls) joins the log.

A `System` supplies the programs and the meaning of the calls.  `Pool.Reach C` is reachability by
events that satisfy the condition `C` on the state before the event; runs are not bounded, neither
in length nor in the number of slots.

The last part relates the log and the slots to a *digest* of the calls made so far: if every
program, seen through an observer of digests, only issues allowed calls and ends in an allowed
state, then every event keeps this of all slots and all exchanges (`Pool.Conforms.exec`).
-/

variable {O : Type} {R : O → Type} {E α Q σ C F : Type}

/-- One call as it happened: the shared state it was issued in, the call, the answer. -/
structure Record (O : Type) (R : O → Type) (E σ : Type) where
  /-- The shared state in which the call was issued. -/
  before : σ
  /-- The call. -/
  op : O
  /-- The answer. -/
  reply : Except E (R op)

/-- A request being served: its program and the calls made so far, newest first. -/
structure Thread (O : Type) (R : O → Type) (E α Q σ : Type) where
  /-- The request. -/
  request : Q
  /-- What is left of its program. -/
  program : Program O R E α
  /-- The calls made so far, newest first. -/
  performed : List (Record O R E σ)

/-- A request that has been answered. -/
structure Exchange (O : Type) (R : O → Type) (E α Q σ : Type) where
  /-- The request. -/
  request : Q
  /-- Its result. -/
  result : Except E α
  /-- The calls it made, newest first. -/
  performed : List (Record O R E σ)

/-- The programs of a pool and the meaning of their calls. -/
structure System (O : Type) (R : O → Type) (E α Q σ C : Type) where
  /-- The program that serves a request. -/
  body : Q → Program O R E α
  /-- Whether a request may arrive, given the exchanges so far. -/
  admits : List (Exchange O R E α Q σ) → Q → Bool
  /-- The answer to a call of the slot with the given number, and the shared state after it;
  `none` when the call has to wait or the choice does not fit it. -/
  perform : ℕ → C → (o : O) → σ → Option (Except E (R o) × σ)
  /-- A move of the environment. -/
  drift : C → σ → Option σ

/-- Programs being served over one shared state. -/
structure Pool (O : Type) (R : O → Type) (E α Q σ : Type) where
  /-- The shared state. -/
  shared : σ
  /-- The slots, in the order in which the requests arrived; an answered slot is empty. -/
  slots : List (Option (Thread O R E α Q σ))
  /-- The answered requests, oldest first. -/
  log : List (Exchange O R E α Q σ)

/-- What may happen next in a pool. -/
inductive Event (Q C : Type) : Type
  /-- The request `q` arrives. -/
  | start (q : Q)
  /-- The program in slot `i` issues its next call. -/
  | step (i : ℕ) (c : C)
  /-- The program in slot `i` has ended and is answered. -/
  | respond (i : ℕ)
  /-- The environment moves. -/
  | env (c : C)

namespace Pool

/-- The pool with shared state `s` and no request so far. -/
def initial (s : σ) : Pool O R E α Q σ := ⟨s, [], []⟩

/-- The thread in slot `i`, if there is one. -/
def slot (w : Pool O R E α Q σ) (i : ℕ) : Option (Thread O R E α Q σ) := w.slots[i]?.join

/-- No request is being served. -/
def Quiescent (w : Pool O R E α Q σ) : Prop := ∀ i, w.slot i = none

variable (S : System O R E α Q σ C)

/-- The pool after an event, if the event is possible. -/
def exec : Event Q C → Pool O R E α Q σ → Option (Pool O R E α Q σ)
  | .start q, w =>
    if S.admits w.log q then
      some { w with slots := w.slots ++ [some ⟨q, S.body q, []⟩] }
    else none
  | .step i c, w =>
    match w.slot i with
    | some ⟨q, .call o k, tr⟩ =>
      (S.perform i c o w.shared).map fun (r, s) =>
        { w with shared := s, slots := w.slots.set i (some ⟨q, k r, ⟨w.shared, o, r⟩ :: tr⟩) }
    | _ => none
  | .respond i, w =>
    match w.slot i with
    | some th =>
      th.program.result?.map fun x =>
        { w with slots := w.slots.set i none, log := w.log ++ [⟨th.request, x, th.performed⟩] }
    | none => none
  | .env c, w => (S.drift c w.shared).map fun s => { w with shared := s }

/-- One event that satisfies the condition `K` on the state before it. -/
def Step (K : Pool O R E α Q σ → Event Q C → Prop) (w w' : Pool O R E α Q σ) : Prop :=
  ∃ e, K w e ∧ exec S e w = some w'

/-- Reachability by events that satisfy the condition `K`. -/
def Reach (K : Pool O R E α Q σ → Event Q C → Prop) :
    Pool O R E α Q σ → Pool O R E α Q σ → Prop :=
  Relation.ReflTransGen (Step S K)

/-- Every event is allowed. -/
def AnyEvent : Pool O R E α Q σ → Event Q C → Prop := fun _ _ => True

/-- A request arrives only while no other is being served. -/
def Serial (w : Pool O R E α Q σ) : Event Q C → Prop
  | .start _ => w.Quiescent
  | _ => True

/-! ## Slots -/

@[simp] theorem slot_initial (s : σ) (i : ℕ) :
    (initial s : Pool O R E α Q σ).slot i = none := by
  simp [initial, slot]

theorem slot_lt {w : Pool O R E α Q σ} {i : ℕ} {th : Thread O R E α Q σ}
    (h : w.slot i = some th) : i < w.slots.length := by
  unfold slot at h
  by_contra hlt
  rw [List.getElem?_eq_none (Nat.le_of_not_lt hlt)] at h
  cases h

/-- The slots after a new one has been appended. -/
theorem slot_append {w : Pool O R E α Q σ} (th : Thread O R E α Q σ) (s : σ)
    (l : List (Exchange O R E α Q σ)) (j : ℕ) :
    (⟨s, w.slots ++ [some th], l⟩ : Pool O R E α Q σ).slot j =
      if j = w.slots.length then some th else w.slot j := by
  unfold slot
  simp only [List.getElem?_append, List.getElem?_singleton]
  rcases lt_trichotomy j w.slots.length with hj | rfl | hj
  · simp [hj, hj.ne]
  · simp
  · have hsub : j - w.slots.length ≠ 0 := by omega
    simp [hj.ne', Nat.not_lt_of_lt hj, hsub]

/-- The slots after one of them has been rewritten. -/
theorem slot_set {w : Pool O R E α Q σ} {i : ℕ} (hi : i < w.slots.length)
    (x : Option (Thread O R E α Q σ)) (s : σ) (l : List (Exchange O R E α Q σ)) (j : ℕ) :
    (⟨s, w.slots.set i x, l⟩ : Pool O R E α Q σ).slot j = if j = i then x else w.slot j := by
  unfold slot
  rw [List.getElem?_set]
  by_cases hj : i = j
  · subst hj; simp [hi]
  · simp [hj, Ne.symm hj]

/-! ## What one event can do -/

/-- What one event can do: a request arrives in a new slot, a slot makes one call, an ended slot is
answered, or the environment moves. -/
theorem exec_cases {S : System O R E α Q σ C} {e : Event Q C} {w w' : Pool O R E α Q σ}
    (h : exec S e w = some w') :
    (∃ q, e = .start q ∧ S.admits w.log q = true ∧
      w' = ⟨w.shared, w.slots ++ [some ⟨q, S.body q, []⟩], w.log⟩) ∨
    (∃ i c q o k tr r s, e = .step i c ∧ w.slot i = some ⟨q, .call o k, tr⟩ ∧
      S.perform i c o w.shared = some (r, s) ∧
      w' = ⟨s, w.slots.set i (some ⟨q, k r, ⟨w.shared, o, r⟩ :: tr⟩), w.log⟩) ∨
    (∃ i th x, e = .respond i ∧ w.slot i = some th ∧ th.program.result? = some x ∧
      w' = ⟨w.shared, w.slots.set i none, w.log ++ [⟨th.request, x, th.performed⟩]⟩) ∨
    (∃ c s, e = .env c ∧ S.drift c w.shared = some s ∧ w' = ⟨s, w.slots, w.log⟩) := by
  cases e with
  | start q =>
    simp only [exec] at h
    split at h
    · rename_i hq
      exact .inl ⟨q, rfl, hq, by simpa using h.symm⟩
    · cases h
  | step i c =>
    simp only [exec] at h
    split at h
    · rename_i q o k tr hslot
      obtain ⟨⟨r, s⟩, hp, rfl⟩ := Option.map_eq_some_iff.mp h
      exact .inr (.inl ⟨i, c, q, o, k, tr, r, s, rfl, hslot, hp, rfl⟩)
    · cases h
  | respond i =>
    simp only [exec] at h
    split at h
    · rename_i th hslot
      obtain ⟨x, hx, rfl⟩ := Option.map_eq_some_iff.mp h
      exact .inr (.inr (.inl ⟨i, th, x, rfl, hslot, hx, rfl⟩))
    · cases h
  | env c =>
    obtain ⟨s, hs, rfl⟩ := Option.map_eq_some_iff.mp h
    exact .inr (.inr (.inr ⟨c, s, rfl, hs, rfl⟩))

/-! ## Runs -/

section Runs

variable {S : System O R E α Q σ C} {K L : Pool O R E α Q σ → Event Q C → Prop}

/-- An invariant of the initial state that every event preserves holds in every reachable state. -/
theorem Reach.induct {I : Pool O R E α Q σ → Prop} {w w' : Pool O R E α Q σ}
    (h : Reach S K w w') (h0 : I w)
    (hstep : ∀ v e v', Reach S K w v → I v → K v e → exec S e v = some v' → I v') : I w' := by
  induction h with
  | refl => exact h0
  | tail hv hs ih =>
    obtain ⟨e, hK, he⟩ := hs
    exact hstep _ e _ hv ih hK he

theorem Reach.refl (w : Pool O R E α Q σ) : Reach S K w w := Relation.ReflTransGen.refl

theorem Reach.trans {w w' w'' : Pool O R E α Q σ} (h : Reach S K w w') (h' : Reach S K w' w'') :
    Reach S K w w'' := Relation.ReflTransGen.trans h h'

theorem Reach.tail {w w' w'' : Pool O R E α Q σ} {e : Event Q C} (h : Reach S K w w')
    (hK : K w' e) (he : exec S e w' = some w'') : Reach S K w w'' :=
  Relation.ReflTransGen.tail h ⟨e, hK, he⟩

/-- Reachability is monotone in the condition on the events. -/
theorem Reach.mono (hK : ∀ w e, K w e → L w e) {w w' : Pool O R E α Q σ} (h : Reach S K w w') :
    Reach S L w w' := by
  refine Relation.ReflTransGen.mono ?_ _ _ h
  rintro v v' ⟨e, he, hx⟩
  exact ⟨e, hK v e he, hx⟩

/-- A slot serves one request only. -/
theorem exec_request {e : Event Q C} {w w' : Pool O R E α Q σ} (h : exec S e w = some w') {i : ℕ}
    {q : Q} (hlt : i < w.slots.length) (hq : ∀ th, w.slot i = some th → th.request = q) :
    i < w'.slots.length ∧ ∀ th, w'.slot i = some th → th.request = q := by
  rcases exec_cases h with ⟨q', -, -, rfl⟩ | ⟨j, c, q', o, k, tr, r, s, -, hslot, -, rfl⟩ |
    ⟨j, th', x, -, hslot, -, rfl⟩ | ⟨c, s, -, -, rfl⟩
  · refine ⟨by simp; omega, fun th hth => ?_⟩
    rw [slot_append, if_neg (by omega)] at hth
    exact hq th hth
  · refine ⟨by simpa using hlt, fun th hth => ?_⟩
    rw [slot_set (slot_lt hslot)] at hth
    split at hth
    · rename_i hij
      subst hij
      have hsame : q' = q := hq _ hslot
      cases Option.some.inj hth
      exact hsame
    · exact hq th hth
  · refine ⟨by simpa using hlt, fun th hth => ?_⟩
    rw [slot_set (slot_lt hslot)] at hth
    split at hth
    · cases hth
    · exact hq th hth
  · exact ⟨hlt, hq⟩

theorem Reach.request {w w' : Pool O R E α Q σ} (h : Reach S K w w') {i : ℕ} {q : Q}
    (hlt : i < w.slots.length) (hq : ∀ th, w.slot i = some th → th.request = q) :
    i < w'.slots.length ∧ ∀ th, w'.slot i = some th → th.request = q :=
  h.induct (I := fun v => i < v.slots.length ∧ ∀ th, v.slot i = some th → th.request = q)
    ⟨hlt, hq⟩ fun _ _ _ _ hv _ he => exec_request he hv.1 hv.2

/-- The pool after a list of events that all satisfy the decidable condition `k`. -/
def runWith (S : System O R E α Q σ C) (k : Pool O R E α Q σ → Event Q C → Bool) :
    List (Event Q C) → Pool O R E α Q σ → Option (Pool O R E α Q σ)
  | [], w => some w
  | e :: es, w => if k w e then (exec S e w).bind (runWith S k es) else none

/-- `AnyEvent`, as a check. -/
def anyEvent (_ : Pool O R E α Q σ) (_ : Event Q C) : Bool := true

theorem anyEvent_of_check (w : Pool O R E α Q σ) (e : Event Q C) (_ : anyEvent w e = true) :
    AnyEvent w e := trivial

/-- A list of possible events that satisfy a decidable condition is a run under any condition
that it decides. -/
theorem reach_of_runWith {k : Pool O R E α Q σ → Event Q C → Bool}
    (hk : ∀ w e, k w e = true → K w e) {es : List (Event Q C)} {w w' : Pool O R E α Q σ}
    (h : runWith S k es w = some w') : Reach S K w w' := by
  induction es generalizing w with
  | nil =>
    cases Option.some.inj h
    exact Reach.refl _
  | cons e es ih =>
    simp only [runWith] at h
    split at h
    · rename_i hke
      obtain ⟨v, hv, hw⟩ := Option.bind_eq_some_iff.mp h
      exact Relation.ReflTransGen.head ⟨e, hk w e hke, hv⟩ (ih hw)
    · cases h

/-- What is read off a replayed list of events holds of a reachable state. -/
theorem reach_of_replay {β : Type} {k : Pool O R E α Q σ → Event Q C → Bool}
    (hk : ∀ w e, k w e = true → K w e) (es : List (Event Q C)) {w : Pool O R E α Q σ}
    {g : Pool O R E α Q σ → β} {v : β} (h : (runWith S k es w).map g = some v) :
    ∃ w', Reach S K w w' ∧ g w' = v := by
  obtain ⟨w', hrun, hg⟩ := Option.map_eq_some_iff.mp h
  exact ⟨w', reach_of_runWith hk hrun, hg⟩

/-- A request arrives in `w` and is answered by `y` in `w'`, in a run under the condition `K`. -/
def Answered (S : System O R E α Q σ C) (K : Pool O R E α Q σ → Event Q C → Prop)
    (w : Pool O R E α Q σ) (y : Exchange O R E α Q σ) (w' : Pool O R E α Q σ) : Prop :=
  ∃ v v', exec S (.start y.request) w = some v ∧ Reach S K v v' ∧
    exec S (.respond w.slots.length) v' = some w' ∧ w'.log = v'.log ++ [y]

/-- What happens between arrival and answer is a run, if the condition excludes neither arrivals
nor answers. -/
theorem Answered.reach {w w' : Pool O R E α Q σ} {y : Exchange O R E α Q σ}
    (h : Answered S K w y w') (hstart : ∀ v q, K v (.start q))
    (hrespond : ∀ v i, K v (.respond i)) : Reach S K w w' := by
  obtain ⟨v, v', harrive, hrun, hanswer, -⟩ := h
  have hfirst : Reach S K w v := (Reach.refl w).tail (hstart w _) harrive
  exact (hfirst.trans hrun).tail (hrespond v' _) hanswer

/-- The condition on the events while a request is being served may be weakened. -/
theorem Answered.mono {w w' : Pool O R E α Q σ} {y : Exchange O R E α Q σ}
    (h : Answered S K w y w') (hK : ∀ v e, K v e → L v e) : Answered S L w y w' := by
  obtain ⟨v, v', hstart, hrun, hanswer, hlog⟩ := h
  exact ⟨v, v', hstart, hrun.mono hK, hanswer, hlog⟩

/-- The answer is the last exchange of the log. -/
theorem Answered.getLast? {w w' : Pool O R E α Q σ} {y : Exchange O R E α Q σ}
    (h : Answered S K w y w') : w'.log.getLast? = some y := by
  obtain ⟨v, v', -, -, -, hlog⟩ := h
  rw [hlog, List.getLast?_concat]

/-- A replay of a run before a request, the arrival of the request, a run while it is being served,
and its answer. -/
theorem answered_of_replay {k k' : Pool O R E α Q σ → Event Q C → Bool}
    (hk : ∀ w e, k w e = true → K w e) (hk' : ∀ w e, k' w e = true → L w e)
    (es es' : List (Event Q C)) (q : Q)
    {w : Pool O R E α Q σ} {g : Pool O R E α Q σ → Pool O R E α Q σ → Bool}
    (h : (do
      let v ← runWith S k es w
      let v' ← (exec S (.start q) v).bind (runWith S k' es')
      let w' ← exec S (.respond v.slots.length) v'
      pure (g v w')) = some true) :
    ∃ v y w', Reach S K w v ∧ y.request = q ∧ Answered S L v y w' ∧ g v w' = true := by
  simp only [Option.bind_eq_bind, Option.bind_eq_some_iff, Option.pure_def, Option.some.injEq] at h
  obtain ⟨v, hv, v', ⟨v₀, hstart, hrun⟩, w', hanswer, hg⟩ := h
  have hserved : v.slots.length < v'.slots.length ∧
      ∀ th, v'.slot v.slots.length = some th → th.request = q := by
    refine (reach_of_runWith hk' hrun).request ?_ ?_
    · rcases exec_cases hstart with ⟨_, -, -, rfl⟩ | ⟨_, _, _, _, _, _, _, _, he, -⟩ |
        ⟨_, _, _, he, -⟩ | ⟨_, _, he, -⟩
      · simp
      all_goals cases he
    · intro th hth
      rcases exec_cases hstart with ⟨_, he, -, rfl⟩ | ⟨_, _, _, _, _, _, _, _, he, -⟩ |
        ⟨_, _, _, he, -⟩ | ⟨_, _, he, -⟩
      · cases he
        rw [slot_append, if_pos rfl] at hth
        cases Option.some.inj hth
        rfl
      all_goals cases he
  rcases exec_cases hanswer with ⟨_, he, -⟩ | ⟨_, _, _, _, _, _, _, _, he, -⟩ |
    ⟨i, th, res, he, hslot, -, rfl⟩ | ⟨_, _, he, -⟩
  · cases he
  · cases he
  · cases he
    have hq : th.request = q := hserved.2 th hslot
    refine ⟨v, ⟨th.request, res, th.performed⟩, _, reach_of_runWith hk hv, hq, ?_, hg⟩
    exact ⟨v₀, v', by rw [hq]; exact hstart, reach_of_runWith hk' hrun, hanswer, rfl⟩
  · cases he

end Runs

/-! ## Digests of the calls made so far -/

section Digests

variable (init : F) (update : F → Record O R E σ → F)

/-- The digest of a list of calls, newest first. -/
def digest (tr : List (Record O R E σ)) : F := tr.foldr (fun x f => update f x) init

@[simp] theorem digest_nil : digest init update [] = init := rfl

@[simp] theorem digest_cons (x : Record O R E σ) (tr : List (Record O R E σ)) :
    digest init update (x :: tr) = update (digest init update tr) x := rfl

variable (allows : Q → F → O → Prop) (possible : F → (o : O) → σ → Except E (R o) → Prop)

/-- The onlooker of a request that remembers the digest: every call must be allowed, and every
answer that is possible after the calls so far is expected. -/
def watch (q : Q) : Program.Observer O R E F := fun o f k =>
  allows q f o ∧ ∀ s r, possible f o s r → k r (update f ⟨s, o, r⟩)

theorem watch_monotone (q : Q) : (watch update allows possible q).Monotone :=
  fun _ _ _ _ hk h => ⟨h.1, fun s r hr => hk r _ (h.2 s r hr)⟩

/-- What two onlookers of a program see of its end, one of whom expects no particular calls. -/
theorem wp_watch_and {q : Q} {p : Program O R E α} {P P' : Except E α → F → Prop} {f : F}
    (h : Program.wp (watch update allows possible q) p P f)
    (h' : Program.wp (watch update (fun _ _ _ => True) possible q) p P' f) :
    Program.wp (watch update allows possible q) p (fun x g => P x g ∧ P' x g) f := by
  induction p generalizing f with
  | ret a => exact ⟨h, h'⟩
  | raise e => exact ⟨h, h'⟩
  | call o k ih => exact ⟨h.1, fun s r hr => ih r (h.2 s r hr) (h'.2 s r hr)⟩

/-- An onlooker who expects no particular calls sees what any other sees. -/
theorem wp_watch_any {q : Q} {p : Program O R E α} {P : Except E α → F → Prop} {f : F}
    (h : Program.wp (watch update allows possible q) p P f) :
    Program.wp (watch update (fun _ _ _ => True) possible q) p P f := by
  induction p generalizing f with
  | ret a => exact h
  | raise e => exact h
  | call o k ih => exact ⟨trivial, fun s r hr => ih r (h.2 s r hr)⟩

variable (post : Q → Except E α → F → Prop)

/-- Every slot and every exchange of the pool is as its digest says. -/
structure Conforms (w : Pool O R E α Q σ) : Prop where
  /-- What is left of a program only issues allowed calls and ends as it should. -/
  slot : ∀ i th, w.slot i = some th →
    Program.wp (watch update allows possible th.request) th.program (post th.request)
      (digest init update th.performed)
  /-- An answered request ended as it should. -/
  log : ∀ x ∈ w.log, post x.request x.result (digest init update x.performed)

variable {init update allows possible post} {S : System O R E α Q σ C}

theorem conforms_initial (s : σ) :
    Conforms init update allows possible post (initial s : Pool O R E α Q σ) :=
  ⟨fun i th hi => by simp at hi, fun x hx => absurd hx List.not_mem_nil⟩

/-- A program that has ended in a conforming pool ended as it should. -/
theorem Conforms.ended {w : Pool O R E α Q σ} {i : ℕ} {th : Thread O R E α Q σ} {x : Except E α}
    (hw : Conforms init update allows possible post w) (hslot : w.slot i = some th)
    (hx : th.program.result? = some x) :
    post th.request x (digest init update th.performed) := by
  have hth := hw.slot i th hslot
  cases hprog : th.program with
  | ret a => rw [hprog] at hx hth; cases Option.some.inj hx; exact hth
  | raise e => rw [hprog] at hx hth; cases Option.some.inj hx; exact hth
  | call o k => rw [hprog] at hx; cases hx

/-- One event keeps the pool conforming. -/
theorem Conforms.exec
    (hbody : ∀ q, Program.wp (watch update allows possible q) (S.body q) (post q) init)
    {w w' : Pool O R E α Q σ} {e : Event Q C}
    (hans : ∀ i c q o k tr r s, w.slot i = some ⟨q, .call o k, tr⟩ →
      S.perform i c o w.shared = some (r, s) → possible (digest init update tr) o w.shared r)
    (hw : Conforms init update allows possible post w) (h : Pool.exec S e w = some w') :
    Conforms init update allows possible post w' := by
  rcases exec_cases h with ⟨q, -, -, rfl⟩ | ⟨i, c, q, o, k, tr, r, s, -, hslot, hp, rfl⟩ |
    ⟨i, th, x, -, hslot, hx, rfl⟩ | ⟨c, s, -, -, rfl⟩
  · refine ⟨fun j th hj => ?_, hw.log⟩
    rw [slot_append] at hj
    split at hj
    · cases Option.some.inj hj
      exact hbody q
    · exact hw.slot j th hj
  · refine ⟨fun j th hj => ?_, hw.log⟩
    rw [slot_set (slot_lt hslot)] at hj
    split at hj
    · cases Option.some.inj hj
      exact (hw.slot i _ hslot).2 w.shared r (hans i c q o k tr r s hslot hp)
    · exact hw.slot j th hj
  · refine ⟨fun j th' hj => ?_, fun y hy => ?_⟩
    · rw [slot_set (slot_lt hslot)] at hj
      split at hj
      · cases hj
      · exact hw.slot j th' hj
    · rcases List.mem_append.mp hy with hy | hy
      · exact hw.log y hy
      · rw [List.mem_singleton] at hy
        subst hy
        exact hw.ended hslot hx
  · exact ⟨fun j th hj => hw.slot j th hj, hw.log⟩

/-- The next call of a slot of a conforming pool is allowed. -/
theorem Conforms.allows_next {w : Pool O R E α Q σ}
    (hw : Conforms init update allows possible post w) {i : ℕ} {q : Q} {o : O}
    {k : Except E (R o) → Program O R E α} {tr : List (Record O R E σ)}
    (h : w.slot i = some ⟨q, .call o k, tr⟩) : allows q (digest init update tr) o :=
  (hw.slot i _ h).1

/-- Every call of a list, newest first, was allowed after the calls before it, and its answer was
possible. -/
def Permitted (init : F) (update : F → Record O R E σ → F) (allows : Q → F → O → Prop)
    (possible : F → (o : O) → σ → Except E (R o) → Prop) (q : Q) : List (Record O R E σ) → Prop
  | [] => True
  | x :: tr => Permitted init update allows possible q tr ∧
    allows q (digest init update tr) x.op ∧
    possible (digest init update tr) x.op x.before x.reply

/-- The calls that the slots and the exchanges of the pool record were allowed. -/
structure Permits (init : F) (update : F → Record O R E σ → F) (allows : Q → F → O → Prop)
    (possible : F → (o : O) → σ → Except E (R o) → Prop) (w : Pool O R E α Q σ) : Prop where
  slot : ∀ i th, w.slot i = some th →
    Permitted init update allows possible th.request th.performed
  log : ∀ x ∈ w.log, Permitted init update allows possible x.request x.performed

theorem permits_initial (s : σ) :
    Permits init update allows possible (initial s : Pool O R E α Q σ) :=
  ⟨fun i th hi => by simp at hi, fun x hx => absurd hx List.not_mem_nil⟩

/-- A conforming pool goes on to make calls that are allowed. -/
theorem Permits.exec {w w' : Pool O R E α Q σ} {e : Event Q C}
    (hans : ∀ i c q o k tr r s, w.slot i = some ⟨q, .call o k, tr⟩ →
      S.perform i c o w.shared = some (r, s) → possible (digest init update tr) o w.shared r)
    (hw : Conforms init update allows possible post w)
    (hp : Permits init update allows possible w) (h : Pool.exec S e w = some w') :
    Permits init update allows possible w' := by
  rcases exec_cases h with ⟨q, -, -, rfl⟩ | ⟨i, c, q, o, k, tr, r, s, -, hslot, hperform, rfl⟩ |
    ⟨i, th, x, -, hslot, -, rfl⟩ | ⟨c, s, -, -, rfl⟩
  · refine ⟨fun j th hj => ?_, hp.log⟩
    rw [slot_append] at hj
    split at hj
    · cases Option.some.inj hj
      exact trivial
    · exact hp.slot j th hj
  · refine ⟨fun j th hj => ?_, hp.log⟩
    rw [slot_set (slot_lt hslot)] at hj
    split at hj
    · cases Option.some.inj hj
      exact ⟨hp.slot i _ hslot, hw.allows_next hslot, hans i c q o k tr r s hslot hperform⟩
    · exact hp.slot j th hj
  · refine ⟨fun j th' hj => ?_, fun y hy => ?_⟩
    · rw [slot_set (slot_lt hslot)] at hj
      split at hj
      · cases hj
      · exact hp.slot j th' hj
    · rcases List.mem_append.mp hy with hy | hy
      · exact hp.log y hy
      · rw [List.mem_singleton] at hy
        subst hy
        exact hp.slot i th hslot
  · exact ⟨fun j th hj => hp.slot j th hj, hp.log⟩

end Digests

end Pool
