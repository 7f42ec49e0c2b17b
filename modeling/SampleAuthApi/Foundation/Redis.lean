import SampleAuthApi.Foundation.Instant
import Mathlib.Data.Set.Finite.Basic

/-!
# A store of expiring strings and sets

The part of Redis that a session store needs: strings with a time to live and plain sets.  A
string written by `SETEX` with `n` seconds at the instant `t` is there until exactly `t + n`; sets
do not expire.  The two kinds of key are kept apart, so a program that uses one name for both is
outside this model.
-/

namespace Redis

/-- The commands, over keys `K`, string values `V` and set members `M`. -/
inductive Cmd (K V M : Type) : Type
  /-- `GET k` -/
  | get (k : K)
  /-- `SETEX k seconds v` -/
  | setex (k : K) (seconds : ℤ) (v : V)
  /-- `DEL k₁ … kₙ`, or a transaction of `DEL` commands -/
  | del (ks : Finset K)
  /-- `SADD k m` -/
  | sadd (k : K) (m : M)
  /-- `SREM k m` -/
  | srem (k : K) (m : M)
  /-- `SMEMBERS k` -/
  | smembers (k : K)
  /-- `EXISTS k` -/
  | existsKey (k : K)

/-- The type of the answer to a command; the counts that `DEL`, `SADD` and `SREM` return are left
out. -/
@[reducible] def Cmd.Reply {K V M : Type} : Cmd K V M → Type
  | .get _ => Option V
  | .smembers _ => Finset M
  | .existsKey _ => Bool
  | _ => Unit

/-- Redis refuses a time to live that is not positive. -/
def Cmd.isValid {K V M : Type} : Cmd K V M → Bool
  | .setex _ n _ => decide (0 < n)
  | _ => true

/-- The commands that change the store. -/
def Cmd.writes {K V M : Type} : Cmd K V M → Bool
  | .setex _ _ _ | .del _ | .sadd _ _ | .srem _ _ => true
  | _ => false

/-- The keys that a command may change. -/
def Cmd.keys {K V M : Type} [DecidableEq K] : Cmd K V M → Finset K
  | .setex k _ _ | .sadd k _ | .srem k _ => {k}
  | .del ks => ks
  | _ => ∅

/-- The contents of a store: strings with the instant at which they vanish, and sets. -/
structure Store (K V M T : Type) where
  /-- The strings. -/
  strings : K → Option (V × T)
  /-- The sets. -/
  sets : K → Finset M

namespace Store

variable {K V M T : Type}

/-- The empty store. -/
def empty : Store K V M T := ⟨fun _ => none, fun _ => ∅⟩

/-- The string at `k`, if it is still there at the instant `t`. -/
def lookup [Instant T] (s : Store K V M T) (t : T) (k : K) : Option V :=
  match s.strings k with
  | some (v, e) => if t < e then some v else none
  | none => none

/-- An empty store has no values. -/
@[simp] theorem lookup_empty [Instant T] (t : T) (k : K) :
    (empty : Store K V M T).lookup t k = none := rfl

/-- An empty store has no members. -/
@[simp] theorem sets_empty (k : K) : (empty : Store K V M T).sets k = ∅ := rfl

/-- A value is found until it expires. -/
theorem lookup_eq_some [Instant T] {s : Store K V M T} {t : T} {k : K} {v : V} :
    s.lookup t k = some v ↔ ∃ e, s.strings k = some (v, e) ∧ t < e := by
  unfold lookup
  split
  · rename_i v' e h
    rw [h]
    split
    · rename_i hlt
      constructor
      · rintro h'
        cases h'
        exact ⟨e, rfl, hlt⟩
      · rintro ⟨e', h', -⟩
        cases h'
        rfl
    · rename_i hlt
      constructor
      · rintro h'
        cases h'
      · rintro ⟨e', h', hlt'⟩
        cases h'
        exact absurd hlt' hlt
  · rename_i h
    simp [h]

/-- A string that is there at `t'` was there at every earlier instant since it was written. -/
theorem lookup_anti [Instant T] {s : Store K V M T} {t t' : T} {k : K} {v : V}
    (h : s.lookup t' k = some v) (ht : t ≤ t') : s.lookup t k = some v := by
  obtain ⟨e, he, hlt⟩ := lookup_eq_some.mp h
  exact lookup_eq_some.mpr ⟨e, he, lt_of_le_of_lt ht hlt⟩

variable [DecidableEq K] [DecidableEq M] [Instant T]

/-- The answer to a command at the instant `t`. -/
def answer (s : Store K V M T) (t : T) : (c : Cmd K V M) → c.Reply
  | .get k => s.lookup t k
  | .setex _ _ _ => ()
  | .del _ => ()
  | .sadd _ _ => ()
  | .srem _ _ => ()
  | .smembers k => s.sets k
  | .existsKey k => (s.lookup t k).isSome || decide (s.sets k ≠ ∅)

/-- The store after a command at the instant `t`. -/
def update (s : Store K V M T) (t : T) : Cmd K V M → Store K V M T
  | .setex k n v => { s with strings := fun k' => if k' = k then some (v, t + n) else s.strings k' }
  | .del ks =>
    ⟨fun k => if k ∈ ks then none else s.strings k, fun k => if k ∈ ks then ∅ else s.sets k⟩
  | .sadd k m => { s with sets := fun k' => if k' = k then insert m (s.sets k') else s.sets k' }
  | .srem k m => { s with sets := fun k' => if k' = k then (s.sets k').erase m else s.sets k' }
  | _ => s

variable (s : Store K V M T) (t t' : T)

/-- `SETEX` replaces the value of its key. -/
theorem strings_setex (k k' : K) (n : ℤ) (v : V) :
    (s.update t (.setex k n v)).strings k' =
      if k' = k then some (v, t + n) else s.strings k' := rfl

/-- After `SETEX` the value of its key is found until it expires. -/
theorem lookup_setex (k k' : K) (n : ℤ) (v : V) :
    (s.update t (.setex k n v)).lookup t' k' =
      if k' = k then (if t' < t + n then some v else none) else s.lookup t' k' := by
  unfold lookup
  rw [strings_setex]
  by_cases h : k' = k <;> simp [h]

/-- `SETEX` leaves the sets alone. -/
@[simp] theorem sets_setex (k : K) (n : ℤ) (v : V) :
    (s.update t (.setex k n v)).sets = s.sets := rfl

/-- A string that is there after a command was there before, or has just been written. -/
theorem lookup_update {c : Cmd K V M} {k : K} (h : (s.update t c).lookup t' k ≠ none) :
    s.lookup t' k ≠ none ∨ ∃ n v, c = .setex k n v := by
  cases c with
  | setex k' n v =>
    rw [lookup_setex] at h
    by_cases hk : k = k'
    · exact .inr ⟨n, v, by rw [hk]⟩
    · rw [if_neg hk] at h
      exact .inl h
  | del ks =>
    refine .inl fun hnone => h ?_
    unfold lookup update at *
    split <;> simp_all
  | _ => exact .inl h

/-- `DEL` removes the values of its keys. -/
theorem strings_del (ks : Finset K) (k : K) :
    (s.update t (.del ks)).strings k = if k ∈ ks then none else s.strings k := rfl

/-- After `DEL` its keys have no values. -/
theorem lookup_del (ks : Finset K) (k : K) :
    (s.update t (.del ks)).lookup t' k = if k ∈ ks then none else s.lookup t' k := by
  unfold lookup
  rw [strings_del]
  by_cases h : k ∈ ks <;> simp [h]

/-- `DEL` empties the sets of its keys. -/
theorem sets_del (ks : Finset K) (k : K) :
    (s.update t (.del ks)).sets k = if k ∈ ks then ∅ else s.sets k := rfl

/-- `SADD` leaves the values alone. -/
@[simp] theorem strings_sadd (k : K) (m : M) :
    (s.update t (.sadd k m)).strings = s.strings := rfl

/-- `SADD` leaves what is found alone. -/
@[simp] theorem lookup_sadd (k k' : K) (m : M) :
    (s.update t (.sadd k m)).lookup t' k' = s.lookup t' k' := rfl

/-- `SADD` adds a member to the set of its key. -/
theorem sets_sadd (k k' : K) (m : M) :
    (s.update t (.sadd k m)).sets k' = if k' = k then insert m (s.sets k') else s.sets k' := rfl

/-- `SREM` leaves the values alone. -/
@[simp] theorem strings_srem (k : K) (m : M) :
    (s.update t (.srem k m)).strings = s.strings := rfl

/-- `SREM` leaves what is found alone. -/
@[simp] theorem lookup_srem (k k' : K) (m : M) :
    (s.update t (.srem k m)).lookup t' k' = s.lookup t' k' := rfl

/-- `SREM` removes a member from the set of its key. -/
theorem sets_srem (k k' : K) (m : M) :
    (s.update t (.srem k m)).sets k' = if k' = k then (s.sets k').erase m else s.sets k' := rfl

@[simp] theorem update_get (k : K) : s.update t (.get k) = s := rfl

@[simp] theorem update_smembers (k : K) : s.update t (.smembers k) = s := rfl

@[simp] theorem update_existsKey (k : K) : s.update t (.existsKey k) = s := rfl

/-- A command leaves the keys that it does not name alone. -/
theorem update_of_notMem {c : Cmd K V M} {k : K} (h : k ∉ c.keys) :
    (s.update t c).strings k = s.strings k ∧ (s.update t c).sets k = s.sets k := by
  cases c with
  | setex k' n v =>
    have hk : k ≠ k' := by simpa [Cmd.keys] using h
    exact ⟨by rw [strings_setex, if_neg hk], rfl⟩
  | del ks =>
    have hk : k ∉ ks := h
    exact ⟨by rw [strings_del, if_neg hk], by rw [sets_del, if_neg hk]⟩
  | sadd k' m =>
    have hk : k ≠ k' := by simpa [Cmd.keys] using h
    exact ⟨rfl, by rw [sets_sadd, if_neg hk]⟩
  | srem k' m =>
    have hk : k ≠ k' := by simpa [Cmd.keys] using h
    exact ⟨rfl, by rw [sets_srem, if_neg hk]⟩
  | _ => exact ⟨rfl, rfl⟩

/-- Finitely many keys have a string after a command, if finitely many had one before. -/
theorem finite_strings_update {c : Cmd K V M} (h : {k | s.strings k ≠ none}.Finite) :
    {k | (s.update t c).strings k ≠ none}.Finite := by
  refine (c.keys.finite_toSet.union h).subset fun k hk => ?_
  by_cases hkey : k ∈ c.keys
  · exact .inl hkey
  · right
    rwa [Set.mem_ofPred_eq, (update_of_notMem s t hkey).1] at hk

/-- The store after commands that were sent at given instants, newest first. -/
def replay (l : List (T × Cmd K V M)) : Store K V M T := l.foldr (fun p s => s.update p.1 p.2) s

@[simp] theorem replay_nil : s.replay [] = s := rfl

@[simp] theorem replay_cons (p : T × Cmd K V M) (l : List (T × Cmd K V M)) :
    s.replay (p :: l) = (s.replay l).update p.1 p.2 := rfl

/-- What no command changes, a list of commands does not change. -/
theorem replay_frame {β : Type} {π : Store K V M T → β} {l : List (T × Cmd K V M)}
    (h : ∀ p ∈ l, ∀ r : Store K V M T, π (r.update p.1 p.2) = π r) : π (s.replay l) = π s := by
  induction l with
  | nil => rfl
  | cons p l ih =>
    have hrest : π (s.replay l) = π s := ih fun p' hp' => h p' (List.mem_cons_of_mem _ hp')
    rw [replay_cons, h p List.mem_cons_self, hrest]

end Store

end Redis
