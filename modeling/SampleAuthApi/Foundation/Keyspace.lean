import SampleAuthApi.Foundation.Redis

/-!
# One keyspace

Redis keeps strings and sets under the names of one keyspace.  A command on a name that holds the
other kind is refused, a set that loses its last member is gone, and a string whose time is up
counts as absent.  `Keyspace.run` is the meaning of the commands of `Redis.Cmd` there.

A client writes its keys, values and members as names, strings and members by an `Encoding`.  If it
uses every key for one kind only, `Keyspace.run` on the encoded command does what `Store.answer` and
`Store.update` say (`Represents.run`), so a store with its two kinds apart is a faithful view.
-/

namespace Redis

/-- What is kept under a name: a string with the instant at which it vanishes, or a set. -/
inductive Entry (V M T : Type)
  | string (v : V) (expires : T)
  | set (ms : Finset M)

/-- The names in use and what is kept under them. -/
structure Keyspace (K V M T : Type) where
  /-- What is kept under a name. -/
  entries : K → Option (Entry V M T)

/-- Why a command is refused. -/
inductive Refusal
  /-- the name holds the other kind -/
  | wrongType
  /-- the time to live is not positive -/
  | invalidExpire
  deriving DecidableEq

namespace Keyspace

variable {K V M T : Type}

/-- No name is in use. -/
def empty : Keyspace K V M T := ⟨fun _ => none⟩

/-- What is kept under a name at the instant `t`. -/
def live [Instant T] (s : Keyspace K V M T) (t : T) (k : K) : Option (Entry V M T) :=
  match s.entries k with
  | some (.string v e) => if t < e then some (.string v e) else none
  | x => x

section Update

variable [DecidableEq K] (s : Keyspace K V M T)

/-- Put an entry under a name, or remove what is there. -/
def put (k : K) (x : Option (Entry V M T)) : Keyspace K V M T :=
  ⟨fun k' => if k' = k then x else s.entries k'⟩

/-- Remove the entries of some names. -/
def drop (ks : Finset K) : Keyspace K V M T := ⟨fun k => if k ∈ ks then none else s.entries k⟩

theorem entries_put (k k' : K) (x : Option (Entry V M T)) :
    (s.put k x).entries k' = if k' = k then x else s.entries k' := rfl

theorem entries_drop (ks : Finset K) (k : K) :
    (s.drop ks).entries k = if k ∈ ks then none else s.entries k := rfl

end Update

variable [DecidableEq M]

/-- The entry for a set, which is none if the set is empty. -/
def setEntry (ms : Finset M) : Option (Entry V M T) := if ms = ∅ then none else some (.set ms)

/-- The set under a name, which is empty if there is none. -/
def members [Instant T] (s : Keyspace K V M T) (t : T) (k : K) : Except Refusal (Finset M) :=
  match s.live t k with
  | none => .ok ∅
  | some (.set ms) => .ok ms
  | some (.string _ _) => .error .wrongType

/-- The answer to a command at the instant `t`, and the keyspace after it. -/
def run [DecidableEq K] [Instant T] (s : Keyspace K V M T) (t : T) :
    (c : Cmd K V M) → Except Refusal (c.Reply × Keyspace K V M T)
  | .get k =>
    match s.live t k with
    | none => .ok (none, s)
    | some (.string v _) => .ok (some v, s)
    | some (.set _) => .error .wrongType
  | .setex k n v =>
    if 0 < n then .ok ((), s.put k (some (.string v (t + n)))) else .error .invalidExpire
  | .del ks => .ok ((), s.drop ks)
  | .sadd k m => (s.members t k).map fun ms => ((), s.put k (setEntry (insert m ms)))
  | .srem k m => (s.members t k).map fun ms => ((), s.put k (setEntry (ms.erase m)))
  | .smembers k => (s.members t k).map fun ms => (ms, s)
  | .existsKey k => .ok ((s.live t k).isSome, s)

end Keyspace

/-- How a client writes keys, values and members, and which keys it uses for strings. -/
structure Encoding (K V M K' V' M' : Type) where
  /-- The name of a key. -/
  key : K → K'
  /-- The string that stands for a value. -/
  value : V → V'
  /-- The value that a string stands for. -/
  value? : V' → Option V
  /-- How a member is written. -/
  member : M → M'
  /-- The member that is written so. -/
  member? : M' → Option M
  /-- The key is used for strings; the other keys are used for sets. -/
  isString : K → Bool
  /-- Different keys have different names. -/
  key_injective : Function.Injective key
  /-- Values are read back. -/
  value?_value : ∀ v, value? (value v) = some v
  /-- Members are read back. -/
  member?_member : ∀ m, member? (member m) = some m

namespace Encoding

variable {K V M K' V' M' T : Type} (E : Encoding K V M K' V' M')

theorem member_injective : Function.Injective E.member := fun m m' h => by
  have hread := E.member?_member m
  rw [h, E.member?_member] at hread
  exact (Option.some.inj hread).symm

/-- The command as it is sent. -/
def encode [DecidableEq K']  : Cmd K V M → Cmd K' V' M'
  | .get k => .get (E.key k)
  | .setex k n v => .setex (E.key k) n (E.value v)
  | .del ks => .del (ks.image E.key)
  | .sadd k m => .sadd (E.key k) (E.member m)
  | .srem k m => .srem (E.key k) (E.member m)
  | .smembers k => .smembers (E.key k)
  | .existsKey k => .existsKey (E.key k)

variable [DecidableEq M]

/-- The members that are written so; those that cannot be read are dropped. -/
def readMembers (ms : Finset M') : Finset M := ms.biUnion fun b => (E.member? b).toFinset

/-- The answer to a `SMEMBERS` as the client reads it. -/
def decodeMembers (ms : Finset M') : Option (Finset M) :=
  if ∀ b ∈ ms, (E.member? b).isSome then some (E.readMembers ms) else none

/-- The answer as the client reads it; `none` if something in it cannot be read. -/
def decode [DecidableEq K'] : (c : Cmd K V M) → (E.encode c).Reply → Option c.Reply
  | .get _, none => some none
  | .get _, some b => (E.value? b).map some
  | .setex _ _ _, _ => some ()
  | .del _, _ => some ()
  | .sadd _ _, _ => some ()
  | .srem _ _, _ => some ()
  | .smembers _, ms => E.decodeMembers ms
  | .existsKey _, b => some b

/-- The command uses each key for its kind. -/
def Fits : Cmd K V M → Prop
  | .get k | .setex k _ _ => E.isString k = true
  | .sadd k _ | .srem k _ | .smembers k => E.isString k = false
  | .del _ | .existsKey _ => True

/-- The keyspace as the client reads it. -/
def view (s : Keyspace K' V' M' T) : Store K V M T where
  strings k :=
    match s.entries (E.key k) with
    | some (.string b e) => (E.value? b).map fun v => (v, e)
    | _ => none
  sets k :=
    match s.entries (E.key k) with
    | some (.set ms) => E.readMembers ms
    | _ => ∅

variable [DecidableEq M']

/-- What a store keeps at a key, as an entry. -/
def entry (r : Store K V M T) (k : K) : Option (Entry V' M' T) :=
  if E.isString k then (r.strings k).map fun p => .string (E.value p.1) p.2
  else Keyspace.setEntry ((r.sets k).image E.member)

/-- The keyspace holds what the store says, each kind at its keys. -/
structure Represents (s : Keyspace K' V' M' T) (r : Store K V M T) : Prop where
  /-- The entry of each key. -/
  entries : ∀ k, s.entries (E.key k) = E.entry r k
  /-- A key for sets holds no string. -/
  strings : ∀ k, E.isString k = false → r.strings k = none
  /-- A key for strings holds no set. -/
  sets : ∀ k, E.isString k = true → r.sets k = ∅

@[simp] theorem readMembers_image (ms : Finset M) : E.readMembers (ms.image E.member) = ms := by
  ext m
  simp [readMembers, E.member?_member]

omit [DecidableEq M] in
theorem represents_empty :
    E.Represents (Keyspace.empty : Keyspace K' V' M' T) (Store.empty : Store K V M T) where
  entries k := by
    unfold entry
    split <;> rfl
  strings _ _ := rfl
  sets _ _ := rfl

variable {E} {s : Keyspace K' V' M' T} {r : Store K V M T}

/-- The store is what the client reads. -/
theorem Represents.view_eq (h : E.Represents s r) : E.view s = r := by
  obtain ⟨strings, sets⟩ := r
  have hstrings : (E.view s).strings = strings := by
    funext k
    have hk := h.entries k
    unfold entry at hk
    cases hs : E.isString k with
    | true =>
      rw [if_pos hs] at hk
      cases hr : strings k with
      | none => simp [view, hk, hr]
      | some p => simp [view, hk, hr, E.value?_value]
    | false =>
      have hnone : strings k = none := h.strings k hs
      rw [if_neg (by simp [hs])] at hk
      rw [hnone]
      by_cases hm : (sets k).image E.member = ∅
      · simp [view, hk, Keyspace.setEntry, hm]
      · simp [view, hk, Keyspace.setEntry, hm]
  have hsets : (E.view s).sets = sets := by
    funext k
    have hk := h.entries k
    unfold entry at hk
    cases hs : E.isString k with
    | true =>
      have hempty : sets k = ∅ := h.sets k hs
      rw [if_pos hs] at hk
      rw [hempty]
      cases hr : strings k with
      | none => simp [view, hk, hr]
      | some p => simp [view, hk, hr]
    | false =>
      rw [if_neg (by simp [hs])] at hk
      by_cases hm : sets k = ∅
      · simp [view, hk, Keyspace.setEntry, hm]
      · simp [view, hk, Keyspace.setEntry, hm]
  rw [← hstrings, ← hsets]

omit [DecidableEq M] in
/-- A keyspace and a store that differ from represented ones at one key, and agree there. -/
lemma Represents.put [DecidableEq K'] (h : E.Represents s r) {k : K} {u : Store K V M T}
    (hother : ∀ k', k' ≠ k → u.strings k' = r.strings k' ∧ u.sets k' = r.sets k')
    (hstrings : E.isString k = false → u.strings k = none)
    (hsets : E.isString k = true → u.sets k = ∅) :
    E.Represents (s.put (E.key k) (E.entry u k)) u where
  entries k' := by
    rw [Keyspace.entries_put]
    by_cases hk : k' = k
    · subst hk
      exact if_pos rfl
    · have hname : E.key k' ≠ E.key k := fun hkey => hk (E.key_injective hkey)
      obtain ⟨hs, hm⟩ := hother k' hk
      rw [if_neg hname, h.entries k', entry, entry, hs, hm]
  strings k' hk' := by
    by_cases hk : k' = k
    · subst hk
      exact hstrings hk'
    · rw [(hother k' hk).1]
      exact h.strings k' hk'
  sets k' hk' := by
    by_cases hk : k' = k
    · subst hk
      exact hsets hk'
    · rw [(hother k' hk).2]
      exact h.sets k' hk'

/-- The names of deleted keys are deleted. -/
lemma Represents.del [DecidableEq K] [DecidableEq K'] [Instant T] (h : E.Represents s r)
    (ks : Finset K) (t : T) :
    E.Represents (s.drop (ks.image E.key)) (r.update t (.del ks)) where
  entries k := by
    rw [Keyspace.entries_drop]
    have hmem : E.key k ∈ ks.image E.key ↔ k ∈ ks := E.key_injective.mem_finset_image
    by_cases hk : k ∈ ks
    · unfold entry
      rw [if_pos (hmem.mpr hk), Store.strings_del, Store.sets_del, if_pos hk, if_pos hk]
      split <;> rfl
    · rw [if_neg (fun hname => hk (hmem.mp hname)), h.entries k, entry, entry,
        Store.strings_del, Store.sets_del, if_neg hk, if_neg hk]
  strings k hk := by
    rw [Store.strings_del, h.strings k hk]
    split <;> rfl
  sets k hk := by
    rw [Store.sets_del, h.sets k hk]
    split <;> rfl

section Run

variable [DecidableEq K] [DecidableEq K'] [Instant T] {t : T} {k : K}

omit [DecidableEq M] [DecidableEq K] [DecidableEq K'] in
/-- What is live under the name of a key for strings. -/
lemma Represents.live_string (h : E.Represents s r) (hk : E.isString k = true) :
    s.live t (E.key k) =
      (r.strings k).bind fun p => if t < p.2 then some (.string (E.value p.1) p.2) else none := by
  have hentry := h.entries k
  rw [entry, if_pos hk] at hentry
  unfold Keyspace.live
  rw [hentry]
  cases r.strings k <;> rfl

omit [DecidableEq M] [DecidableEq K] [DecidableEq K'] in
/-- The set under the name of a key for sets. -/
lemma Represents.members (h : E.Represents s r) (hk : E.isString k = false) :
    s.members t (E.key k) = .ok ((r.sets k).image E.member) := by
  have hentry := h.entries k
  rw [entry, if_neg (by simp [hk])] at hentry
  unfold Keyspace.members Keyspace.live
  rw [hentry]
  unfold Keyspace.setEntry
  by_cases hm : (r.sets k).image E.member = ∅
  · rw [if_pos hm, hm]
  · rw [if_neg hm]

omit [DecidableEq K] [DecidableEq K'] in
/-- A name is in use exactly when the key is. -/
lemma Represents.isSome_live (h : E.Represents s r) :
    (s.live t (E.key k)).isSome = ((r.lookup t k).isSome || decide (r.sets k ≠ ∅)) := by
  cases hk : E.isString k with
  | true =>
    rw [h.live_string hk, h.sets k hk]
    unfold Store.lookup
    cases r.strings k with
    | none => rfl
    | some p =>
      by_cases ht : t < p.2 <;> simp [ht]
  | false =>
    have hentry := h.entries k
    rw [entry, if_neg (by simp [hk])] at hentry
    have hnone : r.lookup t k = none := by
      unfold Store.lookup
      rw [h.strings k hk]
    unfold Keyspace.live
    rw [hentry, hnone]
    by_cases hm : r.sets k = ∅ <;> simp [Keyspace.setEntry, hm]

/-- On a represented store, an encoded command that fits the keys and is valid is carried out, is
answered what the store answers, and leaves a keyspace that represents the store after it. -/
theorem Represents.run (h : E.Represents s r) {c : Cmd K V M} (hfits : E.Fits c)
    (hvalid : c.isValid = true) :
    ∃ a s', s.run t (E.encode c) = .ok (a, s') ∧ E.decode c a = some (r.answer t c) ∧
      E.Represents s' (r.update t c) := by
  cases c with
  | get k =>
    have hk : E.isString k = true := hfits
    have hlive := h.live_string (t := t) hk
    cases hr : r.strings k with
    | none =>
      rw [hr] at hlive
      refine ⟨none, s, ?_, ?_, h⟩
      · simp [encode, Keyspace.run, hlive]
      · simp [decode, Store.answer, Store.lookup, hr]
    | some p =>
      rw [hr, Option.bind_some] at hlive
      by_cases ht : t < p.2
      · rw [if_pos ht] at hlive
        refine ⟨some (E.value p.1), s, ?_, ?_, h⟩
        · simp [encode, Keyspace.run, hlive]
        · simp [decode, Store.answer, Store.lookup, hr, ht, E.value?_value]
      · rw [if_neg ht] at hlive
        refine ⟨none, s, ?_, ?_, h⟩
        · simp [encode, Keyspace.run, hlive]
        · simp [decode, Store.answer, Store.lookup, hr, ht]
  | setex k n v =>
    have hk : E.isString k = true := hfits
    have hn : 0 < n := of_decide_eq_true hvalid
    have hput := h.put (u := r.update t (.setex k n v)) (k := k)
      (fun k' hne => Store.update_of_notMem r t (by simpa [Cmd.keys] using hne))
      (fun hf => absurd hk (by simp [hf])) (fun _ => h.sets k hk)
    have hentry : E.entry (r.update t (.setex k n v)) k = some (.string (E.value v) (t + n)) := by
      rw [entry, if_pos hk, Store.strings_setex, if_pos rfl, Option.map_some]
    rw [hentry] at hput
    exact ⟨(), _, if_pos hn, rfl, hput⟩
  | del ks => exact ⟨(), _, rfl, rfl, h.del ks t⟩
  | sadd k m =>
    have hk : E.isString k = false := hfits
    have hput := h.put (u := r.update t (.sadd k m)) (k := k)
      (fun k' hne => Store.update_of_notMem r t (by simpa [Cmd.keys] using hne))
      (fun _ => h.strings k hk) (fun hf => absurd hk (by simp [hf]))
    have hentry : E.entry (r.update t (.sadd k m)) k =
        Keyspace.setEntry (insert (E.member m) ((r.sets k).image E.member)) := by
      rw [entry, if_neg (by simp [hk]), Store.sets_sadd, if_pos rfl, Finset.image_insert]
    rw [hentry] at hput
    refine ⟨(), _, ?_, rfl, hput⟩
    change (s.members t (E.key k)).map _ = _
    rw [h.members hk]
    rfl
  | srem k m =>
    have hk : E.isString k = false := hfits
    have hput := h.put (u := r.update t (.srem k m)) (k := k)
      (fun k' hne => Store.update_of_notMem r t (by simpa [Cmd.keys] using hne))
      (fun _ => h.strings k hk) (fun hf => absurd hk (by simp [hf]))
    have hentry : E.entry (r.update t (.srem k m)) k =
        Keyspace.setEntry (((r.sets k).image E.member).erase (E.member m)) := by
      rw [entry, if_neg (by simp [hk]), Store.sets_srem, if_pos rfl,
        Finset.image_erase E.member_injective]
    rw [hentry] at hput
    refine ⟨(), _, ?_, rfl, hput⟩
    change (s.members t (E.key k)).map _ = _
    rw [h.members hk]
    rfl
  | smembers k =>
    have hk : E.isString k = false := hfits
    refine ⟨(r.sets k).image E.member, s, ?_, ?_, h⟩
    · change (s.members t (E.key k)).map _ = _
      rw [h.members hk]
      rfl
    · have hall : ∀ b ∈ (r.sets k).image E.member, (E.member? b).isSome := by
        intro b hb
        obtain ⟨m, -, rfl⟩ := Finset.mem_image.mp hb
        rw [E.member?_member]
        rfl
      exact (if_pos hall).trans (congrArg some (E.readMembers_image _))
  | existsKey k =>
    refine ⟨_, s, rfl, ?_, h⟩
    exact congrArg some h.isSome_live

omit [DecidableEq M] [DecidableEq K] in
/-- A time to live that is not positive is refused. -/
theorem run_encode_of_not_isValid {c : Cmd K V M} (h : c.isValid = false) :
    s.run t (E.encode c) = .error .invalidExpire := by
  cases c with
  | setex k n v => exact if_neg (of_decide_eq_false h)
  | _ => cases h

end Run

end Encoding

end Redis
