import SampleAuthApi.Sessions.Endpoints

/-!
# What one event does to the service

`Effect` says what one call does to the digest of its request and to the shared state, and `Change`
what one event does to a sound state of the service: a request arrives, makes a call that the
contract allows, is answered as the contract says, or the environment moves.  Every invariant of
the service is an induction over runs with one case for each constructor of `Change`.
-/

namespace SampleAuthApi

open Transactions Pool

variable {T K : Type} [Instant T]

/-! ## One call -/

/-- What a call of slot `i` does: from the digest `f` and the shared state `s` to those after it. -/
inductive Effect (i : ℕ) (c : Choice T) (s : Stores T) (f : Progress T) :
    Op T → Progress T → Stores T → Prop
  /-- The clock is read. -/
  | now : Effect i c s f .now (f.read s.now) s
  /-- A fresh value is drawn. -/
  | uuid4 (u : Uuid) (hu : u ∉ s.drawn) :
    Effect i c s f .uuid4 { f with drawn := u :: f.drawn } { s with drawn := u :: s.drawn }
  /-- A salt is made. -/
  | gensalt : Effect i c s f .gensalt f s
  /-- A password is verified. -/
  | checkpw : Effect i c s f .checkpw { f with checks := f.checks + 1 } s
  /-- A string is looked up. -/
  | get (k : Key) :
    Effect i c s f (.redis (.get k)) { f with found := some (s, s.redis.lookup s.now k) } s
  /-- A set is read. -/
  | smembers (k : Key) (hc : c = .go) :
    Effect i c s f (.redis (.smembers k)) { f with snapshot := some (s.redis.sets k) } s
  /-- A key is tested. -/
  | existsKey (k : Key) : Effect i c s f (.redis (.existsKey k)) { f with checked := some s } s
  /-- A command that changes the Redis store is carried out. -/
  | send (cmd : RedisCmd) (hc : c = .go) (hw : cmd.writes = true) (hv : cmd.isValid = true) :
    Effect i c s f (.redis cmd) { f with sent := (s.now, cmd) :: f.sent }
      { s with redis := s.redis.update s.now cmd }
  /-- Redis refuses a time to live that is not positive. -/
  | refuse (cmd : RedisCmd) (hv : cmd.isValid = false) : Effect i c s f (.redis cmd) f s
  /-- A user is queried by id. -/
  | userById (id : Uuid) :
    Effect i c s f (.select (.userById id)) (f.load s ((s.view i).select (.userById id))) s
  /-- A user is queried by email. -/
  | userByEmail (email : String) :
    Effect i c s f (.select (.userByEmail email))
      (f.load s ((s.view i).select (.userByEmail email))) s
  /-- A device row is queried. -/
  | deviceRow (u : Uuid) (d : String) :
    Effect i c s f (.select (.deviceByUserAndDevice u d)) { f with devices := some s } s
  /-- The active device rows of a user are queried. -/
  | activeDevices (u : Uuid) :
    Effect i c s f (.select (.activeDevices u)) { f with devices := some s } s
  /-- Changes are flushed. -/
  | flush (ws : List (Write T)) (db : Ledger (Database T) (Write T))
    (h : s.db.flush Database.apply Write.conflicts i ws = some (true, db)) :
    Effect i c s f (.flush ws) { f with wrote := f.wrote ++ ws } { s with db }
  /-- A unique index refuses the changes. -/
  | integrity (ws : List (Write T)) :
    Effect i c s f (.flush ws) { f with refused := some (s, ws) } s
  /-- The session is committed. -/
  | commit : Effect i c s f .commit f.commit
    { s with db := s.db.commit Database.apply i }
  /-- The session is rolled back. -/
  | rollback : Effect i c s f .rollback { f with wrote := [] } { s with db := s.db.rollback i }
  /-- Redis or the database could not be reached. -/
  | fail (o : Op T) (hc : c = .fail) : Effect i c s f o { f with failed := true } s

/-- The call is a query for device rows. -/
def Op.readsDevices : Op T → Bool
  | .select (.deviceByUserAndDevice _ _) | .select (.activeDevices _) => true
  | _ => false

section OneCall

variable {i : ℕ} {c : Choice T} {o : Op T} {s s' : Stores T} {r : Except Exc o.Reply}
  {f f' : Progress T}

/-- The failure that `perform` reports is recorded in the digest. -/
lemma perform_fail (h : perform i .fail o s = some (r, s')) :
    s' = s ∧ f.note s o r = { f with failed := true } := by
  cases o with
  | redis cmd => cases cmd <;> (cases Option.some.inj h; exact ⟨rfl, rfl⟩)
  | select q => cases q <;> (cases Option.some.inj h; exact ⟨rfl, rfl⟩)
  | flush ws => cases Option.some.inj h; exact ⟨rfl, rfl⟩
  | commit => cases Option.some.inj h; exact ⟨rfl, rfl⟩
  | _ => cases h

/-- What `perform` does, together with the digest. -/
theorem perform_effect (h : perform i c o s = some (r, s')) :
    Effect i c s f o (f.note s o r) s' := by
  by_cases hc : c = .fail
  · subst hc
    obtain ⟨rfl, hn⟩ := perform_fail (f := f) h
    rw [hn]
    exact .fail o rfl
  cases o with
  | now => obtain ⟨rfl, rfl⟩ := perform_now h; exact .now
  | uuid4 => obtain ⟨u, hu, rfl, rfl⟩ := perform_uuid4 h; exact .uuid4 u hu
  | gensalt => obtain ⟨a, rfl, rfl⟩ := perform_gensalt h; exact .gensalt
  | checkpw => obtain ⟨rfl, rfl⟩ := perform_checkpw h; exact .checkpw
  | redis cmd =>
    cases c with
    | go =>
      simp only [perform] at h
      split at h
      · rename_i hv
        cases h
        cases cmd with
        | get k => exact .get k
        | smembers k => exact .smembers k rfl
        | existsKey k => exact .existsKey k
        | setex k n v => exact .send _ rfl rfl hv
        | del ks => exact .send _ rfl rfl hv
        | sadd k m => exact .send _ rfl rfl hv
        | srem k m => exact .send _ rfl rfl hv
      · rename_i hv
        cases h
        cases cmd <;> exact .refuse _ (by simpa using hv)
    | fail => exact absurd rfl hc
    | _ => cases h
  | select q =>
    rcases perform_select h with ⟨rfl, rfl | ⟨rfl, hf⟩⟩
    · cases q with
      | userById id => exact .userById id
      | userByEmail email => exact .userByEmail email
      | deviceByUserAndDevice u d => exact .deviceRow u d
      | activeDevices u => exact .activeDevices u
    · exact absurd hf hc
  | flush ws =>
    rcases perform_flush h with ⟨rfl, db, hdb, rfl⟩ | ⟨e, rfl, rfl, ⟨rfl, -⟩ | hf⟩
    · exact .flush ws db hdb
    · exact .integrity ws
    · exact absurd hf hc
  | commit =>
    rcases perform_commit h with ⟨rfl, rfl⟩ | ⟨rfl, rfl, hf⟩
    · exact .commit
    · exact absurd hf hc
  | rollback => obtain ⟨rfl, rfl⟩ := perform_rollback h; exact .rollback

/-- A call changes the session of its own slot as the digest says. -/
theorem Effect.own_self (h : Effect i c s f o f' s') (hf : s.db.own i = f.wrote) :
    s'.db.own i = f'.wrote := by
  cases h with
  | flush ws db hdb => exact (Ledger.own_flush_self hdb).trans (congrArg (· ++ ws) hf)
  | commit => exact Ledger.own_commit_self
  | rollback => exact Ledger.own_rollback_self
  | _ => exact hf

/-- A call leaves the sessions of the other slots alone. -/
theorem Effect.own_of_ne {j : ℕ} (h : Effect i c s f o f' s') (hj : j ≠ i) :
    s'.db.own j = s.db.own j := by
  cases h with
  | flush ws db hdb => exact Ledger.own_flush_of_ne hdb hj
  | commit => exact Ledger.own_commit_of_ne hj
  | rollback => exact Ledger.own_rollback_of_ne hj
  | _ => rfl

/-- A call draws at most one value, and that value is fresh. -/
theorem Effect.drawn (h : Effect i c s f o f' s') :
    (f'.drawn = f.drawn ∧ s'.drawn = s.drawn) ∨
    ∃ u, u ∉ s.drawn ∧ f'.drawn = u :: f.drawn ∧ s'.drawn = u :: s.drawn ∧ o = .uuid4 := by
  cases h with
  | uuid4 u hu => exact .inr ⟨u, hu, rfl, rfl, rfl⟩
  | _ => exact .inl ⟨rfl, rfl⟩

/-- The clock does not move during a call, and a reading is of the present. -/
theorem Effect.readings (h : Effect i c s f o f' s') :
    s'.now = s.now ∧ (f'.readings = f.readings ∨ f'.readings = s.now :: f.readings) := by
  cases h with
  | now => exact ⟨rfl, .inr rfl⟩
  | _ => exact ⟨rfl, .inl rfl⟩

/-- Only a Redis command that is carried out changes the Redis store or the commands sent. -/
theorem Effect.sent (h : Effect i c s f o f' s') :
    (f'.sent = f.sent ∧ s'.redis = s.redis) ∨
    ∃ cmd, o = .redis cmd ∧ c = .go ∧ cmd.writes = true ∧ cmd.isValid = true ∧
      f' = { f with sent := (s.now, cmd) :: f.sent } ∧
      s' = { s with redis := s.redis.update s.now cmd } := by
  cases h with
  | send cmd hc hw hv => exact .inr ⟨cmd, rfl, hc, hw, hv, rfl, rfl⟩
  | _ => exact .inl ⟨rfl, rfl⟩

/-- Only a flush, a commit and a rollback change the database or what the digest knows of it. -/
theorem Effect.wrote (h : Effect i c s f o f' s') :
    (f'.wrote = f.wrote ∧ f'.committed = f.committed ∧ s'.db = s.db) ∨
    (∃ ws db, o = .flush ws ∧
      s.db.flush Database.apply Write.conflicts i ws = some (true, db) ∧
      f' = { f with wrote := f.wrote ++ ws } ∧ s' = { s with db }) ∨
    (o = .commit ∧ f' = f.commit ∧ s' = { s with db := s.db.commit Database.apply i }) ∨
    (o = .rollback ∧ f' = { f with wrote := [] } ∧ s' = { s with db := s.db.rollback i }) := by
  cases h with
  | flush ws db hdb => exact .inr (.inl ⟨ws, db, rfl, hdb, rfl, rfl⟩)
  | commit => exact .inr (.inr (.inl ⟨rfl, rfl, rfl⟩))
  | rollback => exact .inr (.inr (.inr ⟨rfl, rfl, rfl⟩))
  | _ => exact .inl ⟨rfl, rfl, rfl⟩

/-- Only a `GET` changes what has been found. -/
theorem Effect.found (h : Effect i c s f o f' s') :
    f'.found = f.found ∨ ∃ k, o = .redis (.get k) ∧ s' = s ∧
      f' = { f with found := some (s, s.redis.lookup s.now k) } := by
  cases h with
  | get k => exact .inr ⟨k, rfl, rfl, rfl⟩
  | _ => exact .inl rfl

/-- Without a failure of Redis or the database none is recorded. -/
theorem Effect.failed (h : Effect i c s f o f' s') (hc : c ≠ .fail) : f'.failed = f.failed := by
  cases h with
  | fail o hfail => exact absurd hfail hc
  | _ => rfl

/-- Only an `EXISTS` changes what has been tested. -/
theorem Effect.checked (h : Effect i c s f o f' s') :
    f'.checked = f.checked ∨ ∃ k, o = .redis (.existsKey k) ∧ s' = s ∧
      f' = { f with checked := some s } := by
  cases h with
  | existsKey k => exact .inr ⟨k, rfl, rfl, rfl⟩
  | _ => exact .inl rfl

/-- Only an `SMEMBERS` changes the snapshot. -/
theorem Effect.snapshot (h : Effect i c s f o f' s') :
    f'.snapshot = f.snapshot ∨ ∃ k, o = .redis (.smembers k) ∧ c = .go ∧ s' = s ∧
      f' = { f with snapshot := some (s.redis.sets k) } := by
  cases h with
  | smembers k hc => exact .inr ⟨k, rfl, hc, rfl, rfl⟩
  | _ => exact .inl rfl

/-- Only a query for device rows changes what is remembered of them. -/
theorem Effect.devices (h : Effect i c s f o f' s') :
    f'.devices = f.devices ∨ (o.readsDevices = true ∧ f' = { f with devices := some s } ∧
      s' = s) := by
  cases h with
  | deviceRow u d => exact .inr ⟨rfl, rfl, rfl⟩
  | activeDevices u => exact .inr ⟨rfl, rfl, rfl⟩
  | _ => exact .inl rfl

/-- Only a flush that a unique index refuses changes what has been refused. -/
theorem Effect.refused (h : Effect i c s f o f' s') :
    f'.refused = f.refused ∨ ∃ ws, o = .flush ws ∧ f' = { f with refused := some (s, ws) } ∧
      s' = s := by
  cases h with
  | integrity ws => exact .inr ⟨ws, rfl, rfl, rfl⟩
  | _ => exact .inl rfl

end OneCall

/-! ## One event -/

section Events

variable {α Q : Type}

/-- The request served in slot `i`, with its digest. -/
def serving (w : Pooled T α Q) (i : ℕ) : Option (Q × Progress T) :=
  (w.slot i).map fun th => (th.request, progress th.performed)

/-- The next call of slot `i`, with its request and digest. -/
def NextCall (w : Pooled T α Q) (i : ℕ) (q : Q) (f : Progress T) (o : Op T) : Prop :=
  ∃ k tr, w.slot i = some ⟨q, .call o k, tr⟩ ∧ progress tr = f

omit [Instant T] in
lemma NextCall.serving {w : Pooled T α Q} {i : ℕ} {q : Q} {f : Progress T} {o : Op T}
    (h : NextCall w i q f o) : serving w i = some (q, f) := by
  obtain ⟨k, tr, hslot, rfl⟩ := h
  simp [SampleAuthApi.serving, hslot]

omit [Instant T] in
lemma serving_eq_some {w : Pooled T α Q} {i : ℕ} {q : Q} {f : Progress T} :
    serving w i = some (q, f) ↔
      ∃ p tr, w.slot i = some ⟨q, p, tr⟩ ∧ progress tr = f := by
  constructor
  · intro h
    obtain ⟨⟨q', p, tr⟩, hslot, heq⟩ := Option.map_eq_some_iff.mp h
    cases heq
    exact ⟨p, tr, hslot, rfl⟩
  · rintro ⟨p, tr, hslot, rfl⟩
    simp [SampleAuthApi.serving, hslot]

omit [Instant T] in
/-- The next slot is empty. -/
lemma serving_length (w : Pooled T α Q) : serving w w.slots.length = none := by
  rw [serving, Option.map_eq_none_iff]
  by_contra hne
  obtain ⟨th, hth⟩ := Option.ne_none_iff_exists'.mp hne
  exact absurd (slot_lt hth) (by omega)

omit [Instant T] in
lemma serving_initial (s : Stores T) (i : ℕ) :
    serving (Pool.initial s : Pooled T α Q) i = none := by
  simp [serving]

omit [Instant T] in
lemma not_serving_of_quiescent {w : Pooled T α Q} (h : w.Quiescent) (i : ℕ) {q : Q}
    {f : Progress T} : serving w i ≠ some (q, f) := by
  rw [serving, h i]
  rintro ⟨⟩

variable (may : Q → Progress T → Op T → Prop) (post : Q → Except Exc α → Progress T → Prop)

/-- The requests keep a contract: they only issue calls that `may` allows and end as `post` says. -/
structure Kept (w : Pooled T α Q) : Prop where
  /-- The contract. -/
  conforms : Conforms {} Progress.update may Answer post w
  /-- The sessions of the ledger hold what their requests have flushed. -/
  own : ∀ i, w.shared.db.own i = ((serving w i).map fun p => p.2.wrote).getD []

/-- What one event does to requests that keep a contract. -/
inductive Turn (admits : List (Exchange (Op T) (Op.Reply T) Exc α Q (Stores T)) → Q → Bool)
    (w : Pooled T α Q) : Event Q (Choice T) → Pooled T α Q → Prop
  /-- A request arrives. -/
  | start (q : Q) (w' : Pooled T α Q) (hadm : admits w.log q = true)
    (hshared : w'.shared = w.shared) (hlog : w'.log = w.log)
    (hslots : w'.slots.length = w.slots.length + 1)
    (hserve : ∀ j, serving w' j = if j = w.slots.length then some (q, {}) else serving w j) :
    Turn admits w (.start q) w'
  /-- A request makes a call. -/
  | step (i : ℕ) (c : Choice T) (q : Q) (f f' : Progress T) (o : Op T) (w' : Pooled T α Q)
    (hnext : NextCall w i q f o) (hmay : may q f o)
    (heff : Effect i c w.shared f o f' w'.shared) (hlog : w'.log = w.log)
    (hslots : w'.slots.length = w.slots.length)
    (hserve : ∀ j, serving w' j = if j = i then some (q, f') else serving w j) :
    Turn admits w (.step i c) w'
  /-- A request is answered. -/
  | respond (i : ℕ) (e : Exchange (Op T) (Op.Reply T) Exc α Q (Stores T)) (w' : Pooled T α Q)
    (hserved : serving w i = some (e.request, progress e.performed))
    (hends : post e.request e.result (progress e.performed))
    (hshared : w'.shared = w.shared) (hlog : w'.log = w.log ++ [e])
    (hslots : w'.slots.length = w.slots.length)
    (hserve : ∀ j, serving w' j = if j = i then none else serving w j) :
    Turn admits w (.respond i) w'
  /-- The environment moves. -/
  | env (c : Choice T) (w' : Pooled T α Q) (hdrift : drift c w.shared = some w'.shared)
    (hlog : w'.log = w.log) (hslots : w'.slots.length = w.slots.length)
    (hserve : ∀ j, serving w' j = serving w j) : Turn admits w (.env c) w'

variable {may post} {body : Q → Proc T α}
  {admits : List (Exchange (Op T) (Op.Reply T) Exc α Q (Stores T)) → Q → Bool}
  {w w' : Pooled T α Q} {e : Event Q (Choice T)}

/-- What one event does to requests that keep a contract. -/
theorem Kept.turn (hw : Kept may post w) (h : exec (service body admits) e w = some w') :
    Turn may post admits w e w' := by
  rcases exec_cases h with ⟨q, rfl, hadm, rfl⟩ |
    ⟨i, c, q, o, k, tr, r, s, rfl, hslot, hp, rfl⟩ |
    ⟨i, th, res, rfl, hslot, hres, rfl⟩ | ⟨c, s, rfl, hs, rfl⟩
  · refine .start q _ hadm rfl rfl (by simp) fun j => ?_
    simp only [serving, slot_append]
    split <;> rfl
  · refine .step i c q (progress tr) ((progress tr).note w.shared o r) o _ ⟨k, tr, hslot, rfl⟩
      (hw.conforms.allows_next hslot) (perform_effect hp) rfl (by simp) fun j => ?_
    simp only [serving, slot_set (slot_lt hslot)]
    split <;> rfl
  · refine .respond i ⟨th.request, res, th.performed⟩ _ (by simp [serving, hslot])
      (hw.conforms.ended hslot hres) rfl rfl (by simp) fun j => ?_
    simp only [serving, slot_set (slot_lt hslot)]
    split <;> rfl
  · exact .env c _ hs rfl rfl fun j => rfl

/-- The contract is kept by every event, if every program keeps it and ends without uncommitted
writes. -/
theorem Kept.exec (hbody : ∀ q, Program.wp (observer may q) (body q) (post q) {})
    (hclosed : ∀ q r f, post q r f → f.wrote = []) (hw : Kept may post w)
    (h : Pool.exec (service body admits) e w = some w') : Kept may post w' := by
  refine ⟨hw.conforms.exec hbody (fun i c q o k tr r s hslot hp => ?_) h, fun j => ?_⟩
  · refine ⟨i, c, s, hp, ?_⟩
    rw [hw.own i]
    simp [serving, hslot]
    rfl
  · cases hw.turn h with
    | start q _ hadm hshared hlog hslots hserve =>
      rw [hshared, hw.own j, hserve j]
      split
      · rename_i hj
        rw [hj, serving_length]
        rfl
      · rfl
    | step i c q f f' o _ hnext hmay heff hlog hslots hserve =>
      rw [hserve j]
      split
      · rename_i hj
        subst hj
        refine heff.own_self ?_
        rw [hw.own, hnext.serving]
        rfl
      · rename_i hj
        rw [heff.own_of_ne hj, hw.own j]
    | respond i e _ hserved hends hshared hlog hslots hserve =>
      rw [hshared, hserve j, hw.own j]
      split
      · rename_i hj
        subst hj
        rw [hserved]
        exact hclosed _ _ _ hends
      · rfl
    | env c _ hdrift hlog hslots hserve =>
      rw [hserve j, ← hw.own j]
      rcases drift_db hdrift with ⟨-, hdb⟩ | ⟨id, status, -, hdb⟩
      · rw [hdb]
      · rw [hdb]
        rfl

theorem kept_initial (now : T) (db : Database T) (drawn : List Uuid) :
    Kept may post (Pool.initial (Stores.initial now db drawn)) :=
  ⟨conforms_initial _, fun i => by simp [serving, Pool.initial, Stores.initial, slot]⟩

/-- One event keeps a property of the requests being served, if it holds before the first call and
every call keeps it. -/
theorem Turn.served {P N : Q → Progress T → Prop}
    (hw : ∀ i q f, serving w i = some (q, f) → P q f) (h : Turn may post admits w e w')
    (hmono : ∀ q f, P q f → N q f) (hstart : ∀ q, N q {})
    (hstep : ∀ i c q f f' o, e = .step i c → NextCall w i q f o → may q f o →
      Effect i c w.shared f o f' w'.shared → P q f → N q f') :
    ∀ i q f, serving w' i = some (q, f) → N q f := by
  cases h with
  | start q _ hadm hshared hlog hslots hserve =>
    intro j q' g hj
    rw [hserve] at hj
    split at hj
    · cases hj
      exact hstart q
    · exact hmono _ _ (hw j q' g hj)
  | step i c q f f' o _ hnext hmay heff hlog hslots hserve =>
    intro j q' g hj
    rw [hserve] at hj
    split at hj
    · cases hj
      exact hstep i c q f f' o rfl hnext hmay heff (hw i q f hnext.serving)
    · exact hmono _ _ (hw j q' g hj)
  | respond i y _ hserved hends hshared hlog hslots hserve =>
    intro j q' g hj
    rw [hserve] at hj
    split at hj
    · cases hj
    · exact hmono _ _ (hw j q' g hj)
  | env c _ hdrift hlog hslots hserve =>
    intro j q' g hj
    rw [hserve] at hj
    exact hmono _ _ (hw j q' g hj)

end Events

/-! ## The service -/

/-- What holds in every reachable state of the service. -/
abbrev Sound (x : Externals K) (w : World T K) : Prop := Kept (MayCall x) (Ends x) w

/-- An answered request has ended as the contract says. -/
lemma Sound.ends {x : Externals K} {w : World T K} (hw : Sound x w) {e : Reply T K}
    (he : e ∈ w.log) : Ends x e.request e.result (progress e.performed) := hw.conforms.log e he

variable {x : Externals K} {w w' : World T K} {e : Event (Request K) (Choice T)}

/-- Soundness is kept by every event, whatever tokens the clients may present. -/
theorem Sound.exec {admits : List (Reply T K) → Request K → Bool} (hw : Sound x w)
    (h : Pool.exec (service (endpoint x) admits) e w = some w') : Sound x w' := by
  refine Kept.exec (endpoint_conforms x) (fun q r f hends => ?_) hw h
  cases r with
  | ok resp => exact hends.1
  | error err => exact hends.1

theorem sound_initial (now : T) (db : Database T) (drawn : List Uuid) :
    Sound x (Pool.initial (Stores.initial now db drawn)) :=
  kept_initial now db drawn

variable [DecidableEq K]

/-- What one event does to a sound state. -/
abbrev Change (x : Externals K) (w : World T K) (e : Event (Request K) (Choice T))
    (w' : World T K) : Prop := Turn (MayCall x) (Ends x) (admits x) w e w'

theorem Sound.change (hw : Sound x w) (h : Pool.exec (server x) e w = some w') :
    Change x w e w' :=
  Kept.turn hw h

end SampleAuthApi
