import SampleAuthApi.Foundation.Pool
import SampleAuthApi.Foundation.Transactions
import SampleAuthApi.Model.Api

/-!
# The running service

The shared state of the service is its clock, its Redis store, its database with the uncommitted
writes of the open sessions, and the `uuid4` values drawn so far.  `perform` is the meaning of each
call: a Redis command and a `SELECT` take effect at once, a `flush` keeps its writes in the session
of the request, a `commit` publishes them.  A draw of `uuid4` never repeats a value.  A call that
fails has not been carried out: that it is carried out and only its answer lost is left out.

`server x` is the pool of all requests in any interleaving.  Clients hold the tokens of the
successful responses and may present them anywhere; a token that verifies but was never handed out
is not admitted, since nobody else can sign.
-/

namespace SampleAuthApi

open Transactions

/-- The shared state of the service. -/
structure Stores (T : Type) where
  /-- The clock. -/
  now : T
  /-- The Redis store. -/
  redis : Redis.Store Key Document String T
  /-- The database. -/
  db : Ledger (Database T) (Write T)
  /-- The `uuid4` values drawn so far. -/
  drawn : List Uuid

/-- What the environment decides about one call, or does on its own. -/
inductive Choice (T : Type) : Type
  /-- the call is carried out -/
  | go
  /-- the next `uuid4` value -/
  | uuid (u : Uuid)
  /-- the next salt -/
  | salt (s : String)
  /-- Redis or the database cannot be reached, or the driver fails -/
  | fail
  /-- the clock advances -/
  | clock (t : T)
  /-- an administrator sets the status of a user -/
  | setStatus (id : Uuid) (status : UserStatus)

variable {T K : Type} [Instant T]

/-- The state of a service that has handed out no token yet: any database, an empty Redis store. -/
def Stores.initial (now : T) (db : Database T) (drawn : List Uuid) : Stores T :=
  ⟨now, .empty, ⟨db, []⟩, drawn⟩

/-- What the session of slot `i` reads from the database. -/
def Stores.view (s : Stores T) (i : ℕ) : Database T := s.db.view Database.apply i

/-- The answer to a call of slot `i`, and the state after it. -/
def perform (i : ℕ) : Choice T → (o : Op T) → Stores T → Option (Except Exc o.Reply × Stores T)
  | .go, .now, s => some (.ok s.now, s)
  | .uuid u, .uuid4, s =>
    if u ∈ s.drawn then none else some (.ok u, { s with drawn := u :: s.drawn })
  | .salt a, .gensalt, s => some (.ok a, s)
  | .go, .checkpw, s => some (.ok (), s)
  | .go, .redis c, s =>
    if c.isValid then
      some (.ok (s.redis.answer s.now c), { s with redis := s.redis.update s.now c })
    else some (.error .redisResponse, s)
  | .go, .select q, s => some (.ok ((s.view i).select q), s)
  | .go, .flush ws, s =>
    (s.db.flush Database.apply Write.conflicts i ws).map fun (kept, db) =>
      (if kept then .ok () else .error .integrity, { s with db })
  | .go, .commit, s => some (.ok (), { s with db := s.db.commit Database.apply i })
  | .go, .rollback, s => some (.ok (), { s with db := s.db.rollback i })
  | .fail, .redis _, s => some (.error .unavailable, s)
  | .fail, .select _, s => some (.error .unavailable, s)
  | .fail, .flush _, s => some (.error .unavailable, s)
  | .fail, .commit, s => some (.error .unavailable, s)
  | _, _, _ => none

/-- A move of the environment: the clock advances, or an administrator commits a status. -/
def drift : Choice T → Stores T → Option (Stores T)
  | .clock t, s => if s.now ≤ t then some { s with now := t } else none
  | .setStatus id status, s =>
    let changes : UserPatch T := { status := some status }
    if s.db.pending.any fun p => (Write.updateUser id changes).conflicts p.2 then none
    else
      let db : Ledger (Database T) (Write T) :=
        { s.db with committed := s.db.committed.updateUser id changes }
      some { s with db }
  | _, _ => none

/-- Programs over the stores that serve requests. -/
abbrev Pooled (T α Q : Type) : Type := Pool (Op T) (Op.Reply T) Exc α Q (Stores T)

/-- The system of the programs `body` over the stores. -/
def service {α Q : Type} (body : Q → Proc T α)
    (admits : List (Exchange (Op T) (Op.Reply T) Exc α Q (Stores T)) → Q → Bool) :
    System (Op T) (Op.Reply T) Exc α Q (Stores T) (Choice T) where
  body := body
  admits := admits
  perform := perform
  drift := drift

/-- The token that a request presents. -/
def Request.token? : Request K → Option K
  | .signup _ _ _ _ _ => none
  | .login _ _ _ => none
  | .refresh tok _ | .logout tok _ | .logoutAll tok _ | .getMe tok _ | .updateMe tok _ _ _
  | .changePassword tok _ _ _ | .deleteAccount tok _ _ | .listDevices tok _
  | .forceLogoutDevice tok _ _ => some tok

/-- The tokens in a response. -/
def Response.tokens : Response T K → List K
  | .login data => [data.accessToken, data.refreshToken]
  | .refresh data => [data.accessToken, data.refreshToken]
  | _ => []

/-- One answered request of the service. -/
abbrev Reply (T K : Type) : Type :=
  Exchange (Op T) (Op.Reply T) Exc (Response T K) (Request K) (Stores T)

/-- One request being served. -/
abbrev Worker (T K : Type) : Type :=
  Thread (Op T) (Op.Reply T) Exc (Response T K) (Request K) (Stores T)

/-- One call that has been answered. -/
abbrev Call (T : Type) : Type := Record (Op T) (Op.Reply T) Exc (Stores T)

/-- The service with the requests it serves. -/
abbrev World (T K : Type) : Type := Pooled T (Response T K) (Request K)

/-- The tokens that a successful answer hands out. -/
def handedOut (e : Reply T K) : List K :=
  match e.result with
  | .ok r => r.tokens
  | .error _ => []

/-- The tokens handed out so far. -/
def issued (log : List (Reply T K)) : List K := log.flatMap handedOut

variable [DecidableEq K]

/-- A request may present a token that was handed out, or one that does not verify. -/
def admits (x : Externals K) (log : List (Reply T K)) (q : Request K) : Bool :=
  match q.token? with
  | none => true
  | some tok => (x.jwt.verify tok).isNone || decide (tok ∈ issued log)

/-- The service. -/
def server (x : Externals K) :
    System (Op T) (Op.Reply T) Exc (Response T K) (Request K) (Stores T) (Choice T) :=
  service (endpoint x) (admits x)

/-- The event is not a failure of Redis or the database. -/
def Reliable {Q : Type} : Event Q (Choice T) → Prop
  | .step _ .fail => False
  | _ => True

/-! ## What a call can do -/

section Perform

omit [DecidableEq K]

variable {i : ℕ} {c : Choice T} {s s' : Stores T}

theorem perform_now {r : Except Exc T} (h : perform i c .now s = some (r, s')) :
    r = .ok s.now ∧ s' = s := by
  cases c with
  | go => cases h; exact ⟨rfl, rfl⟩
  | _ => cases h

theorem perform_uuid4 {r : Except Exc Uuid} (h : perform i c .uuid4 s = some (r, s')) :
    ∃ u, u ∉ s.drawn ∧ r = .ok u ∧ s' = { s with drawn := u :: s.drawn } := by
  cases c with
  | uuid u =>
    change (if u ∈ s.drawn then none else some _) = _ at h
    split at h
    · cases h
    · rename_i hu
      cases h
      exact ⟨u, hu, rfl, rfl⟩
  | _ => cases h

theorem perform_gensalt {r : Except Exc String} (h : perform i c .gensalt s = some (r, s')) :
    ∃ a, r = .ok a ∧ s' = s := by
  cases c with
  | salt a => cases h; exact ⟨a, rfl, rfl⟩
  | _ => cases h

theorem perform_checkpw {r : Except Exc Unit} (h : perform i c .checkpw s = some (r, s')) :
    r = .ok () ∧ s' = s := by
  cases c with
  | go => cases h; exact ⟨rfl, rfl⟩
  | _ => cases h

/-- A Redis command is carried out, or refused without effect. -/
theorem perform_redis {cmd : RedisCmd} {r : Except Exc cmd.Reply}
    (h : perform i c (.redis cmd) s = some (r, s')) :
    (r = .ok (s.redis.answer s.now cmd) ∧ cmd.isValid = true ∧
      s' = { s with redis := s.redis.update s.now cmd }) ∨
    (∃ e, r = .error e ∧ s' = s ∧ (cmd.isValid = true → c = .fail)) := by
  cases c with
  | go =>
    change (if cmd.isValid then some _ else some _) = _ at h
    split at h
    · rename_i hv
      cases h
      exact .inl ⟨rfl, hv, rfl⟩
    · rename_i hv
      cases h
      exact .inr ⟨_, rfl, rfl, fun hc => absurd hc hv⟩
  | fail => cases h; exact .inr ⟨_, rfl, rfl, fun _ => rfl⟩
  | _ => cases h

theorem perform_select {q : Query} {r : Except Exc (q.Rows T)}
    (h : perform i c (.select q) s = some (r, s')) :
    s' = s ∧ (r = .ok ((s.view i).select q) ∨ (r = .error .unavailable ∧ c = .fail)) := by
  cases c with
  | go => cases h; exact ⟨rfl, .inl rfl⟩
  | fail => cases h; exact ⟨rfl, .inr ⟨rfl, rfl⟩⟩
  | _ => cases h

/-- A flush keeps its writes in the session, or fails without effect. -/
theorem perform_flush {ws : List (Write T)} {r : Except Exc Unit}
    (h : perform i c (.flush ws) s = some (r, s')) :
    (r = .ok () ∧ ∃ db, s.db.flush Database.apply Write.conflicts i ws = some (true, db) ∧
      s' = { s with db }) ∨
    (∃ e, r = .error e ∧ s' = s ∧
      (e = .integrity ∧ Ledger.accepts Database.apply ws (s.view i) = false ∨ c = .fail)) := by
  cases c with
  | go =>
    obtain ⟨⟨kept, db⟩, hf, heq⟩ := Option.map_eq_some_iff.mp h
    simp only [Prod.mk.injEq] at heq
    obtain ⟨rfl, rfl⟩ := heq
    cases kept with
    | true => exact .inl ⟨rfl, db, hf, rfl⟩
    | false =>
      rcases Ledger.flush_cases hf with ⟨hb, -, -⟩ | ⟨-, ha, rfl⟩
      · cases hb
      · exact .inr ⟨_, rfl, rfl, .inl ⟨rfl, ha⟩⟩
  | fail => cases h; exact .inr ⟨_, rfl, rfl, .inr rfl⟩
  | _ => cases h

theorem perform_commit {r : Except Exc Unit} (h : perform i c .commit s = some (r, s')) :
    (r = .ok () ∧ s' = { s with db := s.db.commit Database.apply i }) ∨
    (r = .error .unavailable ∧ s' = s ∧ c = .fail) := by
  cases c with
  | go => cases h; exact .inl ⟨rfl, rfl⟩
  | fail => cases h; exact .inr ⟨rfl, rfl, rfl⟩
  | _ => cases h

theorem perform_rollback {r : Except Exc Unit} (h : perform i c .rollback s = some (r, s')) :
    r = .ok () ∧ s' = { s with db := s.db.rollback i } := by
  cases c with
  | go => cases h; exact ⟨rfl, rfl⟩
  | _ => cases h

/-- A call does not move the clock, and values drawn before stay drawn. -/
theorem perform_frame {o : Op T} {r : Except Exc o.Reply} (h : perform i c o s = some (r, s')) :
    s'.now = s.now ∧ ∀ u ∈ s.drawn, u ∈ s'.drawn := by
  cases o with
  | now => obtain ⟨-, rfl⟩ := perform_now h; exact ⟨rfl, fun _ hu => hu⟩
  | uuid4 =>
    obtain ⟨u, -, -, rfl⟩ := perform_uuid4 h
    exact ⟨rfl, fun _ hu => List.mem_cons_of_mem _ hu⟩
  | gensalt => obtain ⟨a, -, rfl⟩ := perform_gensalt h; exact ⟨rfl, fun _ hu => hu⟩
  | checkpw => obtain ⟨-, rfl⟩ := perform_checkpw h; exact ⟨rfl, fun _ hu => hu⟩
  | redis cmd =>
    rcases perform_redis h with ⟨-, -, rfl⟩ | ⟨e, -, rfl, -⟩ <;> exact ⟨rfl, fun _ hu => hu⟩
  | select q => obtain ⟨rfl, -⟩ := perform_select h; exact ⟨rfl, fun _ hu => hu⟩
  | flush ws =>
    rcases perform_flush h with ⟨-, db, -, rfl⟩ | ⟨e, -, rfl, -⟩ <;> exact ⟨rfl, fun _ hu => hu⟩
  | commit =>
    rcases perform_commit h with ⟨-, rfl⟩ | ⟨-, rfl, -⟩ <;> exact ⟨rfl, fun _ hu => hu⟩
  | rollback => obtain ⟨-, rfl⟩ := perform_rollback h; exact ⟨rfl, fun _ hu => hu⟩

/-- The environment leaves the Redis store and the drawn values alone, and the clock does not run
backwards. -/
theorem drift_frame (h : drift c s = some s') :
    s'.redis = s.redis ∧ s'.drawn = s.drawn ∧ s.now ≤ s'.now := by
  cases c with
  | clock t =>
    change (if s.now ≤ t then some _ else none) = _ at h
    split at h
    · rename_i ht
      cases h
      exact ⟨rfl, rfl, ht⟩
    · cases h
  | setStatus id status =>
    change (if _ then none else some _) = _ at h
    split at h
    · cases h
    · cases h
      exact ⟨rfl, rfl, le_rfl⟩
  | _ => cases h

/-- The environment changes the database only by an administrator's status. -/
theorem drift_db (h : drift c s = some s') :
    ((∃ t, c = .clock t) ∧ s'.db = s.db) ∨ ∃ id status, c = .setStatus id status ∧
      s'.db = { s.db with
        committed := s.db.committed.updateUser id { status := some status } } := by
  cases c with
  | clock t =>
    change (if s.now ≤ t then some _ else none) = _ at h
    split at h
    · cases h
      exact .inl ⟨⟨t, rfl⟩, rfl⟩
    · cases h
  | setStatus id status =>
    change (if _ then none else some _) = _ at h
    split at h
    · cases h
    · cases h
      exact .inr ⟨id, status, rfl, rfl⟩
  | _ => cases h

end Perform

end SampleAuthApi
