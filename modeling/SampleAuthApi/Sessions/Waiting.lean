import SampleAuthApi.Foundation.Drain
import SampleAuthApi.Sessions.Bounds
import SampleAuthApi.Sessions.Tokens

/-!
# Which calls wait

A call of a service can be carried out at once, unless it is a flush that the database holds back
(`performUnder_ready`).  Which flushes those are depends on the locks of the database, so they are a
parameter, `Locks`; the row locks of `server` are one instance.

A login takes its rows table by table: it looks its device row up before it has written anything,
writes it, then writes the row of its user, then adds a row of the login history
(`endpoint_ascends`).  So logins that wait for rows of each other never wait in a circle.
-/

namespace SampleAuthApi

open Transactions Pool
open Program (Meets Within wp)

variable {T K : Type}

/-! ## Locks -/

/-- The locks of a database: what has to wait, given the uncommitted writes of the open sessions. -/
structure Locks (T : Type) where
  /-- Whether a flush of the given writes by the session of the given slot has to wait. -/
  holds : Ledger (Database T) (Write T) → ℕ → List (Write T) → Bool
  /-- Whether the administrator's change of the given user has to wait. -/
  holdsStatus : Ledger (Database T) (Write T) → Uuid → Bool

/-- Locks on the rows and index entries that uncommitted writes touch. -/
def rowLocks : Locks T where
  holds l i ws := l.blocked Write.conflicts i ws
  holdsStatus l id :=
    l.pending.any fun p => (Write.updateUser id { status := none }).conflicts p.2

section Locking

variable [Instant T]

/-- `perform` over a database with the given locks. -/
def performUnder (locks : Locks T) (i : ℕ) :
    Choice T → (o : Op T) → Stores T → Option (Except Exc o.Reply × Stores T)
  | .go, .flush ws, s =>
    if locks.holds s.db i ws then none
    else (s.db.flush Database.apply (fun _ _ => false) i ws).map fun (kept, db) =>
      (if kept then .ok () else .error .integrity, { s with db })
  | c, o, s => perform i c o s

/-- `drift` over a database with the given locks. -/
def driftUnder (locks : Locks T) : Choice T → Stores T → Option (Stores T)
  | .setStatus id status, s =>
    if locks.holdsStatus s.db id then none
    else
      let changes : UserPatch T := { status := some status }
      let db : Ledger (Database T) (Write T) :=
        { s.db with committed := s.db.committed.updateUser id changes }
      some { s with db }
  | c, s => drift c s

/-- There is always another `uuid4` value. -/
lemma Uuid.exists_notMem (l : List Uuid) : ∃ u, u ∉ l := by
  have hinf : Infinite Uuid := by
    refine Infinite.of_injective
      (fun n : ℕ => (⟨String.ofList (List.replicate n '0'), ?_⟩ : Uuid)) fun n m h => ?_
    · rw [String.toList_ofList]
      exact List.all_eq_true.mpr fun c hc => by rw [List.eq_of_mem_replicate hc]; decide
    · have hlist := congrArg (fun u : Uuid => u.val.toList.length) h
      simpa using hlist
  obtain ⟨u, hu⟩ := Infinite.exists_notMem_finset l.toFinset
  exact ⟨u, by simpa using hu⟩

/-- A call can be carried out, unless it is a flush that the database holds back. -/
theorem performUnder_ready (locks : Locks T) (i : ℕ) (o : Op T) (s : Stores T) :
    (∃ c, c ≠ .fail ∧ performUnder locks i c o s ≠ none) ∨
      ∃ ws, o = .flush ws ∧ locks.holds s.db i ws = true := by
  cases o with
  | now => exact .inl ⟨.go, by simp, fun h => by cases h⟩
  | uuid4 =>
    obtain ⟨u, hu⟩ := Uuid.exists_notMem s.drawn
    refine .inl ⟨.uuid u, by simp, fun h => ?_⟩
    change (if u ∈ s.drawn then none else some _) = none at h
    rw [if_neg hu] at h
    cases h
  | gensalt => exact .inl ⟨.salt "", by simp, fun h => by cases h⟩
  | checkpw => exact .inl ⟨.go, by simp, fun h => by cases h⟩
  | redis cmd =>
    refine .inl ⟨.go, by simp, fun h => ?_⟩
    change (if cmd.isValid then some _ else some _) = none at h
    split at h <;> cases h
  | select q => exact .inl ⟨.go, by simp, fun h => by cases h⟩
  | flush ws =>
    by_cases hheld : locks.holds s.db i ws = true
    · exact .inr ⟨ws, rfl, hheld⟩
    · refine .inl ⟨.go, by simp, fun h => ?_⟩
      change (if locks.holds s.db i ws then none else
        (s.db.flush Database.apply (fun _ _ => false) i ws).map _) = none at h
      rw [if_neg hheld, Option.map_eq_none_iff] at h
      obtain ⟨j, -, w, -, w', -, hc⟩ := Ledger.flush_eq_none_iff.mp h
      cases hc
  | commit => exact .inl ⟨.go, by simp, fun h => by cases h⟩
  | rollback => exact .inl ⟨.go, by simp, fun h => by cases h⟩

/-- The row locks are those of `perform`. -/
theorem performUnder_rowLocks : performUnder (T := T) rowLocks = perform := by
  funext i c o s
  cases o with
  | flush ws =>
    cases c with
    | go =>
      have hflush : s.db.flush Database.apply Write.conflicts i ws = _ :=
        Ledger.flush_eq_ite _ _ _
      change (if s.db.blocked Write.conflicts i ws then none
        else (s.db.flush Database.apply (fun _ _ => false) i ws).map _) =
          (s.db.flush Database.apply Write.conflicts i ws).map _
      rw [hflush]
      split <;> rfl
    | _ => rfl
  | _ => cases c <;> rfl

/-- Under row locks the environment moves as it does in the service. -/
theorem driftUnder_rowLocks : driftUnder (T := T) rowLocks = drift := by
  funext c s
  cases c with
  | setStatus id status =>
    have hconflicts : ∀ wr : Write T, (Write.updateUser id { status := none }).conflicts wr =
        (Write.updateUser id { status := some status }).conflicts wr := by
      intro wr
      cases wr <;> rfl
    simp only [driftUnder, drift, rowLocks, hconflicts]
  | _ => rfl

end Locking

/-! ## The order in which a login takes its rows -/

/-- The place of a table among those that a login writes. -/
def Table.rank : Table → ℕ
  | .userDevices => 0
  | .users => 1
  | .loginHistories => 2

/-- Statements that conflict write the same table, and it is not `login_histories`. -/
lemma Write.conflicts_rank {wr wr' : Write T} (h : wr.conflicts wr' = true) :
    wr.table.rank = wr'.table.rank ∧ wr.table.rank < 2 := by
  cases wr with
  | insertHistory row => cases wr' <;> cases h
  | _ => cases wr' <;> first | cases h | exact ⟨rfl, by simp [Write.table, Table.rank]⟩

/-- A login looks device rows up before it has written anything, and flushes statements on later
tables than those it has written. -/
def Ascends (q : Request K) (f : Progress T) (o : Op T) : Prop :=
  q.isLogin = true → (o.readsDevices = true → f.wrote = []) ∧
    ∀ ws, o = .flush ws → ∀ wr ∈ ws, ∀ wr' ∈ f.wrote, wr'.table.rank < wr.table.rank

variable [Instant T] {q : Request K} {α : Type}

/-- A quiet call leaves the writes of its session alone. -/
lemma Op.Quiet.wrote {o : Op T} (ho : o.Quiet) {f : Progress T} {s : Stores T}
    {r : Except Exc o.Reply} (h : Answer f o s r) : (f.note s o r).wrote = f.wrote := by
  obtain ⟨i, c, s', hp, -⟩ := h
  rcases (perform_effect (f := f) hp).wrote with ⟨hw, -⟩ | ⟨ws, db, rfl, -⟩ | ⟨rfl, -⟩ | ⟨rfl, -⟩
  · exact hw
  all_goals exact ho.elim

/-- From a session whose writes are on tables of rank below `n` the program takes rows table by
table, and the writes of its session are of rank below `m` when it returns. -/
abbrev Climbs (q : Request K) (n : ℕ) (p : Proc T α) (m : ℕ) : Prop :=
  Meets (observer Ascends q) (fun f => ∀ wr ∈ f.wrote, wr.table.rank < n) p
    (fun _ f => ∀ wr ∈ f.wrote, wr.table.rank < m)

namespace Climbs

variable {n m k : ℕ}

/-- Ranks are passed on from one program to the next. -/
lemma bind {β : Type} {p : Proc T α} {g : α → Proc T β} (hp : Climbs q n p m)
    (hg : ∀ a, Climbs q m (g a) k) : Climbs q n (p >>= g) k :=
  Meets.bind (observer_monotone _ q) hp hg

/-- A value flushes nothing. -/
lemma pure (a : α) : Climbs q n (Pure.pure a : Proc T α) n := Meets.pure fun _ h => h

/-- A call that leaves the session alone. -/
lemma call {o : Op T} (hquiet : o.Quiet) (hreads : o.readsDevices = true → n = 0) :
    Climbs q n (Program.perform o) n := by
  intro f hf
  rw [Program.wp_perform]
  refine ⟨fun _ => ⟨fun hr => ?_, fun ws ho => by subst ho; exact hquiet.elim⟩,
    fun s r hr a _ => ?_⟩
  · have hnone := hreads hr
    subst hnone
    exact List.eq_nil_iff_forall_not_mem.mpr fun wr hwr => absurd (hf wr hwr) (by omega)
  · change ∀ wr ∈ (f.note s o r).wrote, wr.table.rank < n
    rwa [hquiet.wrote hr]

/-- A program that leaves its session alone, before anything has been written. -/
lemma quiet {p : Proc T α} {l : ℕ} (h : Quietly p l) : Climbs q 0 p 0 := by
  refine h.meets fun o ho f hf g hg => ?_
  refine ⟨fun _ => ⟨fun _ => ?_, fun ws heq => by subst heq; exact ho.elim⟩, fun s r hr => ?_⟩
  · exact List.eq_nil_iff_forall_not_mem.mpr fun wr hwr => absurd (hf wr hwr) (by omega)
  · refine hg r _ ?_
    change ∀ wr ∈ (f.note s o r).wrote, wr.table.rank < 0
    rwa [ho.wrote hr]

/-- A flush of statements on one table that comes after those written so far. -/
lemma flush {ws : List (Write T)} (h : ∀ wr ∈ ws, wr.table.rank = n) :
    Climbs q n (SampleAuthApi.flush ws) (n + 1) := by
  intro f hf
  rw [SampleAuthApi.flush, Program.wp_perform]
  have hquery : Op.readsDevices (T := T) (.flush ws) ≠ true := by simp [Op.readsDevices]
  refine ⟨fun _ => ⟨fun hr => absurd hr hquery, fun ws' heq wr hwr wr' hwr' => ?_⟩,
    fun s r hr a ha => ?_⟩
  · cases heq
    rw [h wr hwr]
    exact hf wr' hwr'
  · subst ha
    intro wr hwr
    rcases List.mem_append.mp hwr with hwr | hwr
    · exact Nat.lt_succ_of_lt (hf wr hwr)
    · exact (h wr hwr).le.trans_lt (Nat.lt_succ_self n)

/-- The ranks may be loosened on both sides. -/
lemma mono {p : Proc T α} (h : Climbs q n p m) {n' m' : ℕ} (hn : n' ≤ n) (hm : m ≤ m') :
    Climbs q n' p m' :=
  Meets.imp (observer_monotone _ q) h (fun _ hf wr hwr => (hf wr hwr).trans_le hn)
    fun _ _ hf wr hwr => (hf wr hwr).trans_le hm

/-! ### The calls of a login -/

/-- A query for a user. -/
lemma user {query : Query} (h : Op.readsDevices (T := T) (.select query) = false) :
    Climbs (T := T) q n (select query) n :=
  call trivial fun hr => by rw [h] at hr; cases hr

/-- Reading the clock flushes nothing. -/
lemma utcnow : Climbs q n (utcnow : Proc T T) n := call trivial fun hr => by cases hr

/-- Drawing an id flushes nothing. -/
lemma uuid4 : Climbs q n (uuid4 : Proc T Uuid) n := call trivial fun hr => by cases hr

/-- Making an access token flushes nothing. -/
lemma createAccessToken (x : Externals K) (u : Uuid) (email name d : String) :
    Climbs (T := T) q n (JwtService.createAccessToken x u email name d) n :=
  bind utcnow fun _ => bind uuid4 fun _ => pure _

/-- Making a refresh token flushes nothing. -/
lemma createRefreshToken (x : Externals K) (u : Uuid) (d : String) :
    Climbs (T := T) q n (JwtService.createRefreshToken x u d) n :=
  bind utcnow fun _ => bind uuid4 fun _ => pure _

/-- Storing a refresh token flushes nothing. -/
lemma storeRefreshToken (u : Uuid) (d : String) (r : Uuid) (name os app ip : Option String)
    (expiresAt : T) :
    Climbs q n (TokenStore.storeRefreshToken u d r name os app ip expiresAt) n := by
  refine bind utcnow fun now => ?_
  by_cases hn : Instant.truncInt (expiresAt - now) ≤ 0
  · simp only [hn, if_true]
    exact pure ()
  · simp only [hn, if_false]
    exact bind (call (by trivial) fun hr => by cases hr) fun _ =>
      call (by trivial) fun hr => by cases hr

/-- The row of the user comes after the row of the device. -/
lemma updateLastLogin (u : Uuid) :
    Climbs (T := T) q 1 (UserRepository.updateLastLogin u) 2 := by
  refine bind (user rfl) fun row => ?_
  cases row with
  | none => exact (pure ()).mono le_rfl (Nat.le_succ 1)
  | some user =>
    exact bind utcnow fun now => flush fun wr hwr => by rw [List.mem_singleton.mp hwr]; rfl

/-- The row of the device comes first. -/
lemma upsertDevice (u : Uuid) (d : String) (name : Option String) (os : String)
    (osVersion appVersion ip : Option String) :
    Climbs (T := T) q 0
      (UserDeviceRepository.upsertDevice u d name os osVersion appVersion ip) 1 := by
  refine bind (quiet (Quietly.select _)) fun row => bind utcnow fun now => ?_
  cases row with
  | none => exact flush fun wr hwr => by rw [List.mem_singleton.mp hwr]; rfl
  | some device => exact flush fun wr hwr => by rw [List.mem_singleton.mp hwr]; rfl

/-- The row of the history comes last. -/
lemma loginHistory (u : Option Uuid) (d : String) (ip agent os app : Option String)
    (success : Bool) (reason : Option String) :
    Climbs (T := T) q 2 (LoginHistoryRepository.create u d ip agent os app success reason) 3 :=
  bind utcnow fun now => flush fun wr hwr => by rw [List.mem_singleton.mp hwr]; rfl

variable (x : Externals K)

/-- A session is opened table by table. -/
lemma openSession (user : User T) (d : String) (name : Option String)
    (os : String) (osVersion appVersion ip agent : Option String) :
    Climbs q 0 (AuthService.openSession x user d name os osVersion appVersion ip agent) 3 :=
  bind (upsertDevice _ _ _ _ _ _ _) fun _ => bind (updateLastLogin _) fun _ =>
    bind (createAccessToken x _ _ _ _) fun _ => bind (createRefreshToken x _ _) fun _ =>
    bind (storeRefreshToken _ _ _ _ _ _ _ _) fun _ =>
    bind (loginHistory _ _ _ _ _ _ _ _) fun _ => pure _

/-- A login asks for its locks table by table, whether it succeeds or not. -/
lemma login (email password d : String) (name : Option String)
    (os : String) (osVersion appVersion ip agent : Option String) : Climbs (T := T) q 0
      (AuthService.login x email password d name os osVersion appVersion ip agent) 3 := by
  have hrejected : ∀ u : Option Uuid, Climbs (T := T) q 0 (do
      LoginHistoryRepository.create u d ip agent (some os) appVersion false
        (some "INVALID_CREDENTIALS")
      (throw .invalidCredentials : Proc T (LoginResponse K))) 3 :=
    fun u => bind ((loginHistory _ _ _ _ _ _ _ _).mono (Nat.zero_le 2) le_rfl) fun _ => Meets.raise
  refine bind (quiet (Quietly.checkCredentials x email password)) fun found => ?_
  obtain ⟨row, valid⟩ := found
  cases row with
  | none => exact hrejected none
  | some user =>
    cases valid with
    | false => exact hrejected (some user.id)
    | true =>
      by_cases hinactive : user.status = .inactive
      · simp only [hinactive, if_true]
        exact Meets.raise_bind
      · simp only [hinactive, if_false]
        by_cases hwithdrawn : user.status = .withdrawn
        · simp only [hwithdrawn, if_true]
          exact Meets.raise_bind
        · simp only [hwithdrawn, if_false]
          exact openSession x user d name os osVersion appVersion ip agent

/-- `get_db` commits or rolls back whatever has been written. -/
lemma getDb {p : Proc T α} (hp : Climbs q 0 p n) :
    Meets (observer Ascends q) (fun f => f.wrote = []) (getDb p) fun _ _ => True := by
  have hend : ∀ o : Op T, (∀ f : Progress T, Ascends q f o) →
      Meets (observer Ascends q) (fun _ => True) (Program.perform o) fun _ _ => True := by
    intro o ho f _
    rw [Program.wp_perform]
    exact ⟨ho f, fun _ _ _ _ _ => trivial⟩
  have hcommit : ∀ f : Progress T, Ascends q f .commit := fun f _ =>
    ⟨fun hr => absurd hr Bool.false_ne_true, fun ws heq => by cases heq⟩
  have hrollback : ∀ f : Progress T, Ascends q f .rollback := fun f _ =>
    ⟨fun hr => absurd hr Bool.false_ne_true, fun ws heq => by cases heq⟩
  have hstart : Meets (observer Ascends q) (fun f => f.wrote = []) p fun _ _ => True :=
    Meets.imp (observer_monotone _ q) hp (fun f hf wr hwr => by rw [hf] at hwr; cases hwr)
      fun _ _ _ => trivial
  refine Meets.tryCatch (observer_monotone _ q) (Meets.bind (observer_monotone _ q) hstart fun a =>
    Meets.bind (observer_monotone _ q) (hend .commit hcommit) fun _ => Meets.pure fun _ h => h)
    fun e => ?_
  exact Meets.bind (observer_monotone _ q) (hend .rollback hrollback) fun _ => Meets.raise

end Climbs

/-- Every login takes its rows table by table. -/
theorem endpoint_ascends (x : Externals K) (q : Request K) :
    Meets (observer Ascends q) (fun f => f.wrote = []) (endpoint (T := T) x q) fun _ _ => True := by
  by_cases hq : q.isLogin = true
  · cases q with
    | login email password client =>
      exact Climbs.getDb (Climbs.bind (Climbs.login x _ _ _ _ _ _ _ _ _) fun _ => Climbs.pure _)
    | _ => cases hq
  · have hany : Meets (observer Ascends q) (fun _ => True) (endpoint (T := T) x q)
        fun _ _ => True :=
      (endpoint_within x q).meets fun o _ f hf g hg =>
        ⟨fun hlogin => absurd hlogin hq, fun _ r _ => hg r _ trivial⟩
    exact Meets.imp (observer_monotone _ q) hany (fun _ _ => trivial) fun _ _ h => h

/-- What the request in slot `i` is about to flush. -/
def asked (w : World T K) (i : ℕ) : List (Write T) :=
  match w.slot i with
  | some ⟨_, .call (.flush ws) _, _⟩ => ws
  | _ => []

omit [Instant T] in
/-- What a slot asks for are the statements of its next flush. -/
lemma mem_asked {w : World T K} {i : ℕ} {wr : Write T} :
    wr ∈ asked w i ↔ ∃ q f ws, NextCall w i q f (.flush ws) ∧ wr ∈ ws := by
  constructor
  · intro h
    unfold asked at h
    split at h
    · rename_i q ws k tr hslot
      exact ⟨q, progress tr, ws, ⟨k, tr, hslot, rfl⟩, h⟩
    · cases h
  · rintro ⟨q, f, ws, ⟨k, tr, hslot, -⟩, h⟩
    rw [asked, hslot]
    exact h

/-- In every reachable state each login takes its rows table by table. -/
theorem ascends_of_reach [DecidableEq K] {x : Externals K} {w : World T K}
    {C : World T K → Event (Request K) (Choice T) → Prop} {now : T} {db : Database T}
    {drawn : List Uuid}
    (h : Reach (server x) C (Pool.initial (Stores.initial now db drawn)) w) :
    Sound x w ∧ ∀ i q f o, NextCall w i q f o → Ascends q f o := by
  have hbody : ∀ q, wp (observer Ascends q) (endpoint x q) (fun _ _ => True)
      ({} : Progress T) := fun q =>
    Program.wp_mono (observer_monotone _ q) (fun _ _ _ => trivial) (endpoint_ascends x q {} rfl)
  have hrun : Sound x w ∧ Conforms {} Progress.update Ascends Answer (fun _ _ _ => True) w := by
    refine h.induct (I := fun v => Sound x v ∧
      Conforms {} Progress.update Ascends Answer (fun _ _ _ => True) v)
      ⟨sound_initial now db drawn, conforms_initial _⟩ ?_
    rintro v e v' - ⟨hsound, hconforms⟩ - he
    refine ⟨hsound.exec he, hconforms.exec hbody (fun i c q o k tr r s hslot hp => ?_) he⟩
    refine ⟨i, c, s, hp, ?_⟩
    rw [hsound.own i]
    simp [serving, hslot]
    rfl
  refine ⟨hrun.1, fun i q f o hnext => ?_⟩
  obtain ⟨k, tr, hslot, rfl⟩ := hnext
  exact hrun.2.allows_next hslot

end SampleAuthApi
