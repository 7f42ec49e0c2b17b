import SampleAuthApi.Model.Scripts

/-!
# What a request has done so far

`Progress` is the digest of the calls of one request: the `uuid4` values it drew, the clock
readings, the passwords it verified, the rows it loaded, the test of the blacklist, the Redis entry
it looked up, the device set it read, the writing Redis commands it sent, and the writes that its
session holds, has committed or was refused.  `observer may q` watches a request `q` whose calls
must satisfy `may`, and the rules of this file say what each call, and each function of the token
store, leaves behind in the digest.
-/

namespace SampleAuthApi

open Transactions
open Program (Observer wp)

variable {T : Type}

/-- The digest of the calls of one request. -/
structure Progress (T : Type) where
  /-- The `uuid4` values drawn, newest first. -/
  drawn : List Uuid := []
  /-- The clock readings, newest first. -/
  readings : List T := []
  /-- The clock reading that dates the new refresh token, and the one that its time to live in
  Redis is computed from. -/
  lifetime : Option (T × T) := none
  /-- The number of passwords verified. -/
  checks : ℕ := 0
  /-- The first query for a user: the state in which it was sent, and its row. -/
  account : Option (Stores T × Option (User T)) := none
  /-- The last query for device rows: the state in which it was sent. -/
  devices : Option (Stores T) := none
  /-- The last `EXISTS`: the state in which it was sent. -/
  checked : Option (Stores T) := none
  /-- The last `GET`: the state in which it was sent, and the string. -/
  found : Option (Stores T × Option Document) := none
  /-- The last `SMEMBERS`. -/
  snapshot : Option (Finset String) := none
  /-- The writing Redis commands that were carried out, each with its instant, newest first. -/
  sent : List (T × RedisCmd) := []
  /-- The uncommitted writes of the session, oldest first. -/
  wrote : List (Write T) := []
  /-- The writes that the session has committed, oldest first. -/
  committed : List (Write T) := []
  /-- The last flush that a unique index refused: the state in which it was sent, and its writes. -/
  refused : Option (Stores T × List (Write T)) := none
  /-- Redis or the database could not be reached. -/
  failed : Bool := false

namespace Progress

/-- The digest after a clock reading.  The first reading after both tokens have been made is the
one of `store_refresh_token`. -/
def read (f : Progress T) (t : T) : Progress T :=
  { f with
    readings := t :: f.readings
    lifetime :=
      if f.drawn.length = 2 then f.lifetime.or (f.readings.head?.map fun made => (made, t))
      else f.lifetime }

/-- The digest after a query for a user. -/
def load (f : Progress T) (s : Stores T) (row : Option (User T)) : Progress T :=
  { f with account := f.account.or (some (s, row)) }

/-- The digest after a commit. -/
def commit (f : Progress T) : Progress T :=
  { f with wrote := [], committed := f.committed ++ f.wrote }

/-- The digest after the answer `r` to the call `o`, issued in the state `s`. -/
def note (f : Progress T) (s : Stores T) : (o : Op T) → Except Exc o.Reply → Progress T
  | .now, .ok t => f.read t
  | .uuid4, .ok u => { f with drawn := u :: f.drawn }
  | .checkpw, .ok _ => { f with checks := f.checks + 1 }
  | .select (.userById _), .ok row => f.load s row
  | .select (.userByEmail _), .ok row => f.load s row
  | .select (.deviceByUserAndDevice _ _), .ok _ => { f with devices := some s }
  | .select (.activeDevices _), .ok _ => { f with devices := some s }
  | .redis (.existsKey _), .ok _ => { f with checked := some s }
  | .redis (.get _), .ok v => { f with found := some (s, v) }
  | .redis (.smembers _), .ok ds => { f with snapshot := some ds }
  | .redis (.setex k n v), .ok _ => { f with sent := (s.now, .setex k n v) :: f.sent }
  | .redis (.del ks), .ok _ => { f with sent := (s.now, .del ks) :: f.sent }
  | .redis (.sadd k m), .ok _ => { f with sent := (s.now, .sadd k m) :: f.sent }
  | .redis (.srem k m), .ok _ => { f with sent := (s.now, .srem k m) :: f.sent }
  | .flush ws, .ok _ => { f with wrote := f.wrote ++ ws }
  | .flush ws, .error .integrity => { f with refused := some (s, ws) }
  | .commit, .ok _ => f.commit
  | .rollback, .ok _ => { f with wrote := [] }
  | _, .error .unavailable => { f with failed := true }
  | _, _ => f

/-- The digest after one more call. -/
def update (f : Progress T) (x : Call T) : Progress T := f.note x.before x.op x.reply

end Progress

/-- The digest of a list of calls, newest first. -/
def progress (tr : List (Call T)) : Progress T := Pool.digest {} Progress.update tr

@[simp] theorem progress_nil : progress ([] : List (Call T)) = {} := rfl

@[simp] theorem progress_cons (x : Call T) (tr : List (Call T)) :
    progress (x :: tr) = (progress tr).note x.before x.op x.reply := rfl

/-- The digest `f'` is one after repository calls and clock readings from `f`: what has been drawn,
looked up, verified, sent and committed is the same. -/
structure Calm (f f' : Progress T) : Prop where
  drawn : f'.drawn = f.drawn
  checked : f'.checked = f.checked
  found : f'.found = f.found
  snapshot : f'.snapshot = f.snapshot
  sent : f'.sent = f.sent
  checks : f'.checks = f.checks
  committed : f'.committed = f.committed
  /-- Clock readings are only added. -/
  readings : ∃ ts, f'.readings = ts ++ f.readings
  /-- The first query for a user stays the first. -/
  account : ∀ a, f.account = some a → f'.account = some a
  /-- The lifetime of the new refresh token is computed at most once. -/
  lifetime : (f.drawn.length = 2 → f.lifetime.isSome) → f'.lifetime = f.lifetime
  /-- Writes are only added. -/
  wrote : ∀ w ∈ f.wrote, w ∈ f'.wrote
  /-- A failure is remembered. -/
  failed : f.failed = true → f'.failed = true

namespace Calm

variable {f f' f'' : Progress T}

theorem refl (f : Progress T) : Calm f f :=
  ⟨rfl, rfl, rfl, rfl, rfl, rfl, rfl, ⟨[], rfl⟩, fun _ h => h, fun _ => rfl, fun _ h => h, id⟩

theorem trans (h : Calm f f') (h' : Calm f' f'') : Calm f f'' where
  drawn := h'.drawn.trans h.drawn
  checked := h'.checked.trans h.checked
  found := h'.found.trans h.found
  snapshot := h'.snapshot.trans h.snapshot
  sent := h'.sent.trans h.sent
  checks := h'.checks.trans h.checks
  committed := h'.committed.trans h.committed
  readings := by
    obtain ⟨ts, hts⟩ := h.readings
    obtain ⟨ts', hts'⟩ := h'.readings
    exact ⟨ts' ++ ts, by rw [hts', hts, List.append_assoc]⟩
  account a ha := h'.account a (h.account a ha)
  lifetime hl := by
    have hlife := h.lifetime hl
    rw [h'.lifetime (by rw [h.drawn, hlife]; exact hl), hlife]
  wrote w hw := h'.wrote w (h.wrote w hw)
  failed hf := h'.failed (h.failed hf)

/-- A clock reading is calm. -/
theorem read (f : Progress T) (t : T) : Calm f (f.read t) where
  drawn := rfl
  checked := rfl
  found := rfl
  snapshot := rfl
  sent := rfl
  checks := rfl
  committed := rfl
  readings := ⟨[t], rfl⟩
  account _ h := h
  lifetime hl := by
    by_cases h2 : f.drawn.length = 2
    · obtain ⟨p, hp⟩ := Option.isSome_iff_exists.mp (hl h2)
      simp [Progress.read, h2, hp]
    · simp [Progress.read, h2]
  wrote _ h := h
  failed h := h

/-- A query for a user is calm. -/
theorem load (f : Progress T) (s : Stores T) (row : Option (User T)) : Calm f (f.load s row) where
  drawn := rfl
  checked := rfl
  found := rfl
  snapshot := rfl
  sent := rfl
  checks := rfl
  committed := rfl
  readings := ⟨[], rfl⟩
  account a h := by simp [Progress.load, h]
  lifetime _ := rfl
  wrote _ h := h
  failed h := h

/-- A query for device rows is calm. -/
theorem queried (f : Progress T) (s : Stores T) : Calm f { f with devices := some s } :=
  ⟨rfl, rfl, rfl, rfl, rfl, rfl, rfl, ⟨[], rfl⟩, fun _ h => h, fun _ => rfl, fun _ h => h, id⟩

/-- A refused flush is calm. -/
theorem refuse (f : Progress T) (r : Stores T × List (Write T)) :
    Calm f { f with refused := some r } :=
  ⟨rfl, rfl, rfl, rfl, rfl, rfl, rfl, ⟨[], rfl⟩, fun _ h => h, fun _ => rfl, fun _ h => h, id⟩

/-- A flush is calm. -/
theorem flush (f : Progress T) (ws : List (Write T)) : Calm f { f with wrote := f.wrote ++ ws } :=
  ⟨rfl, rfl, rfl, rfl, rfl, rfl, rfl, ⟨[], rfl⟩, fun _ h => h, fun _ => rfl,
    fun _ h => List.mem_append_left _ h, id⟩

/-- A failure is calm. -/
theorem fail (f : Progress T) : Calm f { f with failed := true } :=
  ⟨rfl, rfl, rfl, rfl, rfl, rfl, rfl, ⟨[], rfl⟩, fun _ h => h, fun _ => rfl, fun _ h => h,
    fun _ => rfl⟩

/-- A reading of the digest is kept. -/
theorem mem_readings (h : Calm f f') {t : T} (ht : t ∈ f.readings) : t ∈ f'.readings := by
  obtain ⟨ts, hts⟩ := h.readings
  rw [hts]
  exact List.mem_append_right _ ht

end Calm

/-- The digest `f'` is one after a failure from `f`: nothing has been committed in between. -/
structure Broken (f f' : Progress T) : Prop where
  /-- The failure is recorded. -/
  failed : f'.failed = true
  committed : f'.committed = f.committed

/-! ## Rules for the calls -/

section Rules

variable [Instant T]

/-- The answers that a request expects after the digest `f`: those of `perform`, for a session
that holds the writes of the digest. -/
def Answer (f : Progress T) (o : Op T) (s : Stores T) (r : Except Exc o.Reply) : Prop :=
  ∃ i c s', perform i c o s = some (r, s') ∧ s.db.own i = f.wrote

variable {Q : Type} (may : Q → Progress T → Op T → Prop) (q : Q)

/-- The onlooker of the request `q`: its calls must satisfy `may`. -/
abbrev observer : Observer (Op T) (Op.Reply T) Exc (Progress T) :=
  Pool.watch Progress.update may Answer q

/-- A weaker postcondition asks less of every call. -/
theorem observer_monotone : (observer may q : Observer _ _ _ (Progress T)).Monotone :=
  Pool.watch_monotone _ _ _ q

variable {may q} {f : Progress T}

/-- Reading the clock adds a reading. -/
lemma wp_utcnow {P : Except Exc T → Progress T → Prop} (hm : may q f .now)
    (h : ∀ t, P (.ok t) (f.read t)) : wp (observer may q) utcnow P f := by
  rw [utcnow, Program.wp_perform]
  refine ⟨hm, ?_⟩
  rintro s r ⟨i, c, s', hp, -⟩
  obtain ⟨rfl, -⟩ := perform_now hp
  exact h s.now

/-- A fresh id is added to those drawn. -/
lemma wp_uuid4 {P : Except Exc Uuid → Progress T → Prop} (hm : may q f .uuid4)
    (h : ∀ u, P (.ok u) { f with drawn := u :: f.drawn }) : wp (observer may q) uuid4 P f := by
  rw [uuid4, Program.wp_perform]
  refine ⟨hm, ?_⟩
  rintro s r ⟨i, c, s', hp, -⟩
  obtain ⟨u, -, rfl, -⟩ := perform_uuid4 hp
  exact h u

/-- A salt leaves no trace. -/
lemma wp_gensalt {P : Except Exc String → Progress T → Prop} (hm : may q f .gensalt)
    (h : ∀ a, P (.ok a) f) : wp (observer may q) (Program.perform Op.gensalt) P f := by
  rw [Program.wp_perform]
  refine ⟨hm, ?_⟩
  rintro s r ⟨i, c, s', hp, -⟩
  obtain ⟨a, rfl, -⟩ := perform_gensalt hp
  exact h a

/-- A comparison of a password is counted. -/
lemma wp_checkpw {P : Except Exc Unit → Progress T → Prop} (hm : may q f .checkpw)
    (h : P (.ok ()) { f with checks := f.checks + 1 }) :
    wp (observer may q) (Program.perform Op.checkpw) P f := by
  rw [Program.wp_perform]
  refine ⟨hm, ?_⟩
  rintro s r ⟨i, c, s', hp, -⟩
  obtain ⟨rfl, -⟩ := perform_checkpw hp
  exact h

/-- A Redis command that Redis accepts is carried out, or Redis could not be reached. -/
lemma wp_redis {cmd : RedisCmd} {P : Except Exc cmd.Reply → Progress T → Prop}
    (hm : may q f (.redis cmd)) (hv : cmd.isValid = true)
    (h : ∀ s : Stores T, P (.ok (s.redis.answer s.now cmd))
      (f.note s (.redis cmd) (.ok (s.redis.answer s.now cmd))))
    (hfail : P (.error .unavailable) { f with failed := true }) :
    wp (observer may q) (redis cmd) P f := by
  rw [redis, Program.wp_perform]
  refine ⟨hm, ?_⟩
  rintro s r ⟨i, c, s', hp, -⟩
  rcases perform_redis hp with ⟨rfl, -, -⟩ | ⟨e, rfl, rfl, hc⟩
  · exact h s
  · cases hc hv
    simp only [SampleAuthApi.perform, Option.some.injEq, Prod.mk.injEq, Except.error.injEq,
      and_true] at hp
    subst hp
    cases cmd <;> exact hfail

/-- A query reads the committed rows with the writes of its own session on top. -/
lemma wp_select {qu : Query} {P : Except Exc (qu.Rows T) → Progress T → Prop}
    (hm : may q f (.select qu))
    (h : ∀ (s : Stores T) row,
      row = (Ledger.applyAll Database.apply f.wrote s.db.committed).select qu →
      P (.ok row) (f.note s (.select qu) (.ok row)))
    (hfail : P (.error .unavailable) { f with failed := true }) :
    wp (observer may q) (select qu) P f := by
  rw [select, Program.wp_perform]
  refine ⟨hm, ?_⟩
  rintro s r ⟨i, c, s', hp, hown⟩
  rcases perform_select hp with ⟨-, rfl | ⟨rfl, -⟩⟩
  · refine h s _ ?_
    rw [Stores.view, Ledger.view, hown]
  · cases qu <;> exact hfail

/-- A statement that no unique index can refuse. -/
def Write.Total : Write T → Prop
  | .insertUser _ => False
  | .insertDevice _ => False
  | _ => True

omit [Instant T] in
/-- Writes that no index can refuse are accepted. -/
theorem accepts_of_total {ws : List (Write T)} (h : ∀ w ∈ ws, w.Total) (db : Database T) :
    Ledger.accepts Database.apply ws db = true := by
  induction ws generalizing db with
  | nil => rfl
  | cons w ws ih =>
    have hw : w.Total := h w List.mem_cons_self
    have hws := ih fun v hv => h v (List.mem_cons_of_mem _ hv)
    cases w with
    | insertUser u => exact hw.elim
    | insertDevice d => exact hw.elim
    | updateUser id c => exact hws (db.updateUser id c)
    | updateDevice u d c => exact hws (db.updateDevice u d c)
    | insertHistory row => exact hws (db.insertHistory row)

/-- A flush adds its writes to those of the session, is refused by an index, or fails. -/
lemma wp_flush {ws : List (Write T)} {P : Except Exc Unit → Progress T → Prop}
    (hm : may q f (.flush ws)) (h : P (.ok ()) { f with wrote := f.wrote ++ ws })
    (href : (∀ w ∈ ws, w.Total) ∨ ∀ s : Stores T, Ledger.accepts Database.apply ws
      (Ledger.applyAll Database.apply f.wrote s.db.committed) = false →
      P (.error .integrity) { f with refused := some (s, ws) })
    (hfail : P (.error .unavailable) { f with failed := true }) :
    wp (observer may q) (flush ws) P f := by
  rw [flush, Program.wp_perform]
  refine ⟨hm, ?_⟩
  rintro s r ⟨i, c, s', hp, hown⟩
  rcases perform_flush hp with ⟨rfl, -, -⟩ | ⟨e, rfl, rfl, ⟨rfl, ha⟩ | rfl⟩
  · exact h
  · rcases href with htot | href
    · rw [accepts_of_total htot] at ha
      cases ha
    · refine href s' ?_
      rwa [Stores.view, Ledger.view, hown] at ha
  · simp only [SampleAuthApi.perform, Option.some.injEq, Prod.mk.injEq, Except.error.injEq,
      and_true] at hp
    subst hp
    exact hfail

/-- A commit publishes the writes of the session, or fails. -/
lemma wp_commit {P : Except Exc Unit → Progress T → Prop} (hm : may q f .commit)
    (h : P (.ok ()) f.commit)
    (hfail : P (.error .unavailable) { f with failed := true }) :
    wp (observer may q) (Program.perform Op.commit) P f := by
  rw [Program.wp_perform]
  refine ⟨hm, ?_⟩
  rintro s r ⟨i, c, s', hp, -⟩
  rcases perform_commit hp with ⟨rfl, -⟩ | ⟨rfl, -, -⟩
  · exact h
  · exact hfail

/-- A rollback drops the writes of the session. -/
lemma wp_rollback {P : Except Exc Unit → Progress T → Prop} (hm : may q f .rollback)
    (h : P (.ok ()) { f with wrote := [] }) :
    wp (observer may q) (Program.perform Op.rollback) P f := by
  rw [Program.wp_perform]
  refine ⟨hm, ?_⟩
  rintro s r ⟨i, c, s', hp, -⟩
  obtain ⟨rfl, -⟩ := perform_rollback hp
  exact h

/-! ## Rules for the token store -/

namespace TokenStore

variable {u : Uuid} {d : String}

/-- `store_refresh_token` sends a `SETEX` and an `SADD`, unless less than a second is left. -/
lemma wp_storeRefreshToken {P : Except Exc Unit → Progress T → Prop} {r : Uuid}
    {name os app ip : Option String} {expiresAt : T} (hnow : may q f .now)
    (hset : ∀ t data, data.tokenId = r → may q (f.read t) (.redis (.setex (.refresh u d)
      (Instant.truncInt (expiresAt - t)) (.refreshToken data))))
    (hadd : ∀ t s n v, may q { f.read t with sent := (s, .setex (.refresh u d) n v) :: f.sent }
      (.redis (.sadd (.devices u) d)))
    (hskip : ∀ t, Instant.truncInt (expiresAt - t) ≤ 0 → P (.ok ()) (f.read t))
    (hstore : ∀ t s s' data, data.tokenId = r → P (.ok ()) { f.read t with
      sent := (s', .sadd (.devices u) d) :: (s, .setex (.refresh u d)
        (Instant.truncInt (expiresAt - t)) (.refreshToken data)) :: f.sent })
    (hfail : ∀ e f', f'.wrote = f.wrote → Broken f f' → P (.error e) f') :
    wp (observer may q) (storeRefreshToken u d r name os app ip expiresAt) P f := by
  unfold storeRefreshToken
  rw [Program.wp_bind]
  refine wp_utcnow hnow fun t => ?_
  rw [Program.afterBind_ok]
  by_cases hn : Instant.truncInt (expiresAt - t) ≤ 0
  · simp only [hn, if_true]
    exact hskip t hn
  · simp only [hn, if_false]
    rw [Program.wp_bind]
    refine wp_redis (hset t _ rfl) (by simpa [Redis.Cmd.isValid] using hn) (fun s => ?_)
      (hfail _ _ rfl ⟨rfl, rfl⟩)
    rw [Program.afterBind_ok]
    exact wp_redis (hadd t s.now _ _) rfl (fun s' => hstore t s.now s'.now _ rfl)
      (hfail _ _ rfl ⟨rfl, rfl⟩)

/-- `delete_refresh_token` sends a `DEL` and an `SREM`. -/
lemma wp_deleteRefreshToken {P : Except Exc Unit → Progress T → Prop}
    (hdel : may q f (.redis (.del {.refresh u d})))
    (hrem : ∀ t, may q { f with sent := (t, .del {.refresh u d}) :: f.sent }
      (.redis (.srem (.devices u) d)))
    (h : ∀ t t', P (.ok ()) { f with
      sent := (t', .srem (.devices u) d) :: (t, .del {.refresh u d}) :: f.sent })
    (hfail : ∀ e f', f'.wrote = f.wrote → Broken f f' → P (.error e) f') :
    wp (observer may q) (deleteRefreshToken u d) P f := by
  unfold deleteRefreshToken
  rw [Program.wp_bind]
  refine wp_redis hdel rfl (fun s => ?_) (hfail _ _ rfl ⟨rfl, rfl⟩)
  rw [Program.afterBind_ok]
  exact wp_redis (hrem s.now) rfl (fun s' => h s.now s'.now)
    (hfail _ _ rfl ⟨rfl, rfl⟩)

/-- `delete_all_refresh_tokens` reads the set and sends one `DEL`. -/
lemma wp_deleteAllRefreshTokens {P : Except Exc ℕ → Progress T → Prop}
    (hread : may q f (.redis (.smembers (.devices u))))
    (hdel : ∀ ds, may q { f with snapshot := some ds } (.redis (.del (bulkKeys u ds))))
    (h : ∀ t ds, P (.ok ds.card) { f with
      snapshot := some ds
      sent := (t, .del (bulkKeys u ds)) :: f.sent })
    (hfail : ∀ e f', f'.wrote = f.wrote → Broken f f' → P (.error e) f') :
    wp (observer may q) (deleteAllRefreshTokens u) P f := by
  unfold deleteAllRefreshTokens
  rw [Program.wp_bind]
  refine wp_redis hread rfl (fun s => ?_) (hfail _ _ rfl ⟨rfl, rfl⟩)
  rw [Program.afterBind_ok]
  set ds : Finset String := s.redis.answer s.now (.smembers (.devices u)) with hds
  have hsend : ∀ ks, ks = bulkKeys u ds →
      wp (observer may q) ((redis (.del ks) : Proc T Unit) >>= fun _ => pure ds.card) P
        { f with snapshot := some ds } := by
    rintro ks rfl
    rw [Program.wp_bind]
    refine wp_redis (hdel ds) rfl (fun s' => ?_) (hfail _ _ rfl ⟨rfl, rfl⟩)
    exact h s'.now ds
  by_cases hc : 0 < ds.card
  · simp only [hc, if_true]
    exact hsend _ rfl
  · simp only [hc, if_false]
    refine hsend _ ?_
    rw [Finset.card_eq_zero.mp (Nat.eq_zero_of_not_pos hc)]
    rfl

end TokenStore

end Rules

end SampleAuthApi
