import SampleAuthApi.Sessions.Register

/-!
# A session that is alone with the database

The onlooker `alone` sees the database as its only session does, notes what the clock shows and
whether a call fails, and follows the only slot that makes calls (`alone_follows`).  One rule for
each function that the services call says what it does to a register that describes this database.
-/

namespace SampleAuthApi

open Transactions Pool
open Program (wp wp_bind wp_pure wp_raise afterBind_ok afterBind_error)
open Register (Describes Bearer Unhashable)

variable {T K : Type}

/-! ## A session alone with the database -/

/-- The database as its only session sees it, with the calls of this session so far. -/
structure Solo (T : Type) where
  /-- The committed database. -/
  base : Database T
  /-- The database with the uncommitted writes of the session. -/
  view : Database T
  /-- The `uuid4` values drawn so far. -/
  drawn : List Uuid
  /-- The readings of the clock, newest first. -/
  readings : List T := []
  /-- A call to Redis or the database was not carried out. -/
  failed : Bool := false

/-- The memory after a call that was not carried out. -/
def Solo.fail (m : Solo T) : Solo T := { m with failed := true }

/-- The memory sees the same database. -/
structure Solo.Same (m m' : Solo T) : Prop where
  base : m'.base = m.base
  view : m'.view = m.view
  drawn : m'.drawn = m.drawn

/-- The postcondition holds of an outage, whatever the session has written. -/
def Solo.Outage {α : Type} (m : Solo T) (P : Except Exc α → Solo T → Prop) : Prop :=
  ∀ m', m'.base = m.base → m'.failed = true → P (.error .unavailable) m'

/-- The onlooker of the only session: queries and statements concern its view, and Redis, the clock
and the salts may answer anything. -/
def alone : Program.Observer (Op T) (Op.Reply T) Exc (Solo T)
  | .now, m, k => ∀ t, k (.ok t) { m with readings := t :: m.readings }
  | .uuid4, m, k => ∀ u, u ∉ m.drawn → k (.ok u) { m with drawn := u :: m.drawn }
  | .gensalt, m, k => ∀ s, k (.ok s) m
  | .checkpw, m, k => k (.ok ()) m
  | .redis c, m, k => (∀ r, k (.ok r) m) ∧ (c.isValid = false → k (.error .redisResponse) m) ∧
    k (.error .unavailable) m.fail
  | .select q, m, k => k (.ok (m.view.select q)) m ∧ k (.error .unavailable) m.fail
  | .flush ws, m, k => (if Ledger.accepts Database.apply ws m.view = true then
      k (.ok ()) { m with view := Ledger.applyAll Database.apply ws m.view }
    else k (.error .integrity) m) ∧ k (.error .unavailable) m.fail
  | .commit, m, k => k (.ok ()) { m with base := m.view } ∧ k (.error .unavailable) m.fail
  | .rollback, m, k => k (.ok ()) { m with view := m.base }

/-- The memory shows the state `s` to the session of slot `n`, which has made the calls `tr`. -/
structure Solo.Shows (n : ℕ) (s : Stores T) (tr : List (Call T)) (m : Solo T) : Prop where
  base : s.db.committed = m.base
  view : s.view n = m.view
  drawn : s.drawn = m.drawn
  readings : (progress tr).readings = m.readings
  failed : (progress tr).failed = m.failed

variable [Instant T]

/-! ## Following the session -/

section Follows

variable {n : ℕ} {c : Choice T} {s s' : Stores T} {tr : List (Call T)} {m : Solo T}

/-- A call that is not carried out is remembered as such. -/
lemma Solo.Shows.fail (h : Solo.Shows n s tr m) {o : Op T} {r : Except Exc o.Reply}
    (hp : perform n .fail o s = some (r, s')) : Solo.Shows n s' (⟨s, o, r⟩ :: tr) m.fail := by
  obtain ⟨rfl, hnote⟩ := perform_fail (f := progress tr) hp
  refine ⟨h.base, h.view, h.drawn, ?_, ?_⟩
  · rw [progress_cons, hnote]
    exact h.readings
  · rw [progress_cons, hnote]
    rfl

/-- A Redis command leaves the database alone. -/
lemma Solo.Shows.redis (h : Solo.Shows n s tr m) {cmd : RedisCmd} {r : Except Exc cmd.Reply}
    {k : Except Exc cmd.Reply → Solo T → Prop} (hk : alone (.redis cmd) m k)
    (hp : perform n c (.redis cmd) s = some (r, s')) :
    ∃ m', Solo.Shows n s' (⟨s, .redis cmd, r⟩ :: tr) m' ∧ k r m' := by
  rcases perform_redis hp with ⟨rfl, -, rfl⟩ | ⟨e, rfl, rfl, hc⟩
  · refine ⟨m, ⟨h.base, h.view, h.drawn, ?_, ?_⟩, hk.1 _⟩
    · rw [progress_cons]
      cases cmd <;> exact h.readings
    · rw [progress_cons]
      cases cmd <;> exact h.failed
  · cases c with
    | go =>
      have hinvalid : ¬ cmd.isValid = true := fun hv => by cases hc hv
      have hr := (if_neg hinvalid).symm.trans hp
      cases hr
      refine ⟨m, ⟨h.base, h.view, h.drawn, ?_, ?_⟩, hk.2.1 (Bool.eq_false_iff.mpr hinvalid)⟩
      · rw [progress_cons]
        cases cmd <;> exact h.readings
      · rw [progress_cons]
        cases cmd <;> exact h.failed
    | fail =>
      have hfail := h.fail hp
      cases hp
      exact ⟨m.fail, hfail, hk.2.2⟩
    | _ => cases hp

/-- A query is answered from the view of the session. -/
lemma Solo.Shows.select (h : Solo.Shows n s tr m) {q : Query} {r : Except Exc (q.Rows T)}
    {k : Except Exc (q.Rows T) → Solo T → Prop} (hk : alone (.select q) m k)
    (hp : perform n c (.select q) s = some (r, s')) :
    ∃ m', Solo.Shows n s' (⟨s, .select q, r⟩ :: tr) m' ∧ k r m' := by
  rcases perform_select hp with ⟨rfl, rfl | ⟨rfl, rfl⟩⟩
  · refine ⟨m, ⟨h.base, h.view, h.drawn, ?_, ?_⟩, ?_⟩
    · rw [progress_cons]
      cases q <;> exact h.readings
    · rw [progress_cons]
      cases q <;> exact h.failed
    · rw [h.view]
      exact hk.1
  · exact ⟨m.fail, h.fail hp, hk.2⟩

/-- A flush adds its writes to the view of the session, which decides whether they are accepted. -/
lemma Solo.Shows.flush (h : Solo.Shows n s tr m) {ws : List (Write T)} {r : Except Exc Unit}
    {k : Except Exc Unit → Solo T → Prop} (hk : alone (.flush ws) m k)
    (hp : perform n c (.flush ws) s = some (r, s')) :
    ∃ m', Solo.Shows n s' (⟨s, .flush ws, r⟩ :: tr) m' ∧ k r m' := by
  rcases perform_flush hp with ⟨rfl, db, hf, rfl⟩ | ⟨e, rfl, rfl, ⟨rfl, ha⟩ | rfl⟩
  · rcases Ledger.flush_cases hf with ⟨-, ha, -⟩ | ⟨hb, -⟩
    · change Ledger.accepts _ _ (s.view n) = true at ha
      rw [h.view] at ha
      refine ⟨{ m with view := Ledger.applyAll Database.apply ws m.view },
        ⟨(Ledger.committed_flush hf).trans h.base, ?_, h.drawn, h.readings, h.failed⟩, ?_⟩
      · change Ledger.applyAll _ (db.own n) db.committed = _
        rw [Ledger.own_flush_self hf, Ledger.committed_flush hf, Ledger.applyAll_append]
        exact congrArg _ h.view
      · have hok := hk.1
        rwa [if_pos ha] at hok
    · cases hb
  · rw [h.view] at ha
    have hrefused := hk.1
    rw [if_neg (by rw [ha]; exact Bool.false_ne_true)] at hrefused
    exact ⟨m, ⟨h.base, h.view, h.drawn, h.readings, h.failed⟩, hrefused⟩
  · have hfail := h.fail hp
    cases hp
    exact ⟨m.fail, hfail, hk.2⟩

/-- A commit makes the view of the session the committed database. -/
lemma Solo.Shows.commit (h : Solo.Shows n s tr m) {r : Except Exc Unit}
    {k : Except Exc Unit → Solo T → Prop} (hk : alone .commit m k)
    (hp : perform n c .commit s = some (r, s')) :
    ∃ m', Solo.Shows n s' (⟨s, .commit, r⟩ :: tr) m' ∧ k r m' := by
  rcases perform_commit hp with ⟨rfl, rfl⟩ | ⟨rfl, rfl, rfl⟩
  · refine ⟨{ m with base := m.view }, ⟨h.view, ?_, h.drawn, h.readings, h.failed⟩, hk.1⟩
    change Ledger.applyAll _ ((s.db.commit Database.apply n).own n) _ = _
    rw [Ledger.own_commit_self]
    exact h.view
  · exact ⟨m.fail, h.fail hp, hk.2⟩

/-- A rollback makes the committed database the view of the session. -/
lemma Solo.Shows.rollback (h : Solo.Shows n s tr m) {r : Except Exc Unit}
    {k : Except Exc Unit → Solo T → Prop} (hk : alone .rollback m k)
    (hp : perform n c .rollback s = some (r, s')) :
    ∃ m', Solo.Shows n s' (⟨s, .rollback, r⟩ :: tr) m' ∧ k r m' := by
  obtain ⟨rfl, rfl⟩ := perform_rollback hp
  refine ⟨{ m with view := m.base }, ⟨h.base, ?_, h.drawn, h.readings, h.failed⟩, hk⟩
  change Ledger.applyAll _ ((s.db.rollback n).own n) _ = _
  rw [Ledger.own_rollback_self]
  exact h.base

end Follows

/-- Without administrators, the onlooker follows the only slot that makes calls. -/
theorem alone_follows {α Q : Type} {body : Q → Proc T α}
    {adm : List (Exchange (Op T) (Op.Reply T) Exc α Q (Stores T)) → Q → Bool} (n : ℕ) :
    Follows (service body adm) (fun _ e => Unattended e) n (alone (T := T)) (Solo.Shows n) where
  perform := by
    intro v c o r s' tr m k _ hrel hk hp
    change SampleAuthApi.perform n c o v.shared = some (r, s') at hp
    generalize v.shared = s at hrel hp ⊢
    cases o with
    | now =>
      obtain ⟨rfl, rfl⟩ := perform_now hp
      exact ⟨{ m with readings := s'.now :: m.readings },
        { hrel with readings := congrArg _ hrel.readings }, hk _⟩
    | uuid4 =>
      obtain ⟨u, hu, rfl, rfl⟩ := perform_uuid4 hp
      exact ⟨{ m with drawn := u :: m.drawn }, { hrel with drawn := congrArg _ hrel.drawn },
        hk u (hrel.drawn ▸ hu)⟩
    | gensalt =>
      obtain ⟨a, rfl, rfl⟩ := perform_gensalt hp
      exact ⟨m, { hrel with }, hk a⟩
    | checkpw =>
      obtain ⟨rfl, rfl⟩ := perform_checkpw hp
      exact ⟨m, { hrel with }, hk⟩
    | redis cmd => exact hrel.redis hk hp
    | select q => exact hrel.select hk hp
    | flush ws => exact hrel.flush hk hp
    | commit => exact hrel.commit hk hp
    | rollback => exact hrel.rollback hk hp
  drift := by
    intro v c s' tr m hc hrel hd
    change SampleAuthApi.drift c v.shared = some s' at hd
    generalize v.shared = s at hrel hd
    obtain ⟨hbase, hview, hdrawn, hread, hfailed⟩ := hrel
    have hdb : s'.db = s.db := by
      rcases drift_db hd with ⟨-, hdb⟩ | ⟨id, status, rfl, -⟩
      · exact hdb
      · exact hc.elim
    refine ⟨?_, ?_, (drift_frame hd).2.1.trans hdrawn, hread, hfailed⟩
    · rw [hdb]
      exact hbase
    · rw [Stores.view, hdb]
      exact hview

/-! ## Calls -/

section Calls

omit [Instant T]

variable {m : Solo T}

/-- A weaker postcondition asks less of every call. -/
theorem alone_monotone : (alone (T := T)).Monotone := by
  intro o s k k' himp hk
  cases o with
  | now => exact fun t => himp _ _ (hk t)
  | uuid4 => exact fun u hu => himp _ _ (hk u hu)
  | gensalt => exact fun a => himp _ _ (hk a)
  | checkpw => exact himp _ _ hk
  | redis c => exact ⟨fun r => himp _ _ (hk.1 r), fun hv => himp _ _ (hk.2.1 hv), himp _ _ hk.2.2⟩
  | select q => exact ⟨himp _ _ hk.1, himp _ _ hk.2⟩
  | flush ws =>
    refine ⟨?_, himp _ _ hk.2⟩
    have hfirst := hk.1
    by_cases hacc : Ledger.accepts Database.apply ws s.view = true
    · rw [if_pos hacc] at hfirst ⊢
      exact himp _ _ hfirst
    · rw [if_neg hacc] at hfirst ⊢
      exact himp _ _ hfirst
  | commit => exact ⟨himp _ _ hk.1, himp _ _ hk.2⟩
  | rollback => exact himp _ _ hk

/-- A command is answered, or Redis cannot be reached. -/
lemma alone_redis {c : RedisCmd} {P : Except Exc c.Reply → Solo T → Prop} (hv : c.isValid = true)
    (h : ∀ r, P (.ok r) m) (hfail : P (.error .unavailable) m.fail) :
    wp alone (redis c) P m := by
  rw [redis, Program.wp_perform]
  exact ⟨h, fun hinvalid => absurd (hv.symm.trans hinvalid) (by decide), hfail⟩

/-- A query reads the view of the request, or the database cannot be reached. -/
lemma alone_select {q : Query} {P : Except Exc (q.Rows T) → Solo T → Prop}
    (h : P (.ok (m.view.select q)) m) (hfail : P (.error .unavailable) m.fail) :
    wp alone (select q) P m := by
  rw [select, Program.wp_perform]
  exact ⟨h, hfail⟩

/-- Writes that the view accepts are flushed, or the database cannot be reached. -/
lemma alone_flush {ws : List (Write T)} {P : Except Exc Unit → Solo T → Prop}
    (hacc : Ledger.accepts Database.apply ws m.view = true)
    (h : P (.ok ()) { m with view := Ledger.applyAll Database.apply ws m.view })
    (hfail : P (.error .unavailable) m.fail) : wp alone (flush ws) P m := by
  rw [flush, Program.wp_perform]
  refine ⟨?_, hfail⟩
  rwa [if_pos hacc]

/-- A password is hashed with any salt, or cannot be hashed. -/
lemma alone_hashPassword {x : Externals K} {password : String}
    {P : Except Exc String → Solo T → Prop}
    (h : ∀ salt hash, x.pwdContext.hash salt password = .ok hash → P (.ok hash) m)
    (hrefuse : ∀ e, Unhashable x password e → P (.error e) m) :
    wp alone (hashPassword x password) P m := by
  unfold hashPassword
  rw [wp_bind, Program.wp_perform]
  intro salt
  rw [afterBind_ok, Program.wp_ofExcept]
  cases hhash : x.pwdContext.hash salt password with
  | ok hash => exact h salt hash hhash
  | error e => exact hrefuse e (.inl ⟨salt, hhash⟩)

/-- A password is compared with a hash, or cannot be hashed. -/
lemma alone_verifyPassword {x : Externals K} {password hash : String}
    {P : Except Exc Bool → Solo T → Prop}
    (h : ∀ valid, x.pwdContext.verify password hash = .ok valid → P (.ok valid) m)
    (hrefuse : ∀ e, Unhashable x password e → P (.error e) m) :
    wp alone (verifyPassword x password hash) P m := by
  unfold verifyPassword
  rw [wp_bind, Program.wp_perform]
  change wp alone (Program.ofExcept _) P m
  rw [Program.wp_ofExcept]
  cases hverify : x.pwdContext.verify password hash with
  | ok valid => exact h valid hverify
  | error e => exact hrefuse e (.inr ⟨hash, hverify⟩)

/-- What `get_db` makes of the end of an endpoint: it publishes the view of a session that has
succeeded, unless the commit fails. -/
def Settles {α : Type} (Q : Except Exc α → Solo T → Prop) : Except Exc α → Solo T → Prop
  | .ok a, m => Q (.ok a) { m with base := m.view } ∧
    Q (.error .unavailable) { m.fail with view := m.base }
  | .error e, m => Q (.error e) { m with view := m.base }

/-- `get_db` settles what its endpoint has done. -/
lemma alone_getDb {α : Type} {p : Proc T α} {Q : Except Exc α → Solo T → Prop}
    (h : wp alone p (Settles Q) m) : wp alone (getDb p) Q m := by
  unfold getDb
  rw [Program.wp_tryCatch, wp_bind]
  refine Program.wp_mono alone_monotone (fun r m' hr => ?_) h
  cases r with
  | ok a => exact hr
  | error e => exact hr

end Calls

/-! ## Tokens and sessions -/

section Sessions

variable {x : Externals K} {m : Solo T} {tok : K}

/-- A token with a valid signature is read as its claims, or refused. -/
lemma alone_jwtDecode {aud : Option String}
    {P : Except Exc (Except JwtError Claims) → Solo T → Prop}
    (h : ∀ c m', x.jwt.verify tok = some c → m.Same m' → P (.ok (.ok c)) m')
    (herr : ∀ e m', m.Same m' → P (.ok (.error e)) m') : wp alone (jwtDecode x tok aud) P m := by
  unfold jwtDecode
  cases hv : x.jwt.verify tok with
  | none => exact herr .invalidToken m ⟨rfl, rfl, rfl⟩
  | some c =>
    change wp alone (utcnow >>= _) P m
    rw [wp_bind, utcnow, Program.wp_perform]
    intro t
    rw [afterBind_ok]
    change P (.ok (validateClaims c t _ aud)) { m with readings := t :: m.readings }
    cases hval : validateClaims c t x.settings.jwtIssuer aud with
    | ok c' =>
      cases validateClaims_ok hval
      exact h c _ hv ⟨rfl, rfl, rfl⟩
    | error e => exact herr e _ ⟨rfl, rfl, rfl⟩

/-- The bearer of an access token, or a rejection by the authentication. -/
lemma alone_getCurrentUser {dev : String} {P : Except Exc (CurrentUser T) → Solo T → Prop}
    (h : ∀ (cu : CurrentUser T) m', Bearer x tok dev cu.userId → cu.deviceId = dev → m.Same m' →
      P (.ok cu) m')
    (herr : ∀ (e : Exc) m', e.authentication = true → m.Same m' → P (.error e) m')
    (hfail : m.Outage P) : wp alone (getCurrentUser x tok dev) P m := by
  unfold getCurrentUser JwtService.decodeAccessToken
  rw [wp_bind, wp_bind]
  refine alone_jwtDecode (fun c m' hc hsame => ?_) fun e m' hsame => ?_
  · rw [afterBind_ok]
    by_cases ht : c.type = .access
    · simp only [ht, ne_eq, not_true_eq_false, if_false]
      cases he : c.email with
      | none => exact herr _ _ rfl hsame
      | some email =>
        cases hn : c.name with
        | none => exact herr _ _ rfl hsame
        | some name =>
          simp only [wp_pure, afterBind_ok]
          by_cases hd : c.deviceId = dev
          · simp only [hd, not_true_eq_false, if_false]
            rw [wp_bind]
            refine alone_redis rfl (fun r => ?_) (hfail _ hsame.base rfl)
            rw [afterBind_ok]
            cases r with
            | true => exact herr _ _ rfl hsame
            | false => exact h _ _ ⟨c, hc, ht, hd, rfl⟩ rfl hsame
          · simp only [hd, not_false_eq_true, if_true]
            exact herr _ _ rfl hsame
    · simp only [ne_eq, ht, not_false_eq_true, if_true]
      exact herr _ _ rfl hsame
  · rw [afterBind_ok]
    cases e with
    | expiredSignature => exact herr _ _ rfl hsame
    | invalidToken => exact herr _ _ rfl hsame

/-- Storing a refresh token leaves the records alone, and may fail. -/
lemma alone_storeRefreshToken {u t : Uuid} {d : String} {name os app ip : Option String} {exp : T}
    {P : Except Exc Unit → Solo T → Prop} (h : ∀ m', m.Same m' → P (.ok ()) m')
    (hfail : m.Outage P) :
    wp alone (TokenStore.storeRefreshToken u d t name os app ip exp) P m := by
  unfold TokenStore.storeRefreshToken
  simp only []
  rw [wp_bind, utcnow, Program.wp_perform]
  intro now
  rw [afterBind_ok]
  split
  · exact h _ ⟨rfl, rfl, rfl⟩
  · rename_i hpos
    rw [wp_bind]
    refine alone_redis (decide_eq_true (not_le.mp hpos)) (fun _ => ?_) (hfail _ rfl rfl)
    rw [afterBind_ok]
    exact alone_redis rfl (fun _ => h _ ⟨rfl, rfl, rfl⟩) (hfail _ rfl rfl)

/-- `create_access_token`, `create_refresh_token` and `store_refresh_token` in a row. -/
lemma alone_mint {α : Type} {u : Uuid} {email name d : String} {dname os app ip : Option String}
    (rest : K → K → Proc T α) {P : Except Exc α → Solo T → Prop}
    (h : ∀ a r m', m'.base = m.base → m'.view = m.view → wp alone (rest a r) P m')
    (hfail : m.Outage P) :
    wp alone (do
      let at' ← JwtService.createAccessToken x u email name d
      let rt ← JwtService.createRefreshToken x u d
      TokenStore.storeRefreshToken u d rt.2.1 dname os app ip rt.2.2
      rest at'.1 rt.1) P m := by
  unfold JwtService.createAccessToken JwtService.createRefreshToken
  rw [wp_bind, wp_bind, utcnow, Program.wp_perform]
  intro t
  rw [afterBind_ok, wp_bind, uuid4, Program.wp_perform]
  intro a _
  simp only [afterBind_ok, wp_pure]
  rw [wp_bind, wp_bind, Program.wp_perform]
  intro made
  rw [afterBind_ok, wp_bind, Program.wp_perform]
  intro r _
  simp only [afterBind_ok, wp_pure]
  rw [wp_bind]
  exact alone_storeRefreshToken (fun m' hsame => h _ _ m' hsame.base hsame.view)
    fun m' hbase hm' => hfail m' hbase hm'

omit [Instant T] in
/-- Deleting a refresh token leaves the records alone, and may fail. -/
lemma alone_deleteRefreshToken {u : Uuid} {d : String} {P : Except Exc Unit → Solo T → Prop}
    (h : P (.ok ()) m) (hfail : P (.error .unavailable) m.fail) :
    wp alone (TokenStore.deleteRefreshToken u d) P m := by
  unfold TokenStore.deleteRefreshToken
  rw [wp_bind]
  refine alone_redis rfl (fun _ => ?_) hfail
  rw [afterBind_ok]
  exact alone_redis rfl (fun _ => h) hfail

omit [Instant T] in
/-- Deleting the refresh tokens of a user leaves the records alone, and may fail. -/
lemma alone_deleteAllRefreshTokens {u : Uuid} {P : Except Exc ℕ → Solo T → Prop}
    (h : ∀ n, P (.ok n) m) (hfail : P (.error .unavailable) m.fail) :
    wp alone (TokenStore.deleteAllRefreshTokens u) P m := by
  unfold TokenStore.deleteAllRefreshTokens
  rw [wp_bind]
  refine alone_redis rfl (fun ds => ?_) hfail
  rw [afterBind_ok]
  simp only []
  split
  · rw [wp_bind]
    exact alone_redis rfl (fun _ => h _) hfail
  · rw [wp_bind]
    exact alone_redis rfl (fun _ => h _) hfail

/-- Blacklisting a token leaves the records alone, and may fail. -/
lemma alone_blacklistToken {j u : Uuid} {d reason : String} {ttl : ℤ}
    {P : Except Exc Unit → Solo T → Prop} (h : ∀ m', m.Same m' → P (.ok ()) m')
    (hfail : m.Outage P) :
    wp alone (TokenStore.blacklistToken j u d reason ttl) P m := by
  unfold TokenStore.blacklistToken
  split
  · exact h m ⟨rfl, rfl, rfl⟩
  · rename_i hpos
    rw [wp_bind, utcnow, Program.wp_perform]
    intro now
    rw [afterBind_ok]
    exact alone_redis (decide_eq_true (not_le.mp hpos)) (fun _ => h _ ⟨rfl, rfl, rfl⟩)
      (hfail _ rfl rfl)

end Sessions

/-! ## Repositories -/

omit [Instant T] in
/-- An assignment is sent unless it changes nothing. -/
lemma getD_changed {α : Type} [DecidableEq α] (loaded assigned : α) :
    (changed loaded assigned).getD loaded = assigned := by
  unfold changed
  split
  · rename_i heq
    exact heq.symm
  · rfl

section Repositories

omit [Instant T]

variable {x : Externals K} {b : Register T} {m : Solo T} {u : Uuid} {d : String}

/-- The time of the last login is not among the records. -/
lemma alone_updateLastLogin {P : Except Exc Unit → Solo T → Prop} (hb : Describes x b m.view)
    (h : ∀ m', m'.base = m.base → Describes x b m'.view → P (.ok ()) m')
    (hfail : m.Outage P) : wp alone (UserRepository.updateLastLogin u) P m := by
  unfold UserRepository.updateLastLogin UserRepository.getById
  rw [wp_bind]
  refine alone_select ?_ (hfail _ rfl rfl)
  rw [afterBind_ok]
  cases hsel : m.view.select (.userById u) with
  | none => exact h m rfl hb
  | some user =>
    change wp alone (utcnow >>= _) P m
    rw [wp_bind, utcnow, Program.wp_perform]
    intro now
    rw [afterBind_ok]
    exact alone_flush rfl
      (h _ rfl (hb.updateUser_same (Database.select_userById hsel).1 rfl rfl fun _ => rfl))
      (hfail _ rfl rfl)

/-- The device row of a login. -/
lemma alone_upsertDevice {client : ClientInfo} {P : Except Exc Unit → Solo T → Prop}
    (hb : Describes x b m.view)
    (h : ∀ m', m'.base = m.base → Describes x (b.setDevice u client.xDeviceId
      (client.device (b.devices u client.xDeviceId))) m'.view → P (.ok ()) m')
    (hfail : m.Outage P) :
    wp alone (UserDeviceRepository.upsertDevice u client.xDeviceId client.xDeviceName
      (client.xOsType.getD "unknown") client.xOsVersion client.xAppVersion client.clientIp) P
      m := by
  unfold UserDeviceRepository.upsertDevice UserDeviceRepository.getByUserAndDevice
  rw [wp_bind]
  refine alone_select ?_ (hfail _ rfl rfl)
  rw [afterBind_ok, wp_bind, utcnow, Program.wp_perform]
  intro now
  rw [afterBind_ok]
  have hdevices := hb.devices u client.xDeviceId
  cases hsel : m.view.select (.deviceByUserAndDevice u client.xDeviceId) with
  | none =>
    rw [hsel, Option.map_none] at hdevices
    have hinsert : ∀ row : UserDevice T, row.userId = u → row.deviceId = client.xDeviceId →
        ∃ db, m.view.insertDevice row = some db := by
      intro row hu hd
      refine Option.ne_none_iff_exists'.mp fun hnone => ?_
      obtain ⟨r, hr, hkey⟩ := Database.insertDevice_eq_none.mp hnone
      exact Database.select_device_eq_none.mp hsel r hr ⟨hkey.1.trans hu, hkey.2.trans hd⟩
    obtain ⟨db, hdb⟩ := hinsert
      { userId := u, deviceId := client.xDeviceId, deviceName := client.xDeviceName
        osType := client.xOsType.getD "unknown", osVersion := client.xOsVersion
        appVersion := client.xAppVersion, lastLoginAt := some now
        lastLoginIp := client.clientIp, lastAccessAt := some now, isActive := true
        createdAt := now, updatedAt := now } rfl rfl
    refine alone_flush ?_ (h _ rfl ?_) (hfail _ rfl rfl)
    · rw [Ledger.accepts_singleton, Database.apply, hdb]
      rfl
    · rw [Ledger.applyAll_cons, Database.apply, hdb, hdevices]
      exact hb.insertDevice hdb
  | some row =>
    rw [hsel, Option.map_some] at hdevices
    obtain ⟨hu, hd⟩ := Database.select_device hsel
    simp only [hu, hd]
    refine alone_flush rfl (h _ rfl ?_) (hfail _ rfl rfl)
    rw [hdevices]
    have hset := hb.updateDevice hsel (c :=
      { deviceName := changed row.deviceName (pyOr client.xDeviceName row.deviceName)
        osType := changed row.osType (client.xOsType.getD "unknown")
        osVersion := changed row.osVersion (pyOr client.xOsVersion row.osVersion)
        appVersion := changed row.appVersion (pyOr client.xAppVersion row.appVersion)
        lastLoginAt := some now
        lastLoginIp := changed row.lastLoginIp client.clientIp
        lastAccessAt := some now
        isActive := changed row.isActive true
        updatedAt := some now })
    simp only [UserDevice.device, UserDevicePatch.apply, getD_changed] at hset
    exact hset

/-- A device row that is deactivated is signed out in the records. -/
lemma alone_deactivateDevice {P : Except Exc Bool → Solo T → Prop} (hb : Describes x b m.view)
    (h : ∀ found m', m'.base = m.base → Describes x (b.signOut u d) m'.view → P (.ok found) m')
    (hfail : m.Outage P) :
    wp alone (UserDeviceRepository.deactivateDevice u d) P m := by
  unfold UserDeviceRepository.deactivateDevice UserDeviceRepository.getByUserAndDevice
  rw [wp_bind]
  refine alone_select ?_ (hfail _ rfl rfl)
  rw [afterBind_ok]
  cases hsel : m.view.select (.deviceByUserAndDevice u d) with
  | none =>
    refine h false m rfl ?_
    rwa [hb.signOut_none hsel]
  | some row =>
    obtain ⟨hu, hd⟩ := Database.select_device hsel
    simp only [hu, hd]
    rw [wp_bind, utcnow, Program.wp_perform]
    intro now
    rw [afterBind_ok, wp_bind]
    exact alone_flush rfl (h true _ rfl (hb.signOut hsel)) (hfail _ rfl rfl)

/-- The device rows that are deactivated are signed out in the records. -/
lemma alone_deactivateAllDevices {P : Except Exc ℕ → Solo T → Prop} (hb : Describes x b m.view)
    (h : ∀ n m', m'.base = m.base → Describes x (b.signOutAll u) m'.view → P (.ok n) m')
    (hfail : m.Outage P) :
    wp alone (UserDeviceRepository.deactivateAllDevices u) P m := by
  unfold UserDeviceRepository.deactivateAllDevices UserDeviceRepository.getActiveDevices
  rw [wp_bind]
  refine alone_select ?_ (hfail _ rfl rfl)
  rw [afterBind_ok, wp_bind, utcnow, Program.wp_perform]
  intro now
  rw [afterBind_ok, wp_bind]
  refine alone_flush (accepts_of_total (fun wr hwr => ?_) _) (h _ _ rfl (hb.signOutAll u))
    (hfail _ rfl rfl)
  obtain ⟨row, -, rfl⟩ := List.mem_map.mp hwr
  trivial

/-- The history is not among the records. -/
lemma alone_createHistory {dev : String} {v : Option Uuid} {ip agent os app reason : Option String}
    {success : Bool} {P : Except Exc Unit → Solo T → Prop} (hb : Describes x b m.view)
    (h : ∀ m', m'.base = m.base → Describes x b m'.view → P (.ok ()) m')
    (hfail : m.Outage P) :
    wp alone (LoginHistoryRepository.create v dev ip agent os app success reason) P m := by
  unfold LoginHistoryRepository.create
  rw [wp_bind, utcnow, Program.wp_perform]
  intro now
  rw [afterBind_ok]
  exact alone_flush rfl (h _ rfl (hb.congr rfl rfl)) (hfail _ rfl rfl)

end Repositories

end SampleAuthApi
