import SampleAuthApi.Sessions.Current
import SampleAuthApi.Sessions.Rows

/-!
# Isolation of users and devices

A request can only change what belongs to a user whose credentials it carries, and a login, a
refresh, a logout or a forced logout only what belongs to its own device.  `Footprint` lists the
Redis commands of a request with what they need, `Alters` its statements; `Confined` says that all
that a request has done is of this kind, and every call keeps it.  What a request leaves alone
follows from there, one table and one kind of key at a time.
-/

namespace SampleAuthApi

open Transactions Pool

variable {T K : Type} [Instant T]

/-! ## Credentials -/

/-- The request carries credentials of the user `u`: a genuine token of theirs, or, in a login,
their email with a password that verifies against their stored hash. -/
def Carries (x : Externals K) (db : Database T) (q : Request K) (u : Uuid) : Prop :=
  (∃ tok c, q.token? = some tok ∧ x.jwt.verify tok = some c ∧ c.sub = u) ∨
  ∃ email password client user, q = .login email password client ∧ user ∈ db.users ∧
    user.id = u ∧ user.email = email ∧ x.pwdContext.verify password user.hashedPassword = .ok true

/-- The device that a login, a refresh, a logout or a forced logout is about. -/
def Request.device? : Request K → Option String
  | .login _ _ client | .refresh _ client => some client.xDeviceId
  | .logout _ xDeviceId => some xDeviceId
  | .forceLogoutDevice _ _ deviceId => some deviceId
  | _ => none

/-- The request is about the device `d`, or about all devices. -/
def Request.About (q : Request K) (d : String) : Prop := ∀ d', q.device? = some d' → d' = d

section Credentials

variable {x : Externals K} {w s : Stores T} {q : Request K} {f : Progress T} {c : Claims} {u : Uuid}
  {d : String}

omit [Instant T] in
/-- A bearer token carries its subject. -/
lemma Bears.carries (h : Bears x q c) (db : Database T) : Carries x db q c.sub := by
  obtain ⟨tok, dev, hbearer, hver⟩ := h
  have htok : q.token? = some tok := by
    cases q <;> simp_all [Request.bearer?, Request.token?]
  exact .inl ⟨tok, c, htok, hver, rfl⟩

omit [Instant T] in
/-- A refresh token carries its subject. -/
lemma Presents.carries (h : Presents x q c) (db : Database T) :
    Carries x db q c.sub ∧ q.About c.deviceId := by
  obtain ⟨tok, client, rfl, hver, -, hdev⟩ := h
  refine ⟨.inl ⟨tok, c, rfl, hver, rfl⟩, fun d' hd' => ?_⟩
  rw [hdev]
  exact (Option.some.inj hd').symm

/-- A login acts for the account that it has found. -/
lemma LoggedIn.carries (h : LoggedIn x q f u d) (ht : Trail x w q f s) :
    Carries x w.db.committed q u ∧ q.About d := by
  obtain ⟨email, password, client, s', user, rfl, rfl, hacc, rfl, hsel, hver, -⟩ := h
  rw [ht.account s' _ hacc] at hsel
  obtain ⟨hmem, hemail, -⟩ := Database.select_userByEmail hsel
  refine ⟨.inr ⟨email, password, client, user, rfl, hmem, rfl, hemail, hver⟩, fun d' hd' => ?_⟩
  exact (Option.some.inj hd').symm

/-- A request opens sessions of its own user only. -/
lemma Opens.carries (h : Opens x q f u d) (ht : Trail x w q f s) :
    Carries x w.db.committed q u ∧ q.About d := by
  rcases h with hlogin | ⟨c, hrot, rfl, rfl⟩
  · exact hlogin.carries ht
  · exact hrot.1.1.carries _

/-- A request deletes refresh tokens of its own user only. -/
lemma Deletes.carries (h : Deletes x q f u d) (db : Database T) :
    Carries x db q u ∧ q.About d := by
  rcases h with ⟨tok, dev, c, rfl, hauth, rfl, rfl⟩ | ⟨tok, dev, c, rfl, hauth, rfl⟩ |
    ⟨c, hreuse, rfl, rfl⟩
  · refine ⟨hauth.bears.carries db, fun d' hd' => ?_⟩
    obtain ⟨tok', dev', hb, -, -, hdev, -⟩ := hauth
    cases hb
    rw [hdev]
    exact (Option.some.inj hd').symm
  · exact ⟨hauth.bears.carries db, fun d' hd' => (Option.some.inj hd').symm⟩
  · exact hreuse.1.carries db

/-- A request sweeps the refresh tokens of its own user only. -/
lemma Sweeps.carries (h : Sweeps x q f u) (db : Database T) :
    Carries x db q u ∧ q.device? = none := by
  obtain ⟨hq, ⟨c, hauth, rfl⟩, -⟩ := h
  refine ⟨hauth.bears.carries db, ?_⟩
  cases q <;> first | rfl | cases hq

end Credentials

/-! ## What a request does -/

/-- The Redis commands that a request may send, with what they need. -/
inductive Footprint (x : Externals K) (db : Database T) (q : Request K) : RedisCmd → Prop
  /-- A refresh token is stored. -/
  | setex (u : Uuid) (d : String) (n : ℤ) (v : Document) (hu : Carries x db q u)
    (hd : q.About d) : Footprint x db q (.setex (.refresh u d) n v)
  /-- A device is added to a device set. -/
  | sadd (u : Uuid) (d : String) (hu : Carries x db q u) (hd : q.About d) :
    Footprint x db q (.sadd (.devices u) d)
  /-- A refresh token is deleted. -/
  | del (u : Uuid) (d : String) (hu : Carries x db q u) (hd : q.About d) :
    Footprint x db q (.del {.refresh u d})
  /-- A device is removed from a device set. -/
  | srem (u : Uuid) (d : String) (hu : Carries x db q u) (hd : q.About d) :
    Footprint x db q (.srem (.devices u) d)
  /-- The refresh tokens of a user are deleted. -/
  | sweep (u : Uuid) (ds : Finset String) (hu : Carries x db q u) (hq : q.device? = none) :
    Footprint x db q (.del (TokenStore.bulkKeys u ds))
  /-- An access token is blacklisted. -/
  | blacklist (c : Claims) (n : ℤ) (v : Document) (hc : Bears x q c) (ht : c.type = .access) :
    Footprint x db q (.setex (.blacklist c.jti) n v)

/-- The statements that a request may flush, with what they need. -/
def Alters (x : Externals K) (db : Database T) (drawn : List Uuid) (q : Request K) :
    Write T → Prop
  | .insertUser user => user.id ∉ drawn
  | .updateUser u _ => Carries x db q u
  | .insertDevice device => Carries x db q device.userId ∧ q.About device.deviceId
  | .updateDevice u d _ => Carries x db q u ∧ q.About d
  | .insertHistory _ => True

/-- All that the request has done since it arrived in `w` is among what it may do. -/
structure Confined (x : Externals K) (w : Stores T) (q : Request K) (f : Progress T) : Prop where
  sent : ∀ p ∈ f.sent, Footprint x w.db.committed q p.2
  wrote : ∀ wr ∈ f.committed ++ f.wrote, Alters x w.db.committed w.drawn q wr

section Contract

variable {x : Externals K} {w s s' : Stores T} {q : Request K} {f f' : Progress T}

/-- Every command that a request may send keeps to its user and its device. -/
lemma Footprint.of_maySend {cmd : RedisCmd} (h : MaySend x q f cmd) (hw : cmd.writes = true)
    (ht : Trail x w q f s) : Footprint x w.db.committed q cmd := by
  cases cmd with
  | setex k n v =>
    cases k with
    | refresh u d =>
      obtain ⟨hu, hd⟩ := h.2.1.carries ht
      exact .setex u d n v hu hd
    | devices u => exact h.elim
    | blacklist j =>
      obtain ⟨-, -, c, hauth, rfl, -⟩ := h
      have hbears := hauth.bears
      obtain ⟨-, -, -, -, htype, -⟩ := hauth
      exact .blacklist c n v hbears htype
  | sadd k m =>
    obtain ⟨u, _, _, _, rfl, -, hopen⟩ := h
    obtain ⟨hu, hd⟩ := hopen.carries ht
    exact .sadd u m hu hd
  | del ks =>
    rcases h with ⟨u, d, rfl, hdel⟩ | ⟨u, ds, rfl, -, hsweep⟩
    · obtain ⟨hu, hd⟩ := hdel.carries w.db.committed
      exact .del u d hu hd
    · obtain ⟨hu, hq⟩ := hsweep.carries w.db.committed
      exact .sweep u ds hu hq
  | srem k m =>
    obtain ⟨u, _, _, rfl, -, hdel⟩ := h
    obtain ⟨hu, hd⟩ := hdel.carries w.db.committed
    exact .srem u m hu hd
  | _ => cases hw

/-- Every write that a request may flush is on a row of its user and its device, or new. -/
lemma Alters.of_mayWrite {wr : Write T} (h : MayWrite x q f wr) (ht : Trail x w q f s) :
    Alters x w.db.committed w.drawn q wr := by
  cases wr with
  | insertUser user =>
    obtain ⟨-, _, _, _, _, _, _, -, -, -, -, -, hdrawn, -⟩ := h
    exact ht.fresh user.id (by rw [hdrawn]; exact List.mem_cons_self)
  | updateUser u changes =>
    rcases h with ⟨d, t, hlogin, -⟩ | ⟨c, hauth, rfl, -⟩
    · exact (hlogin.carries ht).1
    · exact hauth.bears.carries _
  | insertDevice device =>
    obtain ⟨-, hlogin, -⟩ := h
    exact hlogin.carries ht
  | updateDevice u d changes =>
    rcases h with ⟨-, hlogin, -⟩ | ⟨hdel | hsweep, -⟩
    · exact hlogin.carries ht
    · exact hdel.carries _
    · obtain ⟨hu, hq⟩ := hsweep.carries w.db.committed
      exact ⟨hu, fun d' hd' => by rw [hq] at hd'; cases hd'⟩
  | insertHistory row => trivial

/-- Every call of a request keeps it confined. -/
theorem Confined.step {i : ℕ} {ch : Choice T} {o : Op T} (h : Confined x w q f)
    (ht : Trail x w q f s) (hmay : MayCall x q f o) (heff : Effect i ch s f o f' s') :
    Confined x w q f' := by
  constructor
  · intro p hp
    rcases heff.sent with ⟨hsent, -⟩ | ⟨cmd, rfl, -, hw, -, rfl, -⟩
    · exact h.sent p (hsent ▸ hp)
    · rcases List.mem_cons.mp hp with rfl | hp
      · exact .of_maySend hmay hw ht
      · exact h.sent p hp
  · intro wr hwr
    rcases heff.wrote with ⟨hwrote, hc, -⟩ | ⟨ws, db, rfl, -, rfl, -⟩ | ⟨-, rfl, -⟩ | ⟨-, rfl, -⟩
    · exact h.wrote wr (by rwa [hwrote, hc] at hwr)
    · rw [← List.append_assoc] at hwr
      rcases List.mem_append.mp hwr with hwr | hwr
      · exact h.wrote wr hwr
      · exact .of_mayWrite (hmay.2 wr hwr) ht
    · exact h.wrote wr (by simpa [Progress.commit] using hwr)
    · exact h.wrote wr (List.mem_append_left _ (by simpa using hwr))

end Contract

/-! ## What a request leaves alone -/

section Frames

variable {x : Externals K} {db : Database T} {drawn : List Uuid} {q : Request K} {u : Uuid}
  {d d' : String}

omit [Instant T] in
/-- Rows that are changed outside of a selection leave it alone. -/
lemma filter_map_frame {α : Type} {g : α → α} {p : α → Bool} (hp : ∀ a, p (g a) = p a)
    (hg : ∀ a, p a = true → g a = a) (l : List α) : (l.map g).filter p = l.filter p := by
  induction l with
  | nil => rfl
  | cons a l ih =>
    cases hpa : p a with
    | false => simpa [hp, hpa] using ih
    | true => simpa [hp, hpa, hg a hpa] using ih

omit [Instant T] in
/-- The row of a user whose credentials the request does not carry. -/
lemma Alters.users {wr : Write T} (h : Alters x db drawn q wr) (hu : ¬ Carries x db q u)
    (hdrawn : u ∈ drawn) (db' : Database T) :
    ((Database.apply wr db').getD db').users.filter (fun r => decide (r.id = u)) =
      db'.users.filter fun r => decide (r.id = u) := by
  cases wr with
  | insertUser user =>
    have hne : user.id ≠ u := by
      rintro rfl
      exact h hdrawn
    simp only [Database.apply, Database.insertUser]
    split
    · simp [hne]
    · rfl
  | updateUser id changes =>
    have hne : id ≠ u := by
      rintro rfl
      exact hu h
    refine filter_map_frame (fun r => ?_) (fun r hr => ?_) _
    · split <;> rfl
    · rw [decide_eq_true_eq] at hr
      rw [if_neg (by rw [hr]; exact hne.symm)]
  | _ => rw [Database.users_apply (by simp [Write.table])]

omit [Instant T] in
/-- Device rows that are not among those of the request. -/
lemma Alters.devices {wr : Write T} (h : Alters x db drawn q wr) (p : Uuid → String → Bool)
    (hp : ∀ u d, Carries x db q u → q.About d → p u d = false) (db' : Database T) :
    ((Database.apply wr db').getD db').devices.filter (fun r => p r.userId r.deviceId) =
      db'.devices.filter fun r => p r.userId r.deviceId := by
  cases wr with
  | insertDevice device =>
    have hno := hp _ _ h.1 h.2
    simp only [Database.apply, Database.insertDevice]
    split
    · simp [hno]
    · rfl
  | updateDevice u d changes =>
    have hno := hp _ _ h.1 h.2
    refine filter_map_frame (fun r => ?_) (fun r hr => ?_) _
    · split <;> rfl
    · refine if_neg ?_
      rintro ⟨rfl, rfl⟩
      rw [hno] at hr
      cases hr
  | _ => rw [Database.devices_apply (by simp [Write.table])]

omit [Instant T] in
/-- A key that belongs to a user or to a device that is not among those of the request. -/
lemma Footprint.notMem {cmd : RedisCmd} (h : Footprint x db q cmd) :
    (∀ u d, ¬ (Carries x db q u ∧ q.About d) → Key.refresh u d ∉ cmd.keys) ∧
    ∀ u, ¬ Carries x db q u → Key.devices u ∉ cmd.keys := by
  cases h with
  | setex u d n v hu hd =>
    refine ⟨fun u' d' hno hmem => ?_, fun u' hno => by simp [Redis.Cmd.keys]⟩
    cases Finset.mem_singleton.mp hmem
    exact hno ⟨hu, hd⟩
  | sadd u d hu hd =>
    refine ⟨fun u' d' hno => by simp [Redis.Cmd.keys], fun u' hno hmem => ?_⟩
    cases Finset.mem_singleton.mp hmem
    exact hno hu
  | del u d hu hd =>
    refine ⟨fun u' d' hno hmem => ?_, fun u' hno => by simp [Redis.Cmd.keys]⟩
    cases Finset.mem_singleton.mp hmem
    exact hno ⟨hu, hd⟩
  | srem u d hu hd =>
    refine ⟨fun u' d' hno => by simp [Redis.Cmd.keys], fun u' hno hmem => ?_⟩
    cases Finset.mem_singleton.mp hmem
    exact hno hu
  | sweep u ds hu hq =>
    refine ⟨fun u' d' hno hmem => ?_, fun u' hno hmem => ?_⟩
    · obtain ⟨rfl, -⟩ := TokenStore.mem_bulkKeys_refresh.mp hmem
      exact hno ⟨hu, fun d'' hd'' => by rw [hq] at hd''; cases hd''⟩
    · cases TokenStore.mem_bulkKeys_devices.mp hmem
      exact hno hu
  | blacklist c n v hc ht =>
    exact ⟨fun _ _ _ => by simp [Redis.Cmd.keys], fun _ _ => by simp [Redis.Cmd.keys]⟩

omit [Instant T] in
/-- A blacklist entry is only written for the bearer token. -/
lemma Footprint.bears {cmd : RedisCmd} (h : Footprint x db q cmd) {j : Uuid}
    (hj : Key.blacklist j ∈ cmd.keys) : ∃ c, Bears x q c ∧ c.type = .access ∧ c.jti = j := by
  cases h with
  | blacklist c n v hc ht =>
    cases Finset.mem_singleton.mp hj
    exact ⟨c, hc, ht, rfl⟩
  | sweep u ds hu hq => exact absurd hj TokenStore.not_mem_bulkKeys_blacklist
  | _ => cases Finset.mem_singleton.mp hj

/-- The members of the device sets other than the device of the request. -/
lemma Footprint.members {cmd : RedisCmd} (h : Footprint x db q cmd) (hq : q.device? = some d)
    (hd : d' ≠ d) (t : T) (r : Redis.Store Key Document String T) (u : Uuid) :
    (d' ∈ (r.update t cmd).sets (.devices u)) = (d' ∈ r.sets (.devices u)) := by
  cases h with
  | sadd u' m hu hm =>
    cases hm d hq
    rw [Redis.Store.sets_sadd]
    split <;> simp [hd]
  | srem u' m hu hm =>
    cases hm d hq
    rw [Redis.Store.sets_srem]
    split <;> simp [hd]
  | del u' m hu hm => rw [Redis.Store.sets_del, if_neg (by simp)]
  | sweep u' ds hu hno =>
    rw [hno] at hq
    cases hq
  | _ => rfl

end Frames

/-! ## Isolation -/

/-- What belongs to the user `u` is the same in both states: the user row, the device rows, the keys
whose names start with `auth:rt:{u}:`, the device set, and the blacklist entries of the tokens that
had been handed out. -/
structure Untouched (x : Externals K) (w w' : World T K) (u : Uuid) : Prop where
  user : w'.shared.db.committed.users.filter (fun r => decide (r.id = u)) =
    w.shared.db.committed.users.filter fun r => decide (r.id = u)
  devices : w'.shared.db.committed.devices.filter (fun r => decide (r.userId = u)) =
    w.shared.db.committed.devices.filter fun r => decide (r.userId = u)
  tokens : ∀ k : Key, ("auth:rt:" ++ u.val ++ ":").toList <+: k.name.toList →
    w'.shared.redis.strings k = w.shared.redis.strings k
  deviceSet : w'.shared.redis.sets (.devices u) = w.shared.redis.sets (.devices u)
  blacklist : ∀ tok ∈ issued w.log, ∀ c, x.jwt.verify tok = some c → c.sub = u →
    w'.shared.redis.strings (.blacklist c.jti) = w.shared.redis.strings (.blacklist c.jti)

/-- What belongs to the device `d` of `u` is the same in both states: the stored refresh token, the
membership of the device set, and the device row. -/
structure SameDevice (w w' : World T K) (u : Uuid) (d : String) : Prop where
  token : w'.shared.redis.strings (.refresh u d) = w.shared.redis.strings (.refresh u d)
  member : d ∈ w'.shared.redis.sets (.devices u) ↔ d ∈ w.shared.redis.sets (.devices u)
  row : w'.shared.db.committed.devices.filter (fun r => decide (r.userId = u ∧ r.deviceId = d)) =
    w.shared.db.committed.devices.filter fun r => decide (r.userId = u ∧ r.deviceId = d)

section Isolation

variable [DecidableEq K] {x : Externals K} {w w' : World T K} {y : Reply T K}

/-- No other request makes calls, and no administrator is at work. -/
def Solitary (n : ℕ) (v : World T K) (e : Event (Request K) (Choice T)) : Prop :=
  Unattended e ∧ Only n v e

omit [DecidableEq K] in
/-- A token that was handed out for another user does not have the `jti` of the bearer token. -/
lemma Invariant.bears_jti (hw : Invariant x w) (hnodup : Everyone (fun _ f => f.drawn.Nodup) w)
    {tok tok' : K} {c c' : Claims} (htok : tok ∈ issued w.log) (hver : x.jwt.verify tok = some c)
    (htok' : tok' ∈ issued w.log) (hver' : x.jwt.verify tok' = some c') (htype' : c'.type = .access)
    (hj : c'.jti = c.jti) : c' = c := by
  cases htype : c.type with
  | access => exact (hw.access_unique htok' htok hver' hver htype' htype hj).2
  | refresh =>
    obtain ⟨e, he, -, -, a, -, -, -, hdr, -⟩ := hw.refresh_claims htok hver htype
    obtain ⟨e', he', -, -, -, -, r, -, -, -, hdr', -⟩ := hw.access_claims htok' hver' htype'
    have heq : e = e' := hw.same_exchange he he' (u := c.jti) (by simp [hdr]) (by simp [hdr', hj])
    subst heq
    rw [hdr] at hdr'
    have hr : c.jti = r := (List.cons.inj hdr').1
    have ha : a = c'.jti := (List.cons.inj (List.cons.inj hdr').2).1
    have hno := hnodup.logged e he
    rw [hdr, ha, hj] at hno
    simp at hno

/-- A request leaves alone what belongs to users whose credentials it does not carry, and a login, a
refresh, a logout or a forced logout also what belongs to other devices. -/
theorem users_and_devices_isolated {now : T} {db : Database T} {drawn : List Uuid}
    (hids : IdsDrawn drawn db)
    (h : Reach (server x) AnyEvent (Pool.initial (Stores.initial now db drawn)) w)
    (hy : Answered (server x) (Solitary w.slots.length) w y w') :
    (∀ u, (∃ user ∈ w.shared.db.committed.users, user.id = u) →
      ¬ Carries x w.shared.db.committed y.request u → Untouched x w w' u) ∧
    ∀ d, y.request.device? = some d → ∀ u d', d' ≠ d → SameDevice w w' u d' := by
  have hw : Invariant x w := (invariant_initial x now db drawn).reach h
  have hdrawn : IdsDrawn w.shared.drawn w.shared.db.committed := (idsDrawn_kept x).reach hids h
  obtain ⟨ht, hconf, -⟩ := hw.sound.alone (C := fun _ e => Unattended e)
    (P := Confined x w.shared y.request) (fun _ _ he => he) hy
    ⟨fun p hp => absurd hp List.not_mem_nil, fun wr hwr => absurd hwr List.not_mem_nil⟩
    fun v v' ch f f' o _ ht hmay heff hf => hf.step ht hmay heff
  have hwrote : ∀ wr ∈ (progress y.performed).committed,
      Alters x w.shared.db.committed w.shared.drawn y.request wr := fun wr hwr =>
    hconf.wrote wr (List.mem_append_left _ hwr)
  -- a key that no command of the request names
  have hkey : ∀ k, (∀ p ∈ (progress y.performed).sent, k ∉ p.2.keys) →
      w'.shared.redis.strings k = w.shared.redis.strings k ∧
        w'.shared.redis.sets k = w.shared.redis.sets k := by
    intro k hk
    rw [ht.redis]
    exact ⟨Redis.Store.replay_frame _ (π := fun r => r.strings k)
        fun p hp r => (Redis.Store.update_of_notMem r p.1 (hk p hp)).1,
      Redis.Store.replay_frame _ (π := fun r => r.sets k)
        fun p hp r => (Redis.Store.update_of_notMem r p.1 (hk p hp)).2⟩
  have hrows : ∀ p : Uuid → String → Bool,
      (∀ u d, Carries x w.shared.db.committed y.request u → y.request.About d → p u d = false) →
      w'.shared.db.committed.devices.filter (fun r => p r.userId r.deviceId) =
        w.shared.db.committed.devices.filter fun r => p r.userId r.deviceId := by
    intro p hp
    rw [ht.committed]
    exact applyAll_frame (π := fun db => db.devices.filter fun r => p r.userId r.deviceId)
      (fun wr hwr => (hwrote wr hwr).devices p hp) _
  constructor
  · rintro u ⟨user, huser, rfl⟩ hno
    refine ⟨?_, ?_, fun k hk => ?_, ?_, fun tok htok c hver hsub => ?_⟩
    · rw [ht.committed]
      exact applyAll_frame (π := fun db => db.users.filter fun r => decide (r.id = user.id))
        (fun wr hwr => (hwrote wr hwr).users hno (hdrawn user huser)) _
    · refine hrows (fun u _ => decide (u = user.id)) fun u d hu _ => ?_
      rw [decide_eq_false_iff_not]
      rintro rfl
      exact hno hu
    · obtain ⟨d, rfl⟩ := Key.refresh_of_prefix hk
      exact (hkey _ fun p hp => (hconf.sent p hp).notMem.1 user.id d fun hc => hno hc.1).1
    · exact (hkey _ fun p hp => (hconf.sent p hp).notMem.2 user.id hno).2
    · refine (hkey _ fun p hp hmem => ?_).1
      obtain ⟨c', hbears, htype', hj⟩ := (hconf.sent p hp).bears hmem
      -- the bearer token was handed out before the request arrived
      obtain ⟨v, v', hstart, -⟩ := hy
      have hv := hw.exec hstart
      obtain ⟨hslot, hlog⟩ : serving v w.slots.length = some (y.request, {}) ∧ v.log = w.log := by
        cases hw.sound.change hstart with
        | start q _ hadm hshared hlog hslots hserve => exact ⟨by rw [hserve, if_pos rfl], hlog⟩
      obtain ⟨tok', htok', hver'⟩ := hv.issued_of_bears (.inl ⟨_, hslot⟩) hbears
      rw [hlog] at htok'
      have heq := hw.bears_jti (Invariant.nodup_drawn h) htok hver htok' hver' htype' hj
      subst heq
      rw [← hsub] at hno
      exact hno (hbears.carries _)
  · intro d hd u d' hne
    have habout : ¬ y.request.About d' := fun hab => hne (hab d hd).symm
    refine ⟨?_, ?_, ?_⟩
    · exact (hkey _ fun p hp => (hconf.sent p hp).notMem.1 u d' fun hc => habout hc.2).1
    · rw [ht.redis]
      exact iff_of_eq (Redis.Store.replay_frame _ (π := fun r => d' ∈ r.sets (.devices u))
        fun p hp r => (hconf.sent p hp).members hd hne p.1 r u)
    · refine hrows (fun v e => decide (v = u ∧ e = d')) fun v e _ he => ?_
      rw [decide_eq_false_iff_not]
      rintro ⟨-, rfl⟩
      exact habout he

/-- Bob signs up and logs in on his phone, and Alice on her laptop. -/
def twoUsers : List (ServiceEvent ℚ Claims) :=
  [.start (.signup "bob@example.com" "pw" "Bob" none false)] ++ goes 0 2 ++
    [.step 0 (.uuid Plain.a₃), .step 0 (.salt "")] ++ goes 0 2 ++ [.respond 0] ++
    loginScript 1 "bob@example.com" "pw" Plain.phone Plain.a₁ Plain.r₁ ++
    loginScript 2 "alice@example.com" "old" { xDeviceId := "laptop" } Plain.a₂ Plain.r₂

/-- The user has a session on the device. -/
def hasSession (w : World ℚ Claims) (u : Uuid) (d : String) : Bool :=
  (w.shared.redis.strings (.refresh u d)).isSome && w.shared.db.committed.users.any fun r =>
    r.id == u

/-- Alice logs in on her phone, beside her session on the laptop and Bob's session. -/
theorem users_and_devices_isolated_replay : ∃ (w w' : World ℚ Claims) (y : Reply ℚ Claims),
    y.request = .login "alice@example.com" "old" Plain.phone ∧ y.result.isOk = true ∧
      hasSession w Plain.a₃ "phone" = true ∧ hasSession w Plain.aliceId "laptop" = true ∧
      Untouched Plain.externals w w' Plain.a₃ ∧ SameDevice w w' Plain.aliceId "laptop" := by
  obtain ⟨w, y, w', hreach, hq, hy, hgood⟩ := served_of_replay (S := server Plain.externals)
    (L := fun _ => Unattended) anyEvent_of_check (fun v e h => (smooth_of_check v e h).2) 3
    twoUsers (loginCalls 3 ⟨"c1", by decide⟩ Plain.r₃ ++ goes 3 5)
    (.login "alice@example.com" "old" Plain.phone) (w := Plain.start)
    (g := fun w w' => hasSession w Plain.a₃ "phone" && hasSession w Plain.aliceId "laptop" &&
      (w.shared.db.committed.users.all fun r =>
        r.id != Plain.a₃ || r.email != "alice@example.com") &&
      w'.log.getLast?.any fun y => y.result.isOk)
    (by decide +kernel)
  rw [hy.2.getLast?] at hgood
  simp only [Bool.and_eq_true, List.all_eq_true, Option.any_some] at hgood
  obtain ⟨⟨⟨hbob, halice⟩, hother⟩, hok⟩ := hgood
  have hids : IdsDrawn [Plain.aliceId] Plain.start.shared.db.committed := by
    intro user huser
    rw [List.mem_singleton.mp huser]
    exact List.mem_singleton_self _
  have hisolated := users_and_devices_isolated hids hreach hy.2
  refine ⟨w, w', y, hq, hok, hbob, halice, hisolated.1 _ ?_ ?_,
    hisolated.2 "phone" (by rw [hq]; rfl) Plain.aliceId "laptop" (by decide)⟩
  · rw [hasSession, Bool.and_eq_true] at hbob
    obtain ⟨r, hr, hid⟩ := List.any_eq_true.mp hbob.2
    exact ⟨r, hr, by simpa using hid⟩
  · rw [hq]
    rintro (⟨tok, c, htok, -⟩ | ⟨email, password, client, user, hlogin, huser, hid, hemail, -⟩)
    · cases htok
    · cases hlogin
      have hno := hother user huser
      rw [hid, hemail] at hno
      simp at hno

end Isolation

end SampleAuthApi
