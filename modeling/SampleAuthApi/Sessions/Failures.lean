import SampleAuthApi.Sessions.Served

/-!
# Requests that fail

A request that ends in an error leaves the database as it was, since `get_db` rolls its session
back.  Redis knows no rollback: the commands that the request has sent stay in force.  `Ordered`
says in which order a request turns to the two stores, and `endpoint_ordered` that every endpoint
keeps this order, so a flush of `users` that fails does so before anything has been sent to Redis.
A login turns to `login_histories` and to the commit last, when the new refresh token is stored.
-/

namespace SampleAuthApi

open Transactions Pool
open Program (wp wp_bind wp_mono wp_tryCatch afterBind_ok afterBind_error)

variable {T K : Type} [Instant T]

/-! ## The order of the calls -/

/-- The statement is one of those that the request flushes before it writes to Redis. -/
def Early (q : Request K) (wr : Write T) : Prop :=
  wr.table = .users ∨ (q.isLogin = true ∧ wr.table = .userDevices)

instance (q : Request K) (wr : Write T) : Decidable (Early q wr) :=
  inferInstanceAs (Decidable (_ ∨ _))

/-- No store has failed, and no flush has been refused. -/
def Unharmed (f : Progress T) : Prop := f.failed = false ∧ f.refused = none

/-- A request flushes its early statements before it writes to Redis, and once something has failed
it only rolls back. -/
def Ordered (q : Request K) (f : Progress T) : Op T → Prop
  | .rollback => True
  | .flush ws => Unharmed f ∧ ((∃ wr ∈ ws, Early q wr) → f.sent = [])
  | _ => Unharmed f

/-- Nothing has failed, and if `b` is set nothing has been sent to Redis either. -/
def Innocent (b : Bool) (f : Progress T) : Prop := Unharmed f ∧ (b = true → f.sent = [])

/-- The program keeps the order of the calls; `b` and `b'` say whether nothing has been sent to
Redis before it and after it. -/
def Tidy {α : Type} (q : Request K) (b b' : Bool) (p : Proc T α) : Prop :=
  ∀ f, Innocent b f →
    wp (observer Ordered q) p (fun r f' => ∀ a, r = .ok a → Innocent b' f') f

omit [Instant T] in
/-- A call that is answered harms nothing. -/
lemma Unharmed.note {f : Progress T} (hf : Unharmed f) (s : Stores T) (o : Op T) (a : o.Reply) :
    Unharmed (f.note s o (.ok a)) := by
  cases o with
  | redis cmd => cases cmd <;> exact hf
  | select query => cases query <;> exact hf
  | _ => exact hf

/-! ## Programs that keep the order -/

namespace Tidy

variable {q : Request K} {α β : Type} {b b' b'' : Bool}

/-- The second flag may be given up. -/
lemma relax {p : Proc T α} (h : Tidy q b b' p) : Tidy q b false p := by
  intro f hf
  refine wp_mono (observer_monotone _ q) (fun r f' hr a ha => ?_) (h f hf)
  exact ⟨(hr a ha).1, fun hfalse => by cases hfalse⟩

/-- A value makes no call. -/
lemma pure (a : α) : Tidy q b b (pure a : Proc T α) := by
  intro f hf a' _
  exact hf

/-- A program that raises makes no further call. -/
lemma throw {e : Exc} : Tidy q b b' (throw e : Proc T α) := by
  intro f _ a ha
  cases ha

/-- What follows an exception is not run. -/
lemma throw_bind {e : Exc} {k : α → Proc T β} :
    Tidy q b b' (SampleAuthApi.throw e >>= k) := throw

/-- A result that is at hand makes no call. -/
lemma ofExcept (r : Except Exc α) : Tidy q b b (Program.ofExcept r : Proc T α) := by
  intro f hf
  rw [Program.wp_ofExcept]
  intro a _
  exact hf

/-- Programs in sequence pass the flag on. -/
lemma bind {p : Proc T α} {k : α → Proc T β} (hp : Tidy q b b' p)
    (hk : ∀ a, Tidy q b' b'' (k a)) : Tidy q b b'' (p >>= k) := by
  intro f hf
  rw [wp_bind]
  refine wp_mono (observer_monotone _ q) (fun r f' hr => ?_) (hp f hf)
  cases r with
  | ok a => exact hk a f' (hr a rfl)
  | error e =>
    intro a ha
    cases ha

/-- A program whose exceptions are handled by raising others. -/
lemma tryCatch {p : Proc T α} {handler : Exc → Proc T α} (hp : Tidy q b b' p)
    (hh : ∀ e f, wp (observer Ordered q) (handler e) (fun r _ => ∀ a, r ≠ .ok a) f) :
    Tidy q b b' (p.tryCatch handler) := by
  intro f hf
  rw [wp_tryCatch]
  refine wp_mono (observer_monotone _ q) (fun r f' hr => ?_) (hp f hf)
  cases r with
  | ok a =>
    intro a' _
    exact hr a rfl
  | error e =>
    refine wp_mono (observer_monotone _ q) (fun r' f'' hr' a ha => ?_) (hh e f')
    exact absurd ha (hr' a)

/-- A call that neither writes to Redis nor flushes. -/
lemma call (o : Op T) (ho : ∀ f : Progress T, Unharmed f → Ordered q f o)
    (hsilent : ∀ cmd, o = .redis cmd → cmd.writes = false) :
    Tidy q b b (Program.perform o) := by
  intro f hf
  rw [Program.wp_perform]
  refine ⟨ho f hf.1, fun s r hr a ha => ?_⟩
  subst ha
  obtain ⟨i, c, s', hp, -⟩ := hr
  have heff := perform_effect (f := f) hp
  refine ⟨hf.1.note s o a, fun hb => ?_⟩
  rcases heff.sent with ⟨hsame, -⟩ | ⟨cmd, hcmd, -, hw, -⟩
  · exact hsame.trans (hf.2 hb)
  · rw [hsilent cmd hcmd] at hw
    cases hw

/-- Reading the clock sends nothing to Redis. -/
lemma utcnow : Tidy q b b (utcnow : Proc T T) :=
  call _ (fun _ hf => hf) fun _ h => by cases h

/-- Drawing an id sends nothing to Redis. -/
lemma uuid4 : Tidy q b b (uuid4 : Proc T Uuid) :=
  call _ (fun _ hf => hf) fun _ h => by cases h

/-- A query sends nothing to Redis. -/
lemma select (query : Query) : Tidy q b b (select query : Proc T (query.Rows T)) :=
  call _ (fun _ hf => hf) fun _ h => by cases h

/-- A Redis command that only reads. -/
lemma ask {cmd : RedisCmd} (hcmd : cmd.writes = false) :
    Tidy q b b (redis cmd : Proc T cmd.Reply) :=
  call _ (fun _ hf => hf) fun _ h => by cases h; exact hcmd

/-- Any Redis command. -/
lemma send (cmd : RedisCmd) : Tidy q b false (redis cmd : Proc T cmd.Reply) := by
  intro f hf
  rw [redis, Program.wp_perform]
  refine ⟨hf.1, fun s r hr a ha => ?_⟩
  subst ha
  exact ⟨hf.1.note s (.redis cmd) a, fun hfalse => by cases hfalse⟩

/-- A flush is in order before the first Redis command, and afterwards if it holds no early
statement. -/
lemma flush {ws : List (Write T)} (h : b = true ∨ ∀ wr ∈ ws, ¬ Early q wr) :
    Tidy q b b (flush ws) := by
  intro f hf
  rw [SampleAuthApi.flush, Program.wp_perform]
  refine ⟨⟨hf.1, ?_⟩, fun s r hr a ha => ?_⟩
  · rintro ⟨wr, hwr, hearly⟩
    rcases h with hb | hlate
    · exact hf.2 hb
    · exact absurd hearly (hlate wr hwr)
  · subst ha
    exact hf

/-- `get_db` keeps the order. -/
lemma getDb {p : Proc T α} (hp : Tidy q b b' p) : Tidy q b b' (getDb p) := by
  refine tryCatch (bind hp fun a => bind (call _ (fun _ hf => hf) fun _ h => by cases h)
    fun _ => pure a) fun e f => ?_
  rw [wp_bind, Program.wp_perform]
  refine ⟨trivial, fun s r _ => ?_⟩
  cases r with
  | ok u =>
    intro a ha
    cases ha
  | error e' =>
    intro a ha
    cases ha

/-! ### The token store -/

/-- The refresh token is stored with two commands, and nothing is flushed. -/
lemma storeRefreshToken (u : Uuid) (d : String) (r : Uuid) (name os app ip : Option String)
    (expiresAt : T) : Tidy q b false
      (TokenStore.storeRefreshToken u d r name os app ip expiresAt) := by
  refine bind utcnow fun now => ?_
  by_cases hn : Instant.truncInt (expiresAt - now) ≤ 0
  · simp only [hn, if_true]
    exact relax (pure ())
  · simp only [hn, if_false]
    exact bind (send _) fun _ => send _

/-- Looking up the refresh token only reads. -/
lemma getRefreshToken (u : Uuid) (d : String) :
    Tidy q b b (TokenStore.getRefreshToken (T := T) u d) := by
  refine bind (ask rfl) fun v => ?_
  cases v with
  | none => exact pure none
  | some doc =>
    cases doc with
    | refreshToken data => exact pure (some data)
    | blacklistEntry data => exact throw

/-- Deleting a refresh token flushes nothing. -/
lemma deleteRefreshToken (u : Uuid) (d : String) :
    Tidy q b false (TokenStore.deleteRefreshToken (T := T) u d) :=
  bind (send _) fun _ => send _

/-- Deleting the refresh tokens of a user flushes nothing. -/
lemma deleteAllRefreshTokens (u : Uuid) :
    Tidy q b false (TokenStore.deleteAllRefreshTokens (T := T) u) := by
  refine bind (ask rfl) fun ds => ?_
  by_cases hc : 0 < Finset.card ds
  · simp only [hc, if_true]
    exact bind (send _) fun _ => pure _
  · simp only [hc, if_false]
    exact bind (send _) fun _ => pure _

/-- Blacklisting a token flushes nothing. -/
lemma blacklistToken (jti u : Uuid) (d reason : String) (ttl : ℤ) :
    Tidy q b false (TokenStore.blacklistToken (T := T) jti u d reason ttl) := by
  unfold TokenStore.blacklistToken
  by_cases hn : ttl ≤ 0
  · simp only [hn, if_true]
    exact relax (pure ())
  · simp only [hn, if_false]
    exact bind utcnow fun now => send _

/-! ### The repositories -/

/-- Looking for an address only reads. -/
lemma emailExists (email : String) :
    Tidy q b b (UserRepository.emailExists (T := T) email) :=
  bind (select _) fun _ => pure _

/-- A user is inserted before the first Redis command. -/
lemma createUser (user : User T) : Tidy q true true (UserRepository.create user) :=
  bind (flush (.inl rfl)) fun _ => pure user

/-- The time of the login is flushed before the first Redis command. -/
lemma updateLastLogin (u : Uuid) :
    Tidy q true true (UserRepository.updateLastLogin (T := T) u) := by
  refine bind (select _) fun row => ?_
  cases row with
  | none => exact pure ()
  | some user => exact bind utcnow fun _ => flush (.inl rfl)

/-- A user is changed before the first Redis command. -/
lemma updateUser (user : User T) (changes : UserPatch T) :
    Tidy q true true (UserRepository.update user changes) :=
  bind (flush (.inl rfl)) fun _ => pure _

/-- A user is marked as deleted before the first Redis command. -/
lemma softDelete (user : User T) : Tidy q true true (UserRepository.softDelete user) :=
  bind utcnow fun _ => flush (.inl rfl)

/-- A login flushes its device row before the first Redis command. -/
lemma upsertDevice (u : Uuid) (d : String) (name : Option String) (os : String)
    (osVersion appVersion ip : Option String) : Tidy q true true
      (UserDeviceRepository.upsertDevice (T := T) u d name os osVersion appVersion ip) := by
  refine bind (select _) fun row => bind utcnow fun now => ?_
  cases row with
  | none => exact flush (.inl rfl)
  | some device => exact flush (.inl rfl)

omit [Instant T] in
/-- Only a login counts statements on device rows among its early ones. -/
lemma not_early_of_devices (hq : q.isLogin = false) {wr : Write T}
    (hwr : wr.table = .userDevices) : ¬ Early q wr := by
  rintro (husers | ⟨hlogin, -⟩)
  · rw [hwr] at husers
    cases husers
  · rw [hq] at hlogin
    cases hlogin

/-- Outside of a login, a device row may be deactivated at any time. -/
lemma deactivateDevice (hq : q.isLogin = false) (u : Uuid) (d : String) :
    Tidy q b b (UserDeviceRepository.deactivateDevice (T := T) u d) := by
  refine bind (select _) fun row => ?_
  cases row with
  | none => exact pure false
  | some device =>
    refine bind utcnow fun now => bind (flush (.inr fun wr hwr => ?_)) fun _ => pure true
    rw [List.mem_singleton] at hwr
    subst hwr
    exact not_early_of_devices hq rfl

/-- Outside of a login, the device rows may be deactivated at any time. -/
lemma deactivateAllDevices (hq : q.isLogin = false) (u : Uuid) :
    Tidy q b b (UserDeviceRepository.deactivateAllDevices (T := T) u) := by
  refine bind (select _) fun rows => bind utcnow fun now =>
    bind (flush (.inr fun wr hwr => ?_)) fun _ => pure _
  obtain ⟨device, -, rfl⟩ := List.mem_map.mp hwr
  exact not_early_of_devices hq rfl

/-- A row of the history may be flushed at any time. -/
lemma loginHistory (u : Option Uuid) (d : String) (ip agent os app : Option String)
    (success : Bool) (reason : Option String) : Tidy q b b
      (LoginHistoryRepository.create (T := T) u d ip agent os app success reason) := by
  refine bind utcnow fun now => flush (.inr fun wr hwr => ?_)
  rw [List.mem_singleton] at hwr
  subst hwr
  rintro (husers | ⟨-, hdevices⟩)
  · cases husers
  · cases hdevices

/-! ### Tokens and passwords -/

variable (x : Externals K)

/-- Hashing calls neither store. -/
lemma hashPassword (password : String) : Tidy q b b (hashPassword (T := T) x password) :=
  bind (call _ (fun _ hf => hf) fun _ h => by cases h) fun salt => ofExcept _

/-- Verifying a password calls neither store. -/
lemma verifyPassword (password hash : String) :
    Tidy q b b (verifyPassword (T := T) x password hash) :=
  bind (call _ (fun _ hf => hf) fun _ h => by cases h) fun _ => ofExcept _

/-- Signing an access token sends nothing to Redis. -/
lemma createAccessToken (u : Uuid) (email name d : String) :
    Tidy q b b (JwtService.createAccessToken (T := T) x u email name d) :=
  bind utcnow fun _ => bind uuid4 fun _ => pure _

/-- Signing a refresh token sends nothing to Redis. -/
lemma createRefreshToken (u : Uuid) (d : String) :
    Tidy q b b (JwtService.createRefreshToken (T := T) x u d) :=
  bind utcnow fun _ => bind uuid4 fun _ => pure _

/-- Decoding a token reads the clock at most. -/
lemma jwtDecode (tok : K) (aud : Option String) :
    Tidy q b b (jwtDecode (T := T) x tok aud) := by
  unfold SampleAuthApi.jwtDecode
  cases x.jwt.verify tok with
  | none => exact pure _
  | some c => exact bind utcnow fun now => pure _

/-- Decoding an access token reads the clock at most. -/
lemma decodeAccessToken (tok : K) :
    Tidy q b b (JwtService.decodeAccessToken (T := T) x tok) := by
  refine bind (jwtDecode x tok _) fun r => ?_
  cases r with
  | error e => cases e <;> exact throw
  | ok payload =>
    by_cases ht : payload.type = .access
    · simp only [ht, ne_eq, not_true_eq_false, if_false]
      cases payload.email with
      | none => exact throw
      | some email =>
        cases payload.name with
        | none => exact throw
        | some name => exact pure _
    · simp only [ne_eq, ht, not_false_eq_true, if_true]
      exact throw

/-- Decoding a refresh token reads the clock at most. -/
lemma decodeRefreshToken (tok : K) :
    Tidy q b b (JwtService.decodeRefreshToken (T := T) x tok) := by
  refine bind (jwtDecode x tok _) fun r => ?_
  cases r with
  | error e => cases e <;> exact throw
  | ok payload =>
    by_cases ht : payload.type = .refresh
    · simp only [ht, ne_eq, not_true_eq_false, if_false]
      exact pure _
    · simp only [ne_eq, ht, not_false_eq_true, if_true]
      exact throw

/-- Authentication only tests the blacklist. -/
lemma getCurrentUser (tok : K) (d : String) :
    Tidy q b b (getCurrentUser (T := T) x tok d) := by
  refine bind (decodeAccessToken x tok) fun payload => ?_
  by_cases hd : payload.deviceId = d
  · simp only [hd, ne_eq, not_true_eq_false, if_false]
    refine bind (ask rfl) fun revoked => ?_
    split
    · exact throw
    · exact pure _
  · simp only [ne_eq, hd, not_false_eq_true, if_true]
    exact throw_bind

/-! ### The services -/

/-- `signup` never writes to Redis. -/
lemma signup (email password name : String) (phone : Option String) (agreed : Bool) :
    Tidy q true true (AuthService.signup (T := T) x email password name phone agreed) := by
  refine bind (emailExists email) fun taken => ?_
  cases taken with
  | true => exact throw_bind
  | false =>
    refine bind utcnow fun now => bind uuid4 fun id => bind (hashPassword x password) fun hash => ?_
    refine bind (tryCatch (createUser _) fun e f => ?_) fun _ => pure _
    cases e <;> exact fun a ha => by cases ha

/-- Checking the credentials only reads. -/
lemma checkCredentials (email password : String) :
    Tidy q b b (AuthService.checkCredentials (T := T) x email password) := by
  refine bind (select _) fun row => ?_
  cases row with
  | none => exact bind (verifyPassword x _ _) fun _ => pure _
  | some user => exact bind (verifyPassword x _ _) fun _ => pure _

/-- A session is opened with its device row and the time of the login first, then the refresh token,
then the history row. -/
lemma openSession (user : User T) (d : String) (name : Option String) (os : String)
    (osVersion appVersion ip agent : Option String) : Tidy q true false
      (AuthService.openSession x user d name os osVersion appVersion ip agent) :=
  bind (upsertDevice _ _ _ _ _ _ _) fun _ => bind (updateLastLogin _) fun _ =>
    bind (createAccessToken x _ _ _ _) fun _ => bind (createRefreshToken x _ _) fun _ =>
    bind (storeRefreshToken _ _ _ _ _ _ _ _) fun _ =>
    bind (loginHistory _ _ _ _ _ _ _ _) fun _ => pure _

/-- `login` flushes its device row and the time of the login before it stores the refresh token. -/
lemma login (email password d : String) (name : Option String) (os : String)
    (osVersion appVersion ip agent : Option String) : Tidy q true false
      (AuthService.login (T := T) x email password d name os osVersion appVersion ip agent) := by
  have hrejected : ∀ u : Option Uuid, Tidy q true false (do
      LoginHistoryRepository.create u d ip agent (some os) appVersion false
        (some "INVALID_CREDENTIALS")
      (SampleAuthApi.throw .invalidCredentials : Proc T (LoginResponse K))) :=
    fun u => bind (loginHistory _ _ _ _ _ _ _ _) fun _ => throw
  refine bind (checkCredentials x email password) fun found => ?_
  obtain ⟨row, valid⟩ := found
  cases row with
  | none => exact hrejected none
  | some user =>
    cases valid with
    | false => exact hrejected (some user.id)
    | true =>
      by_cases hinactive : user.status = .inactive
      · simp only [hinactive, if_true]
        exact throw_bind
      · simp only [hinactive, if_false]
        by_cases hwithdrawn : user.status = .withdrawn
        · simp only [hwithdrawn, if_true]
          exact throw_bind
        · simp only [hwithdrawn, if_false]
          exact openSession x user d name os osVersion appVersion ip agent

/-- A rotation flushes nothing. -/
lemma rotate (u : Uuid) (d : String) (name os app ip : Option String) :
    Tidy q b false (AuthService.rotate (T := T) x u d name os app ip) := by
  refine bind (select _) fun row => ?_
  cases row with
  | none => exact throw
  | some user =>
    exact bind (createAccessToken x _ _ _ _) fun _ => bind (createRefreshToken x _ _) fun _ =>
      bind (storeRefreshToken _ _ _ _ _ _ _ _) fun _ => pure _

/-- `refresh` flushes nothing. -/
lemma refresh (tok : K) (d : String) (name os app ip : Option String) :
    Tidy q b false (AuthService.refresh (T := T) x tok d name os app ip) := by
  refine bind (decodeRefreshToken x tok) fun payload => ?_
  by_cases hd : payload.deviceId = d
  · simp only [hd, ne_eq, not_true_eq_false, if_false]
    refine bind (getRefreshToken _ _) fun stored => ?_
    cases stored with
    | none => exact throw
    | some data =>
      by_cases hj : data.tokenId = payload.jti
      · simp only [hj, not_true_eq_false, if_false]
        exact rotate x _ _ _ _ _ _
      · simp only [hj, not_false_eq_true, if_true]
        exact bind (deleteRefreshToken _ _) fun _ => throw_bind
  · simp only [ne_eq, hd, not_false_eq_true, if_true]
    exact throw_bind

/-- `logout` flushes only its device row, which is not early. -/
lemma logout (hq : q.isLogin = false) (u : Uuid) (d : String) (jti : Uuid) (exp : T) :
    Tidy q b false (AuthService.logout u d jti exp) :=
  bind utcnow fun _ => bind (blacklistToken _ _ _ _ _) fun _ =>
    bind (deleteRefreshToken _ _) fun _ => bind (deactivateDevice hq _ _) fun _ => pure ()

/-- `logout_all` flushes only device rows, which are not early. -/
lemma logoutAll (hq : q.isLogin = false) (u jti : Uuid) (exp : T) :
    Tidy q b false (AuthService.logoutAll u jti exp) :=
  bind utcnow fun _ => bind (blacklistToken _ _ _ _ _) fun _ =>
    bind (deleteAllRefreshTokens _) fun count =>
    bind (deactivateAllDevices hq _) fun _ => pure count

/-- `get_me` only reads. -/
lemma getMe (u : Uuid) : Tidy q b b (UserService.getMe (T := T) u) := by
  refine bind (select _) fun row => ?_
  cases row with
  | none => exact throw
  | some user => exact pure _

/-- `update_me` never writes to Redis. -/
lemma updateMe (u : Uuid) (name phone : Option String) :
    Tidy q true true (UserService.updateMe (T := T) u name phone) := by
  refine bind (select _) fun row => ?_
  cases row with
  | none => exact throw
  | some user => exact bind utcnow fun now => bind (updateUser _ _) fun _ => pure _

/-- `change_password` flushes the new hash before it deletes the refresh tokens. -/
lemma changePassword (hq : q.isLogin = false) (u : Uuid) (current new : String) :
    Tidy q true false (UserService.changePassword (T := T) x u current new) := by
  refine bind (select _) fun row => ?_
  cases row with
  | none => exact throw
  | some user =>
    refine bind (verifyPassword x _ _) fun valid => ?_
    cases valid with
    | false => exact throw_bind
    | true =>
      refine bind (verifyPassword x _ _) fun same => ?_
      cases same with
      | true => exact throw_bind
      | false =>
        exact bind (hashPassword x _) fun _ => bind utcnow fun _ =>
          bind (updateUser _ _) fun _ => bind (deleteAllRefreshTokens _) fun _ =>
          bind (deactivateAllDevices hq _) fun _ => pure ()

/-- `delete_account` flushes the mark before it deletes the refresh tokens. -/
lemma deleteAccount (hq : q.isLogin = false) (u : Uuid) (password : String) :
    Tidy q true false (UserService.deleteAccount (T := T) x u password) := by
  refine bind (select _) fun row => ?_
  cases row with
  | none => exact throw
  | some user =>
    refine bind (verifyPassword x _ _) fun valid => ?_
    cases valid with
    | false => exact throw_bind
    | true =>
      exact bind (softDelete _) fun _ => bind (deleteAllRefreshTokens _) fun _ =>
        bind (deactivateAllDevices hq _) fun _ => pure ()

/-- `force_logout_device` flushes only the device row, which is not early. -/
lemma forceLogoutDevice (hq : q.isLogin = false) (u : Uuid) (target current : String) :
    Tidy q b false (DeviceService.forceLogoutDevice (T := T) u target current) := by
  unfold DeviceService.forceLogoutDevice
  by_cases hself : target = current
  · simp only [hself, if_true]
    exact throw_bind
  · simp only [hself, if_false]
    refine bind (select _) fun row => ?_
    cases row with
    | none => exact throw
    | some device =>
      cases hactive : device.isActive with
      | false =>
        simp only [hactive, Bool.not_false, if_true]
        exact throw_bind
      | true =>
        simp only [hactive, Bool.not_true, Bool.false_eq_true, if_false]
        exact bind (deleteRefreshToken _ _) fun _ =>
          bind (deactivateDevice hq _ _) fun _ => pure ()

end Tidy

/-- Every endpoint keeps the order of the calls. -/
theorem endpoint_ordered (x : Externals K) (q : Request K) :
    Tidy q true false (endpoint (T := T) x q) := by
  cases q with
  | signup email password name phone agreed =>
    exact .getDb (.bind (.relax (.signup x _ _ _ _ _)) fun _ => .pure _)
  | login email password client =>
    exact .getDb (.bind (.login x _ _ _ _ _ _ _ _ _) fun _ => .pure _)
  | refresh tok client => exact .getDb (.bind (.refresh x _ _ _ _ _ _) fun _ => .pure _)
  | logout tok d =>
    exact .bind (.getCurrentUser x tok d) fun user =>
      .getDb (.bind (.logout rfl _ _ _ _) fun _ => .pure _)
  | logoutAll tok d =>
    exact .bind (.getCurrentUser x tok d) fun user =>
      .getDb (.bind (.logoutAll rfl _ _ _) fun _ => .pure _)
  | getMe tok d =>
    exact .bind (.getCurrentUser x tok d) fun user =>
      .getDb (.bind (.relax (.getMe _)) fun _ => .pure _)
  | updateMe tok d name phone =>
    exact .bind (.getCurrentUser x tok d) fun user =>
      .getDb (.bind (.relax (.updateMe _ _ _)) fun _ => .pure _)
  | changePassword tok d current new =>
    exact .bind (.getCurrentUser x tok d) fun user =>
      .getDb (.bind (.changePassword x rfl _ _ _) fun _ => .pure _)
  | deleteAccount tok d password =>
    exact .bind (.getCurrentUser x tok d) fun user =>
      .getDb (.bind (.deleteAccount x rfl _ _) fun _ => .pure _)
  | listDevices tok d =>
    exact .bind (.getCurrentUser x tok d) fun user =>
      .getDb (.bind (.relax (.bind (.select _) fun _ => .pure _)) fun _ => .pure _)
  | forceLogoutDevice tok d target =>
    exact .bind (.getCurrentUser x tok d) fun user =>
      .getDb (.bind (.forceLogoutDevice rfl _ _ _) fun _ => .pure _)

/-! ## Requests that have failed -/

/-- The call is a flush with an early statement, and it fails. -/
def failsEarly (q : Request K) : Call T → Bool
  | ⟨_, .flush ws, .error _⟩ => ws.any fun wr => decide (Early q wr)
  | _ => false

omit [Instant T] in
/-- The check finds the failed flushes of early statements. -/
lemma failsEarly_iff {q : Request K} {k : Call T} : failsEarly q k = true ↔
    ∃ s ws e, k = ⟨s, .flush ws, .error e⟩ ∧ ∃ wr ∈ ws, Early q wr := by
  constructor
  · intro h
    unfold failsEarly at h
    split at h
    · rename_i s ws e
      obtain ⟨wr, hwr, hearly⟩ := List.any_eq_true.mp h
      exact ⟨s, ws, e, rfl, wr, hwr, of_decide_eq_true hearly⟩
    · cases h
  · rintro ⟨s, ws, e, rfl, wr, hwr, hearly⟩
    exact List.any_eq_true.mpr ⟨wr, hwr, decide_eq_true hearly⟩

/-- The call is a commit, or a flush with the `login_histories` row of a success, and it fails. -/
def failsLate : Call T → Bool
  | ⟨_, .flush ws, .error _⟩ => ws.any fun wr =>
    match wr with
    | .insertHistory row => row.success
    | _ => false
  | ⟨_, .commit, .error _⟩ => true
  | _ => false

omit [Instant T] in
/-- The check finds the failed commits and the failed flushes of the row of a successful login. -/
lemma failsLate_iff {k : Call T} : failsLate k = true ↔
    (∃ s ws e row, k = ⟨s, .flush ws, .error e⟩ ∧ .insertHistory row ∈ ws ∧ row.success = true) ∨
      ∃ s e, k = ⟨s, .commit, .error e⟩ := by
  constructor
  · intro h
    unfold failsLate at h
    split at h
    · rename_i s ws e
      obtain ⟨wr, hwr, hrow⟩ := List.any_eq_true.mp h
      split at hrow
      · rename_i row
        exact .inl ⟨s, ws, e, row, rfl, hwr, hrow⟩
      · cases hrow
    · rename_i s e
      exact .inr ⟨s, e, rfl⟩
    · cases h
  · rintro (⟨s, ws, e, row, rfl, hwr, hrow⟩ | ⟨s, e, rfl⟩)
    · exact List.any_eq_true.mpr ⟨_, hwr, hrow⟩
    · rfl

/-- The call is one that ends the transaction, or adds to it. -/
def Transacts : Op T → Prop
  | .flush _ | .commit | .rollback => True
  | _ => False

/-- Flushes, commits and rollbacks leave alone what the request has found, drawn and sent. -/
lemma Effect.transacts {i : ℕ} {c : Choice T} {s s' : Stores T} {f f' : Progress T} {o : Op T}
    (h : Effect i c s f o f' s') (ho : Transacts o) : f'.account = f.account ∧
      f'.drawn = f.drawn ∧ f'.lifetime = f.lifetime ∧ f'.sent = f.sent := by
  cases h with
  | flush ws db h => exact ⟨rfl, rfl, rfl, rfl⟩
  | integrity ws => exact ⟨rfl, rfl, rfl, rfl⟩
  | commit => exact ⟨rfl, rfl, rfl, rfl⟩
  | rollback => exact ⟨rfl, rfl, rfl, rfl⟩
  | fail o hc => exact ⟨rfl, rfl, rfl, rfl⟩
  | _ => exact ho.elim

/-- A failure is not forgotten. -/
lemma Effect.unharmed {i : ℕ} {c : Choice T} {s s' : Stores T} {f f' : Progress T} {o : Op T}
    (h : Effect i c s f o f' s') (hf : Unharmed f') : Unharmed f := by
  cases h with
  | integrity ws => cases hf.2
  | fail o hc => cases hf.1
  | _ => exact hf

/-- A flush that fails does harm. -/
lemma harmed_of_flush {f : Progress T} {s : Stores T} {ws : List (Write T)} {e : Exc}
    (h : Answer f (.flush ws) s (.error e)) : ¬ Unharmed (f.note s (.flush ws) (.error e)) := by
  obtain ⟨i, c, s', hp, -⟩ := h
  rcases perform_flush hp with ⟨hr, -⟩ | ⟨e', hr, -, ⟨rfl, -⟩ | rfl⟩
  · cases hr
  · cases hr
    rintro ⟨-, hrefused⟩
    cases hrefused
  · obtain ⟨-, hnote⟩ := perform_fail (f := f) hp
    rw [hnote]
    rintro ⟨hfailed, -⟩
    cases hfailed

/-- A commit that fails does harm. -/
lemma harmed_of_commit {f : Progress T} {s : Stores T} {e : Exc}
    (h : Answer f .commit s (.error e)) : ¬ Unharmed (f.note s .commit (.error e)) := by
  obtain ⟨i, c, s', hp, -⟩ := h
  rcases perform_commit hp with ⟨hr, -⟩ | ⟨-, -, rfl⟩
  · cases hr
  · obtain ⟨-, hnote⟩ := perform_fail (f := f) hp
    rw [hnote]
    rintro ⟨hfailed, -⟩
    cases hfailed

/-- The calls before a call were allowed, too. -/
lemma permitted_of_append {allows : Request K → Progress T → Op T → Prop} {q : Request K}
    {l tr : List (Call T)} (h : Permitted {} Progress.update allows Answer q (l ++ tr)) :
    Permitted {} Progress.update allows Answer q tr := by
  induction l with
  | nil => exact h
  | cons k l ih => exact ih h.1

/-- After a failure a request only rolls back.  The induction is on the calls since then. -/
lemma harmed_append {q : Request K} {l tr : List (Call T)}
    (h : Permitted {} Progress.update Ordered Answer q (l ++ tr))
    (hharmed : ¬ Unharmed (progress tr)) :
    ¬ Unharmed (progress (l ++ tr)) ∧ (progress (l ++ tr)).account = (progress tr).account ∧
      (progress (l ++ tr)).drawn = (progress tr).drawn ∧
      (progress (l ++ tr)).lifetime = (progress tr).lifetime ∧
      (progress (l ++ tr)).sent = (progress tr).sent := by
  induction l with
  | nil => exact ⟨hharmed, rfl, rfl, rfl, rfl⟩
  | cons k l ih =>
    obtain ⟨hbefore, hord, i, c, s', hp, -⟩ := h
    obtain ⟨hstill, haccount, hdrawn, hlifetime, hsent⟩ := ih hbefore
    have heff := perform_effect (f := progress (l ++ tr)) hp
    have hop : Transacts k.op := by
      cases hkop : k.op with
      | rollback => trivial
      | flush ws =>
        rw [hkop] at hord
        exact absurd hord.1 hstill
      | _ =>
        rw [hkop] at hord
        exact absurd hord hstill
    obtain ⟨haccount', hdrawn', hlifetime', hsent'⟩ := heff.transacts hop
    exact ⟨fun hf => hstill (heff.unharmed hf), haccount'.trans haccount, hdrawn'.trans hdrawn,
      hlifetime'.trans hlifetime, hsent'.trans hsent⟩

/-- A request with a flush that fails early has sent nothing to Redis: nothing before the flush, and
nothing after it. -/
lemma silent_of_failsEarly {q : Request K} {tr : List (Call T)}
    (h : Permitted {} Progress.update Ordered Answer q tr)
    (hfails : ∃ k ∈ tr, failsEarly q k = true) : (progress tr).sent = [] := by
  obtain ⟨k, hk, hfail⟩ := hfails
  obtain ⟨l, tr', rfl⟩ := List.append_of_mem hk
  obtain ⟨s, ws, e, rfl, hearly⟩ := failsEarly_iff.mp hfail
  obtain ⟨-, hord, hans⟩ := permitted_of_append h
  obtain ⟨-, -, -, -, hafter⟩ := harmed_append h (harmed_of_flush hans)
  obtain ⟨i, c, s', hp, -⟩ := hans
  obtain ⟨-, -, -, hflush⟩ := (perform_effect (f := progress tr') hp).transacts trivial
  exact (hafter.trans hflush).trans (hord.2 hearly)

/-- A login that fails late has stored its new refresh token. -/
lemma stored_of_failsLate {x : Externals K} {q : Request K} {email password : String}
    {client : ClientInfo} {tr : List (Call T)}
    (h : Permitted {} Progress.update Ordered Answer q tr)
    (hcalls : Permitted {} Progress.update (MayCall x) Answer q tr)
    (hq : q = .login email password client) (hfails : ∃ k ∈ tr, failsLate k = true) :
    ∃ u r, LoggedIn x q (progress tr) u client.xDeviceId ∧ r ∈ (progress tr).drawn ∧
      Stored x (progress tr) u client.xDeviceId r := by
  obtain ⟨k, hk, hfail⟩ := hfails
  obtain ⟨l, tr', rfl⟩ := List.append_of_mem hk
  obtain ⟨-, -, hans⟩ := permitted_of_append h
  obtain ⟨-, hmay, -⟩ := permitted_of_append hcalls
  have hbefore : ∃ u r, LoggedIn x q (progress tr') u client.xDeviceId ∧
      r ∈ (progress tr').drawn ∧ Stored x (progress tr') u client.xDeviceId r := by
    subst hq
    rcases failsLate_iff.mp hfail with ⟨s, ws, e, row, rfl, hrow, hsuccess⟩ | ⟨s, e, rfl⟩
    · obtain ⟨_, _, _, heq, -, hstored⟩ := hmay.2 _ hrow
      cases heq
      exact hstored hsuccess
    · obtain ⟨resp, ⟨u, hlogin, r, a, -, -, -, -, hdrawn, -, -, -, -, hstored⟩, -⟩ := hmay
      have hmem : r ∈ [r, a] := List.mem_cons_self
      rw [← hdrawn] at hmem
      exact ⟨u, r, hlogin, hmem, hstored⟩
  have hharmed : ¬ Unharmed (progress (k :: tr')) := by
    rcases failsLate_iff.mp hfail with ⟨s, ws, e, row, rfl, -, -⟩ | ⟨s, e, rfl⟩
    · exact harmed_of_flush hans
    · exact harmed_of_commit hans
  have hop : Transacts k.op := by
    rcases failsLate_iff.mp hfail with ⟨s, ws, e, row, rfl, -, -⟩ | ⟨s, e, rfl⟩ <;> trivial
  obtain ⟨i, c, s', hp, -⟩ := hans
  obtain ⟨haccount, hdrawn, hlifetime, hsent⟩ :=
    (perform_effect (f := progress tr') hp).transacts hop
  obtain ⟨-, haccount', hdrawn', hlifetime', hsent'⟩ := harmed_append h hharmed
  replace haccount := haccount'.trans haccount
  replace hdrawn := hdrawn'.trans hdrawn
  replace hlifetime := hlifetime'.trans hlifetime
  replace hsent := hsent'.trans hsent
  obtain ⟨u, r, hlogin, hmem, hstored⟩ := hbefore
  refine ⟨u, r, ?_, by rwa [hdrawn], ?_⟩
  · rw [LoggedIn, haccount]
    exact hlogin
  · rw [Stored, hlifetime, hsent]
    exact hstored

variable [DecidableEq K] {x : Externals K} {w w' : World T K} {y : Reply T K}

/-- In every reachable state the requests have kept the order of the calls. -/
theorem permits_of_reach {C : World T K → Event (Request K) (Choice T) → Prop} {now : T}
    {db : Database T} {drawn : List Uuid}
    (h : Reach (server x) C (Pool.initial (Stores.initial now db drawn)) w) :
    Conforms {} Progress.update Ordered Answer (fun _ _ _ => True) w ∧
      Permits {} Progress.update Ordered Answer w := by
  have hbody : ∀ q, wp (observer Ordered q) (endpoint x q) (fun _ _ => True)
      ({} : Progress T) := by
    intro q
    refine wp_mono (observer_monotone _ q) (fun _ _ _ => trivial) (endpoint_ordered x q {} ?_)
    exact ⟨⟨rfl, rfl⟩, fun _ => rfl⟩
  have hrun : Sound x w ∧ Conforms {} Progress.update Ordered Answer (fun _ _ _ => True) w ∧
      Permits {} Progress.update Ordered Answer w := by
    refine h.induct (I := fun v => Sound x v ∧
      Conforms {} Progress.update Ordered Answer (fun _ _ _ => True) v ∧
      Permits {} Progress.update Ordered Answer v)
      ⟨sound_initial now db drawn, conforms_initial _, permits_initial _⟩ ?_
    rintro v e v' - ⟨hsound, hconforms, hpermits⟩ - he
    have hans : ∀ i c q o k tr r s, v.slot i = some ⟨q, .call o k, tr⟩ →
        perform i c o v.shared = some (r, s) → Answer (progress tr) o v.shared r := by
      intro i c q o k tr r s hslot hp
      refine ⟨i, c, s, hp, ?_⟩
      rw [hsound.own i]
      simp [serving, hslot]
    exact ⟨hsound.exec he, hconforms.exec hbody hans he, hpermits.exec hans hconforms he⟩
  exact hrun.2

/-- In every reachable state the requests have kept the contract of the endpoints. -/
theorem called_of_reach {C : World T K → Event (Request K) (Choice T) → Prop} {now : T}
    {db : Database T} {drawn : List Uuid}
    (h : Reach (server x) C (Pool.initial (Stores.initial now db drawn)) w) :
    Permits {} Progress.update (MayCall x) Answer w := by
  have hrun : Sound x w ∧ Permits {} Progress.update (MayCall x) Answer w := by
    refine h.induct (I := fun v => Sound x v ∧ Permits {} Progress.update (MayCall x) Answer v)
      ⟨sound_initial now db drawn, permits_initial _⟩ ?_
    rintro v e v' - ⟨hsound, hpermits⟩ - he
    refine ⟨hsound.exec he, hpermits.exec ?_ hsound.conforms he⟩
    intro i c q o k tr r s hslot hp
    refine ⟨i, c, s, hp, ?_⟩
    rw [hsound.own i]
    simp [serving, hslot]
    rfl
  exact hrun.2

/-- A request is about to turn to Redis only while nothing has failed. -/
lemma unharmed_of_reach {C : World T K → Event (Request K) (Choice T) → Prop} {now : T}
    {db : Database T} {drawn : List Uuid}
    (h : Reach (server x) C (Pool.initial (Stores.initial now db drawn)) w) {i : ℕ} {q : Request K}
    {f : Progress T} {cmd : RedisCmd} (hnext : NextCall w i q f (.redis cmd)) : Unharmed f := by
  obtain ⟨k, tr, hslot, rfl⟩ := hnext
  exact (permits_of_reach h).1.allows_next hslot

/-- In the state `w'` Redis holds the refresh token `r`, drawn since `w`, for the device `d` of `u`,
which is in the device set of `u`. -/
def Replaced (w w' : World T K) (u : Uuid) (d : String) (r : Uuid) : Prop :=
  r ∉ w.shared.drawn ∧ d ∈ w'.shared.redis.sets (.devices u) ∧ ∃ data t,
    w'.shared.redis.strings (.refresh u d) = some (.refreshToken data, t) ∧ data.tokenId = r

/-- What a request that ends in an error, from any reachable state and at whatever point it fails,
leaves behind: the database is as it was before, and Redis as the commands that the request has
sent have left it.  They stay in force.  None has been sent if a statement on `users` has failed, or
in a login one on `user_devices`.  If a login fails at the record of its success, or at the commit,
its new refresh token has replaced the one of the device, unless less than a second of its lifetime
was left. -/
theorem failed_request_rolled_back {now : T} {db : Database T} {drawn : List Uuid}
    (h : Reach (server x) AnyEvent (Pool.initial (Stores.initial now db drawn)) w)
    (hy : Answered (server x) (fun v e => Unattended e ∧ Only w.slots.length v e) w y w')
    {e : Exc} (hres : y.result = .error e) :
    w'.shared.db.committed = w.shared.db.committed ∧
    w'.shared.redis = w.shared.redis.replay (progress y.performed).sent ∧
    ((∃ k ∈ y.performed, failsEarly y.request k = true) →
      w'.shared.redis = w.shared.redis) ∧
    ((∃ k ∈ y.performed, failsLate k = true) → ∀ email password client,
      y.request = .login email password client → ∃ user r,
        w.shared.db.committed.select (.userByEmail email) = some user ∧
        (Replaced w w' user.id client.xDeviceId r ∨
          (w'.shared.redis = w.shared.redis ∧ ∃ made t,
            (progress y.performed).lifetime = some (made, t) ∧
              made + x.settings.jwtRefreshTokenExpireSeconds < t + 1))) := by
  have hsound : Sound x w := h.induct (I := fun v => Sound x v) (sound_initial now db drawn)
    fun _ _ _ _ hv _ he => hv.exec he
  obtain ⟨htrail, -, hends, hlog, -⟩ := hsound.alone (P := fun _ => True)
    (fun _ _ hu => hu) hy trivial fun _ _ _ _ _ _ _ _ _ _ _ => trivial
  have hcommitted : (progress y.performed).committed = [] := by
    rw [hres] at hends
    exact hends.2.2.1
  have hlater : Reach (server x) AnyEvent (Pool.initial (Stores.initial now db drawn)) w' := by
    obtain ⟨v, v', hstart, hrun, hrespond, hlast⟩ := hy
    have hany : Answered (server x) AnyEvent w y w' :=
      ⟨v, v', hstart, hrun.mono fun _ _ _ => trivial, hrespond, hlast⟩
    exact h.trans (hany.reach (fun _ _ => trivial) fun _ _ => trivial)
  have hmem : y ∈ w'.log := by
    rw [hlog]
    exact List.mem_append_right _ List.mem_cons_self
  have hordered := (permits_of_reach hlater).2.log y hmem
  refine ⟨?_, htrail.redis, fun hfails => ?_, fun hfails email password client hq => ?_⟩
  · rw [htrail.committed, hcommitted]
    rfl
  · rw [htrail.redis, silent_of_failsEarly hordered hfails]
    rfl
  · obtain ⟨u, r, hlogin, hr, made, t, hlife, hstored⟩ :=
      stored_of_failsLate hordered ((called_of_reach hlater).log y hmem) hq hfails
    obtain ⟨email', password', client', s, user, hq', -, hacc, rfl, hsel, -⟩ := hlogin
    rw [hq] at hq'
    cases hq'
    rw [htrail.account s _ hacc] at hsel
    refine ⟨user, r, hsel, ?_⟩
    rcases hstored with ⟨s₁, s₂, data, hsent, hdata⟩ | ⟨hsent, hlt⟩
    · left
      set n := Instant.truncInt (made + (x.settings.jwtRefreshTokenExpireSeconds : T) - t)
      refine ⟨htrail.fresh r hr, ?_, data, s₁ + (n : T), ?_, hdata⟩
      · rw [htrail.redis, hsent]
        simp [Redis.Store.sets_sadd]
      · rw [htrail.redis, hsent]
        exact if_pos rfl
    · refine .inr ⟨?_, made, t, hlife, hlt⟩
      rw [htrail.redis, hsent]
      rfl

/-! ## Logins that fail -/

/-- The call is a flush that fails with a `login_histories` row. -/
def failsHistory : Call T → Bool
  | ⟨_, .flush ws, .error _⟩ => ws.any fun wr => decide (wr.table = .loginHistories)
  | _ => false

/-- Alice logs in on her phone. -/
def firstLogin : List (ServiceEvent ℚ Claims) :=
  loginScript 0 "alice@example.com" "old" Plain.phone Plain.a₁ Plain.r₁

/-- Alice logs in on her phone again, and the flush of the device row fails. -/
theorem failed_request_rolled_back_replay : ∃ (w w' : World ℚ Claims) (y : Reply ℚ Claims),
    y.request = .login "alice@example.com" "old" Plain.phone ∧
    y.result = .error .unavailable ∧
    w'.shared.db.committed = w.shared.db.committed ∧ w'.shared.redis = w.shared.redis ∧
    w'.shared.session Plain.aliceId "phone" = some Plain.r₁ := by
  obtain ⟨w, y, w', h, hq, hserved, hgood⟩ := served_of_replay (S := server Plain.externals)
    anyEvent_of_check unattended_of_check 1 firstLogin (goes 1 4 ++ [.step 1 .fail] ++ goes 1 1)
    (.login "alice@example.com" "old" Plain.phone) (w := Plain.start)
    (g := fun _ w' => w'.log.getLast?.any (fun y => answeredBy .unavailable y &&
        y.performed.any (failsEarly y.request)) &&
      decide (w'.shared.session Plain.aliceId "phone" = some Plain.r₁))
    (by decide +kernel)
  rw [hserved.2.getLast?, Bool.and_eq_true, decide_eq_true_eq] at hgood
  obtain ⟨hy, hsession⟩ := hgood
  rw [Option.any_some, Bool.and_eq_true] at hy
  have hres := answeredBy_iff hy.1
  obtain ⟨hcommitted, -, hredis, -⟩ := failed_request_rolled_back h hserved.2 hres
  exact ⟨w, w', y, hq, hres, hcommitted, hredis (List.any_eq_true.mp hy.2), hsession⟩

/-- Alice logs in on her phone again, and the insert of the `login_histories` row fails: she gets
no token pair, and the refresh token of her phone is no longer the one that Redis holds. -/
theorem failed_login_replaces_session : ∃ (w w' : World ℚ Claims) (y : Reply ℚ Claims),
    Reach (server Plain.externals) AnyEvent Plain.start w ∧
    ServedAlone (server Plain.externals) (fun _ e => Unattended e) w y w' ∧
    y.request = .login "alice@example.com" "old" Plain.phone ∧
    y.result = .error .unavailable ∧
    (∃ k ∈ y.performed, failsHistory k = true) ∧
    w.shared.session Plain.aliceId "phone" = some Plain.r₁ ∧
    w'.shared.session Plain.aliceId "phone" = some Plain.r₂ := by
  obtain ⟨w, y, w', h, hq, hserved, hgood⟩ := served_of_replay (S := server Plain.externals)
    anyEvent_of_check unattended_of_check 1 firstLogin
    (loginCalls 1 Plain.a₂ Plain.r₂ ++ goes 1 3 ++ [.step 1 .fail] ++ goes 1 1)
    (.login "alice@example.com" "old" Plain.phone) (w := Plain.start)
    (g := fun w w' => w'.log.getLast?.any (fun y => answeredBy .unavailable y &&
        y.performed.any failsHistory) &&
      (decide (w.shared.session Plain.aliceId "phone" = some Plain.r₁) &&
        decide (w'.shared.session Plain.aliceId "phone" = some Plain.r₂)))
    (by decide +kernel)
  rw [hserved.2.getLast?, Bool.and_eq_true, Bool.and_eq_true, decide_eq_true_eq,
    decide_eq_true_eq] at hgood
  obtain ⟨hy, hbefore, hafter⟩ := hgood
  rw [Option.any_some, Bool.and_eq_true] at hy
  exact ⟨w, w', y, h, hserved, hq, answeredBy_iff hy.1, List.any_eq_true.mp hy.2, hbefore, hafter⟩

end SampleAuthApi
