import SampleAuthApi.Foundation.Triple
import SampleAuthApi.Model.Wire

/-!
# How many calls a request makes

No service loops, so every endpoint makes at most nineteen calls, whatever the stores answer
(`endpoint_within`), and each Redis command among them uses its key for what the key is for.  The
functions of the token store, of `JWTService` and of `app.core.security` leave the database session
alone: their calls are `Quiet`.
-/

namespace SampleAuthApi

open Program (Within)

variable {T K : Type}

/-- The call leaves the session of its request as it is. -/
def Op.Quiet : Op T → Prop
  | .flush _ | .commit | .rollback => False
  | o => o.Fits

/-- The program makes at most `n` calls, and they leave its session as it is. -/
abbrev Quietly {α : Type} (p : Proc T α) (n : ℕ) : Prop := p.Within Op.Quiet n

/-- The program makes at most `n` calls. -/
abbrev AtMost {α : Type} (p : Proc T α) (n : ℕ) : Prop := p.Within Op.Fits n

/-- A quiet call uses its key for what the key is for. -/
lemma Op.Quiet.fits {o : Op T} (h : o.Quiet) : o.Fits := by
  cases o with
  | redis c => exact h
  | _ => trivial

/-- What leaves the session alone is bounded all the same. -/
lemma Quietly.atMost {α : Type} {p : Proc T α} {n : ℕ} (h : Quietly p n) : AtMost p n :=
  h.mono (fun _ => Op.Quiet.fits) le_rfl

namespace Quietly

/-- The clock is one call. -/
lemma utcnow : Quietly (utcnow : Proc T T) 1 := .perform trivial

/-- A fresh id is one call. -/
lemma uuid4 : Quietly (uuid4 : Proc T Uuid) 1 := .perform trivial

/-- A command that uses its key for what the key is for is one call. -/
lemma redis {cmd : RedisCmd} (h : wire.Fits cmd) :
    Quietly (SampleAuthApi.redis cmd : Proc T cmd.Reply) 1 := .perform h

/-- A query is one call. -/
lemma select (query : Query) : Quietly (select query : Proc T (query.Rows T)) 1 :=
  .perform trivial

/-- Hashing asks for a salt and computes the rest. -/
lemma hashPassword (x : Externals K) (password : String) :
    Quietly (hashPassword (T := T) x password) 1 :=
  .bind (m := 0) (.perform trivial) fun _ => .ofExcept

/-- Verifying a password reports its comparison and computes the rest. -/
lemma verifyPassword (x : Externals K) (password hash : String) :
    Quietly (verifyPassword (T := T) x password hash) 1 :=
  .bind (m := 0) (.perform trivial) fun _ => .ofExcept

/-! ### The token store -/

/-- Storing a refresh token reads the clock and sends `SETEX` and `SADD`, if the lifetime is not
over. -/
lemma storeRefreshToken [Instant T] (u : Uuid) (d : String) (r : Uuid)
    (name os app ip : Option String) (expiresAt : T) :
    Quietly (TokenStore.storeRefreshToken u d r name os app ip expiresAt) 3 := by
  refine .bind (m := 2) utcnow fun now => ?_
  by_cases hn : Instant.truncInt (expiresAt - now) ≤ 0
  · simp only [hn, if_true]
    exact .pure
  · simp only [hn, if_false]
    exact .bind (redis (by trivial)) fun _ => redis (by trivial)

/-- Looking up a refresh token is one `GET`. -/
lemma getRefreshToken (u : Uuid) (d : String) :
    Quietly (TokenStore.getRefreshToken (T := T) u d) 1 := by
  refine .bind (m := 0) (redis (by trivial)) fun v => ?_
  cases v with
  | none => exact .pure
  | some doc => cases doc <;> exact trivial

/-- Deleting a refresh token is a `DEL` and an `SREM`. -/
lemma deleteRefreshToken (u : Uuid) (d : String) :
    Quietly (TokenStore.deleteRefreshToken (T := T) u d) 2 :=
  .bind (redis (by trivial)) fun _ => redis (by trivial)

/-- Deleting all refresh tokens is an `SMEMBERS`, and one `DEL` if there are any. -/
lemma deleteAllRefreshTokens (u : Uuid) :
    Quietly (TokenStore.deleteAllRefreshTokens (T := T) u) 2 := by
  refine .bind (m := 1) (redis (by trivial)) fun ds => ?_
  by_cases hc : 0 < Finset.card ds
  · simp only [hc, if_true]
    exact .map _ (redis (by trivial))
  · simp only [hc, if_false]
    exact .map _ (redis (by trivial))

/-- Blacklisting reads the clock and sends one `SETEX`, if a second of the token is left. -/
lemma blacklistToken [Instant T] (jti u : Uuid) (d reason : String) (ttl : ℤ) :
    Quietly (TokenStore.blacklistToken (T := T) jti u d reason ttl) 2 := by
  unfold TokenStore.blacklistToken
  by_cases hn : ttl ≤ 0
  · simp only [hn, if_true]
    exact .pure
  · simp only [hn, if_false]
    exact .bind (m := 1) utcnow fun now => redis (by trivial)

/-! ### Tokens -/

variable (x : Externals K)

/-- An access token takes the clock and one id. -/
lemma createAccessToken [Instant T] (u : Uuid) (email name d : String) :
    Quietly (JwtService.createAccessToken (T := T) x u email name d) 2 :=
  .bind utcnow fun _ => .map _ uuid4

/-- A refresh token takes the clock and one id. -/
lemma createRefreshToken [Instant T] (u : Uuid) (d : String) :
    Quietly (JwtService.createRefreshToken (T := T) x u d) 2 :=
  .bind utcnow fun _ => .map _ uuid4

/-- Only a token with a valid signature is compared with the clock. -/
lemma jwtDecode [Instant T] (tok : K) (aud : Option String) :
    Quietly (jwtDecode (T := T) x tok aud) 1 := by
  unfold SampleAuthApi.jwtDecode
  cases x.jwt.verify tok with
  | none => exact .pure
  | some c => exact .map _ utcnow

/-- The checks on an access token make no further call. -/
lemma decodeAccessToken [Instant T] (tok : K) :
    Quietly (JwtService.decodeAccessToken (T := T) x tok) 1 := by
  refine .bind (m := 0) (jwtDecode x tok _) fun r => ?_
  cases r with
  | error e => cases e <;> exact .raise
  | ok payload =>
    by_cases ht : payload.type = .access
    · simp only [ht, ne_eq, not_true_eq_false, if_false]
      cases payload.email with
      | none => exact .raise
      | some email => cases payload.name <;> exact trivial
    · simp only [ne_eq, ht, not_false_eq_true, if_true]
      exact .raise

/-- The checks on a refresh token make no further call. -/
lemma decodeRefreshToken [Instant T] (tok : K) :
    Quietly (JwtService.decodeRefreshToken (T := T) x tok) 1 := by
  refine .bind (m := 0) (jwtDecode x tok _) fun r => ?_
  cases r with
  | error e => cases e <;> exact .raise
  | ok payload =>
    by_cases ht : payload.type = .refresh
    · simp only [ht, ne_eq, not_true_eq_false, if_false]
      exact .pure
    · simp only [ne_eq, ht, not_false_eq_true, if_true]
      exact .raise

/-- Authentication reads the clock and tests the blacklist, in this order. -/
lemma getCurrentUser [Instant T] (tok : K) (d : String) :
    Quietly (getCurrentUser (T := T) x tok d) 2 := by
  refine .bind (m := 1) (decodeAccessToken x tok) fun payload => ?_
  by_cases hd : payload.deviceId = d
  · simp only [hd, ne_eq, not_true_eq_false, if_false]
    refine .bind (m := 0) (redis (by trivial)) fun revoked => ?_
    split
    · exact .raise
    · exact .pure
  · simp only [ne_eq, hd, not_false_eq_true, if_true]
    exact .raise_bind

/-! ### Services without a flush -/

/-- The credentials take one query and one comparison, whether the account exists or not. -/
lemma checkCredentials (email password : String) :
    Quietly (AuthService.checkCredentials (T := T) x email password) 2 := by
  refine .bind (m := 1) (select _) fun row => ?_
  cases row with
  | none => exact .map _ (verifyPassword x _ _)
  | some user => exact .map _ (verifyPassword x _ _)

/-- A rotation finds the user, makes two tokens and stores one of them. -/
lemma rotate [Instant T] (u : Uuid) (d : String) (name os app ip : Option String) :
    Quietly (AuthService.rotate (T := T) x u d name os app ip) 8 := by
  refine .bind (m := 7) (select _) fun row => ?_
  cases row with
  | none => exact .raise
  | some user =>
    exact .bind (m := 5) (createAccessToken x _ _ _ _) fun _ =>
      .bind (m := 3) (createRefreshToken x _ _) fun _ => .map _ (storeRefreshToken _ _ _ _ _ _ _ _)

/-- A refresh rotates, or deletes the stored token after a reuse, but never both. -/
lemma refresh [Instant T] (tok : K) (d : String) (name os app ip : Option String) :
    Quietly (AuthService.refresh (T := T) x tok d name os app ip) 10 := by
  refine .bind (m := 9) (decodeRefreshToken x tok) fun payload => ?_
  by_cases hd : payload.deviceId = d
  · simp only [hd, ne_eq, not_true_eq_false, if_false]
    refine .bind (m := 8) (getRefreshToken _ _) fun stored => ?_
    cases stored with
    | none => exact .raise
    | some data =>
      by_cases hj : data.tokenId = payload.jti
      · simp only [hj, not_true_eq_false, if_false]
        exact rotate x _ _ _ _ _ _
      · simp only [hj, not_false_eq_true, if_true]
        exact .bind (m := 6) (deleteRefreshToken _ _) fun _ => .raise_bind
  · simp only [ne_eq, hd, not_false_eq_true, if_true]
    exact .raise_bind

/-- `get_me` is one query. -/
lemma getMe (u : Uuid) : Quietly (UserService.getMe (T := T) u) 1 := by
  refine .bind (m := 0) (select _) fun row => ?_
  cases row with
  | none => exact .raise
  | some user => exact .pure

/-- `get_devices` is one query. -/
lemma getDevices (u : Uuid) (d : String) :
    Quietly (DeviceService.getDevices (T := T) u d) 1 := .map _ (select _)

end Quietly

namespace AtMost

/-- The clock is one call. -/
lemma utcnow : AtMost (utcnow : Proc T T) 1 := .perform trivial

/-- A query is one call. -/
lemma select (query : Query) : AtMost (select query : Proc T (query.Rows T)) 1 := .perform trivial

/-- A flush is one call. -/
lemma flush (ws : List (Write T)) : AtMost (flush ws) 1 := .perform trivial

/-- `get_db` adds the end of the transaction. -/
lemma getDb {α : Type} {p : Proc T α} {n : ℕ} (h : AtMost p n) : AtMost (getDb p) (n + 2) :=
  .tryCatch (n := n + 1) (m := 1) (.bind (m := 1) h fun _ => .map _ (.perform trivial))
    fun _ => .bind (m := 0) (.perform trivial) fun _ => .raise

/-- Deleting a refresh token, as part of a service that writes. -/
lemma deleteToken (u : Uuid) (d : String) :
    AtMost (TokenStore.deleteRefreshToken (T := T) u d) 2 := (Quietly.deleteRefreshToken u d).atMost

/-- Deleting all refresh tokens, as part of a service that writes. -/
lemma deleteTokens (u : Uuid) : AtMost (TokenStore.deleteAllRefreshTokens (T := T) u) 2 :=
  (Quietly.deleteAllRefreshTokens u).atMost

/-! ### The repositories -/

/-- The row is loaded, and changed if it is there. -/
lemma updateLastLogin (u : Uuid) : AtMost (UserRepository.updateLastLogin (T := T) u) 3 := by
  refine .bind (m := 2) (select _) fun row => ?_
  cases row with
  | none => exact .pure
  | some user => exact .bind utcnow fun _ => flush _

/-- A change of a loaded user is one flush. -/
lemma updateUser (user : User T) (changes : UserPatch T) :
    AtMost (UserRepository.update user changes) 1 := .map _ (flush _)

/-- A soft deletion takes the clock and one flush. -/
lemma softDelete (user : User T) : AtMost (UserRepository.softDelete user) 2 :=
  .bind utcnow fun _ => flush _

/-- The row is loaded, then inserted or changed. -/
lemma upsertDevice (u : Uuid) (d : String) (name : Option String) (os : String)
    (osVersion appVersion ip : Option String) :
    AtMost (UserDeviceRepository.upsertDevice (T := T) u d name os osVersion appVersion ip) 3 := by
  refine .bind (m := 2) (select _) fun row => .bind (m := 1) utcnow fun now => ?_
  cases row with
  | none => exact flush _
  | some device => exact flush _

/-- The row is loaded, and changed if it is there. -/
lemma deactivateDevice (u : Uuid) (d : String) :
    AtMost (UserDeviceRepository.deactivateDevice (T := T) u d) 3 := by
  refine .bind (m := 2) (select _) fun row => ?_
  cases row with
  | none => exact .pure
  | some device => exact .bind (m := 1) utcnow fun _ => .map _ (flush _)

/-- The active rows are loaded and changed in one flush. -/
lemma deactivateAllDevices (u : Uuid) :
    AtMost (UserDeviceRepository.deactivateAllDevices (T := T) u) 3 :=
  .bind (m := 2) (select _) fun _ => .bind (m := 1) utcnow fun _ => .map _ (flush _)

/-- A history row takes the clock and one flush. -/
lemma loginHistory (u : Option Uuid) (d : String) (ip agent os app : Option String)
    (success : Bool) (reason : Option String) :
    AtMost (LoginHistoryRepository.create (T := T) u d ip agent os app success reason) 2 :=
  .bind utcnow fun _ => flush _

/-! ### The services -/

variable (x : Externals K)

/-- A signup tests the address, draws an id, hashes, and flushes once. -/
lemma signup (email password name : String) (phone : Option String) (agreed : Bool) :
    AtMost (AuthService.signup (T := T) x email password name phone agreed) 5 := by
  refine .bind (m := 4) (.map _ (select _)) fun taken => ?_
  cases taken with
  | true => exact .raise_bind
  | false =>
    refine .bind (m := 3) utcnow fun now => .bind (m := 2) Quietly.uuid4.atMost fun id =>
      .bind (m := 1) (Quietly.hashPassword x password).atMost fun hash => .map _ ?_
    exact .tryCatch (m := 0) (.map _ (flush _)) fun e => by cases e <;> exact .raise

/-- A session takes the device row, the last login, two tokens, the token store and the history. -/
lemma openSession [Instant T] (user : User T) (d : String) (name : Option String) (os : String)
    (osVersion appVersion ip agent : Option String) :
    AtMost (AuthService.openSession x user d name os osVersion appVersion ip agent) 15 :=
  .bind (m := 12) (upsertDevice _ _ _ _ _ _ _) fun _ => .bind (m := 9) (updateLastLogin _) fun _ =>
    .bind (m := 7) (Quietly.createAccessToken x _ _ _ _).atMost fun _ =>
    .bind (m := 5) (Quietly.createRefreshToken x _ _).atMost fun _ =>
    .bind (m := 2) (Quietly.storeRefreshToken _ _ _ _ _ _ _ _).atMost fun _ =>
    .map _ (loginHistory _ _ _ _ _ _ _ _)

/-- A rejected login stops after its history row, so an accepted one is the longest. -/
lemma login [Instant T] (email password d : String) (name : Option String) (os : String)
    (osVersion appVersion ip agent : Option String) :
    AtMost (AuthService.login (T := T) x email password d name os osVersion appVersion ip agent)
      17 := by
  have hrejected : ∀ u : Option Uuid, AtMost (do
      LoginHistoryRepository.create u d ip agent (some os) appVersion false
        (some "INVALID_CREDENTIALS")
      (SampleAuthApi.throw .invalidCredentials : Proc T (LoginResponse K))) 15 :=
    fun u => .bind (m := 13) (loginHistory _ _ _ _ _ _ _ _) fun _ => .raise
  refine .bind (m := 15) (Quietly.checkCredentials x email password).atMost fun found => ?_
  obtain ⟨row, valid⟩ := found
  cases row with
  | none => exact hrejected none
  | some user =>
    cases valid with
    | false => exact hrejected (some user.id)
    | true =>
      by_cases hinactive : user.status = .inactive
      · simp only [hinactive, if_true]
        exact .raise_bind
      · simp only [hinactive, if_false]
        by_cases hwithdrawn : user.status = .withdrawn
        · simp only [hwithdrawn, if_true]
          exact .raise_bind
        · simp only [hwithdrawn, if_false]
          exact openSession x user d name os osVersion appVersion ip agent

/-- A logout blacklists, deletes one refresh token and deactivates one row. -/
lemma logout [Instant T] (u : Uuid) (d : String) (jti : Uuid) (exp : T) :
    AtMost (AuthService.logout u d jti exp) 8 :=
  .bind (m := 7) utcnow fun _ => .bind (m := 5) (Quietly.blacklistToken _ _ _ _ _).atMost fun _ =>
    .bind (m := 3) (deleteToken _ _) fun _ => .map _ (deactivateDevice _ _)

/-- A logout from all devices blacklists, and deletes and deactivates in bulk. -/
lemma logoutAll [Instant T] (u jti : Uuid) (exp : T) : AtMost (AuthService.logoutAll u jti exp) 8 :=
  .bind (m := 7) utcnow fun _ => .bind (m := 5) (Quietly.blacklistToken _ _ _ _ _).atMost fun _ =>
    .bind (m := 3) (deleteTokens _) fun _ => .map _ (deactivateAllDevices _)

/-- A change of a user is a query, the clock and a flush. -/
lemma updateMe (u : Uuid) (name phone : Option String) :
    AtMost (UserService.updateMe (T := T) u name phone) 3 := by
  refine .bind (m := 2) (select _) fun row => ?_
  cases row with
  | none => exact .raise
  | some user => exact .bind (m := 1) utcnow fun _ => .map _ (updateUser _ _)

/-- A change of the password makes two comparisons before it hashes and writes. -/
lemma changePassword (u : Uuid) (current new : String) :
    AtMost (UserService.changePassword (T := T) x u current new) 11 := by
  refine .bind (m := 10) (select _) fun row => ?_
  cases row with
  | none => exact .raise
  | some user =>
    refine .bind (m := 9) (Quietly.verifyPassword x _ _).atMost fun valid => ?_
    cases valid with
    | false => exact .raise_bind
    | true =>
      refine .bind (m := 8) (Quietly.verifyPassword x _ _).atMost fun same => ?_
      cases same with
      | true => exact .raise_bind
      | false =>
        exact .bind (m := 7) (Quietly.hashPassword x _).atMost fun _ =>
          .bind (m := 6) utcnow fun _ =>
          .bind (m := 5) (updateUser _ _) fun _ =>
          .bind (m := 3) (deleteTokens _) fun _ => .map _ (deactivateAllDevices _)

/-- A deletion makes one comparison before it writes. -/
lemma deleteAccount (u : Uuid) (password : String) :
    AtMost (UserService.deleteAccount (T := T) x u password) 9 := by
  refine .bind (m := 8) (select _) fun row => ?_
  cases row with
  | none => exact .raise
  | some user =>
    refine .bind (m := 7) (Quietly.verifyPassword x _ _).atMost fun valid => ?_
    cases valid with
    | false => exact .raise_bind
    | true =>
      exact .bind (m := 5) (softDelete _) fun _ =>
        .bind (m := 3) (deleteTokens _) fun _ => .map _ (deactivateAllDevices _)

/-- A forced logout loads the row of the device before it deletes anything. -/
lemma forceLogoutDevice (u : Uuid) (target current : String) :
    AtMost (DeviceService.forceLogoutDevice (T := T) u target current) 6 := by
  unfold DeviceService.forceLogoutDevice
  by_cases hself : target = current
  · simp only [hself, if_true]
    exact .raise_bind
  · simp only [hself, if_false]
    refine .bind (m := 5) (select _) fun row => ?_
    cases row with
    | none => exact .raise
    | some device =>
      cases hactive : device.isActive with
      | false =>
        simp only [hactive, Bool.not_false, if_true]
        exact .raise_bind
      | true =>
        simp only [hactive, Bool.not_true, Bool.false_eq_true, if_false]
        exact .bind (m := 3) (deleteToken _ _) fun _ => .map _ (deactivateDevice _ _)

/-- An endpoint behind `get_current_user`. -/
lemma authenticated [Instant T] {α : Type} {tok : K} {d : String} {body : CurrentUser T → Proc T α}
    (h : ∀ user, AtMost (body user) 15) :
    AtMost (SampleAuthApi.getCurrentUser x tok d >>= fun user => SampleAuthApi.getDb (body user))
      19 :=
  .bind (m := 17) (Quietly.getCurrentUser x tok d).atMost fun user => getDb (h user)

end AtMost

/-- Every endpoint makes at most nineteen calls, whatever it is answered. -/
theorem endpoint_within [Instant T] (x : Externals K) (q : Request K) :
    AtMost (endpoint (T := T) x q) 19 := by
  have hlift : ∀ {α : Type} {p : Proc T α} {n : ℕ}, AtMost p n → n ≤ 15 → AtMost p 15 :=
    fun h hn => h.mono (fun _ h => h) hn
  cases q with
  | signup email password name phone agreed =>
    exact (AtMost.getDb (.map _ (AtMost.signup x _ _ _ _ _))).mono (fun _ h => h) (by decide)
  | login email password client => exact .getDb (.map _ (AtMost.login x _ _ _ _ _ _ _ _ _))
  | refresh tok client =>
    exact (AtMost.getDb (.map _ (Quietly.refresh x _ _ _ _ _ _).atMost)).mono (fun _ h => h)
      (by decide)
  | logout tok d =>
    exact .authenticated x fun user => hlift (.map _ (AtMost.logout _ _ _ _)) (by decide)
  | logoutAll tok d =>
    exact .authenticated x fun user => hlift (.map _ (AtMost.logoutAll _ _ _)) (by decide)
  | getMe tok d =>
    exact .authenticated x fun user => hlift (.map _ (Quietly.getMe _).atMost) (by decide)
  | updateMe tok d name phone =>
    exact .authenticated x fun user => hlift (.map _ (AtMost.updateMe _ _ _)) (by decide)
  | changePassword tok d current new =>
    exact .authenticated x fun user => hlift (.map _ (AtMost.changePassword x _ _ _)) (by decide)
  | deleteAccount tok d password =>
    exact .authenticated x fun user => hlift (.map _ (AtMost.deleteAccount x _ _)) (by decide)
  | listDevices tok d =>
    exact .authenticated x fun user => hlift (.map _ (Quietly.getDevices _ _).atMost) (by decide)
  | forceLogoutDevice tok d target =>
    exact .authenticated x fun user => hlift (.map _ (AtMost.forceLogoutDevice _ _ _)) (by decide)

end SampleAuthApi
