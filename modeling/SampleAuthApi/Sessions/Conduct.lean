import SampleAuthApi.Sessions.Progress

/-!
# What a request may send to Redis

`MaySend x q f` holds of the Redis commands that the request `q` may send when its digest is `f`,
`Succeeded` and `Refused` of the digests it may end with.  This is the half of the contract of the
endpoints that is about tokens and sessions; the other half, about rows, is in `Records`.
-/

namespace SampleAuthApi

open Program (wp)

variable {T K : Type} [Instant T]

/-! ## The contract -/

/-- The token id of the session of a device: that of the refresh token Redis holds for it. -/
def Stores.session (s : Stores T) (u : Uuid) (d : String) : Option Uuid :=
  match s.redis.lookup s.now (.refresh u d) with
  | some (.refreshToken data) => some data.tokenId
  | _ => none

/-- The bearer token of a request and its `X-Device-Id`. -/
def Request.bearer? : Request K → Option (K × String)
  | .logout tok h | .logoutAll tok h | .getMe tok h | .updateMe tok h _ _
  | .changePassword tok h _ _ | .deleteAccount tok h _ | .listDevices tok h
  | .forceLogoutDevice tok h _ => some (tok, h)
  | _ => none

/-- The requests that delete all refresh tokens of their user. -/
def Request.sweeps : Request K → Bool
  | .logoutAll _ _ | .changePassword _ _ _ _ | .deleteAccount _ _ _ => true
  | _ => false

/-- The requests that blacklist their bearer token. -/
def Request.signsOut : Request K → Bool
  | .logout _ _ | .logoutAll _ _ => true
  | _ => false

/-- The request is a login. -/
def Request.isLogin : Request K → Bool
  | .login _ _ _ => true
  | _ => false

/-- The claims of the bearer token of a request. -/
def Bears (x : Externals K) (q : Request K) (c : Claims) : Prop :=
  ∃ tok h, q.bearer? = some (tok, h) ∧ x.jwt.verify tok = some c

/-- The blacklist entry of the access token with the claims `c` is there in the state `s`. -/
def Stores.blacklisted (s : Stores T) (c : Claims) : Bool :=
  s.redis.answer s.now (.existsKey (.blacklist c.jti))

/-- The request was let in by an access token with the claims `c`: the token was valid at one of the
clock readings, and not blacklisted when this was tested. -/
def Authorised (x : Externals K) (q : Request K) (f : Progress T) (c : Claims) : Prop :=
  ∃ tok h, q.bearer? = some (tok, h) ∧ x.jwt.verify tok = some c ∧ c.type = .access ∧
    c.deviceId = h ∧ (∃ s, f.checked = some s ∧ s.blacklisted c = false) ∧ ∃ t ∈ f.readings,
      validateClaims c t x.settings.jwtIssuer (some x.settings.jwtAudience) = .ok c

/-- The request is a refresh with a genuine refresh token of its own device, with the claims `c`. -/
def Presents (x : Externals K) (q : Request K) (c : Claims) : Prop :=
  ∃ tok client, q = .refresh tok client ∧ x.jwt.verify tok = some c ∧ c.type = .refresh ∧
    c.deviceId = client.xDeviceId

/-- The claims `c` of a refresh token were valid at one of the clock readings. -/
def Valid (x : Externals K) (f : Progress T) (c : Claims) : Prop :=
  ∃ t ∈ f.readings, validateClaims c t x.settings.jwtIssuer none = .ok c

/-- The request has looked up the session of a device in the state `s`. -/
def LookedUp (f : Progress T) (s : Stores T) (u : Uuid) (d : String) : Prop :=
  f.found = some (s, s.redis.lookup s.now (.refresh u d))

/-- The request is a refresh that has found its own token stored. -/
def Matched (x : Externals K) (q : Request K) (f : Progress T) (c : Claims) : Prop :=
  Presents x q c ∧ ∃ s, LookedUp f s c.sub c.deviceId ∧ s.session c.sub c.deviceId = some c.jti

/-- The request is a refresh that has found another token stored. -/
def Reuse (x : Externals K) (q : Request K) (f : Progress T) (c : Claims) : Prop :=
  Presents x q c ∧
    ∃ s j, LookedUp f s c.sub c.deviceId ∧ s.session c.sub c.deviceId = some j ∧ j ≠ c.jti

/-- The request is a login on device `d` that has verified the password of the user `u`. -/
def LoggedIn (x : Externals K) (q : Request K) (f : Progress T) (u : Uuid) (d : String) : Prop :=
  ∃ email password client s user, q = .login email password client ∧ client.xDeviceId = d ∧
    f.account = some (s, some user) ∧ user.id = u ∧
    s.db.committed.select (.userByEmail email) = some user ∧
    x.pwdContext.verify password user.hashedPassword = .ok true ∧ user.status = .active

/-- The request is a refresh that has loaded the user of its token. -/
def Rotating (x : Externals K) (q : Request K) (f : Progress T) (c : Claims) : Prop :=
  Matched x q f c ∧ ∃ s user, f.account = some (s, some user) ∧
    s.db.committed.select (.userById c.sub) = some user

/-- The request may store a refresh token for `(u, d)`. -/
def Opens (x : Externals K) (q : Request K) (f : Progress T) (u : Uuid) (d : String) : Prop :=
  LoggedIn x q f u d ∨ ∃ c, Rotating x q f c ∧ u = c.sub ∧ d = c.deviceId

/-- The request may delete the refresh token of `(u, d)`. -/
def Deletes (x : Externals K) (q : Request K) (f : Progress T) (u : Uuid) (d : String) : Prop :=
  (∃ tok h c, q = .logout tok h ∧ Authorised x q f c ∧ u = c.sub ∧ d = c.deviceId) ∨
  (∃ tok h c, q = .forceLogoutDevice tok h d ∧ Authorised x q f c ∧ u = c.sub) ∨
  ∃ c, Reuse x q f c ∧ u = c.sub ∧ d = c.deviceId

/-- The request is a `change_password` of the user `u` that has passed its checks of both passwords
against the loaded row `user`. -/
def Changing (x : Externals K) (q : Request K) (f : Progress T) (u : Uuid) (user : User T) : Prop :=
  ∃ tok h current new s, q = .changePassword tok h current new ∧
    f.account = some (s, some user) ∧ s.db.committed.select (.userById u) = some user ∧
    x.pwdContext.verify current user.hashedPassword = .ok true ∧
    x.pwdContext.verify new user.hashedPassword = .ok false

/-- The request may delete all refresh tokens of `u`. -/
def Sweeps (x : Externals K) (q : Request K) (f : Progress T) (u : Uuid) : Prop :=
  q.sweeps = true ∧ (∃ c, Authorised x q f c ∧ u = c.sub) ∧
    ∀ tok h current new, q = .changePassword tok h current new → ∃ user, Changing x q f u user

/-- The Redis commands that a request may send. -/
def MaySend (x : Externals K) (q : Request K) (f : Progress T) : RedisCmd → Prop
  | .get k => f.found = none ∧ f.drawn = [] ∧ f.sent = [] ∧ f.account = none ∧
    ∃ c, Presents x q c ∧ Valid x f c ∧ k = .refresh c.sub c.deviceId
  | .setex (.refresh u d) n v => f.sent = [] ∧ Opens x q f u d ∧
    ∃ r a data made t, f.drawn = [r, a] ∧ v = .refreshToken data ∧ data.tokenId = r ∧
      f.lifetime = some (made, t) ∧
      n = Instant.truncInt (made + x.settings.jwtRefreshTokenExpireSeconds - t)
  | .setex (.blacklist j) n _ => f.sent = [] ∧ q.signsOut = true ∧
    ∃ c, Authorised x q f c ∧ j = c.jti ∧
      ∃ t ∈ f.readings, n = Instant.truncInt ((c.exp : T) - t)
  | .setex (.devices _) _ _ => False
  | .sadd k m => ∃ u t n v, k = .devices u ∧ f.sent = [(t, .setex (.refresh u m) n v)] ∧
    Opens x q f u m
  | .del ks => (∃ u d, ks = {.refresh u d} ∧ Deletes x q f u d) ∨
    ∃ u ds, ks = TokenStore.bulkKeys u ds ∧ f.snapshot = some ds ∧ Sweeps x q f u
  | .srem k m => ∃ u t rest, k = .devices u ∧ f.sent = (t, .del {.refresh u m}) :: rest ∧
    Deletes x q f u m
  | .smembers k => f.snapshot = none ∧ (∃ u, k = .devices u ∧ Sweeps x q f u) ∧
    ∀ p ∈ f.sent, ∃ j n v, p.2 = .setex (.blacklist j) n v
  | .existsKey _ => f.checked = none

/-- The request has stored the refresh token `r` for `(u, d)`, unless less than a second of its
lifetime was left. -/
def Stored (x : Externals K) (f : Progress T) (u : Uuid) (d : String) (r : Uuid) : Prop :=
  ∃ made t, f.lifetime = some (made, t) ∧
    ((∃ s s' data,
        f.sent = [(s', .sadd (.devices u) d), (s, .setex (.refresh u d)
          (Instant.truncInt (made + x.settings.jwtRefreshTokenExpireSeconds - t))
          (.refreshToken data))] ∧ data.tokenId = r) ∨
      (f.sent = [] ∧ made + x.settings.jwtRefreshTokenExpireSeconds < t + 1))

/-- The response hands out a new token pair for `(u, d)`. -/
def Minted (x : Externals K) (u : Uuid) (d : String) (resp : Response T K) (f : Progress T) :
    Prop :=
  ∃ r a made t email name, f.drawn = [r, a] ∧ t ∈ f.readings ∧ made ∈ f.readings ∧
    resp.tokens = [x.jwt.sign (JwtService.accessClaims x.settings u email name d t a),
      x.jwt.sign (JwtService.refreshClaims x.settings u d made r)] ∧
    (∃ t', f.lifetime = some (made, t')) ∧ Stored x f u d r

/-- The request has deleted the refresh token of `(u, d)` after the commands `before`. -/
def SignedOut (f : Progress T) (u : Uuid) (d : String) (before : List (T × RedisCmd)) : Prop :=
  ∃ t t', f.sent = (t', .srem (.devices u) d) :: (t, .del {.refresh u d}) :: before

/-- The request has deleted the refresh tokens of `u` in its snapshot after the commands
`before`. -/
def Swept (f : Progress T) (u : Uuid) (before : List (T × RedisCmd)) : Prop :=
  ∃ t ds, f.snapshot = some ds ∧ f.sent = (t, .del (TokenStore.bulkKeys u ds)) :: before

/-- The commands that blacklist the access token with the claims `c`, if a second of it is left. -/
def Blacklisting (f : Progress T) (c : Claims) (sent : List (T × RedisCmd)) : Prop :=
  ∃ t ∈ f.readings,
    (∃ s v, sent = [(s, .setex (.blacklist c.jti) (Instant.truncInt ((c.exp : T) - t)) v)]) ∨
    (sent = [] ∧ Instant.truncInt ((c.exp : T) - t) ≤ 0)

/-- What a request has done when it succeeds. -/
def Succeeded (x : Externals K) (q : Request K) (resp : Response T K) (f : Progress T) : Prop :=
  match q with
  | .login _ _ client => ∃ u, LoggedIn x q f u client.xDeviceId ∧
    Minted x u client.xDeviceId resp f
  | .refresh _ _ => ∃ c, Rotating x q f c ∧ Valid x f c ∧ Minted x c.sub c.deviceId resp f
  | .logout _ _ => resp.tokens = [] ∧ ∃ c before, Authorised x q f c ∧
    Blacklisting f c before ∧ SignedOut f c.sub c.deviceId before
  | .logoutAll _ _ => resp.tokens = [] ∧ ∃ c before, Authorised x q f c ∧
    Blacklisting f c before ∧ Swept f c.sub before
  | .changePassword _ _ _ _ => resp.tokens = [] ∧ ∃ c user, Authorised x q f c ∧
    Changing x q f c.sub user ∧ Swept f c.sub []
  | .deleteAccount _ _ _ => resp.tokens = [] ∧ ∃ c, Authorised x q f c ∧ Swept f c.sub []
  | .forceLogoutDevice _ _ target => resp.tokens = [] ∧ ∃ c, Authorised x q f c ∧
    SignedOut f c.sub target []
  | _ => resp.tokens = [] ∧ f.sent = []

/-- Why a request fails without a failure of Redis or the database. -/
def Refused (x : Externals K) (q : Request K) (f : Progress T) : Prop :=
  match q with
  | .refresh tok client =>
    (∃ c, Reuse x q f c ∧ SignedOut f c.sub c.deviceId []) ∨
    (f.sent = [] ∧ ∀ c, x.jwt.verify tok = some c →
      (f.found = none ∧ ((∃ t ∈ f.readings, validateClaims c t x.settings.jwtIssuer none ≠ .ok c) ∨
        c.type ≠ .refresh ∨ c.deviceId ≠ client.xDeviceId)) ∨
      (∃ s, LookedUp f s c.sub c.deviceId ∧ s.session c.sub c.deviceId = none) ∨
      (Matched x q f c ∧
        ∃ s, f.account = some (s, none) ∧ s.db.committed.select (.userById c.sub) = none))
  | _ => f.sent = []

end SampleAuthApi
