import SampleAuthApi.Foundation.Abstraction
import SampleAuthApi.Foundation.Json
import SampleAuthApi.Foundation.Keyspace
import SampleAuthApi.Model.Server
import SampleAuthApi.Model.TokenStore

/-!
# The token store on the wire

`app.core.redis` opens a client with `decode_responses=True` and `encoding="utf-8"`: keys, values
and members are sent as UTF-8, and every answer is decoded before `TokenStore` sees it.  The values
are JSON documents, written by `json.dumps` and read by `json.loads`.

`wireServer x` is the service over a Redis that keeps byte strings and byte sets in one keyspace.
An answer that cannot be decoded, and a command that Redis refuses, make the call fail.
-/

namespace SampleAuthApi

open Redis

/-! ## Documents -/

namespace Document

/-- A string in a document. -/
def text (s : String) : Json := .str (.ofString s)

/-- A string or `None` in a document. -/
def optional : Option String → Json
  | some s => text s
  | none => .null

/-- An entry of a document. -/
def entry (name : String) (v : Json) : PyString × Json := (.ofString name, v)

/-- The dictionaries that `store_refresh_token` and `blacklist_token` build. -/
def toJson : Document → Json
  | .refreshToken data => .obj [
      entry "token_id" (text data.tokenId.val),
      entry "user_id" (text data.userId.val),
      entry "device_id" (text data.deviceId),
      entry "device_name" (optional data.deviceName),
      entry "os_type" (optional data.osType),
      entry "app_version" (optional data.appVersion),
      entry "ip_address" (optional data.ipAddress),
      entry "issued_at" (.int data.issuedAt),
      entry "expires_at" (.int data.expiresAt)]
  | .blacklistEntry data => .obj [
      entry "user_id" (text data.userId.val),
      entry "device_id" (text data.deviceId),
      entry "reason" (text data.reason),
      entry "revoked_at" (.int data.revokedAt)]

/-- The value under a name in a dictionary. -/
def field (fs : List (PyString × Json)) (name : String) : Option Json :=
  (fs.find? fun f => f.1 = .ofString name).map Prod.snd

/-- A value that is a string. -/
def text? : Json → Option String
  | .str s => s.text?
  | _ => none

/-- A value that is a string or `None`. -/
def optional? : Json → Option (Option String)
  | .null => some none
  | v => (text? v).map some

/-- A value that is an integer. -/
def int? : Json → Option ℤ
  | .int n => some n
  | _ => none

/-- A value that is an id. -/
def uuid? (v : Json) : Option Uuid :=
  (text? v).bind fun s =>
    if h : s.toList.all (fun c => c.isDigit || ('a' ≤ c && c ≤ 'f') || c == '-') = true then
      some ⟨s, h⟩
    else none

/-- The document that a dictionary is; the one with a `token_id` is a refresh token. -/
def ofJson : Json → Option Document
  | .obj fs =>
    if (field fs "token_id").isSome then do
      let tokenId ← (field fs "token_id").bind uuid?
      let userId ← (field fs "user_id").bind uuid?
      let deviceId ← (field fs "device_id").bind text?
      let deviceName ← (field fs "device_name").bind optional?
      let osType ← (field fs "os_type").bind optional?
      let appVersion ← (field fs "app_version").bind optional?
      let ipAddress ← (field fs "ip_address").bind optional?
      let issuedAt ← (field fs "issued_at").bind int?
      let expiresAt ← (field fs "expires_at").bind int?
      some (.refreshToken
        ⟨tokenId, userId, deviceId, deviceName, osType, appVersion, ipAddress, issuedAt, expiresAt⟩)
    else do
      let userId ← (field fs "user_id").bind uuid?
      let deviceId ← (field fs "device_id").bind text?
      let reason ← (field fs "reason").bind text?
      let revokedAt ← (field fs "revoked_at").bind int?
      some (.blacklistEntry ⟨userId, deviceId, reason, revokedAt⟩)
  | _ => none

/-- `json.dumps`, as sent. -/
def encode (d : Document) : Bytes := (String.ofList d.toJson.dumps).toByteArray

/-- `json.loads` of a decoded answer. -/
def loads (b : Bytes) : Option Json := do
  let s ← b.decodeUtf8
  Json.loads s.toList

/-- The document that is read. -/
def decode (b : Bytes) : Option Document := (loads b).bind ofJson

@[simp] theorem text?_text (s : String) : text? (text s) = some s := PyString.text?_ofString s

@[simp] theorem optional?_optional (s : Option String) : optional? (optional s) = some s := by
  cases s with
  | none => rfl
  | some s => exact congrArg (Option.map some) (text?_text s)

@[simp] theorem uuid?_text (u : Uuid) : uuid? (text u.val) = some u := by
  unfold uuid?
  rw [text?_text, Option.bind_some, dif_pos u.hex]

theorem field_cons (name name' : String) (v : Json) (fs : List (PyString × Json)) :
    field (entry name v :: fs) name' = if name = name' then some v else field fs name' := by
  unfold field entry
  by_cases h : name = name'
  · simp [h]
  · have hne : PyString.ofString name ≠ .ofString name' := fun heq =>
      h (PyString.ofString_injective heq)
    simp [h, hne]

theorem field_nil (name : String) : field [] name = none := rfl

/-- The dictionary of a document gives it back. -/
theorem ofJson_toJson (d : Document) : ofJson d.toJson = some d := by
  cases d with
  | refreshToken data => simp [toJson, ofJson, field_cons, int?]
  | blacklistEntry data => simp [toJson, ofJson, field_cons, field_nil, int?]

lemma proper_optional (s : Option String) : (optional s).Proper := by
  cases s with
  | none => trivial
  | some s => exact Json.unpaired_ofString s

/-- The dictionaries of the application survive `json`. -/
lemma proper_toJson (d : Document) : d.toJson.Proper := by
  have hname : ∀ s : String, Json.Unpaired (PyString.ofString s).points := Json.unpaired_ofString
  cases d with
  | refreshToken data =>
    refine ⟨by simp [entry, PyString.ofString_injective.eq_iff], ?_⟩
    exact ⟨hname _, hname _, hname _, hname _, hname _, hname _, hname _, proper_optional _,
      hname _, proper_optional _, hname _, proper_optional _, hname _, proper_optional _,
      hname _, trivial, hname _, trivial, trivial⟩
  | blacklistEntry data =>
    refine ⟨by simp [entry, PyString.ofString_injective.eq_iff], ?_⟩
    exact ⟨hname _, hname _, hname _, hname _, hname _, hname _, hname _, trivial, trivial⟩

/-- What is sent for a dictionary is read back as it. -/
theorem loads_encode (d : Document) : loads (encode d) = some d.toJson := by
  unfold loads encode
  rw [Bytes.decodeUtf8_toByteArray]
  simp only [Option.bind_eq_bind, Option.bind_some, String.toList_ofList]
  exact Json.loads_dumps (proper_toJson d)

theorem decode_encode (d : Document) : decode (encode d) = some d := by
  rw [decode, loads_encode, Option.bind_some, ofJson_toJson]

end Document

/-! ## Commands -/

/-- Whether a key holds a document; the other keys hold sets of device ids. -/
def Key.isString : Key → Bool
  | .devices _ => false
  | _ => true

/-- How the client writes the keys, documents and device ids. -/
def wire : Encoding Key Document String Bytes Bytes Bytes where
  key k := k.name.toByteArray
  value := Document.encode
  value? := Document.decode
  member := String.toByteArray
  member? := Bytes.decodeUtf8
  isString := Key.isString
  key_injective _ _ h := Key.name_injective (String.toByteArray_inj.mp h)
  value?_value := Document.decode_encode
  member?_member := Bytes.decodeUtf8_toByteArray

/-- A Redis command of the application uses its key for what the key is for. -/
def Op.Fits {T : Type} : Op T → Prop
  | .redis c => wire.Fits c
  | _ => True

/-! ## The service -/

/-- The shared state of the service, with Redis as it is. -/
structure WireStores (T : Type) where
  /-- The clock. -/
  now : T
  /-- The keyspace of Redis. -/
  redis : Keyspace Bytes Bytes Bytes T
  /-- The database. -/
  db : Transactions.Ledger (Database T) (Write T)
  /-- The `uuid4` values drawn so far. -/
  drawn : List Uuid

namespace WireStores

variable {T K : Type}

/-- The state as the client reads it. -/
def read (s : WireStores T) : Stores T := ⟨s.now, wire.view s.redis, s.db, s.drawn⟩

/-- The state without Redis. -/
def others (s : WireStores T) : Stores T := ⟨s.now, .empty, s.db, s.drawn⟩

/-- The state after a change of everything but Redis. -/
def withOthers (s : WireStores T) (r : Stores T) : WireStores T := ⟨r.now, s.redis, r.db, r.drawn⟩

/-- The state of a service that has handed out no token yet. -/
def initial (now : T) (db : Database T) (drawn : List Uuid) : WireStores T :=
  ⟨now, .empty, ⟨db, []⟩, drawn⟩

variable [Instant T]

/-- One Redis command of the application: encode it, send it, decode the answer. -/
def send (s : WireStores T) (c : RedisCmd) : Except Exc c.Reply × WireStores T :=
  match s.redis.run s.now (wire.encode c) with
  | .error _ => (.error .redisResponse, s)
  | .ok (a, redis) =>
    match wire.decode c a with
    | some r => (.ok r, { s with redis })
    | none => (.error .redisResponse, { s with redis })

/-- The answer to a call of slot `i`, and the state after it. -/
def perform (i : ℕ) (c : Choice T) :
    (o : Op T) → WireStores T → Option (Except Exc o.Reply × WireStores T)
  | .redis cmd, s =>
    match c with
    | .go => some (s.send cmd)
    | .fail => some (.error .unavailable, s)
    | _ => none
  | o, s => (SampleAuthApi.perform i c o s.others).map fun p => (p.1, s.withOthers p.2)

/-- A move of the environment. -/
def drift (c : Choice T) (s : WireStores T) : Option (WireStores T) :=
  (SampleAuthApi.drift c s.others).map s.withOthers

end WireStores

/-- The service over a Redis that keeps bytes. -/
def wireServer {T K : Type} [Instant T] [DecidableEq K] (x : Externals K) :
    System (Op T) (Op.Reply T) Exc (Response T K) (Request K) (WireStores T) (Choice T) where
  body := endpoint x
  admits log q := admits x (log.map (Exchange.map WireStores.read)) q
  perform := WireStores.perform
  drift := WireStores.drift

end SampleAuthApi
