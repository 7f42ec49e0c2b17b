import SampleAuthApi.Foundation.Outcome
import SampleAuthApi.Foundation.PyValue
import SampleAuthApi.Model.Environment

/-!
# ASGI applications

An ASGI application is called with a scope and with the `send` of its caller.  It is a program over
the calls of `Op`: the server, the `request_id` of the scope's `state`, the context of the logs, and
the variables that the closures of a middleware share.  What a log line says of times is left out.

The application inside a middleware may be any code at all.  `inner` is a call of such code: it is
entered, the code that answers acts through the `send` it was given, and it is left with a result.
-/

namespace SampleAuthApi

namespace Http

/-- The headers of a message: pairs of byte strings. -/
abbrev Headers : Type := List (Bytes × Bytes)

/-- A byte string of a text: `b"..."`. -/
def byteName (s : String) : Bytes := s.toByteArray

/-- The value of the first header with this name. -/
def Headers.first (hs : Headers) (name : Bytes) : Option Bytes :=
  (hs.find? fun h => decide (h.1 = name)).map Prod.snd

/-- `dict(headers).get(name)`: a later pair replaces an earlier one. -/
def Headers.last (hs : Headers) (name : Bytes) : Option Bytes := Headers.first hs.reverse name

/-- The values of the headers with this name. -/
def Headers.values (hs : Headers) (name : Bytes) : List Bytes :=
  (hs.filter fun h => decide (h.1 = name)).map Prod.snd

/-- The first value under a name. -/
theorem Headers.first_eq_head? (hs : Headers) (name : Bytes) :
    hs.first name = (hs.values name).head? := by
  unfold Headers.first Headers.values
  rw [List.head?_map, List.head?_filter]

/-- The last value under a name. -/
theorem Headers.last_eq_getLast? (hs : Headers) (name : Bytes) :
    hs.last name = (hs.values name).getLast? := by
  unfold Headers.last
  rw [Headers.first_eq_head?]
  unfold Headers.values
  rw [List.filter_reverse, List.map_reverse, List.head?_reverse]

/-- A scope, without its `state`. -/
structure Scope where
  type : String
  headers : Headers
  /-- the host and the port of the client -/
  client : Option (String × ℕ) := none
  method : String := ""
  path : String := ""
  deriving DecidableEq

/-- A message. -/
inductive Message : Type
  /-- `http.response.start` -/
  | responseStart (status : ℕ) (headers : Headers)
  /-- `http.response.body` -/
  | responseBody (content : PyValue)
  /-- a message of another type -/
  | other (type : String)

/-- A dictionary of a validation error. -/
abbrev ErrorDict : Type := List (PyString × PyValue)

/-- The exceptions of the HTTP layer. -/
inductive Raised : Type
  /-- `AppException` -/
  | app (e : AppException)
  /-- `RequestValidationError` -/
  | validation (errors : List ErrorDict)
  /-- `HTTPException` of Starlette -/
  | http (statusCode : ℕ) (detail : String)
  /-- `RateLimitExceeded` -/
  | rateLimit (detail : String)
  /-- `UnicodeDecodeError` -/
  | unicodeDecode
  /-- `TypeError`: the JSON encoder refuses the content of a response -/
  | encode
  /-- `AttributeError` -/
  | attribute
  /-- `RuntimeError`: the response has already started -/
  | started
  /-- any other exception -/
  | other (name : String)

/-- The variables that `LoggingContextMiddleware` binds in the context of the logs. -/
structure LogContext where
  traceId : String
  deviceId : String
  clientIp : String
  userAgent : String
  appVersion : String
  osType : String
  requestMethod : String
  requestUri : String
  deriving DecidableEq

/-- The variables that the closures of a middleware share. -/
inductive Var
  /-- `status_code` of `LoggingContextMiddleware` -/
  | statusCode
  /-- `response_started` of `ServerErrorMiddleware` -/
  | serverStarted
  /-- `response_started` of `ExceptionMiddleware` -/
  | handlerStarted
  deriving DecidableEq

/-- The calls of code inside a middleware. -/
inductive InnerOp : Type
  | receive
  | send (m : Message)

/-- The type of the answer to a call of inner code. -/
@[reducible] def InnerOp.Reply : InnerOp → Type
  | .receive => Message
  | .send _ => Unit

/-- Inner code: an application from its first call on. -/
abbrev Coroutine : Type := Program InnerOp InnerOp.Reply Raised Unit

/-- The calls of an application. -/
inductive Op : Type
  /-- `receive()` of the server -/
  | receive
  /-- `send(message)` of the server -/
  | send (m : Message)
  /-- `str(uuid.uuid4())` -/
  | uuid4
  /-- `datetime.now(timezone.utc).isoformat()` -/
  | now
  /-- `scope.setdefault("state", {})["request_id"] = request_id` -/
  | setRequestId (requestId : String)
  /-- `getattr(request.state, "request_id", None)` -/
  | getRequestId
  /-- `clear_contextvars()` -/
  | clearContext
  /-- `bind_contextvars(...)` -/
  | bindContext (c : LogContext)
  /-- a log line with a status code -/
  | log (event : String) (statusCode : ℕ)
  /-- an assignment to a shared variable -/
  | assign (v : Var) (n : ℕ)
  /-- the value of a shared variable -/
  | read (v : Var)
  /-- the inner application is called -/
  | enter (scope : Scope)
  /-- a call of the inner application has raised an exception -/
  | notice (e : Raised)
  /-- the inner application has ended -/
  | leave (x : Except Raised Unit)

/-- The type of the answer to a call. -/
@[reducible] def Op.Reply : Op → Type
  | .receive => Message
  | .send _ => Unit
  | .uuid4 => String
  | .now => String
  | .setRequestId _ => Unit
  | .getRequestId => Option String
  | .clearContext => Unit
  | .bindContext _ => Unit
  | .log _ _ => Unit
  | .assign _ _ => Unit
  | .read _ => ℕ
  | .enter _ => Coroutine
  | .notice _ => Unit
  | .leave _ => Unit

/-- A piece of an application. -/
abbrev Proc (α : Type) : Type := Program Op Op.Reply Raised α

/-- `send`. -/
abbrev Send : Type := Message → Proc Unit

/-- An ASGI application, called with a scope and a `send`. -/
abbrev App : Type := Scope → Send → Proc Unit

/-- `send` of the server. -/
def serverSend : Send := fun m => Program.perform (Op.send m)

/-- The outcome of a call of inner code, as the inner code sees it. -/
def noticed {α : Type} (p : Proc α) : Proc α := do
  match ← p.attempt with
  | .ok a => pure a
  | .error e => do
    Program.perform (Op.notice e)
    Program.raise e

/-- Carry out the calls of inner code with the `send` it was given. -/
def actThrough (send : Send) : (o : InnerOp) → Proc o.Reply
  | .receive => noticed (Program.perform Op.receive)
  | .send m => noticed (send m)

/-- An application of which nothing is known. -/
def inner : App := fun scope send => do
  let coroutine ← Program.perform (Op.enter scope)
  let x ← (coroutine.interpret (actThrough send)).attempt
  Program.perform (Op.leave x)
  Program.ofExcept x

/-! ## Connections -/

/-- What an onlooker sees of the inner application. -/
inductive InnerEvent : Type
  /-- it is entered, while the logs have this context -/
  | entered (scope : Scope) (context : Option LogContext)
  /-- its `receive` or its `send` raises an exception -/
  | noticed (e : Raised)
  /-- it has ended -/
  | left (x : Except Raised Unit)

/-- One request: its `state`, its log context and its variables, what was sent to the server, the
exceptions of the server, and what the inner application was seen to do. -/
structure Connection where
  requestId : Option String
  context : Option LogContext
  vars : Var → ℕ
  sent : List Message
  failed : List Raised
  inner : List InnerEvent

/-- A request that the server has just handed over. -/
def Connection.initial : Connection where
  requestId := none
  context := none
  vars := fun _ => 0
  sent := []
  failed := []
  inner := []

/-- The exception of an answer. -/
def failure {α : Type} : Except Raised α → List Raised
  | .ok _ => []
  | .error e => [e]

/-- The answers to a call: the server may answer anything and may fail, the rest of the process does
what it is told. -/
def answers : Program.Step Op Op.Reply Raised Connection
  | .receive, c, r, c' => c' = { c with failed := c.failed ++ failure r }
  | .send m, c, r, c' =>
    c' = { c with sent := c.sent ++ [m], failed := c.failed ++ failure r }
  | .uuid4, c, r, c' => c' = c ∧ ∃ u, r = .ok u
  | .now, c, r, c' => c' = c ∧ ∃ t, r = .ok t
  | .setRequestId requestId, c, r, c' => c' = { c with requestId := some requestId } ∧ r = .ok ()
  | .getRequestId, c, r, c' => c' = c ∧ r = .ok c.requestId
  | .clearContext, c, r, c' => c' = { c with context := none } ∧ r = .ok ()
  | .bindContext context, c, r, c' => c' = { c with context := some context } ∧ r = .ok ()
  | .log _ _, c, r, c' => c' = c ∧ r = .ok ()
  | .assign v n, c, r, c' => c' = { c with vars := Function.update c.vars v n } ∧ r = .ok ()
  | .read v, c, r, c' => c' = c ∧ r = .ok (c.vars v)
  | .enter scope, c, r, c' =>
    c' = { c with inner := c.inner ++ [.entered scope c.context] } ∧ ∃ coroutine, r = .ok coroutine
  | .notice e, c, r, c' => c' = { c with inner := c.inner ++ [.noticed e] } ∧ r = .ok ()
  | .leave x, c, r, c' => c' = { c with inner := c.inner ++ [.left x] } ∧ r = .ok ()

/-- The observer of a connection. -/
abbrev observer : Program.Observer Op Op.Reply Raised Connection := Program.demonic answers

section Observer

variable {c : Connection}

theorem observer_receive {k : Except Raised Message → Connection → Prop} :
    observer .receive c k ↔ ∀ r, k r { c with failed := c.failed ++ failure r } := by
  constructor
  · intro h r
    exact h r _ rfl
  · rintro h r _ rfl
    exact h r

theorem observer_send {m : Message} {k : Except Raised Unit → Connection → Prop} :
    observer (.send m) c k ↔
      ∀ r, k r { c with sent := c.sent ++ [m], failed := c.failed ++ failure r } := by
  constructor
  · intro h r
    exact h r _ rfl
  · rintro h r _ rfl
    exact h r

theorem observer_uuid4 {k : Except Raised String → Connection → Prop} :
    observer .uuid4 c k ↔ ∀ u, k (.ok u) c := by
  constructor
  · intro h u
    exact h _ _ ⟨rfl, u, rfl⟩
  · rintro h _ _ ⟨rfl, u, rfl⟩
    exact h u

theorem observer_now {k : Except Raised String → Connection → Prop} :
    observer .now c k ↔ ∀ t, k (.ok t) c := by
  constructor
  · intro h t
    exact h _ _ ⟨rfl, t, rfl⟩
  · rintro h _ _ ⟨rfl, t, rfl⟩
    exact h t

theorem observer_enter {scope : Scope} {k : Except Raised Coroutine → Connection → Prop} :
    observer (.enter scope) c k ↔
      ∀ p, k (.ok p) { c with inner := c.inner ++ [.entered scope c.context] } := by
  constructor
  · intro h p
    exact h _ _ ⟨rfl, p, rfl⟩
  · rintro h _ _ ⟨rfl, p, rfl⟩
    exact h p

/-- The rest of the process does what it is told. -/
theorem observer_of_eq {o : Op} {r : Except Raised o.Reply} {c₁ : Connection}
    (h : ∀ r' c', answers o c r' c' ↔ c' = c₁ ∧ r' = r)
    {k : Except Raised o.Reply → Connection → Prop} : observer o c k ↔ k r c₁ := by
  constructor
  · intro hk
    exact hk _ _ ((h _ _).mpr ⟨rfl, rfl⟩)
  · intro hk r' c' hr
    obtain ⟨rfl, rfl⟩ := (h _ _).mp hr
    exact hk

theorem observer_setRequestId {requestId : String} {k : Except Raised Unit → Connection → Prop} :
    observer (.setRequestId requestId) c k ↔
      k (.ok ()) { c with requestId := some requestId } :=
  observer_of_eq fun _ _ => Iff.rfl

theorem observer_getRequestId {k : Except Raised (Option String) → Connection → Prop} :
    observer .getRequestId c k ↔ k (.ok c.requestId) c :=
  observer_of_eq fun _ _ => Iff.rfl

theorem observer_clearContext {k : Except Raised Unit → Connection → Prop} :
    observer .clearContext c k ↔ k (.ok ()) { c with context := none } :=
  observer_of_eq fun _ _ => Iff.rfl

theorem observer_bindContext {x : LogContext} {k : Except Raised Unit → Connection → Prop} :
    observer (.bindContext x) c k ↔ k (.ok ()) { c with context := some x } :=
  observer_of_eq fun _ _ => Iff.rfl

theorem observer_log {event : String} {n : ℕ} {k : Except Raised Unit → Connection → Prop} :
    observer (.log event n) c k ↔ k (.ok ()) c :=
  observer_of_eq fun _ _ => Iff.rfl

theorem observer_assign {v : Var} {n : ℕ} {k : Except Raised Unit → Connection → Prop} :
    observer (.assign v n) c k ↔ k (.ok ()) { c with vars := Function.update c.vars v n } :=
  observer_of_eq fun _ _ => Iff.rfl

theorem observer_read {v : Var} {k : Except Raised ℕ → Connection → Prop} :
    observer (.read v) c k ↔ k (.ok (c.vars v)) c :=
  observer_of_eq fun _ _ => Iff.rfl

theorem observer_notice {e : Raised} {k : Except Raised Unit → Connection → Prop} :
    observer (.notice e) c k ↔ k (.ok ()) { c with inner := c.inner ++ [.noticed e] } :=
  observer_of_eq fun _ _ => Iff.rfl

theorem observer_leave {x : Except Raised Unit} {k : Except Raised Unit → Connection → Prop} :
    observer (.leave x) c k ↔ k (.ok ()) { c with inner := c.inner ++ [.left x] } :=
  observer_of_eq fun _ _ => Iff.rfl

attribute [simp] observer_receive observer_send observer_uuid4 observer_now observer_enter
  observer_setRequestId observer_getRequestId observer_clearContext observer_bindContext
  observer_log observer_assign observer_read observer_notice observer_leave

end Observer

/-- The program may end with `x` in the connection `c'`. -/
abbrev EndsIn {α : Type} (p : Proc α) (c : Connection) (x : Except Raised α) (c' : Connection) :
    Prop := Program.Ends answers p c x c'

end Http

end SampleAuthApi
