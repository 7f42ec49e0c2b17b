import SampleAuthApi.Model.Asgi

/-!
# `app.middleware`

`RequestIdMiddleware` and `LoggingContextMiddleware`, and the two middlewares of Starlette that turn
exceptions into responses.
-/

namespace SampleAuthApi

namespace Http

/-- `b.decode()`. -/
def decode (b : Bytes) : Proc String :=
  match b.decodeUtf8 with
  | some s => pure s
  | none => Program.raise .unicodeDecode

/-- `headers.get(name, default)` of the dictionary that both middlewares build. -/
def Headers.get (hs : Headers) (name default : String) : Bytes :=
  (hs.last (byteName name)).getD (byteName default)

/-- `send_with_request_id`. -/
def sendWithRequestId (requestId : String) (send : Send) : Send
  | .responseStart status headers =>
    send (.responseStart status (headers ++ [(byteName "x-request-id", requestId.toByteArray)]))
  | m => send m

/-- `RequestIdMiddleware`. -/
def requestIdMiddleware (app : App) : App := fun scope send =>
  if scope.type ≠ "http" ∧ scope.type ≠ "websocket" then app scope send
  else do
    let given ← decode (scope.headers.get "x-request-id" "")
    let requestId ← if given = "" then Program.perform Op.uuid4 else pure given
    Program.perform (Op.setRequestId requestId)
    app scope (sendWithRequestId requestId send)

/-- `send_with_logging`. -/
def sendWithLogging (send : Send) : Send := fun m => do
  match m with
  | .responseStart status _ => Program.perform (Op.assign .statusCode status)
  | _ => pure ()
  send m

/-- The address in the log context. -/
def clientIp (scope : Scope) : String :=
  match scope.client with
  | some client => client.1
  | none => "unknown"

/-- `LoggingContextMiddleware`. -/
def loggingContextMiddleware (app : App) : App := fun scope send =>
  if scope.type ≠ "http" then app scope send
  else do
    let requestId ← Program.perform Op.getRequestId
    let deviceId ← decode (scope.headers.get "x-device-id" "unknown")
    Program.perform Op.clearContext
    let userAgent ← decode (scope.headers.get "user-agent" "unknown")
    let appVersion ← decode (scope.headers.get "x-app-version" "unknown")
    let osType ← decode (scope.headers.get "x-os-type" "unknown")
    Program.perform (Op.bindContext
      { traceId := requestId.getD "unknown"
        deviceId, userAgent, appVersion, osType
        clientIp := clientIp scope
        requestMethod := scope.method
        requestUri := scope.path })
    Program.perform (Op.assign .statusCode 500)
    (app scope (sendWithLogging send)).andFinally do
      let statusCode ← Program.perform (Op.read .statusCode)
      Program.perform (Op.log "Request completed" statusCode)

/-! ## Starlette -/

/-- A response. -/
structure HttpResponse where
  status : ℕ
  headers : Headers
  content : PyValue

/-- `await response(scope, receive, send)`. -/
def HttpResponse.sendWith (response : HttpResponse) (send : Send) : Proc Unit := do
  send (.responseStart response.status response.headers)
  send (.responseBody response.content)

/-- The `send` of a middleware that remembers in `v` whether the response has started. -/
def sendTracking (v : Var) (send : Send) : Send := fun m => do
  match m with
  | .responseStart _ _ => Program.perform (Op.assign v 1)
  | _ => pure ()
  send m

/-- The `except` clause of `ServerErrorMiddleware`; the exception is raised again after the
response. -/
def answerError (handler : Raised → Proc HttpResponse) (send : Send) (e : Raised) : Proc Unit := do
  let response ← handler e
  let started ← Program.perform (Op.read .serverStarted)
  if started = 0 then do
    response.sendWith send
    Program.raise e
  else Program.raise e

/-- `ServerErrorMiddleware` with the handler registered for `Exception`. -/
def serverErrorMiddleware (handler : Raised → Proc HttpResponse) (app : App) : App :=
  fun scope send =>
    if scope.type ≠ "http" then app scope send
    else do
      Program.perform (Op.assign .serverStarted 0)
      Program.tryCatch (app scope (sendTracking .serverStarted send)) (answerError handler send)

/-- The response of a handler; it is an error that another response has started. -/
def respond (handler : Proc HttpResponse) (send : Send) : Proc Unit := do
  let started ← Program.perform (Op.read .handlerStarted)
  if started ≠ 0 then Program.raise .started
  else do
    let response ← handler
    response.sendWith send

/-- The `except` clause of `ExceptionMiddleware`. -/
def handle (handlers : Raised → Option (Proc HttpResponse)) (send : Send) (e : Raised) :
    Proc Unit :=
  match handlers e with
  | none => Program.raise e
  | some handler => respond handler send

/-- `ExceptionMiddleware` with the other registered handlers. -/
def exceptionMiddleware (handlers : Raised → Option (Proc HttpResponse)) (app : App) : App :=
  fun scope send =>
    if scope.type ≠ "http" ∧ scope.type ≠ "websocket" then app scope send
    else do
      Program.perform (Op.assign .handlerStarted 0)
      Program.tryCatch (app scope (sendTracking .handlerStarted send))
        (handle handlers (sendTracking .handlerStarted send))

end Http

end SampleAuthApi
