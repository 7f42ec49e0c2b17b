import SampleAuthApi.Model.Middleware

/-!
# `app.exceptions.handlers` and `app.main`

The exception handlers, what a routed endpoint may do, and the application as `create_app` puts it
together.  The responses carry their content as a value; `content-length` is left out.

`Framework` is what comes from outside the repository: the decisions of `CORSMiddleware`, the
handler of `slowapi`, `str` of a value and how deep `orjson` lets a value nest.  `Validator` is the
body handling of FastAPI with the models of Pydantic.
-/

namespace SampleAuthApi

namespace Http

/-- The name of the header that carries the request id. -/
def requestIdHeader : Bytes := byteName "x-request-id"

/-- What a response reports as its `trace_id`. -/
def traceId? : PyValue → Option PyValue
  | .dict entries => entries.lookup (.ofString "trace_id")
  | _ => none

/-- A response that does not know the request id. -/
def HttpResponse.Untraced (response : HttpResponse) : Prop :=
  response.headers.values requestIdHeader = [] ∧ traceId? response.content = none

/-- Code that the application takes from outside the repository. -/
structure Framework where
  /-- The response of `CORSMiddleware` to a preflight request. -/
  corsPreflight : Scope → Option HttpResponse
  /-- The headers of a response after `CORSMiddleware`. -/
  corsHeaders : Scope → Headers → Headers
  /-- The response of `_rate_limit_exceeded_handler`. -/
  rateLimitExceeded : String → HttpResponse
  /-- `str(v)`. -/
  pyStr : PyValue → PyString
  /-- How deep `orjson` lets lists and dictionaries nest. -/
  encoderDepth : ℕ
  /-- `orjson` takes the dictionaries that the handlers make. -/
  encoderDepth_large : 4 ≤ encoderDepth
  /-- `CORSMiddleware` does not know the request id. -/
  corsPreflight_untraced : ∀ scope response, corsPreflight scope = some response →
    response.Untraced
  /-- `CORSMiddleware` keeps `x-request-id`. -/
  corsHeaders_requestId : ∀ scope hs,
    (corsHeaders scope hs).values requestIdHeader = hs.values requestIdHeader
  /-- `slowapi` does not know the request id. -/
  rateLimitExceeded_untraced : ∀ detail, (rateLimitExceeded detail).Untraced

variable (f : Framework)

/-- A dictionary with text keys. -/
def pyDict (entries : List (String × PyValue)) : PyValue :=
  .dict (entries.map fun e => (.ofString e.1, e.2))

/-- A text that may be missing. -/
def textOrNone : Option String → PyValue
  | some s => .text s
  | none => .none

/-- `orjson` takes a value that stands `n` levels deep in the content of a response. -/
def Framework.encodes (n : ℕ) (v : PyValue) : Bool :=
  v.accepts && decide (n + v.depth ≤ f.encoderDepth)

/-- `ORJSONResponse`; the content is encoded when the response is made. -/
def orjsonResponse (status : ℕ) (content : PyValue) : Proc HttpResponse :=
  if f.encodes 0 content then
    pure ⟨status, [(byteName "content-type", byteName "application/json")], content⟩
  else Program.raise .encode

/-- `app_exception_handler`; no exception of the application has an `extra_detail`. -/
def appExceptionHandler (e : AppException) : Proc HttpResponse := do
  let traceId ← Program.perform Op.getRequestId
  Program.perform (Op.log "AppException" e.statusCode)
  let timestamp ← Program.perform Op.now
  orjsonResponse f e.statusCode (pyDict
    [("success", .bool false),
      ("error_code", .text e.errorCode),
      ("message", .text e.message),
      ("detail", .none),
      ("timestamp", .text timestamp),
      ("trace_id", textOrNone traceId)])

/-- `err["ctx"]` with its values as strings. -/
def sanitizeCtx : PyValue → Except Raised PyValue
  | .dict ctx => .ok (.dict (ctx.map fun e => (e.1, .str (f.pyStr e.2))))
  | _ => .error .attribute

/-- One round of the loop of `_sanitize_errors`. -/
def sanitizeError (err : ErrorDict) : Except Raised PyValue := do
  let clean := err.filter fun e => e.1 ≠ .ofString "ctx"
  match err.lookup (.ofString "ctx") with
  | none => .ok (.dict clean)
  | some value => do
    let ctx ← sanitizeCtx f value
    .ok (.dict (clean ++ [(.ofString "ctx", ctx)]))

/-- `_sanitize_errors`. -/
def sanitizeErrors (errors : List ErrorDict) : Except Raised (List PyValue) :=
  errors.mapM (sanitizeError f)

/-- `validation_exception_handler`. -/
def validationExceptionHandler (errors : List ErrorDict) : Proc HttpResponse := do
  let traceId ← Program.perform Op.getRequestId
  let detail ← Program.ofExcept (sanitizeErrors f errors)
  let timestamp ← Program.perform Op.now
  orjsonResponse f 422 (pyDict
    [("success", .bool false),
      ("error_code", .text "SYS_004"),
      ("message", .text "입력값 검증에 실패했습니다"),
      ("detail", .list detail),
      ("timestamp", .text timestamp),
      ("trace_id", textOrNone traceId)])

/-- `http_exception_handler`. -/
def httpExceptionHandler (statusCode : ℕ) (detail : String) : Proc HttpResponse := do
  let traceId ← Program.perform Op.getRequestId
  let timestamp ← Program.perform Op.now
  orjsonResponse f statusCode (pyDict
    [("success", .bool false),
      ("error_code", .text ("SYS_" ++ toString statusCode)),
      ("message", .text detail),
      ("timestamp", .text timestamp),
      ("trace_id", textOrNone traceId)])

/-- `generic_exception_handler`. -/
def genericExceptionHandler (_ : Raised) : Proc HttpResponse := do
  let traceId ← Program.perform Op.getRequestId
  Program.perform (Op.log "Unhandled exception" 500)
  let timestamp ← Program.perform Op.now
  orjsonResponse f 500 (pyDict
    [("success", .bool false),
      ("error_code", .text "SYS_001"),
      ("message", .text "서버 오류가 발생했습니다"),
      ("timestamp", .text timestamp),
      ("trace_id", textOrNone traceId)])

/-- The handlers of `ExceptionMiddleware`: those registered for a class other than `Exception`. -/
def exceptionHandlers : Raised → Option (Proc HttpResponse)
  | .app e => some (appExceptionHandler f e)
  | .validation errors => some (validationExceptionHandler f errors)
  | .http statusCode detail => some (httpExceptionHandler f statusCode detail)
  | .rateLimit detail => some (pure (f.rateLimitExceeded detail))
  | _ => none

/-! ## The application -/

/-- What a routed endpoint does before any response has started; a response that cannot be encoded
is an exception. -/
inductive Behaviour : Type
  /-- it returns an `APIResponse` or a `MessageResponse`, which carries the trace id -/
  | response (status : ℕ) (data message : PyValue) (hdata : f.encodes 1 data = true)
    (hmessage : f.encodes 1 message = true)
  /-- it returns data without a trace id, as `health_check` does -/
  | untraced (status : ℕ) (data : PyValue) (hdata : f.encodes 0 data = true)
    (htrace : traceId? data = none)
  /-- it raises an exception -/
  | raised (e : Raised)

/-- The response for an `APIResponse` with its trace id. -/
def apiResponse (status : ℕ) (data message : PyValue) : Proc HttpResponse := do
  let traceId ← Program.perform Op.getRequestId
  let timestamp ← Program.perform Op.now
  orjsonResponse f status (pyDict
    [("success", .bool true),
      ("data", data),
      ("message", message),
      ("timestamp", .text timestamp),
      ("trace_id", textOrNone traceId)])

/-- The routed endpoint. -/
def routed : Behaviour f → App
  | .response status data message _ _, _, send => do
    let response ← apiResponse f status data message
    response.sendWith send
  | .untraced status data _ _, _, send => do
    let response ← orjsonResponse f status data
    response.sendWith send
  | .raised e, _, _ => Program.raise e

/-- The `send` of `CORSMiddleware`. -/
def sendWithCors (scope : Scope) (send : Send) : Send
  | .responseStart status headers => send (.responseStart status (f.corsHeaders scope headers))
  | m => send m

/-- `CORSMiddleware`. -/
def corsMiddleware (app : App) : App := fun scope send =>
  match f.corsPreflight scope with
  | some response => response.sendWith send
  | none => app scope (sendWithCors f scope send)

/-- The application of `create_app`, from the server to the routed endpoint. -/
def application (b : Behaviour f) : App :=
  serverErrorMiddleware (genericExceptionHandler f)
    (requestIdMiddleware
      (loggingContextMiddleware
        (corsMiddleware f
          (exceptionMiddleware (exceptionHandlers f) (routed f b)))))

/-! ## Validation -/

/-- How `json.loads` fails. -/
inductive LoadsError : Type
  /-- `json.JSONDecodeError` -/
  | jsonDecode
  /-- any other exception, such as the `UnicodeDecodeError` of bytes that are no text -/
  | other

/-- The body handling of FastAPI and the models of Pydantic for one route. -/
structure Validator where
  /-- The content type is a JSON one. -/
  isJson : Option String → Bool
  /-- `json.loads`. -/
  loads : Bytes → Except LoadsError PyValue
  /-- The errors that FastAPI makes of a `json.JSONDecodeError`. -/
  jsonInvalid : Bytes → List ErrorDict
  /-- The errors of Pydantic for a body. -/
  validate : PyValue → List ErrorDict

/-- What FastAPI hands to Pydantic; a body that is not JSON by its content type stays as it is. -/
def Validator.parse (v : Validator) (contentType : Option String) (body : Bytes) :
    Except Raised PyValue :=
  if body = ByteArray.empty then .ok .none
  else if v.isJson contentType then
    match v.loads body with
    | .ok value => .ok value
    | .error .jsonDecode => .error (.validation (v.jsonInvalid body))
    | .error .other => .error (.http 400 "There was an error parsing the body")
  else .ok (.bytes body)

/-- The exception with which a request is rejected. -/
def Validator.rejection (v : Validator) (contentType : Option String) (body : Bytes) :
    Option Raised :=
  match v.parse contentType body with
  | .error e => some e
  | .ok value => if v.validate value = [] then none else some (.validation (v.validate value))

end Http

end SampleAuthApi
