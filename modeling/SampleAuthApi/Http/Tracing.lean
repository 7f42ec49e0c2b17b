import SampleAuthApi.Http.Transparency
import SampleAuthApi.Model.Handlers

/-!
# The request id of a response

`x-request-id` is added by the `send` that `RequestIdMiddleware` hands inwards, so the responses
that come from inside carry it.  An exception for which `ExceptionMiddleware` has no handler, or
whose handler fails, is answered further out, by `ServerErrorMiddleware` with the server's own
`send` (`every_response_traced_iff`).
-/

namespace SampleAuthApi

namespace Http

variable (f : Framework)

/-! ## What reaches the server -/

/-- The response that reached the server starts once, carries the request id in exactly one
`x-request-id`, and the logs and the body report the same id. -/
def Announces (requestId : String) (c : Connection) : Prop :=
  c.requestId = some requestId ∧ c.context.map LogContext.traceId = some requestId ∧
    ∃ (status : ℕ) (headers : Headers) (contents : List PyValue),
      c.sent = .responseStart status headers :: contents.map .responseBody ∧
      headers.values requestIdHeader = [requestId.toByteArray] ∧
      ∀ content ∈ contents, traceId? content = none ∨ traceId? content = some (.text requestId)

/-- A response that may report this request id and no other. -/
def Reports (requestId : String) (response : HttpResponse) : Prop :=
  response.headers.values requestIdHeader = [] ∧
    (traceId? response.content = none ∨ traceId? response.content = some (.text requestId))

/-- A response that names no request id may be given any. -/
theorem HttpResponse.Untraced.reports {response : HttpResponse} (h : response.Untraced)
    (requestId : String) : Reports requestId response := ⟨h.1, .inl h.2⟩

/-- The request is known to the middlewares and nothing has been sent. -/
def Waiting (requestId : String) (c : Connection) : Prop :=
  c.requestId = some requestId ∧ c.context.map LogContext.traceId = some requestId ∧ c.sent = []

/-- The response has been announced, and the middlewares remember it. -/
def Delivered (requestId : String) (c : Connection) : Prop :=
  Announces requestId c ∧ c.vars .serverStarted = 1 ∧ c.vars .handlerStarted = 1

/-- The `send` inside `LoggingContextMiddleware`. -/
def loggedSend (requestId : String) : Send :=
  sendWithLogging (sendWithRequestId requestId (sendTracking .serverStarted serverSend))

/-- The `send` inside `ExceptionMiddleware`. -/
def handledSend (scope : Scope) (requestId : String) : Send :=
  sendTracking .handlerStarted (sendWithCors f scope (loggedSend requestId))

/-- The values of a header in two lists, one after the other. -/
theorem values_append (hs hs' : Headers) (name : Bytes) :
    Headers.values (hs ++ hs') name = hs.values name ++ Headers.values hs' name := by
  unfold Headers.values
  rw [List.filter_append, List.map_append]

@[simp] theorem values_requestId (requestId : String) :
    Headers.values [(byteName "x-request-id", requestId.toByteArray)] requestIdHeader =
      [requestId.toByteArray] := by
  unfold Headers.values requestIdHeader
  simp

variable {f}

section Sending

variable {scope : Scope} {requestId : String} {c : Connection}
  {Q : Except Raised Unit → Connection → Prop}

/-- A start message through the `send` of `LoggingContextMiddleware`. -/
theorem wp_loggedSend_start (status : ℕ) (headers : Headers) :
    Program.wp observer (loggedSend requestId (.responseStart status headers)) Q c ↔
      ∀ r, Q r { c with
        vars := Function.update (Function.update c.vars .statusCode status) .serverStarted 1
        sent := c.sent ++
          [.responseStart status (headers ++ [(byteName "x-request-id", requestId.toByteArray)])]
        failed := c.failed ++ failure r } := by
  unfold loggedSend sendWithLogging sendWithRequestId sendTracking serverSend
  simp only [Program.wp_bind, Program.wp_perform, observer_assign, Program.afterBind_ok,
    observer_send]

/-- A body message through the `send` of `LoggingContextMiddleware`. -/
theorem wp_loggedSend_body (content : PyValue) :
    Program.wp observer (loggedSend requestId (.responseBody content)) Q c ↔
      ∀ r, Q r { c with
        sent := c.sent ++ [.responseBody content], failed := c.failed ++ failure r } := by
  unfold loggedSend sendWithLogging sendWithRequestId sendTracking serverSend
  simp only [Program.wp_perform, observer_send]

/-- A response through the `send` of `LoggingContextMiddleware` is announced, also where the server
fails. -/
theorem wp_loggedSend {response : HttpResponse} (hresponse : Reports requestId response)
    (hc : Waiting requestId c) :
    Program.wp observer (response.sendWith (loggedSend requestId))
      (fun _ c' => Announces requestId c' ∧ c'.vars .serverStarted = 1) c := by
  obtain ⟨hid, hcontext, hsent⟩ := hc
  obtain ⟨hvalues, htrace⟩ := hresponse
  have hone : Headers.values
      (response.headers ++ [(byteName "x-request-id", requestId.toByteArray)]) requestIdHeader =
        [requestId.toByteArray] := by
    rw [values_append, hvalues, values_requestId, List.nil_append]
  unfold HttpResponse.sendWith
  rw [Program.wp_bind, wp_loggedSend_start]
  intro r
  cases r with
  | error e =>
    refine ⟨⟨hid, hcontext, response.status, _, [], ?_, hone, by simp⟩, by simp⟩
    rw [hsent]
    rfl
  | ok a =>
    rw [Program.afterBind_ok, wp_loggedSend_body]
    intro r'
    refine ⟨⟨hid, hcontext, response.status, _, [response.content], ?_, hone, ?_⟩, by simp⟩
    · simp [hsent]
    · intro content hcontent
      rw [List.mem_singleton.mp hcontent]
      exact htrace

/-- A start message through the `send` of `ExceptionMiddleware`. -/
theorem wp_handledSend_start (status : ℕ) (headers : Headers) :
    Program.wp observer (handledSend f scope requestId (.responseStart status headers)) Q c ↔
      Program.wp observer
        (loggedSend requestId (.responseStart status (f.corsHeaders scope headers))) Q
        { c with vars := Function.update c.vars .handlerStarted 1 } := by
  unfold handledSend sendWithCors
  rw [sendTracking]
  simp only [Program.wp_bind, Program.wp_perform, observer_assign, Program.afterBind_ok]

/-- A response through the `send` of `ExceptionMiddleware` is delivered, also where the server
fails. -/
theorem wp_handledSend {response : HttpResponse} (hresponse : Reports requestId response)
    (hc : Waiting requestId c) :
    Program.wp observer (response.sendWith (handledSend f scope requestId))
      (fun _ c' => Delivered requestId c') c := by
  obtain ⟨hid, hcontext, hsent⟩ := hc
  obtain ⟨hvalues, htrace⟩ := hresponse
  have hone : Headers.values (f.corsHeaders scope response.headers ++
      [(byteName "x-request-id", requestId.toByteArray)]) requestIdHeader =
        [requestId.toByteArray] := by
    rw [values_append, f.corsHeaders_requestId, hvalues, values_requestId, List.nil_append]
  unfold HttpResponse.sendWith
  rw [Program.wp_bind, wp_handledSend_start, wp_loggedSend_start]
  intro r
  cases r with
  | error e =>
    refine ⟨⟨hid, hcontext, response.status, _, [], ?_, hone, by simp⟩, by simp, by simp⟩
    rw [hsent]
    rfl
  | ok a =>
    change Program.wp observer (loggedSend requestId (.responseBody response.content)) _ _
    rw [wp_loggedSend_body]
    intro r'
    refine ⟨⟨hid, hcontext, response.status, _, [response.content], ?_, hone, ?_⟩, by simp,
      by simp⟩
    · simp [hsent]
    · intro content hcontent
      rw [List.mem_singleton.mp hcontent]
      exact htrace

end Sending

/-! ## Handlers -/

/-- The program makes a response that reports the request id, and leaves the connection alone. -/
def Makes (p : Proc HttpResponse) : Prop :=
  ∀ requestId c, c.requestId = some requestId → Program.wp observer p
    (fun x c' => c' = c ∧ ∃ response, x = .ok response ∧ Reports requestId response) c

/-- The program fails, and leaves the connection alone. -/
def FailsIn (p : Proc HttpResponse) : Prop :=
  ∀ c, Program.wp observer p (fun x c' => c' = c ∧ ∃ e, x = .error e) c

/-- A string of characters can be encoded. -/
theorem encodable_ofString (s : String) : (PyString.ofString s).Encodable :=
  PyString.encodable_iff.mpr ⟨s, rfl⟩

@[simp] theorem accepts_text (s : String) : (PyValue.text s).accepts = true :=
  PyValue.accepts_str.mpr (encodable_ofString s)

@[simp] theorem accepts_textOrNone (s : Option String) : (textOrNone s).accepts = true := by
  cases s with
  | none => rfl
  | some s => exact accepts_text s

@[simp] theorem depth_textOrNone (s : Option String) : (textOrNone s).depth = 0 := by
  cases s with
  | none => rfl
  | some s => exact PyValue.depth_text s

theorem encodes_iff {n : ℕ} {v : PyValue} :
    f.encodes n v = true ↔ v.accepts = true ∧ n + v.depth ≤ f.encoderDepth := by
  rw [Framework.encodes, Bool.and_eq_true, decide_eq_true_eq]

/-- A value without lists and dictionaries, not too deep in the content. -/
theorem encodes_flat {n : ℕ} {v : PyValue} (haccepts : v.accepts = true) (hflat : v.depth = 0)
    (hn : n ≤ 4) : f.encodes n v = true := by
  have hlarge := f.encoderDepth_large
  exact encodes_iff.mpr ⟨haccepts, by omega⟩

/-- A list is encoded with its items. -/
theorem encodes_list {n : ℕ} {items : List PyValue} (hn : n ≤ 4) :
    f.encodes n (.list items) = true ↔ ∀ v ∈ items, f.encodes (n + 1) v = true := by
  have hlarge := f.encoderDepth_large
  have hdepth : n + (PyValue.list items).depth ≤ f.encoderDepth ↔
      ∀ v ∈ items, n + 1 + v.depth ≤ f.encoderDepth := by
    rw [← Nat.le_sub_iff_add_le' (hn.trans hlarge), PyValue.depth_list_le]
    refine forall₂_congr fun v _ => ?_
    omega
  rw [encodes_iff, PyValue.accepts, PyValue.acceptsItems_iff, hdepth]
  simp only [encodes_iff, forall_and]

/-- A dictionary is encoded with its keys and values. -/
theorem encodes_dict {n : ℕ} {entries : List (PyString × PyValue)} (hn : n ≤ 4) :
    f.encodes n (.dict entries) = true ↔
      ∀ key v, (key, v) ∈ entries → key.Encodable ∧ f.encodes (n + 1) v = true := by
  have hlarge := f.encoderDepth_large
  have hdepth : n + (PyValue.dict entries).depth ≤ f.encoderDepth ↔
      ∀ key v, (key, v) ∈ entries → n + 1 + v.depth ≤ f.encoderDepth := by
    rw [← Nat.le_sub_iff_add_le' (hn.trans hlarge), PyValue.depth_dict_le]
    refine forall₃_congr fun key v _ => ?_
    omega
  rw [encodes_iff, PyValue.accepts, PyValue.acceptsEntries_iff, hdepth]
  simp only [encodes_iff, ← forall_and, and_assoc]

/-- A dictionary with text keys is encoded where its values are. -/
theorem encodes_pyDict {n : ℕ} {entries : List (String × PyValue)} (hn : n ≤ 4)
    (h : ∀ e ∈ entries, f.encodes (n + 1) e.2 = true) : f.encodes n (pyDict entries) = true := by
  refine (encodes_dict hn).mpr fun key v hmem => ?_
  obtain ⟨e, he, heq⟩ := List.mem_map.mp hmem
  cases heq
  exact ⟨encodable_ofString _, h e he⟩

/-- The flat entries of a response. -/
@[simp] theorem encodes_one {v : PyValue} (hflat : v.depth = 0) :
    f.encodes 1 v = true ↔ v.accepts = true :=
  ⟨fun h => (encodes_iff.mp h).1, fun h => encodes_flat h hflat (by omega)⟩

/-- The entries of a dictionary with text keys. -/
theorem lookup_pyDict (entries : List (String × PyValue)) (key : String) :
    (entries.map fun e => (PyString.ofString e.1, e.2)).lookup (.ofString key) =
      entries.lookup key := by
  induction entries with
  | nil => rfl
  | cons e entries ih =>
    have hkey : (PyString.ofString key == PyString.ofString e.1) = (key == e.1) := by
      rw [Bool.eq_iff_iff, beq_iff_eq, beq_iff_eq, PyString.ofString_injective.eq_iff]
    rw [List.map_cons, List.lookup_cons, List.lookup_cons, hkey, ih]

@[simp] theorem traceId?_pyDict (entries : List (String × PyValue)) :
    traceId? (pyDict entries) = entries.lookup "trace_id" := lookup_pyDict entries "trace_id"

/-- A content type is no request id. -/
lemma values_contentType : Headers.values
    [(byteName "content-type", byteName "application/json")] requestIdHeader = [] := by
  decide +kernel

/-- A response whose content is encoded. -/
theorem wp_orjsonResponse {status : ℕ} {content : PyValue} (h : f.encodes 0 content = true)
    {Q : Except Raised HttpResponse → Connection → Prop} {c : Connection} :
    Program.wp observer (orjsonResponse f status content) Q c =
      Q (.ok ⟨status, [(byteName "content-type", byteName "application/json")], content⟩) c := by
  unfold orjsonResponse
  rw [if_pos h]
  rfl

/-- A response whose content is refused. -/
theorem wp_orjsonResponse_of_refused {status : ℕ} {content : PyValue}
    (h : f.encodes 0 content ≠ true) {Q : Except Raised HttpResponse → Connection → Prop}
    {c : Connection} :
    Program.wp observer (orjsonResponse f status content) Q c = Q (.error .encode) c := by
  unfold orjsonResponse
  rw [if_neg h]
  rfl

/-- The handler of the application's exceptions makes a response. -/
theorem makes_appExceptionHandler (e : AppException) : Makes (appExceptionHandler f e) := by
  intro requestId c hc
  unfold appExceptionHandler
  simp only [Program.wp_bind, Program.wp_perform, observer_getRequestId, Program.afterBind_ok,
    observer_log, observer_now]
  intro t
  rw [wp_orjsonResponse (encodes_pyDict (Nat.zero_le _) (by simp [PyValue.accepts]))]
  refine ⟨rfl, _, rfl, values_contentType, .inr ?_⟩
  rw [traceId?_pyDict, hc]
  rfl

/-- The handler of Starlette's exceptions makes a response. -/
theorem makes_httpExceptionHandler (statusCode : ℕ) (detail : String) :
    Makes (httpExceptionHandler f statusCode detail) := by
  intro requestId c hc
  unfold httpExceptionHandler
  simp only [Program.wp_bind, Program.wp_perform, observer_getRequestId, Program.afterBind_ok,
    observer_now]
  intro t
  rw [wp_orjsonResponse (encodes_pyDict (Nat.zero_le _) (by simp [PyValue.accepts]))]
  refine ⟨rfl, _, rfl, values_contentType, .inr ?_⟩
  rw [traceId?_pyDict, hc]
  rfl

/-- The sanitised errors can be encoded. -/
def Sendable (f : Framework) (errors : List ErrorDict) : Prop :=
  ∃ detail, sanitizeErrors f errors = .ok detail ∧ ∀ d ∈ detail, f.encodes 2 d = true

/-- The handler of rejected requests makes a response if the errors can be sent. -/
theorem makes_validationExceptionHandler {errors : List ErrorDict} (h : Sendable f errors) :
    Makes (validationExceptionHandler f errors) := by
  intro requestId c hc
  obtain ⟨detail, hdetail, hencodes⟩ := h
  unfold validationExceptionHandler
  rw [hdetail]
  simp only [Program.wp_bind, Program.wp_perform, observer_getRequestId, Program.afterBind_ok,
    Program.wp_ofExcept, observer_now]
  intro t
  have hlist : f.encodes 1 (.list detail) = true := (encodes_list (by omega)).mpr hencodes
  rw [wp_orjsonResponse (encodes_pyDict (Nat.zero_le _)
    (by simp [hlist, PyValue.accepts]))]
  refine ⟨rfl, _, rfl, values_contentType, .inr ?_⟩
  rw [traceId?_pyDict, hc]
  rfl

/-- The handler of rejected requests fails if the errors cannot be sent. -/
theorem failsIn_validationExceptionHandler {errors : List ErrorDict} (h : ¬ Sendable f errors) :
    FailsIn (validationExceptionHandler f errors) := by
  intro c
  unfold validationExceptionHandler
  cases hdetail : sanitizeErrors f errors with
  | error e =>
    simp only [Program.wp_bind, Program.wp_perform, observer_getRequestId, Program.afterBind_ok,
      Program.wp_ofExcept, Program.afterBind_error]
    exact ⟨trivial, e, rfl⟩
  | ok detail =>
    simp only [Program.wp_bind, Program.wp_perform, observer_getRequestId, Program.afterBind_ok,
      Program.wp_ofExcept, observer_now]
    intro t
    rw [wp_orjsonResponse_of_refused]
    · exact ⟨rfl, _, rfl⟩
    · intro hencodes
      unfold pyDict at hencodes
      have hlist := ((encodes_dict (Nat.zero_le _)).mp hencodes (.ofString "detail")
        (.list detail) (by simp)).2
      exact h ⟨detail, hdetail, (encodes_list (by omega)).mp hlist⟩

/-- The handler of the rate limit makes a response. -/
theorem makes_rateLimitExceeded (detail : String) : Makes (pure (f.rateLimitExceeded detail)) := by
  intro requestId c _
  rw [Program.wp_pure]
  exact ⟨rfl, _, rfl, (f.rateLimitExceeded_untraced detail).reports requestId⟩

/-! ## The stack -/

/-- `ExceptionMiddleware` has a handler for the exception, and the handler does not fail. -/
def Handled (f : Framework) : Raised → Prop
  | .app _ => True
  | .validation errors => Sendable f errors
  | .http _ _ => True
  | .rateLimit _ => True
  | _ => False

/-- An exception that is handled becomes a response. -/
theorem Handled.makes {e : Raised} (h : Handled f e) :
    ∃ handler, exceptionHandlers f e = some handler ∧ Makes handler := by
  cases e with
  | app e => exact ⟨_, rfl, makes_appExceptionHandler e⟩
  | validation errors => exact ⟨_, rfl, makes_validationExceptionHandler h⟩
  | http statusCode detail => exact ⟨_, rfl, makes_httpExceptionHandler statusCode detail⟩
  | rateLimit detail => exact ⟨_, rfl, makes_rateLimitExceeded detail⟩
  | _ => exact h.elim

/-- An exception that is not handled goes on. -/
theorem failsIn_of_not_handled {e : Raised} (h : ¬ Handled f e) :
    exceptionHandlers f e = none ∨
      ∃ handler, exceptionHandlers f e = some handler ∧ FailsIn handler := by
  cases e with
  | app e => exact (h trivial).elim
  | validation errors => exact .inr ⟨_, rfl, failsIn_validationExceptionHandler h⟩
  | http statusCode detail => exact (h trivial).elim
  | rateLimit detail => exact (h trivial).elim
  | _ => exact .inl rfl

section Stack

variable {scope : Scope} {requestId : String} {c : Connection} {app : App}

theorem wp_exceptionMiddleware (htype : scope.type = "http") (send : Send)
    (Q : Except Raised Unit → Connection → Prop) :
    Program.wp observer (exceptionMiddleware (exceptionHandlers f) app scope send) Q c =
      Program.wp observer (app scope (sendTracking .handlerStarted send))
        (Program.afterTry observer
          (handle (exceptionHandlers f) (sendTracking .handlerStarted send)) Q)
        { c with vars := Function.update c.vars .handlerStarted 0 } := by
  unfold exceptionMiddleware
  rw [if_neg (by simp [htype])]
  simp only [Program.wp_bind, Program.wp_perform, observer_assign, Program.afterBind_ok,
    Program.wp_tryCatch]

/-- A handler runs where no response has started. -/
theorem wp_respond {handler : Proc HttpResponse} {send : Send}
    {Q : Except Raised Unit → Connection → Prop} (hstarted : c.vars .handlerStarted = 0) :
    Program.wp observer (respond handler send) Q c =
      Program.wp observer handler
        (Program.afterBind observer (fun response => response.sendWith send) Q) c := by
  unfold respond
  rw [Program.wp_bind, Program.wp_perform, eq_iff_iff, observer_read, hstarted,
    Program.afterBind_ok, if_neg (by simp), Program.wp_bind]

/-- After a response has started, a handler raises an exception. -/
theorem wp_respond_of_started {handler : Proc HttpResponse} {send : Send}
    {Q : Except Raised Unit → Connection → Prop} (hstarted : c.vars .handlerStarted = 1) :
    Program.wp observer (respond handler send) Q c = Q (.error .started) c := by
  unfold respond
  rw [Program.wp_bind, Program.wp_perform, eq_iff_iff, observer_read, hstarted,
    Program.afterBind_ok, if_pos (by simp), Program.wp_raise]

/-- After a response has been delivered, nothing else is sent. -/
lemma wp_handle_of_delivered {send : Send} {e : Raised} (h : Delivered requestId c) :
    Program.wp observer (handle (exceptionHandlers f) send e)
      (fun _ c' => Delivered requestId c') c := by
  unfold handle
  cases exceptionHandlers f e with
  | none => exact h
  | some handler =>
    rw [wp_respond_of_started h.2.2]
    exact h

/-- A handled exception is answered through the `send` of `ExceptionMiddleware`. -/
lemma wp_handle_of_handled {e : Raised} (he : Handled f e) (hc : Waiting requestId c)
    (hstarted : c.vars .handlerStarted = 0) :
    Program.wp observer (handle (exceptionHandlers f) (handledSend f scope requestId) e)
      (fun _ c' => Delivered requestId c') c := by
  obtain ⟨handler, hhandler, hmakes⟩ := he.makes
  unfold handle
  rw [hhandler, wp_respond hstarted]
  refine Program.wp_mono Program.demonic_monotone (fun x c' hx => ?_) (hmakes requestId c hc.1)
  obtain ⟨rfl, response, rfl, hreports⟩ := hx
  exact wp_handledSend hreports hc

/-- An exception that is not handled leaves `ExceptionMiddleware`. -/
lemma wp_handle_of_not_handled {send : Send} {e : Raised} (he : ¬ Handled f e)
    (hstarted : c.vars .handlerStarted = 0) :
    Program.wp observer (handle (exceptionHandlers f) send e)
      (fun x c' => c' = c ∧ ∃ e', x = .error e') c := by
  unfold handle
  rcases failsIn_of_not_handled he with hnone | ⟨handler, hhandler, hfails⟩
  · rw [hnone]
    exact ⟨rfl, e, rfl⟩
  · rw [hhandler, wp_respond hstarted]
    refine Program.wp_mono Program.demonic_monotone (fun x c' hx => ?_) (hfails c)
    obtain ⟨rfl, e', rfl⟩ := hx
    exact ⟨rfl, e', rfl⟩

/-- What a routed endpoint ends with is answered by `ExceptionMiddleware`. -/
def Behaviour.Handled : Behaviour f → Prop
  | .raised e => Http.Handled f e
  | _ => True

/-- A response that the endpoint makes is delivered. -/
lemma wp_makes_delivered {p : Proc HttpResponse} (hp : Makes p) (hc : Waiting requestId c) :
    Program.wp observer (p >>= fun response => response.sendWith (handledSend f scope requestId))
      (fun _ c' => Delivered requestId c') c := by
  rw [Program.wp_bind]
  refine Program.wp_mono Program.demonic_monotone (fun x c' hx => ?_) (hp requestId c hc.1)
  obtain ⟨rfl, response, rfl, hreports⟩ := hx
  exact wp_handledSend hreports hc

/-- An endpoint makes a response from data that can be encoded. -/
theorem makes_apiResponse {status : ℕ} {data message : PyValue} (hdata : f.encodes 1 data = true)
    (hmessage : f.encodes 1 message = true) : Makes (apiResponse f status data message) := by
  intro requestId c hc
  unfold apiResponse
  simp only [Program.wp_bind, Program.wp_perform, observer_getRequestId, Program.afterBind_ok,
    observer_now]
  intro t
  rw [wp_orjsonResponse (encodes_pyDict (Nat.zero_le _)
    (by simp [hdata, hmessage, PyValue.accepts]))]
  refine ⟨rfl, _, rfl, values_contentType, .inr ?_⟩
  rw [traceId?_pyDict, hc]
  rfl

/-- A response that names no request id is made from content that can be encoded. -/
theorem makes_untraced {status : ℕ} {data : PyValue} (hdata : f.encodes 0 data = true)
    (htrace : traceId? data = none) : Makes (orjsonResponse f status data) := by
  intro requestId c _
  rw [wp_orjsonResponse hdata]
  exact ⟨rfl, _, rfl, values_contentType, .inl htrace⟩

/-- The endpoint inside `ExceptionMiddleware`: what is handled is delivered. -/
theorem wp_endpoint_of_handled (htype : scope.type = "http") {b : Behaviour f} (hb : b.Handled)
    (hc : Waiting requestId c) :
    Program.wp observer (exceptionMiddleware (exceptionHandlers f) (routed f b) scope
        (sendWithCors f scope (loggedSend requestId)))
      (fun _ c' => Delivered requestId c') c := by
  rw [wp_exceptionMiddleware htype]
  have hwaiting : Waiting requestId
      { c with vars := Function.update c.vars .handlerStarted 0 } := hc
  have hdelivered : ∀ p : Proc Unit,
      Program.wp observer p (fun _ c' => Delivered requestId c')
        { c with vars := Function.update c.vars .handlerStarted 0 } →
      Program.wp observer p (Program.afterTry observer
        (handle (exceptionHandlers f) (handledSend f scope requestId))
        fun _ c' => Delivered requestId c')
        { c with vars := Function.update c.vars .handlerStarted 0 } := by
    intro p hp
    refine Program.wp_mono Program.demonic_monotone (fun x c' hx => ?_) hp
    cases x with
    | ok a => exact hx
    | error e => exact wp_handle_of_delivered hx
  cases b with
  | response status data message hdata hmessage =>
    exact hdelivered _ (wp_makes_delivered (makes_apiResponse hdata hmessage) hwaiting)
  | untraced status data hdata htrace =>
    exact hdelivered _ (wp_makes_delivered (makes_untraced hdata htrace) hwaiting)
  | raised e => exact wp_handle_of_handled hb hwaiting (by simp)

/-- An exception that is not handled leaves `ExceptionMiddleware` before anything is sent. -/
theorem wp_endpoint_of_not_handled (htype : scope.type = "http") {b : Behaviour f}
    (hb : ¬ b.Handled) {send : Send} :
    Program.wp observer (exceptionMiddleware (exceptionHandlers f) (routed f b) scope send)
      (fun x c' => (∃ e, x = .error e) ∧ c'.requestId = c.requestId ∧ c'.sent = c.sent ∧
        c'.vars .serverStarted = c.vars .serverStarted) c := by
  rw [wp_exceptionMiddleware htype]
  cases b with
  | response status data message hdata hmessage => exact (hb trivial).elim
  | untraced status data hdata htrace => exact (hb trivial).elim
  | raised e =>
    rw [routed, Program.wp_raise, Program.afterTry_error]
    refine Program.wp_mono Program.demonic_monotone (fun x c' hx => ?_)
      (wp_handle_of_not_handled hb (by simp))
    obtain ⟨rfl, e', rfl⟩ := hx
    exact ⟨⟨e', rfl⟩, rfl, rfl, by simp⟩

/-- `CORSMiddleware` answers the request, or what the endpoint ends with is handled. -/
def Answered (f : Framework) (scope : Scope) (b : Behaviour f) : Prop :=
  (f.corsPreflight scope).isSome = true ∨ b.Handled

/-- Inside `LoggingContextMiddleware`, an answered request is announced. -/
theorem wp_cors_of_answered (htype : scope.type = "http") {b : Behaviour f}
    (hb : Answered f scope b) (hc : Waiting requestId c) :
    Program.wp observer (corsMiddleware f (exceptionMiddleware (exceptionHandlers f) (routed f b))
        scope (loggedSend requestId))
      (fun _ c' => Announces requestId c' ∧ c'.vars .serverStarted = 1) c := by
  unfold corsMiddleware
  cases hpreflight : f.corsPreflight scope with
  | some response =>
    exact wp_loggedSend ((f.corsPreflight_untraced scope response hpreflight).reports requestId) hc
  | none =>
    have hhandled : b.Handled := by
      rcases hb with hsome | hhandled
      · rw [hpreflight] at hsome
        cases hsome
      · exact hhandled
    refine Program.wp_mono Program.demonic_monotone (fun x c' hx => ?_)
      (wp_endpoint_of_handled htype hhandled hc)
    exact ⟨hx.1, hx.2.1⟩

/-- Inside `LoggingContextMiddleware`, a request that is not answered ends with an exception before
anything is sent. -/
theorem wp_cors_of_not_answered (htype : scope.type = "http") {b : Behaviour f}
    (hb : ¬ Answered f scope b) {send : Send} :
    Program.wp observer (corsMiddleware f (exceptionMiddleware (exceptionHandlers f) (routed f b))
        scope send)
      (fun x c' => (∃ e, x = .error e) ∧ c'.requestId = c.requestId ∧ c'.sent = c.sent ∧
        c'.vars .serverStarted = c.vars .serverStarted) c := by
  unfold corsMiddleware
  cases hpreflight : f.corsPreflight scope with
  | some response => exact (hb (.inl (by rw [hpreflight]; rfl))).elim
  | none => exact wp_endpoint_of_not_handled htype fun hhandled => hb (.inr hhandled)

end Stack

/-! ## The server's side -/

/-- The response of the handler registered for `Exception`. -/
theorem makes_genericExceptionHandler (e : Raised) : Makes (genericExceptionHandler f e) := by
  intro requestId c hc
  unfold genericExceptionHandler
  simp only [Program.wp_bind, Program.wp_perform, observer_getRequestId, Program.afterBind_ok,
    observer_log, observer_now]
  intro t
  rw [wp_orjsonResponse (encodes_pyDict (Nat.zero_le _) (by simp [PyValue.accepts]))]
  refine ⟨rfl, _, rfl, values_contentType, .inr ?_⟩
  rw [traceId?_pyDict, hc]
  rfl

/-- The response that reached the server carries its request id. -/
def Traced (f : Framework) (scope : Scope) (b : Behaviour f) : Prop :=
  ∀ x c', EndsIn (application f b scope serverSend) .initial x c' →
    ∃ requestId, Announces requestId c'

/-- The first message that reached the server starts a response without `x-request-id`. -/
def Nameless (c : Connection) : Prop :=
  ∃ (status : ℕ) (headers : Headers) (rest : List Message),
    c.sent = .responseStart status headers :: rest ∧ headers.values requestIdHeader = []

/-- Without the header no id is announced. -/
lemma Nameless.not_announces {c : Connection} (h : Nameless c) (requestId : String) :
    ¬ Announces requestId c := by
  obtain ⟨status, headers, rest, hsent, hvalues⟩ := h
  rintro ⟨-, -, status', headers', contents, hsent', hvalues', -⟩
  rw [hsent] at hsent'
  cases hsent'
  rw [hvalues] at hvalues'
  cases hvalues'

section Server

variable {scope : Scope} {b : Behaviour f} {requestId : String} {c : Connection} {app : App}

/-- A response through the server's own `send`. -/
theorem wp_serverSend {response : HttpResponse} (hsent : c.sent = [])
    (hvalues : response.headers.values requestIdHeader = [])
    {Q : Except Raised Unit → Connection → Prop} (hQ : ∀ x c', Nameless c' → Q x c') :
    Program.wp observer (response.sendWith serverSend) Q c := by
  unfold HttpResponse.sendWith serverSend
  rw [Program.wp_bind, Program.wp_perform, observer_send]
  intro r
  cases r with
  | error e => exact hQ _ _ ⟨response.status, response.headers, [], by simp [hsent], hvalues⟩
  | ok a =>
    rw [Program.afterBind_ok, Program.wp_perform, observer_send]
    intro r'
    exact hQ _ _ ⟨response.status, response.headers, [.responseBody response.content],
      by simp [hsent], hvalues⟩

theorem wp_serverErrorMiddleware (htype : scope.type = "http")
    (Q : Except Raised Unit → Connection → Prop) :
    Program.wp observer
        (serverErrorMiddleware (genericExceptionHandler f) app scope serverSend) Q c =
      Program.wp observer (app scope (sendTracking .serverStarted serverSend))
        (Program.afterTry observer (answerError (genericExceptionHandler f) serverSend) Q)
        { c with vars := Function.update c.vars .serverStarted 0 } := by
  unfold serverErrorMiddleware
  rw [if_neg (by simp [htype])]
  simp only [Program.wp_bind, Program.wp_perform, observer_assign, Program.afterBind_ok,
    Program.wp_tryCatch]

/-- After an announced response, an exception is only raised again. -/
lemma wp_answerError_of_started {e : Raised} (h : Announces requestId c)
    (hstarted : c.vars .serverStarted = 1) :
    Program.wp observer (answerError (genericExceptionHandler f) serverSend e)
      (fun _ c' => ∃ requestId, Announces requestId c') c := by
  unfold answerError
  rw [Program.wp_bind]
  refine Program.wp_mono Program.demonic_monotone (fun x c' hx => ?_)
    (makes_genericExceptionHandler e requestId c h.1)
  obtain ⟨rfl, response, rfl, -⟩ := hx
  rw [Program.afterBind_ok, Program.wp_bind, Program.wp_perform, observer_read, hstarted,
    Program.afterBind_ok, if_neg (by simp)]
  exact ⟨requestId, h⟩

/-- An exception that leaves `RequestIdMiddleware` before anything is sent is answered without
`x-request-id`. -/
lemma wp_answerError_of_not_started {e : Raised} (hid : c.requestId = some requestId)
    (hsent : c.sent = []) (hstarted : c.vars .serverStarted = 0) :
    Program.wp observer (answerError (genericExceptionHandler f) serverSend e)
      (fun _ c' => Nameless c') c := by
  unfold answerError
  rw [Program.wp_bind]
  refine Program.wp_mono Program.demonic_monotone (fun x c' hx => ?_)
    (makes_genericExceptionHandler e requestId c hid)
  obtain ⟨rfl, response, rfl, hreports⟩ := hx
  rw [Program.afterBind_ok, Program.wp_bind, Program.wp_perform, observer_read, hstarted,
    Program.afterBind_ok, if_pos (by rfl), Program.wp_bind]
  refine wp_serverSend hsent hreports.1 fun x c'' hnameless => ?_
  cases x with
  | ok a => exact hnameless
  | error e' => exact hnameless

/-- Where the headers are readable, the application inside the two middlewares decides. -/
theorem wp_application {Q : Except Raised Unit → Connection → Prop} (htype : scope.type = "http")
    (hreadable : ∀ name ∈ decodedHeaders, Readable scope.headers name)
    (h : ∀ requestId c', Waiting requestId c' → c'.vars .serverStarted = 0 →
      Program.wp observer (corsMiddleware f
        (exceptionMiddleware (exceptionHandlers f) (routed f b)) scope (loggedSend requestId))
        (Program.afterTry observer (answerError (genericExceptionHandler f) serverSend) Q) c') :
    Program.wp observer (application f b scope serverSend) Q .initial := by
  obtain ⟨given, deviceId, userAgent, appVersion, osType, hgiven, hd⟩ := exists_decoded hreadable
  unfold application
  rw [wp_serverErrorMiddleware htype, wp_passage htype hgiven hd]
  intro requestId _
  exact h requestId _ ⟨rfl, rfl, rfl⟩ (by simp)

end Server

/-- ASCII headers are readable. -/
lemma readable_of_ascii {hs : Headers} (h : ∀ p ∈ hs, Bytes.Ascii p.2) (name : String) :
    Readable hs name := by
  intro v hv
  have hmem : v ∈ hs.values (byteName name) := by
    rw [Headers.last_eq_getLast?] at hv
    exact List.mem_of_getLast? hv
  obtain ⟨p, hp, rfl⟩ := List.mem_map.mp hmem
  exact ⟨_, Bytes.decodeUtf8_eq_some.mp (h p (List.mem_filter.mp hp).1).decodeUtf8⟩

/-- An answered request is traced. -/
lemma traced_of_answered {scope : Scope} {b : Behaviour f} (htype : scope.type = "http")
    (hascii : ∀ p ∈ scope.headers, Bytes.Ascii p.2) (h : Answered f scope b) :
    Traced f scope b := by
  unfold Traced
  rw [← Program.wp_demonic]
  refine wp_application htype (fun name _ => readable_of_ascii hascii name) ?_
  intro requestId c hwaiting _
  refine Program.wp_mono Program.demonic_monotone (fun x c' hx => ?_)
    (wp_cors_of_answered htype h hwaiting)
  cases x with
  | ok a => exact ⟨requestId, hx.1⟩
  | error e => exact wp_answerError_of_started hx.1 hx.2

/-- A request that is not answered inside `RequestIdMiddleware` is not traced. -/
lemma not_traced_of_not_answered {scope : Scope} {b : Behaviour f} (htype : scope.type = "http")
    (hascii : ∀ p ∈ scope.headers, Bytes.Ascii p.2) (h : ¬ Answered f scope b) :
    ¬ Traced f scope b := by
  have hnameless : Program.wp observer (application f b scope serverSend)
      (fun _ c' => Nameless c') .initial := by
    refine wp_application htype (fun name _ => readable_of_ascii hascii name) ?_
    intro requestId c hwaiting hstarted
    refine Program.wp_mono Program.demonic_monotone (fun x c' hx => ?_)
      (wp_cors_of_not_answered htype h)
    obtain ⟨⟨e, rfl⟩, hid, hsent, hvar⟩ := hx
    exact wp_answerError_of_not_started (hid.trans hwaiting.1) (hsent.trans hwaiting.2.2)
      (hvar.trans hstarted)
  intro htraced
  obtain ⟨x, c', hends⟩ := exists_ends (application f b scope serverSend) .initial
  obtain ⟨requestId, hannounces⟩ := htraced x c' hends
  exact (Program.wp_demonic.mp hnameless x c' hends).not_announces requestId hannounces

/-- Every response that reaches the server carries the request id, in exactly one `x-request-id`,
exactly where no exception reaches `ServerErrorMiddleware`. -/
theorem every_response_traced_iff (f : Framework) (scope : Scope) (b : Behaviour f)
    (htype : scope.type = "http") (hascii : ∀ p ∈ scope.headers, Bytes.Ascii p.2) :
    Traced f scope b ↔ Answered f scope b := by
  constructor
  · intro htraced
    by_contra hnot
    exact not_traced_of_not_answered htype hascii hnot htraced
  · exact traced_of_answered htype hascii

/-- A framework without cross-origin requests. -/
def plainFramework : Framework where
  corsPreflight := fun _ => none
  corsHeaders := fun _ hs => hs
  rateLimitExceeded := fun detail =>
    ⟨429, [], pyDict [("error", .text ("Rate limit exceeded: " ++ detail))]⟩
  pyStr := fun _ => .ofString ""
  encoderDepth := 254
  encoderDepth_large := by omega
  corsPreflight_untraced := fun _ _ h => by cases h
  corsHeaders_requestId := fun _ _ => rfl
  rateLimitExceeded_untraced := fun detail => ⟨rfl, by rw [traceId?_pyDict]; rfl⟩

/-- What `health_check` returns. -/
def healthCheck : PyValue := pyDict [("status", .text "ok"), ("version", .text "1.0.0")]

lemma encodes_healthCheck : plainFramework.encodes 0 healthCheck = true :=
  encodes_pyDict (Nat.zero_le _) (by simp)

lemma ascii_fromApp : ∀ p ∈ (fromApp "okhttp/4.9").headers, Bytes.Ascii p.2 := by
  decide +kernel

/-- The answer of `health_check` to a request of the app. -/
theorem health_response_traced : Traced plainFramework (fromApp "okhttp/4.9")
    (.untraced 200 healthCheck encodes_healthCheck (by rw [healthCheck, traceId?_pyDict]; rfl)) :=
  (every_response_traced_iff plainFramework (fromApp "okhttp/4.9") _ rfl ascii_fromApp).mpr
    (.inr trivial)

/-- An exception that no handler is registered for, but the one for `Exception`. -/
theorem unhandled_exception_untraced :
    ¬ Traced plainFramework (fromApp "okhttp/4.9") (.raised (.other "ZeroDivisionError")) := by
  refine not_traced_of_not_answered rfl ascii_fromApp ?_
  rintro (h | h)
  · cases h
  · exact h

end Http

end SampleAuthApi
