import SampleAuthApi.Model.Middleware

/-!
# The two middlewares around an application

`RequestIdMiddleware` and `LoggingContextMiddleware` decode five headers before they call the inner
application.  Where all of them are UTF-8, the pair enters the inner application once, relays its
calls with their outcomes, and ends as it ends (`wp_passage`).  Where one of them is not, the pair
raises `UnicodeDecodeError` before the inner application is entered (`wp_passage_of_unreadable`).
-/

namespace SampleAuthApi

namespace Http

/-! ## Relaying -/

/-- A `send` relays: it raises exactly what the server raises, and the inner application is not
touched by it. -/
def Relays (send : Send) : Prop :=
  ∀ m c, Program.wp observer (send m)
    (fun x c' => c'.inner = c.inner ∧ c'.failed = c.failed ++ failure x) c

theorem relays_serverSend : Relays serverSend := by
  intro m c
  unfold serverSend
  simp

theorem Relays.withRequestId {send : Send} (h : Relays send) (requestId : String) :
    Relays (sendWithRequestId requestId send) := by
  intro m c
  cases m with
  | responseStart status headers => exact h _ c
  | responseBody content => exact h _ c
  | other type => exact h _ c

theorem Relays.withLogging {send : Send} (h : Relays send) : Relays (sendWithLogging send) := by
  intro m c
  unfold sendWithLogging
  cases m with
  | responseStart status headers =>
    simp only [Program.wp_bind, Program.wp_perform, observer_assign, Program.afterBind_ok]
    exact h (.responseStart status headers)
      { c with vars := Function.update c.vars .statusCode status }
  | responseBody content => exact h _ c
  | other type => exact h _ c

/-- What the inner application has seen is its entry and the exceptions of the server. -/
def Relayed (scope : Scope) (context : Option LogContext) (c : Connection) : Prop :=
  c.inner = .entered scope context :: c.failed.map .noticed

lemma Relayed.noticed {scope : Scope} {context : Option LogContext} {α : Type} {p : Proc α}
    (hp : ∀ c, Program.wp observer p
      (fun x c' => c'.inner = c.inner ∧ c'.failed = c.failed ++ failure x) c)
    {c : Connection} (hc : Relayed scope context c) :
    Program.wp observer (noticed p) (fun _ => Relayed scope context) c := by
  unfold Http.noticed
  rw [Program.wp_bind, Program.wp_attempt]
  refine Program.wp_mono Program.demonic_monotone (fun x c' hx => ?_) (hp c)
  obtain ⟨hinner, hfailed⟩ := hx
  unfold Relayed at hc ⊢
  cases x with
  | ok a =>
    simp only [Program.afterBind_ok, Program.wp_pure]
    rw [hinner, hfailed, hc]
    simp [failure]
  | error e =>
    simp only [Program.afterBind_ok, Program.wp_bind, Program.wp_perform, observer_notice,
      Program.wp_raise]
    rw [hinner, hfailed, hc]
    simp [failure]

/-- The inner application is entered once, sees the exceptions of the server and no others, and
ends. -/
theorem wp_inner {send : Send} (hsend : Relays send) {scope : Scope} {c : Connection}
    (hinner : c.inner = []) (hfailed : c.failed = []) :
    Program.wp observer (inner scope send) (fun x c' =>
      c'.inner = .entered scope c.context :: c'.failed.map .noticed ++ [.left x]) c := by
  unfold inner
  rw [Program.wp_bind, Program.wp_perform, observer_enter]
  intro p
  rw [Program.afterBind_ok, Program.wp_bind, Program.wp_attempt]
  have hentered : Relayed scope c.context
      { c with inner := c.inner ++ [.entered scope c.context] } := by
    simp [Relayed, hinner, hfailed]
  refine Program.wp_mono Program.demonic_monotone (fun x c' hx => ?_)
    (Program.wp_interpret_of_invariant Program.demonic_monotone (fun o c' hc' => ?_) p hentered)
  · unfold Relayed at hx
    simp only [Program.afterBind_ok, Program.wp_bind, Program.wp_perform, observer_leave,
      Program.wp_ofExcept]
    rw [hx]
  · cases o with
    | receive => exact hc'.noticed fun c'' => by simp
    | send m => exact hc'.noticed (hsend m)

/-! ## Decoding -/

/-- The header that the dictionary holds under this name is UTF-8, if there is one. -/
def Readable (hs : Headers) (name : String) : Prop :=
  ∀ v, hs.last (byteName name) = some v → ∃ s : String, v = s.toByteArray

/-- The headers that the two middlewares decode. -/
def decodedHeaders : List String :=
  ["x-request-id", "x-device-id", "user-agent", "x-app-version", "x-os-type"]

theorem readable_iff {hs : Headers} {name : String} (default : String) :
    Readable hs name ↔ ∃ s, (hs.get name default).decodeUtf8 = some s := by
  unfold Readable Headers.get
  simp only [Bytes.decodeUtf8_eq_some]
  cases hs.last (byteName name) with
  | none =>
    constructor
    · exact fun _ => ⟨default, rfl⟩
    · exact fun _ _ h => by cases h
  | some v =>
    constructor
    · exact fun h => h v rfl
    · rintro h _ ⟨⟩
      exact h

theorem decode_of_readable {b : Bytes} {s : String} (h : b.decodeUtf8 = some s) :
    decode b = pure s := by
  unfold decode
  rw [h]

theorem decode_of_unreadable {b : Bytes} (h : ¬ ∃ s, b.decodeUtf8 = some s) :
    decode b = Program.raise .unicodeDecode := by
  unfold decode
  cases hb : b.decodeUtf8 with
  | none => rfl
  | some s => exact (h ⟨s, hb⟩).elim

/-! ## The pair -/

variable {scope : Scope} {send : Send} {app : App} {c : Connection}
  {Q : Except Raised Unit → Connection → Prop}

/-- The texts that `LoggingContextMiddleware` decodes. -/
structure Decoded (hs : Headers) (deviceId userAgent appVersion osType : String) : Prop where
  deviceId : (hs.get "x-device-id" "unknown").decodeUtf8 = some deviceId
  userAgent : (hs.get "user-agent" "unknown").decodeUtf8 = some userAgent
  appVersion : (hs.get "x-app-version" "unknown").decodeUtf8 = some appVersion
  osType : (hs.get "x-os-type" "unknown").decodeUtf8 = some osType

/-- Readable headers are decoded. -/
theorem exists_decoded {hs : Headers} (h : ∀ name ∈ decodedHeaders, Readable hs name) :
    ∃ given deviceId userAgent appVersion osType,
      (hs.get "x-request-id" "").decodeUtf8 = some given ∧
        Decoded hs deviceId userAgent appVersion osType := by
  obtain ⟨given, hgiven⟩ := (readable_iff "").mp (h "x-request-id" (by simp [decodedHeaders]))
  obtain ⟨deviceId, hd⟩ :=
    (readable_iff "unknown").mp (h "x-device-id" (by simp [decodedHeaders]))
  obtain ⟨userAgent, hu⟩ := (readable_iff "unknown").mp (h "user-agent" (by simp [decodedHeaders]))
  obtain ⟨appVersion, ha⟩ :=
    (readable_iff "unknown").mp (h "x-app-version" (by simp [decodedHeaders]))
  obtain ⟨osType, ho⟩ := (readable_iff "unknown").mp (h "x-os-type" (by simp [decodedHeaders]))
  exact ⟨given, deviceId, userAgent, appVersion, osType, hgiven, ⟨hd, hu, ha, ho⟩⟩

/-- The context that `LoggingContextMiddleware` binds. -/
def logContext (scope : Scope) (requestId : Option String)
    (deviceId userAgent appVersion osType : String) : LogContext where
  traceId := requestId.getD "unknown"
  deviceId := deviceId
  clientIp := clientIp scope
  userAgent := userAgent
  appVersion := appVersion
  osType := osType
  requestMethod := scope.method
  requestUri := scope.path

/-- The cleanup of `LoggingContextMiddleware`. -/
def requestCompleted : Proc Unit := do
  let statusCode ← Program.perform (Op.read .statusCode)
  Program.perform (Op.log "Request completed" statusCode)

@[simp] theorem wp_requestCompleted (x : Except Raised Unit) (c : Connection) :
    Program.afterFinally observer requestCompleted Q x c = Q x c := by
  unfold Program.afterFinally requestCompleted
  simp only [Program.wp_bind, Program.wp_perform, observer_read, Program.afterBind_ok,
    observer_log, Program.wp_ofExcept]

/-- `LoggingContextMiddleware` binds the context and hands over to the inner application, whose
result is its own. -/
theorem wp_logging {deviceId userAgent appVersion osType : String} (htype : scope.type = "http")
    (hd : Decoded scope.headers deviceId userAgent appVersion osType) :
    Program.wp observer (loggingContextMiddleware app scope send) Q c =
      Program.wp observer (app scope (sendWithLogging send)) Q
        { c with
          context := some (logContext scope c.requestId deviceId userAgent appVersion osType)
          vars := Function.update c.vars .statusCode 500 } := by
  unfold loggingContextMiddleware
  rw [if_neg (by simp [htype]), decode_of_readable hd.deviceId, decode_of_readable hd.userAgent,
    decode_of_readable hd.appVersion, decode_of_readable hd.osType]
  simp only [Program.wp_bind, Program.wp_perform, observer_getRequestId, Program.afterBind_ok,
    Program.wp_pure, observer_clearContext, observer_bindContext, observer_assign]
  change Program.wp observer (Program.andFinally _ requestCompleted) Q _ = _
  rw [Program.wp_andFinally]
  congr 1
  funext x c'
  exact wp_requestCompleted x c'

/-- The request id that `RequestIdMiddleware` settles on: the decoded header, or a fresh id. -/
def Settles (given requestId : String) : Prop := if given = "" then True else requestId = given

/-- `RequestIdMiddleware` puts the request id into the `state` and hands over to the inner
application, whose result is its own. -/
theorem wp_requestId {given : String} (htype : scope.type = "http")
    (hgiven : (scope.headers.get "x-request-id" "").decodeUtf8 = some given) :
    Program.wp observer (requestIdMiddleware app scope send) Q c ↔
      ∀ requestId, Settles given requestId →
        Program.wp observer (app scope (sendWithRequestId requestId send)) Q
          { c with requestId := some requestId } := by
  unfold requestIdMiddleware Settles
  rw [if_neg (by simp [htype]), decode_of_readable hgiven]
  by_cases hempty : given = ""
  · simp only [Program.wp_bind, Program.wp_pure, Program.afterBind_ok, if_pos hempty,
      Program.wp_perform, observer_uuid4, observer_setRequestId, true_implies]
  · simp only [Program.wp_bind, Program.wp_pure, Program.afterBind_ok, if_neg hempty,
      Program.wp_perform, observer_setRequestId, forall_eq]

/-- Where the five headers are UTF-8, the inner application is entered with the context of the
request. -/
theorem wp_passage {given deviceId userAgent appVersion osType : String}
    (htype : scope.type = "http")
    (hgiven : (scope.headers.get "x-request-id" "").decodeUtf8 = some given)
    (hd : Decoded scope.headers deviceId userAgent appVersion osType) :
    Program.wp observer (requestIdMiddleware (loggingContextMiddleware app) scope send) Q c ↔
      ∀ requestId, Settles given requestId →
        Program.wp observer
          (app scope (sendWithLogging (sendWithRequestId requestId send))) Q
          { c with
            requestId := some requestId
            context := some (logContext scope (some requestId) deviceId userAgent appVersion osType)
            vars := Function.update c.vars .statusCode 500 } := by
  rw [wp_requestId htype hgiven]
  refine forall₂_congr fun requestId _ => ?_
  rw [wp_logging htype hd]

/-- `LoggingContextMiddleware` raises `UnicodeDecodeError` where one of its headers is not UTF-8,
and calls nothing before. -/
theorem wp_logging_of_unreadable (htype : scope.type = "http")
    (h : ∃ name ∈ ["x-device-id", "user-agent", "x-app-version", "x-os-type"],
      ¬ Readable scope.headers name) :
    Program.wp observer (loggingContextMiddleware app scope send)
      (fun x c' => x = .error .unicodeDecode ∧ c'.inner = c.inner ∧ c'.sent = c.sent) c := by
  unfold loggingContextMiddleware
  rw [if_neg (by simp [htype])]
  simp only [Program.wp_bind, Program.wp_perform, observer_getRequestId, Program.afterBind_ok]
  by_cases hdevice : Readable scope.headers "x-device-id"
  · obtain ⟨deviceId, hd⟩ := (readable_iff "unknown").mp hdevice
    rw [decode_of_readable hd]
    simp only [Program.wp_pure, Program.afterBind_ok, Program.wp_bind, Program.wp_perform,
      observer_clearContext]
    by_cases hagent : Readable scope.headers "user-agent"
    · obtain ⟨userAgent, hu⟩ := (readable_iff "unknown").mp hagent
      rw [decode_of_readable hu]
      simp only [Program.wp_pure, Program.afterBind_ok, Program.wp_bind]
      by_cases hversion : Readable scope.headers "x-app-version"
      · obtain ⟨appVersion, ha⟩ := (readable_iff "unknown").mp hversion
        rw [decode_of_readable ha]
        simp only [Program.wp_pure, Program.afterBind_ok, Program.wp_bind]
        have hos : ¬ Readable scope.headers "x-os-type" := by
          obtain ⟨name, hname, hun⟩ := h
          simp only [List.mem_cons, List.not_mem_nil, or_false] at hname
          rcases hname with rfl | rfl | rfl | rfl
          · exact (hun hdevice).elim
          · exact (hun hagent).elim
          · exact (hun hversion).elim
          · exact hun
        rw [decode_of_unreadable (mt (readable_iff "unknown").mpr hos)]
        exact ⟨rfl, rfl, rfl⟩
      · rw [decode_of_unreadable (mt (readable_iff "unknown").mpr hversion)]
        exact ⟨rfl, rfl, rfl⟩
    · rw [decode_of_unreadable (mt (readable_iff "unknown").mpr hagent)]
      exact ⟨rfl, rfl, rfl⟩
  · rw [decode_of_unreadable (mt (readable_iff "unknown").mpr hdevice)]
    exact ⟨rfl, rfl, rfl⟩

/-- Where one of the five headers is not UTF-8, the pair raises `UnicodeDecodeError`, and calls
nothing before. -/
theorem wp_passage_of_unreadable (htype : scope.type = "http")
    (h : ∃ name ∈ decodedHeaders, ¬ Readable scope.headers name) :
    Program.wp observer (requestIdMiddleware (loggingContextMiddleware app) scope send)
      (fun x c' => x = .error .unicodeDecode ∧ c'.inner = c.inner ∧ c'.sent = c.sent) c := by
  by_cases hid : Readable scope.headers "x-request-id"
  · obtain ⟨given, hgiven⟩ := (readable_iff "").mp hid
    rw [wp_requestId htype hgiven]
    intro requestId _
    have hrest : ∃ name ∈ ["x-device-id", "user-agent", "x-app-version", "x-os-type"],
        ¬ Readable scope.headers name := by
      obtain ⟨name, hname, hun⟩ := h
      rcases List.mem_cons.mp hname with rfl | hmem
      · exact (hun hid).elim
      · exact ⟨name, hmem, hun⟩
    exact wp_logging_of_unreadable (c := { c with requestId := some requestId }) htype hrest
  · unfold requestIdMiddleware
    rw [if_neg (by simp [htype]), decode_of_unreadable (mt (readable_iff "").mpr hid)]
    exact ⟨rfl, rfl, rfl⟩

/-- Every call gets an answer. -/
lemma exists_answer (o : Op) (c : Connection) : ∃ r c', answers o c r c' := by
  cases o with
  | receive => exact ⟨.ok (.other ""), _, rfl⟩
  | send m => exact ⟨.ok (), _, rfl⟩
  | uuid4 => exact ⟨_, _, rfl, "", rfl⟩
  | now => exact ⟨_, _, rfl, "", rfl⟩
  | enter scope => exact ⟨_, _, rfl, .ret (), rfl⟩
  | _ => exact ⟨_, _, rfl, rfl⟩

/-- Every program ends in some way, whatever the server answers. -/
theorem exists_ends {α : Type} (p : Proc α) (c : Connection) : ∃ x c', EndsIn p c x c' := by
  induction p generalizing c with
  | ret a => exact ⟨_, _, .ret a c⟩
  | raise e => exact ⟨_, _, .raise e c⟩
  | call o k ih =>
    obtain ⟨r, c₁, hr⟩ := exists_answer o c
    obtain ⟨x, c', hends⟩ := ih r c₁
    exact ⟨x, c', .call hr hends⟩

/-! ## The middlewares never fail on their own -/

/-- The pair of middlewares around an application of which nothing is known. -/
abbrev pair : App := requestIdMiddleware (loggingContextMiddleware inner)

/-- The pair calls the inner application exactly once and raises nothing before: what the inner
application sees is its entry, the exceptions of the server's `receive` and `send`, and its end, and
the pair ends as it does. -/
def Transparent (scope : Scope) : Prop :=
  ∀ x c', EndsIn (pair scope serverSend) .initial x c' →
    ∃ context, c'.inner = .entered scope context :: c'.failed.map .noticed ++ [.left x]

/-- A header that is not UTF-8 keeps the inner application from being called. -/
lemma not_transparent {scope : Scope} (htype : scope.type = "http")
    (h : ∃ name ∈ decodedHeaders, ¬ Readable scope.headers name) : ¬ Transparent scope := by
  intro htransparent
  obtain ⟨x, c', hends⟩ := exists_ends (pair scope serverSend) .initial
  have hraise : Program.wp observer (pair scope serverSend)
      (fun x c' => x = .error .unicodeDecode ∧ c'.inner = Connection.initial.inner ∧
        c'.sent = Connection.initial.sent) .initial :=
    wp_passage_of_unreadable htype h
  obtain ⟨-, hinner, -⟩ := Program.wp_demonic.mp hraise x c' hends
  obtain ⟨context, hseen⟩ := htransparent x c' hends
  rw [hinner] at hseen
  cases hseen

/-- The middlewares fail on no request of their own exactly where the values that their dictionary
holds for the five decoded headers are UTF-8. -/
theorem transparent_iff (scope : Scope) (htype : scope.type = "http") :
    Transparent scope ↔ ∀ name ∈ decodedHeaders, Readable scope.headers name := by
  constructor
  · intro h
    by_contra hun
    refine not_transparent htype ?_ h
    simpa only [not_forall, exists_prop] using hun
  · intro h
    obtain ⟨given, deviceId, userAgent, appVersion, osType, hgiven, hd⟩ := exists_decoded h
    unfold Transparent
    rw [← Program.wp_demonic, wp_passage htype hgiven hd]
    intro requestId _
    refine Program.wp_mono Program.demonic_monotone (fun x c' hx => ?_)
      (wp_inner (relays_serverSend.withRequestId requestId).withLogging rfl rfl)
    exact ⟨_, hx⟩

/-- Headers that were made of texts are readable. -/
lemma readable_texts (texts : List (String × String)) (name : String) :
    Readable (texts.map fun h => (byteName h.1, h.2.toByteArray)) name := by
  intro v hv
  rw [Headers.last_eq_getLast?] at hv
  obtain ⟨p, hp, rfl⟩ := List.mem_map.mp (List.mem_of_getLast? hv)
  obtain ⟨h, -, rfl⟩ := List.mem_map.mp (List.mem_filter.mp hp).1
  exact ⟨h.2, rfl⟩

/-- A request with a request id, a device id and the name of its user agent. -/
def fromApp (userAgent : String) : Scope where
  type := "http"
  headers := [("x-request-id", "r-1"), ("x-device-id", "phone"), ("user-agent", userAgent)].map
    fun h => (byteName h.1, h.2.toByteArray)

/-- The user agent need not be ASCII. -/
theorem transparent_fromApp : Transparent (fromApp "갤럭시") :=
  (transparent_iff (fromApp "갤럭시") rfl).mpr fun name _ => readable_texts _ name

/-- A request whose `X-Device-Id` is the single byte `0xFF`. -/
def undecodable : Scope where
  type := "http"
  headers := [(byteName "x-device-id", ⟨#[0xFF]⟩)]

/-- The middleware cannot decode the byte, so the application is never called. -/
theorem not_transparent_undecodable : ¬ Transparent undecodable := by
  refine not_transparent rfl ⟨"x-device-id", by simp [decodedHeaders], fun h => ?_⟩
  obtain ⟨s, hs⟩ := h ⟨#[0xFF]⟩ rfl
  have hvalid : ByteArray.IsValidUTF8 ⟨#[0xFF]⟩ := hs ▸ s.isValidUTF8
  revert hvalid
  decide +kernel

end Http

end SampleAuthApi
