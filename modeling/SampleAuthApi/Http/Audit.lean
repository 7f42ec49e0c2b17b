import SampleAuthApi.Http.Transparency

/-!
# The device id of the logs

`LoggingContextMiddleware` reads `X-Device-Id` from a dictionary of the headers, in UTF-8; FastAPI
hands the first header of that name to the endpoint, in Latin-1.  The two agree exactly where the
last value is the UTF-8 form of the first one; for a header that occurs once this means that it is
ASCII (`logs_name_the_device`).
-/

namespace SampleAuthApi

namespace Http

/-- `x_device_id: str = Header(..., alias="X-Device-Id")` of `get_current_user`, `login` and
`refresh`. -/
def xDeviceId (hs : Headers) : Option String :=
  (hs.first (byteName "x-device-id")).map Bytes.decodeLatin1

/-- Some run of the pair enters the inner application. -/
def Reaches (scope : Scope) : Prop :=
  ∃ x c' context, EndsIn (pair scope serverSend) .initial x c' ∧ .entered scope context ∈ c'.inner

/-- Whenever the inner application is entered, the logs name the device id of the endpoint. -/
def NamesDevice (scope : Scope) : Prop :=
  ∀ x c', EndsIn (pair scope serverSend) .initial x c' →
    ∀ context, .entered scope context ∈ c'.inner →
      context.map LogContext.deviceId = xDeviceId scope.headers

/-- A request that reaches the inner application has readable headers. -/
lemma Reaches.readable {scope : Scope} (h : Reaches scope) (htype : scope.type = "http") :
    ∀ name ∈ decodedHeaders, Readable scope.headers name := by
  by_contra hun
  have hex : ∃ name ∈ decodedHeaders, ¬ Readable scope.headers name := by
    simpa only [not_forall, exists_prop] using hun
  obtain ⟨x, c', context, hends, hentered⟩ := h
  have hraise : Program.wp observer (pair scope serverSend)
      (fun x c' => x = .error .unicodeDecode ∧ c'.inner = Connection.initial.inner ∧
        c'.sent = Connection.initial.sent) .initial :=
    wp_passage_of_unreadable htype hex
  obtain ⟨-, hinner, -⟩ := Program.wp_demonic.mp hraise x c' hends
  rw [hinner] at hentered
  cases hentered

/-- The last value under a name is there when a first one is. -/
lemma exists_last {hs : Headers} {name v : Bytes} (h : hs.first name = some v) :
    ∃ w, hs.last name = some w := by
  rw [Headers.first_eq_head?] at h
  rw [Headers.last_eq_getLast?]
  exact ⟨_, List.getLast?_eq_some_getLast (List.ne_nil_of_mem (List.mem_of_mem_head? h))⟩

/-- The context with which the inner application is entered. -/
lemma entered_iff {scope : Scope} {given deviceId userAgent appVersion osType : String}
    (htype : scope.type = "http")
    (hgiven : (scope.headers.get "x-request-id" "").decodeUtf8 = some given)
    (hd : Decoded scope.headers deviceId userAgent appVersion osType)
    {x : Except Raised Unit} {c' : Connection}
    (hends : EndsIn (pair scope serverSend) .initial x c') :
    ∃ requestId, ∀ context, .entered scope context ∈ c'.inner ↔
      context = some (logContext scope (some requestId) deviceId userAgent appVersion osType) := by
  have hwp : Program.wp observer (pair scope serverSend) (fun x c' => ∃ requestId,
      c'.inner = .entered scope
        (some (logContext scope (some requestId) deviceId userAgent appVersion osType)) ::
          c'.failed.map .noticed ++ [.left x]) .initial := by
    rw [wp_passage htype hgiven hd]
    intro requestId _
    refine Program.wp_mono Program.demonic_monotone (fun x c' hx => ?_)
      (wp_inner (relays_serverSend.withRequestId requestId).withLogging rfl rfl)
    exact ⟨requestId, hx⟩
  obtain ⟨requestId, hinner⟩ := Program.wp_demonic.mp hwp x c' hends
  refine ⟨requestId, fun context => ?_⟩
  rw [hinner]
  simp

section Decoded

variable {scope : Scope} {given deviceId userAgent appVersion osType : String}

/-- A request with readable headers reaches the inner application. -/
lemma reaches_of_decoded (htype : scope.type = "http")
    (hgiven : (scope.headers.get "x-request-id" "").decodeUtf8 = some given)
    (hd : Decoded scope.headers deviceId userAgent appVersion osType) : Reaches scope := by
  obtain ⟨x, c', hends⟩ := exists_ends (pair scope serverSend) .initial
  obtain ⟨requestId, hentered⟩ := entered_iff htype hgiven hd hends
  exact ⟨x, c', _, hends, (hentered _).mpr rfl⟩

/-- The logs hold the UTF-8 reading, whatever the endpoint gets. -/
lemma namesDevice_iff (htype : scope.type = "http")
    (hgiven : (scope.headers.get "x-request-id" "").decodeUtf8 = some given)
    (hd : Decoded scope.headers deviceId userAgent appVersion osType) :
    NamesDevice scope ↔ some deviceId = xDeviceId scope.headers := by
  constructor
  · intro h
    obtain ⟨x, c', hends⟩ := exists_ends (pair scope serverSend) .initial
    obtain ⟨requestId, hentered⟩ := entered_iff htype hgiven hd hends
    exact h x c' hends _ ((hentered _).mpr rfl)
  · intro h x c' hends context hmem
    obtain ⟨requestId, hentered⟩ := entered_iff htype hgiven hd hends
    rw [(hentered context).mp hmem, ← h]
    rfl

end Decoded

/-- The logs name the device that the endpoint acts on exactly where the last `X-Device-Id` is the
UTF-8 form of the first one; where the header occurs once, exactly where it is ASCII. -/
theorem logs_name_the_device (scope : Scope) (v : Bytes) (htype : scope.type = "http")
    (hreach : Reaches scope) (hfirst : scope.headers.first (byteName "x-device-id") = some v) :
    (NamesDevice scope ↔
      scope.headers.last (byteName "x-device-id") = some v.latin1ToUtf8) ∧
    ((scope.headers.values (byteName "x-device-id")).length = 1 →
      (NamesDevice scope ↔ v.Ascii)) := by
  obtain ⟨given, deviceId, userAgent, appVersion, osType, hgiven, hd⟩ :=
    exists_decoded (hreach.readable htype)
  obtain ⟨w, hlast⟩ := exists_last hfirst
  have hlogs : w.decodeUtf8 = some deviceId := by
    have hdevice := hd.deviceId
    unfold Headers.get at hdevice
    rw [hlast] at hdevice
    exact hdevice
  have hendpoint : xDeviceId scope.headers = some v.decodeLatin1 := by
    unfold xDeviceId
    rw [hfirst]
    rfl
  have hiff : NamesDevice scope ↔ w = v.latin1ToUtf8 := by
    rw [namesDevice_iff htype hgiven hd, ← hlogs, hendpoint, Bytes.decodeUtf8_eq_decodeLatin1]
  refine ⟨by rw [hiff, hlast, Option.some.injEq], fun hsingle => ?_⟩
  obtain ⟨u, hu⟩ := List.length_eq_one_iff.mp hsingle
  have hv : u = v := by
    rw [Headers.first_eq_head?, hu] at hfirst
    exact Option.some.inj hfirst
  have hw : u = w := by
    rw [Headers.last_eq_getLast?, hu] at hlast
    exact Option.some.inj hlast
  rw [hiff, ← hw, hv, eq_comm, Bytes.latin1ToUtf8_eq_self]

/-- A request with the device id `phone`. -/
def onePhone : Scope where
  type := "http"
  headers := [(byteName "x-device-id", byteName "phone")]

/-- The middleware can decode all headers. -/
lemma onePhone_decoded :
    (onePhone.headers.get "x-request-id" "").decodeUtf8 = some "" ∧
      Decoded onePhone.headers "phone" "unknown" "unknown" "unknown" :=
  ⟨Bytes.decodeUtf8_toByteArray "",
    ⟨Bytes.decodeUtf8_toByteArray "phone", Bytes.decodeUtf8_toByteArray "unknown",
      Bytes.decodeUtf8_toByteArray "unknown", Bytes.decodeUtf8_toByteArray "unknown"⟩⟩

/-- One header in ASCII is named as it is. -/
theorem logs_name_onePhone : NamesDevice onePhone := by
  have hascii : Bytes.Ascii (byteName "phone") := by decide +kernel
  exact ((logs_name_the_device onePhone (byteName "phone") rfl
    (reaches_of_decoded rfl onePhone_decoded.1 onePhone_decoded.2) rfl).2 rfl).mpr hascii

/-- A request whose header occurs twice: the endpoint acts for `phone`, the logs name `laptop`. -/
def twoDevices : Scope where
  type := "http"
  headers :=
    [(byteName "x-device-id", byteName "phone"), (byteName "x-device-id", byteName "laptop")]

/-- The middleware takes the last of the two values. -/
lemma twoDevices_decoded :
    (twoDevices.headers.get "x-request-id" "").decodeUtf8 = some "" ∧
      Decoded twoDevices.headers "laptop" "unknown" "unknown" "unknown" :=
  ⟨Bytes.decodeUtf8_toByteArray "",
    ⟨Bytes.decodeUtf8_toByteArray "laptop", Bytes.decodeUtf8_toByteArray "unknown",
      Bytes.decodeUtf8_toByteArray "unknown", Bytes.decodeUtf8_toByteArray "unknown"⟩⟩

/-- The request reaches its endpoint, which acts for the first of the two values. -/
theorem logs_misname_twoDevices : Reaches twoDevices ∧
    xDeviceId twoDevices.headers = some "phone" ∧ ¬ NamesDevice twoDevices := by
  have hendpoint : xDeviceId twoDevices.headers = some "phone" := by decide +kernel
  refine ⟨reaches_of_decoded rfl twoDevices_decoded.1 twoDevices_decoded.2, hendpoint, ?_⟩
  rw [namesDevice_iff rfl twoDevices_decoded.1 twoDevices_decoded.2, hendpoint]
  decide

end Http

end SampleAuthApi
