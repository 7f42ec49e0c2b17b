import SampleAuthApi.Http.Tracing

/-!
# Rejected bodies

`_sanitize_errors` turns the `ctx` of an error into strings and passes its `input` on as it is.  The
handler therefore answers a rejected request exactly where the offending values hold nothing that
the JSON encoder refuses (`rejected_body_answered_iff`): no bytes, no integer outside 64 bits and no
surrogate, at any depth, and not too many levels.  A body that is not JSON by its content type is
itself an offending value, and it is bytes.  A JSON body on which `json.loads` raises anything but
its own error never gets to Pydantic: `http_exception_handler` answers it with 400.
-/

namespace SampleAuthApi

namespace Http

variable {f : Framework}

/-- The key of the offending value in an error. -/
def inputKey : PyString := .ofString "input"

/-- What Pydantic writes into an error beside the offending value can be encoded, and its `ctx` is a
dictionary whose values have an encodable `str`. -/
def Ordinary (f : Framework) (err : ErrorDict) : Prop :=
  ∀ key value, (key, value) ∈ err → key.Encodable ∧
    (key ≠ .ofString "ctx" → key ≠ inputKey → f.encodes 3 value = true) ∧
    (key = .ofString "ctx" → ∃ entries, value = .dict entries ∧
      ∀ k w, (k, w) ∈ entries → k.Encodable ∧ (f.pyStr w).Encodable)

/-- The offending value of an error can be encoded. -/
def PlainInput (f : Framework) (err : ErrorDict) : Prop :=
  ∀ input, (inputKey, input) ∈ err → (∀ w : PyValue, w.Within input → ¬ w.Refused) ∧
    3 + input.depth ≤ f.encoderDepth

/-! ## Sanitising -/

lemma inputKey_ne_ctx : inputKey ≠ .ofString "ctx" := by
  decide

/-- The entries that `_sanitize_errors` keeps. -/
lemma encodes_clean_iff {err : ErrorDict} (h : Ordinary f err) :
    (∀ key v, (key, v) ∈ err.filter (fun e => decide (e.1 ≠ .ofString "ctx")) →
      key.Encodable ∧ f.encodes 3 v = true) ↔ PlainInput f err := by
  unfold PlainInput
  simp only [← PyValue.accepts_iff, ← encodes_iff]
  constructor
  · intro hclean input hinput
    refine (hclean inputKey input ?_).2
    rw [List.mem_filter, decide_eq_true_eq]
    exact ⟨hinput, inputKey_ne_ctx⟩
  · intro hinput key value hmem
    rw [List.mem_filter, decide_eq_true_eq] at hmem
    obtain ⟨hmem, hctx⟩ := hmem
    obtain ⟨hkey, hother, -⟩ := h key value hmem
    refine ⟨hkey, ?_⟩
    by_cases hin : key = inputKey
    · subst hin
      exact hinput value hmem
    · exact hother hctx hin

/-- The sanitised `ctx` is encoded. -/
lemma encodes_ctx {entries : List (PyString × PyValue)}
    (h : ∀ k w, (k, w) ∈ entries → k.Encodable ∧ (f.pyStr w).Encodable) :
    f.encodes 3 (.dict (entries.map fun e => (e.1, .str (f.pyStr e.2)))) = true := by
  refine (encodes_dict (by omega)).mpr fun key value hmem => ?_
  obtain ⟨e, he, heq⟩ := List.mem_map.mp hmem
  cases heq
  obtain ⟨hkey, hvalue⟩ := h e.1 e.2 he
  exact ⟨hkey, encodes_flat (PyValue.accepts_str.mpr hvalue) (PyValue.depth_str _) le_rfl⟩

/-- An ordinary error is sanitised, and the result can be encoded exactly where its offending value
can. -/
theorem sanitizeError_of_ordinary {err : ErrorDict} (h : Ordinary f err) :
    ∃ d, sanitizeError f err = .ok d ∧ (f.encodes 2 d = true ↔ PlainInput f err) := by
  have hclean := encodes_clean_iff h
  unfold sanitizeError
  cases hctx : err.lookup (.ofString "ctx") with
  | none => exact ⟨_, rfl, (encodes_dict (by omega)).trans hclean⟩
  | some value =>
    have hmem : (PyString.ofString "ctx", value) ∈ err := by
      obtain ⟨l₁, l₂, rfl, -⟩ := List.lookup_eq_some_iff.mp hctx
      simp
    obtain ⟨entries, rfl, hentries⟩ := (h _ _ hmem).2.2 rfl
    refine ⟨_, rfl, ?_⟩
    rw [encodes_dict (by omega), ← hclean]
    constructor
    · intro hall key v hv
      exact hall key v (List.mem_append_left _ hv)
    · intro hall key v hv
      rcases List.mem_append.mp hv with hv | hv
      · exact hall key v hv
      · rw [List.mem_singleton] at hv
        cases hv
        exact ⟨encodable_ofString "ctx", encodes_ctx hentries⟩

/-- Ordinary errors are sanitised, and the list can be encoded exactly where all offending values
can. -/
theorem sanitizeErrors_of_ordinary {errors : List ErrorDict}
    (h : ∀ err ∈ errors, Ordinary f err) :
    ∃ detail, sanitizeErrors f errors = .ok detail ∧
      ((∀ d ∈ detail, f.encodes 2 d = true) ↔ ∀ err ∈ errors, PlainInput f err) := by
  unfold sanitizeErrors
  induction errors with
  | nil => exact ⟨[], rfl, by simp⟩
  | cons err errors ih =>
    obtain ⟨d, hd, hplain⟩ := sanitizeError_of_ordinary (h err (List.mem_cons_self ..))
    obtain ⟨detail, hdetail, hrest⟩ := ih fun e he => h e (List.mem_cons_of_mem _ he)
    refine ⟨d :: detail, ?_, ?_⟩
    · rw [List.mapM_cons, hd, hdetail]
      rfl
    · simp only [List.mem_cons, forall_eq_or_imp]
      rw [hplain, hrest]

/-- The errors can be sent when every part of them can be encoded. -/
theorem sendable_iff {errors : List ErrorDict} (h : ∀ err ∈ errors, Ordinary f err) :
    Sendable f errors ↔ ∀ err ∈ errors, PlainInput f err := by
  obtain ⟨detail, hdetail, hiff⟩ := sanitizeErrors_of_ordinary h
  rw [← hiff]
  unfold Sendable
  constructor
  · rintro ⟨detail', hdetail', hall⟩
    rw [hdetail] at hdetail'
    cases hdetail'
    exact hall
  · exact fun hall => ⟨detail, hdetail, hall⟩

/-! ## The response -/

/-- The handler of the exception answers with a response that satisfies `P`, whatever the state of
the request. -/
def Answers (f : Framework) (e : Raised) (P : HttpResponse → Prop) : Prop :=
  ∃ handler, exceptionHandlers f e = some handler ∧ ∀ c x c', EndsIn handler c x c' →
    ∃ response, x = .ok response ∧ P response

/-- The response of `validation_exception_handler`: status 422 and `SYS_004`. -/
def IsRejection (response : HttpResponse) : Prop :=
  response.status = 422 ∧ ∃ entries, response.content = pyDict entries ∧
    entries.lookup "error_code" = some (.text "SYS_004")

/-- The response of `http_exception_handler` to a body that cannot be parsed. -/
def IsParsingError (response : HttpResponse) : Prop :=
  response.status = 400 ∧ ∃ entries, response.content = pyDict entries ∧
    entries.lookup "error_code" = some (.text "SYS_400") ∧
    entries.lookup "message" = some (.text "There was an error parsing the body")

/-- The exception carries errors that can be encoded when they are sanitised, and
`validation_exception_handler` answers with them. -/
def Rejected (f : Framework) (e : Raised) : Prop :=
  (∃ errors, e = .validation errors ∧ Sendable f errors) ∧ Answers f e IsRejection

/-- The handler does not fail where the sanitised errors can be encoded. -/
theorem answers_of_sendable {errors : List ErrorDict} (h : Sendable f errors) :
    Answers f (.validation errors) IsRejection := by
  refine ⟨_, rfl, fun c => Program.wp_demonic.mp ?_⟩
  obtain ⟨detail, hdetail, hencodes⟩ := h
  unfold validationExceptionHandler
  rw [hdetail]
  simp only [Program.wp_bind, Program.wp_perform, observer_getRequestId, Program.afterBind_ok,
    Program.wp_ofExcept, observer_now]
  intro t
  have hlist : f.encodes 1 (.list detail) = true := (encodes_list (by omega)).mpr hencodes
  rw [wp_orjsonResponse (encodes_pyDict (Nat.zero_le _) (by simp [hlist, PyValue.accepts]))]
  exact ⟨_, rfl, rfl, _, rfl, rfl⟩

/-- For ordinary errors, the offending values decide. -/
theorem rejected_iff {errors : List ErrorDict} (h : ∀ err ∈ errors, Ordinary f err) :
    Rejected f (.validation errors) ↔ ∀ err ∈ errors, PlainInput f err := by
  rw [← sendable_iff h]
  constructor
  · rintro ⟨⟨errors', heq, hsendable⟩, -⟩
    cases heq
    exact hsendable
  · exact fun hsendable => ⟨⟨errors, rfl, hsendable⟩, answers_of_sendable hsendable⟩

/-- A body that cannot be parsed is answered with 400. -/
theorem answers_parsingError :
    Answers f (.http 400 "There was an error parsing the body") IsParsingError := by
  refine ⟨_, rfl, fun c => Program.wp_demonic.mp ?_⟩
  unfold httpExceptionHandler
  simp only [Program.wp_bind, Program.wp_perform, observer_getRequestId, Program.afterBind_ok,
    observer_now]
  intro t
  rw [wp_orjsonResponse (encodes_pyDict (Nat.zero_le _) (by simp [PyValue.accepts]))]
  exact ⟨_, rfl, rfl, _, rfl, rfl, rfl⟩

/-! ## Requests -/

/-- The body is JSON by its content type, and `json.loads` raises anything but its own error. -/
def Validator.Unreadable (v : Validator) (contentType : Option String) (body : Bytes) : Prop :=
  body ≠ ByteArray.empty ∧ v.isJson contentType = true ∧ v.loads body = .error .other

section Requests

variable {v : Validator} {contentType : Option String} {body : Bytes} {e : Raised}

/-- A body that is not JSON by its content type stays as it is. -/
theorem Validator.parse_raw (hjson : v.isJson contentType = false)
    (hbody : body ≠ ByteArray.empty) : v.parse contentType body = .ok (.bytes body) := by
  rw [Validator.parse, if_neg hbody, if_neg (by simp [hjson])]

/-- A JSON body is parsed. -/
theorem Validator.parse_json {value : PyValue} (hjson : v.isJson contentType = true)
    (hbody : body ≠ ByteArray.empty) (hloads : v.loads body = .ok value) :
    v.parse contentType body = .ok value := by
  rw [Validator.parse, if_neg hbody, if_pos hjson, hloads]

/-- What is parsed is rejected with the errors of Pydantic. -/
theorem Validator.rejection_of_parse {value : PyValue}
    (hparse : v.parse contentType body = .ok value) (h : v.rejection contentType body = some e) :
    e = .validation (v.validate value) := by
  rw [Validator.rejection, hparse] at h
  change (if v.validate value = [] then none else some (Raised.validation (v.validate value))) =
    some e at h
  split at h
  · cases h
  · cases h
    rfl

/-- A rejection is that of a body that cannot be read, or carries errors. -/
theorem Validator.rejection_cases (h : v.rejection contentType body = some e) :
    (v.Unreadable contentType body ∧ e = .http 400 "There was an error parsing the body") ∨
      (¬ v.Unreadable contentType body ∧ ∃ errors, e = .validation errors) := by
  by_cases hbody : body = ByteArray.empty
  · have hparse : v.parse contentType body = .ok .none := by rw [Validator.parse, if_pos hbody]
    exact .inr ⟨fun hun => hun.1 hbody, _, rejection_of_parse hparse h⟩
  cases hjson : v.isJson contentType with
  | false =>
    refine .inr ⟨fun hun => ?_, _, rejection_of_parse (parse_raw hjson hbody) h⟩
    cases hjson.symm.trans hun.2.1
  | true =>
    cases hloads : v.loads body with
    | ok value =>
      refine .inr ⟨fun hun => ?_, _, rejection_of_parse (parse_json hjson hbody hloads) h⟩
      cases hloads.symm.trans hun.2.2
    | error err =>
      rw [Validator.rejection, Validator.parse, if_neg hbody, if_pos hjson, hloads] at h
      cases err with
      | jsonDecode =>
        cases h
        refine .inr ⟨fun hun => ?_, _, rfl⟩
        cases hloads.symm.trans hun.2.2
      | other =>
        cases h
        exact .inl ⟨⟨hbody, hjson, hloads⟩, rfl⟩

end Requests

/-- What the framework promises of the errors of a request. -/
structure Validator.Lawful (f : Framework) (v : Validator) : Prop where
  /-- Beside the offending value, an error holds what can be encoded. -/
  ordinary : ∀ contentType body errors, v.rejection contentType body = some (.validation errors) →
    ∀ err ∈ errors, Ordinary f err
  /-- The offending value of an error is a value of the body. -/
  offending : ∀ value, ∀ err ∈ v.validate value, ∀ input, (inputKey, input) ∈ err →
    input.Within value
  /-- Raw bytes are an offending value of their own. -/
  raw : ∀ b, ∃ err ∈ v.validate (.bytes b), (inputKey, .bytes b) ∈ err

/-- A rejected request gets its 422 exactly where `json.loads` has not raised an exception other
than its own, and no offending value holds, at any depth, a value that the encoder refuses, or is
nested too deep for it.  A JSON body whose values can all be encoded gets it, a body that is not
JSON by its content type never does, and a body on which `json.loads` raises another exception is
answered with 400. -/
theorem rejected_body_answered_iff (f : Framework) (v : Validator) (hv : v.Lawful f)
    (contentType : Option String) (body : Bytes) (e : Raised)
    (h : v.rejection contentType body = some e) :
    (Rejected f e ↔ ¬ v.Unreadable contentType body ∧ ∀ errors, e = .validation errors →
      ∀ err ∈ errors, ∀ input, (inputKey, input) ∈ err →
        (∀ w : PyValue, w.Within input → ¬ w.Refused) ∧ 3 + input.depth ≤ f.encoderDepth) ∧
    (∀ value, body ≠ ByteArray.empty → v.isJson contentType = true → v.loads body = .ok value →
      (∀ w : PyValue, w.Within value → ¬ w.Refused) → 3 + value.depth ≤ f.encoderDepth →
        Rejected f e) ∧
    (v.isJson contentType = false → body ≠ ByteArray.empty → ¬ Rejected f e) ∧
    (v.Unreadable contentType body → Answers f e IsParsingError) := by
  have hiff : Rejected f e ↔ ¬ v.Unreadable contentType body ∧
      ∀ errors, e = .validation errors → ∀ err ∈ errors, PlainInput f err := by
    rcases Validator.rejection_cases h with ⟨hun, rfl⟩ | ⟨hread, errors, rfl⟩
    · refine iff_of_false ?_ fun hread => hread.1 hun
      rintro ⟨⟨errors, heq, -⟩, -⟩
      cases heq
    · rw [rejected_iff (hv.ordinary contentType body errors h)]
      constructor
      · intro hall
        refine ⟨hread, fun errors' heq => ?_⟩
        cases heq
        exact hall
      · exact fun hall => hall.2 errors rfl
  refine ⟨hiff, ?_, ?_, ?_⟩
  · intro value hbody hjson hloads hvalue hdepth
    refine hiff.mpr ⟨fun hun => ?_, ?_⟩
    · cases hloads.symm.trans hun.2.2
    · rintro errors rfl err herr input hinput
      cases Validator.rejection_of_parse (Validator.parse_json hjson hbody hloads) h
      have hwithin := hv.offending value err herr input hinput
      have hle := hwithin.depth_le
      exact ⟨fun w hw => hvalue w (hw.trans hwithin), by omega⟩
  · intro hjson hbody hrejected
    cases Validator.rejection_of_parse (Validator.parse_raw hjson hbody) h
    obtain ⟨err, herr, hinput⟩ := hv.raw body
    exact ((hiff.mp hrejected).2 _ rfl err herr _ hinput).1 _ .refl trivial
  · intro hun
    rcases Validator.rejection_cases h with ⟨-, rfl⟩ | ⟨hread, -⟩
    · exact answers_parsingError
    · exact absurd hun hread

/-! ## A route -/

/-- The error of Pydantic for a body that is no object. -/
def modelAttributesType (input : PyValue) : ErrorDict :=
  [(.ofString "type", .text "model_attributes_type"),
    (.ofString "loc", .list [.text "body"]),
    (.ofString "msg", .text "Input should be a valid dictionary or object to extract fields from"),
    (inputKey, input)]

/-- The error of FastAPI for a body that is no JSON. -/
def jsonInvalidError : ErrorDict :=
  [(.ofString "type", .text "json_invalid"),
    (.ofString "loc", .list [.text "body", .int 0]),
    (.ofString "msg", .text "JSON decode error"),
    (inputKey, .dict []),
    (.ofString "ctx", .dict [(.ofString "error", .text "Expecting value")])]

/-- A body that is a list with a list in it. -/
def listBody : Bytes := byteName "[\"hello\", [7]]"

/-- The list. -/
def listValue : PyValue := .list [.text "hello", .list [.int 7]]

/-- A route whose body is any object, under `application/json` or no content type. -/
def objectRoute : Validator where
  isJson := fun contentType => decide (contentType = none ∨ contentType = some "application/json")
  loads := fun b =>
    if b = listBody then .ok listValue
    else if b.decodeUtf8.isNone then .error .other
    else .error .jsonDecode
  jsonInvalid := fun _ => [jsonInvalidError]
  validate := fun value =>
    match value with
    | .dict _ => []
    | value => [modelAttributesType value]

lemma objectRoute_validate {value : PyValue} {err : ErrorDict}
    (h : err ∈ objectRoute.validate value) : err = modelAttributesType value := by
  cases value with
  | dict entries => cases h
  | _ => exact List.mem_singleton.mp h

lemma encodes_loc {n : ℤ} (h : PyValue.Fits n) :
    plainFramework.encodes 3 (.list [.text "body"]) = true ∧
      plainFramework.encodes 3 (.list [.text "body", .int n]) = true := by
  have hint : plainFramework.encodes 4 (.int n) = true :=
    encodes_flat (PyValue.accepts_int.mpr h) (PyValue.depth_int n) le_rfl
  have htext : plainFramework.encodes 4 (.text "body") = true :=
    encodes_flat (accepts_text _) (PyValue.depth_text _) le_rfl
  constructor
  · exact (encodes_list (by omega)).mpr (by simp [htext])
  · exact (encodes_list (by omega)).mpr (by simp [htext, hint])

lemma fits_zero : PyValue.Fits 0 := by
  unfold PyValue.Fits
  omega

lemma encodes_note (s : String) : plainFramework.encodes 3 (.text s) = true :=
  encodes_flat (accepts_text s) (PyValue.depth_text s) (by omega)

lemma ordinary_modelAttributesType (input : PyValue) :
    Ordinary plainFramework (modelAttributesType input) := by
  intro key value hmem
  simp only [modelAttributesType, List.mem_cons, Prod.mk.injEq, List.not_mem_nil, or_false] at hmem
  rcases hmem with ⟨rfl, rfl⟩ | ⟨rfl, rfl⟩ | ⟨rfl, rfl⟩ | ⟨rfl, rfl⟩
  · exact ⟨encodable_ofString _, fun _ _ => encodes_note _, fun h => absurd h (by decide)⟩
  · exact ⟨encodable_ofString _, fun _ _ => (encodes_loc fits_zero).1,
      fun h => absurd h (by decide)⟩
  · exact ⟨encodable_ofString _, fun _ _ => encodes_note _, fun h => absurd h (by decide)⟩
  · exact ⟨encodable_ofString _, fun _ h => (h rfl).elim, fun h => absurd h (by decide)⟩

lemma ordinary_jsonInvalidError : Ordinary plainFramework jsonInvalidError := by
  intro key value hmem
  simp only [jsonInvalidError, List.mem_cons, Prod.mk.injEq, List.not_mem_nil, or_false] at hmem
  rcases hmem with ⟨rfl, rfl⟩ | ⟨rfl, rfl⟩ | ⟨rfl, rfl⟩ | ⟨rfl, rfl⟩ | ⟨rfl, rfl⟩
  · exact ⟨encodable_ofString _, fun _ _ => encodes_note _, fun h => absurd h (by decide)⟩
  · exact ⟨encodable_ofString _, fun _ _ => (encodes_loc fits_zero).2,
      fun h => absurd h (by decide)⟩
  · exact ⟨encodable_ofString _, fun _ _ => encodes_note _, fun h => absurd h (by decide)⟩
  · exact ⟨encodable_ofString _, fun _ h => (h rfl).elim, fun h => absurd h (by decide)⟩
  · refine ⟨encodable_ofString _, fun h => (h rfl).elim, fun _ => ⟨_, rfl, fun k w hkw => ?_⟩⟩
    rw [List.mem_singleton] at hkw
    cases hkw
    exact ⟨encodable_ofString _, encodable_ofString _⟩

/-- The errors of the route are of two kinds. -/
lemma objectRoute_rejection {contentType : Option String} {body : Bytes} {errors : List ErrorDict}
    (h : objectRoute.rejection contentType body = some (.validation errors)) :
    errors = [jsonInvalidError] ∨ ∃ value, errors = objectRoute.validate value := by
  unfold Validator.rejection at h
  split at h
  · rename_i e hparse
    cases h
    unfold Validator.parse at hparse
    split at hparse
    · cases hparse
    · split at hparse
      · split at hparse
        · cases hparse
        · cases hparse
          exact .inl rfl
        · cases hparse
      · cases hparse
  · rename_i value hparse
    cases Validator.rejection_of_parse hparse (by rw [Validator.rejection, hparse]; exact h)
    exact .inr ⟨value, rfl⟩

/-- The errors of the route are ordinary, and stay within the body that they complain about. -/
theorem objectRoute_lawful : objectRoute.Lawful plainFramework where
  ordinary := by
    intro contentType body errors h err herr
    rcases objectRoute_rejection h with rfl | ⟨value, rfl⟩
    · rw [List.mem_singleton.mp herr]
      exact ordinary_jsonInvalidError
    · rw [objectRoute_validate herr]
      exact ordinary_modelAttributesType value
  offending := by
    intro value err herr input hinput
    rw [objectRoute_validate herr] at hinput
    simp only [modelAttributesType, List.mem_cons, Prod.mk.injEq, List.not_mem_nil, or_false]
      at hinput
    rcases hinput with ⟨h, -⟩ | ⟨h, -⟩ | ⟨h, -⟩ | ⟨-, rfl⟩
    · exact absurd h (by decide)
    · exact absurd h (by decide)
    · exact absurd h (by decide)
    · exact .refl
  raw := fun b => ⟨_, List.mem_singleton.mpr rfl, by simp [modelAttributesType]⟩

/-- A list is rejected, and the handler answers. -/
theorem list_body_rejected : ∃ e,
    objectRoute.rejection (some "application/json") listBody = some e ∧
      Rejected plainFramework e := by
  have hbody : listBody ≠ ByteArray.empty := by decide +kernel
  have hjson : objectRoute.isJson (some "application/json") = true := by decide
  have hloads : objectRoute.loads listBody = .ok listValue := by simp [objectRoute]
  have hrejection : objectRoute.rejection (some "application/json") listBody =
      some (.validation [modelAttributesType listValue]) := by
    rw [Validator.rejection, Validator.parse_json hjson hbody hloads]
    rfl
  have haccepts : listValue.accepts = true := by
    simp [listValue, PyValue.accepts, PyValue.acceptsItems, PyValue.Fits]
  have hdepth : listValue.depth = 2 := by decide +kernel
  obtain ⟨-, hplain, -⟩ := rejected_body_answered_iff plainFramework objectRoute objectRoute_lawful
    (some "application/json") listBody _ hrejection
  refine ⟨_, hrejection, hplain listValue hbody hjson hloads (PyValue.accepts_iff.mp haccepts) ?_⟩
  rw [hdepth]
  decide

/-- A plain text body: its error holds the raw bytes, and the handler fails. -/
theorem plain_text_not_rejected : ¬ ∀ e,
    objectRoute.rejection (some "text/plain") (byteName "hello") = some e →
      Rejected plainFramework e := by
  intro hclaim
  have hparse : objectRoute.parse (some "text/plain") (byteName "hello") =
      .ok (.bytes (byteName "hello")) :=
    Validator.parse_raw (by decide) (by decide +kernel)
  have hrejected := hclaim (.validation [modelAttributesType (.bytes (byteName "hello"))])
    (by rw [Validator.rejection, hparse]; rfl)
  rw [rejected_iff (by
    intro err herr
    rw [List.mem_singleton.mp herr]
    exact ordinary_modelAttributesType _)] at hrejected
  exact (hrejected _ (List.mem_singleton.mpr rfl) (.bytes (byteName "hello"))
    (by simp [modelAttributesType])).1 _ .refl trivial

end Http

end SampleAuthApi
