import SampleAuthApi.Foundation.Paths
import SampleAuthApi.Model.Api

/-!
# `app.api.v1.router`

The routes of the service.  The path of a request is percent-decoded and read as UTF-8 before it is
matched; a path that is not UTF-8 matches nothing here.  The first route with the method of the
request whose pattern matches the path takes the request.
-/

namespace SampleAuthApi

/-- The methods of the routes. -/
inductive Method
  | get
  | post
  | put
  | patch
  | delete
  deriving DecidableEq

/-- The endpoints, with the path parameters that they are called with. -/
inductive Endpoint
  | signup
  | login
  | refresh
  | logout
  | logoutAll
  | getMe
  | updateMe
  | changePassword
  | deleteAccount
  | listDevices
  | forceLogoutDevice (deviceId : String)
  deriving DecidableEq

/-- A route: its method, its path pattern and its endpoint, given the captured segments. -/
structure Route where
  method : Method
  pattern : PathPattern
  endpoint : List (List Char) → Option Endpoint

/-- A route without path parameters. -/
def Route.fixed (method : Method) (path : String) (endpoint : Endpoint) : Route where
  method := method
  pattern := [.literal path.toList]
  endpoint _ := some endpoint

/-- The prefix of `DELETE /api/v1/users/me/devices/{device_id}`. -/
def devicesPrefix : String := "/api/v1/users/me/devices/"

/-- The route of `force_logout_device`. -/
def forceLogoutRoute : Route where
  method := .delete
  pattern := [.literal devicesPrefix.toList, .segment]
  endpoint captures := captures.head?.map fun d => .forceLogoutDevice (String.ofList d)

/-- The routes of `api_v1_router`, in the order of their registration. -/
def routes : List Route :=
  [.fixed .post "/api/v1/auth/signup" .signup,
    .fixed .post "/api/v1/auth/login" .login,
    .fixed .post "/api/v1/auth/refresh" .refresh,
    .fixed .post "/api/v1/auth/logout" .logout,
    .fixed .post "/api/v1/auth/logout/all" .logoutAll,
    .fixed .get "/api/v1/users/me" .getMe,
    .fixed .patch "/api/v1/users/me" .updateMe,
    .fixed .put "/api/v1/users/me/password" .changePassword,
    .fixed .delete "/api/v1/users/me" .deleteAccount,
    .fixed .get "/api/v1/users/me/devices" .listDevices,
    forceLogoutRoute]

/-- The endpoint that a route calls for a request, if it takes it. -/
def Route.take (route : Route) (method : Method) (path : String) : Option Endpoint :=
  if route.method = method then (route.pattern.matchPath path.toList).bind route.endpoint else none

/-- The path of a request target. -/
def unquote (target : List UInt8) : Option String :=
  Bytes.decodeUtf8 (Percent.decode target).toByteArray

/-- The endpoint that a request reaches. -/
def dispatch (method : Method) (target : List UInt8) : Option Endpoint := do
  let path ← unquote target
  routes.findSome? fun route => route.take method path

/-- The target of a forced logout of the device `d`, whose id is percent-encoded. -/
def deviceTarget (d : String) : List UInt8 :=
  Bytes.utf8 devicesPrefix ++ Percent.encode (Bytes.utf8 d)

/-! ## The route of a forced logout -/

lemma unquote_deviceTarget (d : String) : unquote (deviceTarget d) = some (devicesPrefix ++ d) := by
  have hplain : Percent.percent ∉ Bytes.utf8 devicesPrefix := by decide +kernel
  unfold unquote deviceTarget
  rw [Percent.decode_append_of_notMem hplain, Percent.decode_encode, ← Bytes.utf8_append,
    Bytes.toByteArray_utf8]
  exact Bytes.decodeUtf8_toByteArray _

/-- A route without path parameters takes the requests for its method and path. -/
lemma Route.take_fixed {method method' : Method} {path path' : String} {endpoint : Endpoint} :
    (Route.fixed method path endpoint).take method' path' =
      if method = method' ∧ path' = path then some endpoint else none := by
  unfold Route.take Route.fixed
  simp only [PathPattern.matchPath_literal, String.toList_inj]
  by_cases hmethod : method = method'
  · by_cases hpath : path' = path
    · simp [hmethod, hpath]
    · simp [hmethod, hpath]
  · simp [hmethod]

/-- The only route that takes a forced logout is its own. -/
lemma findSome_routes (d : String) :
    (routes.findSome? fun route => route.take .delete (devicesPrefix ++ d)) =
      forceLogoutRoute.take .delete (devicesPrefix ++ d) := by
  have haccount : devicesPrefix ++ d ≠ "/api/v1/users/me" := by
    intro h
    have hlen := congrArg String.length h
    rw [String.length_append] at hlen
    have hprefix : devicesPrefix.length = 25 := by decide
    have hfixed : "/api/v1/users/me".length = 16 := by decide
    omega
  simp only [routes, List.findSome?_cons, List.findSome?_nil, Route.take_fixed, haccount, and_false,
    reduceCtorEq, false_and, if_false]
  cases forceLogoutRoute.take .delete (devicesPrefix ++ d) <;> rfl

/-- A forced logout reaches its endpoint, with the id of the device, exactly when the id is neither
empty nor contains a `/`. -/
theorem dispatch_deviceTarget (d : String) :
    dispatch .delete (deviceTarget d) = some (.forceLogoutDevice d) ↔ d ≠ "" ∧ '/' ∉ d.toList := by
  have hempty : d.toList = [] ↔ d = "" := by
    rw [← String.toList_inj]
    rfl
  have htake : forceLogoutRoute.take .delete (devicesPrefix ++ d) =
      (PathPattern.matchPath [.literal devicesPrefix.toList, .segment]
        (devicesPrefix ++ d).toList).bind forceLogoutRoute.endpoint := rfl
  unfold dispatch
  rw [unquote_deviceTarget, Option.bind_eq_bind, Option.bind_some, findSome_routes, htake,
    String.toList_append]
  constructor
  · intro h
    obtain ⟨captures, hmatch, -⟩ := Option.bind_eq_some_iff.mp h
    obtain ⟨-, hne, hslash⟩ := PathPattern.matchPath_literal_segment.mp hmatch
    exact ⟨mt hempty.mpr hne, hslash⟩
  · rintro ⟨hne, hslash⟩
    rw [PathPattern.matchPath_literal_segment.mpr ⟨rfl, mt hempty.mp hne, hslash⟩, Option.bind_some]
    simp [forceLogoutRoute]

end SampleAuthApi
