import SampleAuthApi.Model.Server

/-!
# Scripts

Lists of events that serve one request of the service in a slot of its own, and a service whose
third-party code is as plain as its documentation allows: signatures that cannot be forged because
tokens are their claims, and a password context that compares passwords.  Runs of the service on
given requests are replayed from scripts.
-/

namespace SampleAuthApi

open Pool

/-- The events of a run of the service. -/
abbrev ServiceEvent (T K : Type) : Type := Event (Request K) (Choice T)

section Scripts

variable {T K : Type}

/-- Slot `i` makes `n` calls that are carried out. -/
def goes (i n : ℕ) : List (ServiceEvent T K) := List.replicate n (.step i .go)

/-- Slot `i` draws `u`. -/
def draws (i : ℕ) (u : Uuid) : List (ServiceEvent T K) := [.step i (.uuid u)]

/-- The calls of a successful login up to its `SETEX`, with the values that it draws. -/
def loginCalls (i : ℕ) (a r : Uuid) : List (ServiceEvent T K) :=
  goes i 9 ++ draws i a ++ goes i 1 ++ draws i r ++ goes i 1

/-- A successful login. -/
def loginScript (i : ℕ) (email password : String) (client : ClientInfo) (a r : Uuid) :
    List (ServiceEvent T K) :=
  [.start (.login email password client)] ++ loginCalls i a r ++ goes i 5 ++ [.respond i]

/-- The calls of a successful refresh after its `GET`, with the values that it draws. -/
def rotateCalls (i : ℕ) (a r : Uuid) : List (ServiceEvent T K) :=
  goes i 2 ++ draws i a ++ goes i 1 ++ draws i r ++ goes i 4

/-- A successful refresh. -/
def refreshScript (i : ℕ) (tok : K) (client : ClientInfo) (a r : Uuid) :
    List (ServiceEvent T K) :=
  [.start (.refresh tok client)] ++ goes i 2 ++ rotateCalls i a r ++ [.respond i]

end Scripts

/-! ## A plain service -/

namespace Plain

/-- Tokens that are their claims: every signature verifies. -/
def jwt : Signature Claims := ⟨id, some, fun _ => rfl⟩

/-- Hashes that are their passwords. -/
def pwdContext : CryptContext := ⟨fun _ password => .ok password, fun p h => .ok (p == h)⟩

/-- The service with the default settings. -/
def externals : Externals Claims := ⟨{}, jwt, pwdContext, "dummy"⟩

/-- The id of the only user. -/
def aliceId : Uuid := ⟨"0a", by decide⟩

/-- The only user. -/
def alice : User ℚ where
  id := aliceId
  email := "alice@example.com"
  hashedPassword := "old"
  name := "Alice"
  phoneNumber := none
  profileImageUrl := none
  status := .active
  marketingAgreed := false
  lastLoginAt := none
  createdAt := 0
  updatedAt := 0
  deletedAt := none

/-- The service before its first request. -/
def start : World ℚ Claims :=
  Pool.initial (Stores.initial 0 ⟨[alice], [], [], by simp, by simp, by simp⟩ [aliceId])

/-- The service before its first user. -/
def deserted : World ℚ Claims := Pool.initial (Stores.initial 0 Database.empty [])

/-- Values for `uuid4`. -/
def a₁ : Uuid := ⟨"a1", by decide⟩

@[inherit_doc a₁] def a₂ : Uuid := ⟨"a2", by decide⟩
@[inherit_doc a₁] def a₃ : Uuid := ⟨"a3", by decide⟩
@[inherit_doc a₁] def r₁ : Uuid := ⟨"b1", by decide⟩
@[inherit_doc a₁] def r₂ : Uuid := ⟨"b2", by decide⟩
@[inherit_doc a₁] def r₃ : Uuid := ⟨"b3", by decide⟩

/-- The only device. -/
def phone : ClientInfo := { xDeviceId := "phone" }

/-- The access token that is made for the phone at the instant `t`. -/
def access (t : ℚ) (a : Uuid) : Claims :=
  JwtService.accessClaims externals.settings aliceId "alice@example.com" "Alice" "phone" t a

/-- The refresh token that is made for the phone at the instant `t`. -/
def refresh (t : ℚ) (r : Uuid) : Claims :=
  JwtService.refreshClaims externals.settings aliceId "phone" t r

/-- Alice is logged in on her phone when an administrator suspends her. -/
def suspended : Stores ℚ where
  now := 0
  redis := Redis.Store.empty.update 0 (.setex (.refresh aliceId "phone") 2592000
    (.refreshToken ⟨r₁, aliceId, "phone", none, none, none, none, 0, 2592000⟩))
  db := ⟨⟨[{ alice with status := .inactive }], [], [], by simp, by simp, by simp⟩, []⟩
  drawn := [aliceId, a₁, r₁]

end Plain

/-- The request has been answered with the exception `err`. -/
def answeredBy (err : Exc) (y : Reply ℚ Claims) : Bool :=
  match y.result with
  | .ok _ => false
  | .error e => decide (e = err)

lemma answeredBy_iff {err : Exc} {y : Reply ℚ Claims} (h : answeredBy err y = true) :
    y.result = .error err := by
  unfold answeredBy at h
  split at h
  · cases h
  · rename_i e hres
    rw [hres, of_decide_eq_true h]

end SampleAuthApi
