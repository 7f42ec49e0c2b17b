import SampleAuthApi.Model.Environment

/-!
# `app.services.token_store`

The commands that `TokenStore` sends, one Redis round trip each.  The pipeline of
`delete_all_refresh_tokens` is a transaction of `DEL` commands and so one command here.
-/

namespace SampleAuthApi

variable {T : Type} [Instant T]

namespace TokenStore

/-- `store_refresh_token`. -/
def storeRefreshToken (userId : Uuid) (deviceId : String) (tokenId : Uuid)
    (deviceName osType appVersion ipAddress : Option String) (expiresAt : T) : Proc T Unit := do
  let key := Key.refresh userId deviceId
  let now ← utcnow
  let ttl := Instant.truncInt (expiresAt - now)
  if ttl ≤ 0 then pure ()
  else do
    let data : StoredRefreshToken :=
      { tokenId, userId, deviceId, deviceName, osType, appVersion, ipAddress
        issuedAt := Instant.truncInt now
        expiresAt := Instant.truncInt expiresAt }
    redis (.setex key ttl (.refreshToken data))
    redis (.sadd (.devices userId) deviceId)

/-- `get_refresh_token`; a document without the key `token_id` makes its caller fail. -/
def getRefreshToken (userId : Uuid) (deviceId : String) : Proc T (Option StoredRefreshToken) := do
  match ← redis (.get (.refresh userId deviceId)) with
  | none => pure none
  | some (.refreshToken data) => pure (some data)
  | some (.blacklistEntry _) => throw .keyMissing

/-- `delete_refresh_token`. -/
def deleteRefreshToken (userId : Uuid) (deviceId : String) : Proc T Unit := do
  redis (.del {Key.refresh userId deviceId})
  redis (.srem (.devices userId) deviceId)

/-- The keys that the pipeline of `delete_all_refresh_tokens` deletes. -/
def bulkKeys (userId : Uuid) (deviceIds : Finset String) : Finset Key :=
  insert (Key.devices userId) (deviceIds.image (Key.refresh userId))

/-- `delete_all_refresh_tokens`. -/
def deleteAllRefreshTokens (userId : Uuid) : Proc T ℕ := do
  let deviceIds ← redis (.smembers (.devices userId))
  let count := deviceIds.card
  if 0 < count then redis (.del (bulkKeys userId deviceIds))
  else redis (.del {Key.devices userId})
  pure count

/-- `blacklist_token`. -/
def blacklistToken (jti userId : Uuid) (deviceId reason : String) (ttlSeconds : ℤ) :
    Proc T Unit := do
  if ttlSeconds ≤ 0 then pure ()
  else do
    let now ← utcnow
    let data : BlacklistEntry := ⟨userId, deviceId, reason, Instant.truncInt now⟩
    redis (.setex (.blacklist jti) ttlSeconds (.blacklistEntry data))

/-- `is_token_blacklisted`. -/
def isTokenBlacklisted (jti : Uuid) : Proc T Bool := redis (.existsKey (.blacklist jti))

@[simp] theorem mem_bulkKeys_refresh {u v : Uuid} {d : String} {ds : Finset String} :
    Key.refresh v d ∈ bulkKeys u ds ↔ v = u ∧ d ∈ ds := by
  simp [bulkKeys, eq_comm, and_comm]

@[simp] theorem mem_bulkKeys_devices {u v : Uuid} {ds : Finset String} :
    Key.devices v ∈ bulkKeys u ds ↔ v = u := by
  simp [bulkKeys]

@[simp] theorem not_mem_bulkKeys_blacklist {u : Uuid} {j : Uuid} {ds : Finset String} :
    Key.blacklist j ∉ bulkKeys u ds := by
  simp [bulkKeys]

end TokenStore

/-! ## The names of the keys -/

section Names

omit [Instant T]

/-- An id is its text. -/
theorem Uuid.eq_of_toList {u v : Uuid} (h : u.val.toList = v.val.toList) : u = v := by
  cases u
  cases v
  cases String.toList_injective h
  rfl

/-- There is no colon in an id, so that a key can be taken apart. -/
theorem Uuid.colon_notMem (u : Uuid) : ':' ∉ u.val.toList := by
  intro hmem
  have hc := List.all_eq_true.mp u.hex ':' hmem
  revert hc
  decide

/-- An id ends at the first colon. -/
lemma Uuid.takeWhile_val (u : Uuid) (rest : List Char) :
    (u.val.toList ++ ':' :: rest).takeWhile (· ≠ ':') = u.val.toList := by
  rw [List.takeWhile_append_of_pos, List.takeWhile_cons_of_neg (by simp), List.append_nil]
  intro c hc
  rw [decide_eq_true_eq]
  rintro rfl
  exact u.colon_notMem hc

/-- The keys whose name starts like those of the refresh tokens of a user are theirs. -/
theorem Key.refresh_of_prefix {u : Uuid} {k : Key}
    (h : ("auth:rt:" ++ u.val ++ ":").toList <+: k.name.toList) : ∃ d, k = .refresh u d := by
  obtain ⟨rest, h⟩ := h
  cases k with
  | refresh v d =>
    have hname : u.val.toList ++ ':' :: rest = v.val.toList ++ ':' :: d.toList := by
      simpa [Key.name] using h
    have hval : u.val.toList = v.val.toList := by
      rw [← u.takeWhile_val rest, ← v.takeWhile_val d.toList, hname]
    exact ⟨d, by rw [Uuid.eq_of_toList hval]⟩
  | devices v => simp [Key.name] at h
  | blacklist j => simp [Key.name] at h

/-- Two keys with one name are one key, whatever the device ids. -/
theorem Key.name_injective : Function.Injective Key.name := by
  intro k k' h
  have hlist : k.name.toList = k'.name.toList := by rw [h]
  cases k with
  | refresh u d =>
    obtain ⟨d', rfl⟩ : ∃ d', k' = .refresh u d' :=
      Key.refresh_of_prefix ⟨d.toList, by rw [← hlist]; simp [Key.name]⟩
    have hd : d.toList = d'.toList := by simpa [Key.name] using hlist
    rw [String.toList_injective hd]
  | devices u =>
    cases k' with
    | devices v =>
      have hval : u.val.toList = v.val.toList := by simpa [Key.name] using hlist
      rw [Uuid.eq_of_toList hval]
    | _ => simp [Key.name] at hlist
  | blacklist j =>
    cases k' with
    | blacklist j' =>
      have hval : j.val.toList = j'.val.toList := by simpa [Key.name] using hlist
      rw [Uuid.eq_of_toList hval]
    | _ => simp [Key.name] at hlist

end Names

end SampleAuthApi
