import SampleAuthApi.Sessions.Revocation
import SampleAuthApi.Sessions.Rows

/-!
# What a request does to one device

`Touch` says what a request that is served alone does to the device `d` of the user `u`, in both
stores at once: the request leaves the device alone, opens a session for it, ends its session, or
ends all sessions of `u`.  Everything that is known of serial runs about sessions and device rows
is a case analysis on `Touch` (`Served.touch`).
-/

namespace SampleAuthApi

open Transactions Pool

variable {T K : Type} [Instant T]

/-! ## Active device rows -/

namespace Database

omit [Instant T]

/-- The row of the device `d` of `u` is active. -/
def Active (db : Database T) (u : Uuid) (d : String) : Prop :=
  ∃ row ∈ db.devices, row.userId = u ∧ row.deviceId = d ∧ row.isActive = true

variable {db : Database T} {u v : Uuid} {d e : String}

lemma active_congr {db' : Database T} (h : db'.devices = db.devices) :
    db'.Active u d ↔ db.Active u d := by
  rw [Active, Active, h]

/-- An `UPDATE` of another row. -/
lemma active_updateDevice_of_ne {c : UserDevicePatch T} (h : ¬ (u = v ∧ d = e)) :
    (db.updateDevice v e c).Active u d ↔ db.Active u d := by
  constructor
  · rintro ⟨row, hrow, rfl, rfl, hact⟩
    obtain ⟨r, hr, rfl⟩ := List.mem_map.mp hrow
    by_cases hkey : r.userId = v ∧ r.deviceId = e
    · rw [if_pos hkey] at h
      exact absurd hkey h
    · rw [if_neg hkey] at hact ⊢
      exact ⟨r, hr, rfl, rfl, hact⟩
  · rintro ⟨row, hrow, rfl, rfl, hact⟩
    exact ⟨row, List.mem_map.mpr ⟨row, hrow, if_neg h⟩, rfl, rfl, hact⟩

/-- An `UPDATE` of the row itself. -/
lemma active_updateDevice_self {c : UserDevicePatch T} :
    (db.updateDevice u d c).Active u d ↔ ∃ row ∈ db.devices, row.userId = u ∧ row.deviceId = d ∧
      c.isActive.getD row.isActive = true := by
  constructor
  · rintro ⟨row, hrow, hu, hd, hact⟩
    obtain ⟨r, hr, rfl⟩ := List.mem_map.mp hrow
    by_cases hkey : r.userId = u ∧ r.deviceId = d
    · rw [if_pos hkey] at hact
      exact ⟨r, hr, hkey.1, hkey.2, hact⟩
    · rw [if_neg hkey] at hu hd
      exact absurd ⟨hu, hd⟩ hkey
  · rintro ⟨row, hrow, hu, hd, hact⟩
    refine ⟨c.apply row, List.mem_map.mpr ⟨row, hrow, if_pos ⟨hu, hd⟩⟩, hu, hd, hact⟩

/-- A device is in the list of active devices exactly when its row is active. -/
lemma active_iff_select : db.Active u d ↔
    ∃ row ∈ db.select (.activeDevices u), row.deviceId = d := by
  constructor
  · rintro ⟨row, hrow, hu, hd, hact⟩
    exact ⟨row, mem_select_active.mpr ⟨hrow, hu, hact⟩, hd⟩
  · rintro ⟨row, hrow, hd⟩
    obtain ⟨hmem, hu, hact⟩ := mem_select_active.mp hrow
    exact ⟨row, hmem, hu, hd, hact⟩

/-- The row of the device that is selected by its key. -/
lemma active_of_select {row : UserDevice T}
    (h : db.select (.deviceByUserAndDevice u d) = some row) :
    db.Active u d ↔ row.isActive = true := by
  obtain ⟨hu, hd⟩ := select_device h
  have hmem := mem_of_select_device h
  constructor
  · rintro ⟨r, hr, hu', hd', hact⟩
    rwa [device_unique hmem hr ⟨hu.trans hu'.symm, hd.trans hd'.symm⟩]
  · exact fun hact => ⟨row, hmem, hu, hd, hact⟩

lemma not_active_of_select_none (h : db.select (.deviceByUserAndDevice u d) = none) :
    ¬ db.Active u d := by
  rintro ⟨r, hr, hu, hd, -⟩
  exact select_device_eq_none.mp h r hr ⟨hu, hd⟩

/-- A login makes the row of its device active and leaves the other rows alone. -/
lemma active_upsert {s : Stores T} {write : Write T} {db' : Database T}
    (h : Upserts s v e write) (hs : s.db.committed = db) (happ : apply write db = some db') :
    db'.Active u d ↔ (u = v ∧ d = e) ∨ db.Active u d := by
  cases write with
  | insertDevice device =>
    obtain ⟨hu, hd, hact, -⟩ := h
    simp only [apply, insertDevice] at happ
    split at happ
    · cases happ
      constructor
      · rintro ⟨row, hrow, hru, hrd, hract⟩
        rcases List.mem_append.mp hrow with hrow | hrow
        · exact .inr ⟨row, hrow, hru, hrd, hract⟩
        · rw [List.mem_singleton.mp hrow] at hru hrd
          exact .inl ⟨hru.symm.trans hu, hrd.symm.trans hd⟩
      · rintro (⟨rfl, rfl⟩ | ⟨row, hrow, hru, hrd, hract⟩)
        · exact ⟨device, List.mem_append_right _ (List.mem_singleton_self _), hu, hd, hact⟩
        · exact ⟨row, List.mem_append_left _ hrow, hru, hrd, hract⟩
    · cases happ
  | updateDevice v' e' changes =>
    obtain ⟨rfl, rfl, row, hsel, hchanges⟩ := h
    rw [hs] at hsel
    cases happ
    by_cases hkey : u = v' ∧ d = e'
    · obtain ⟨rfl, rfl⟩ := hkey
      refine iff_of_true (active_updateDevice_self.mpr ?_) (.inl ⟨rfl, rfl⟩)
      obtain ⟨hu, hd⟩ := select_device hsel
      refine ⟨row, mem_of_select_device hsel, hu, hd, ?_⟩
      rw [hchanges, changed]
      split
      · rename_i hsame
        exact hsame.symm
      · rfl
    · rw [active_updateDevice_of_ne hkey]
      constructor
      · exact .inr
      · exact fun hor => hor.resolve_left hkey
  | _ => exact h.elim

/-- A deactivation takes away the active row of its device, if the row that it was made from shows
what the row is. -/
lemma active_deactivation {row : UserDevice T} {t : T}
    (hrow : row.isActive = false → ¬ db.Active row.userId row.deviceId) :
    ((apply (deactivation t row) db).getD db).Active u d ↔
      db.Active u d ∧ ¬ (row.userId = u ∧ row.deviceId = d) := by
  change (db.updateDevice row.userId row.deviceId _).Active u d ↔ _
  by_cases hkey : u = row.userId ∧ d = row.deviceId
  · obtain ⟨rfl, rfl⟩ := hkey
    refine iff_of_false (fun hact => ?_) (fun h => h.2 ⟨rfl, rfl⟩)
    obtain ⟨r, hr, hu, hd, hr'⟩ := active_updateDevice_self.mp hact
    cases hactive : row.isActive with
    | true => simp [changed, hactive] at hr'
    | false =>
      rw [hactive] at hr'
      exact hrow hactive ⟨r, hr, hu, hd, by simpa [changed] using hr'⟩
  · rw [active_updateDevice_of_ne hkey]
    constructor
    · exact fun hact => ⟨hact, fun heq => hkey ⟨heq.1.symm, heq.2.symm⟩⟩
    · exact And.left

/-- Deactivations take away the active rows of their devices. -/
lemma active_deactivations {t : T} {rows : List (UserDevice T)}
    (hrows : ∀ row ∈ rows, row.isActive = false → ¬ db.Active row.userId row.deviceId) :
    (Ledger.applyAll apply (rows.map (deactivation t)) db).Active u d ↔
      db.Active u d ∧ ∀ row ∈ rows, ¬ (row.userId = u ∧ row.deviceId = d) := by
  induction rows generalizing db with
  | nil => simp
  | cons row rows ih =>
    have hfirst := hrows row List.mem_cons_self
    rw [List.map_cons, Ledger.applyAll_cons, ih fun r hr hno hact =>
      hrows r (List.mem_cons_of_mem _ hr) hno ((active_deactivation hfirst).mp hact).1,
      active_deactivation hfirst, List.forall_mem_cons, and_assoc]

end Database

/-! ## One device -/

/-- The answered request has handed out a refresh token for the device `d` of `u`. -/
def Issues (x : Externals K) (y : Reply T K) (u : Uuid) (d : String) : Prop :=
  ∃ tok ∈ handedOut y, ∃ c, x.jwt.verify tok = some c ∧ c.type = .refresh ∧ c.sub = u ∧
    c.deviceId = d

/-- What the request `y`, served alone, does to the device `d` of `u`. -/
inductive Touch (x : Externals K) (w : World T K) (y : Reply T K) (w' : World T K) (u : Uuid)
    (d : String) : Prop
  /-- The device is left alone. -/
  | kept (hissue : ¬ Issues x y u d) (hrevoke : revokes x u d y = false)
    (hstring : w'.shared.redis.strings (.refresh u d) = w.shared.redis.strings (.refresh u d))
    (hmember : d ∈ w'.shared.redis.sets (.devices u) ↔ d ∈ w.shared.redis.sets (.devices u))
    (hactive : w'.shared.db.committed.Active u d ↔ w.shared.db.committed.Active u d)
  /-- A session is opened: by a login, or by a refresh that has found one.  The new token is not
  stored if less than a second of it is left. -/
  | opened (hissue : Issues x y u d) (hrevoke : revokes x u d y = false)
    (hredis : (∃ (t : T) (n : ℤ) (data : StoredRefreshToken),
        (t, .setex (.refresh u d) n (.refreshToken data)) ∈ (progress y.performed).sent ∧
        (progress y.performed).drawn.head? = some data.tokenId ∧
        w'.shared.redis.strings (.refresh u d) = some (.refreshToken data, t + (n : T)) ∧
        d ∈ w'.shared.redis.sets (.devices u)) ∨
      ((progress y.performed).sent = [] ∧ w'.shared.redis = w.shared.redis))
    (hactive : w'.shared.db.committed.Active u d ∨
      (w.shared.redis.strings (.refresh u d) ≠ none ∧
        w'.shared.db.committed = w.shared.db.committed))
  /-- The session is ended: by a logout or a forced logout, or by a refresh that has detected the
  reuse of a superseded token, which leaves the row alone. -/
  | closed (hissue : ¬ Issues x y u d) (hrevoke : revokes x u d y = true)
    (hstring : w'.shared.redis.strings (.refresh u d) = none)
    (hmember : d ∉ w'.shared.redis.sets (.devices u))
    (hactive : ¬ w'.shared.db.committed.Active u d ∨
      ((∃ c, Reuse x y.request (progress y.performed) c ∧ c.sub = u ∧ c.deviceId = d) ∧
        w'.shared.db.committed = w.shared.db.committed))
  /-- All sessions of the user in the device set are ended. -/
  | swept (hissue : ¬ Issues x y u d) (hrevoke : revokes x u d y = true)
    (hstring : w'.shared.redis.strings (.refresh u d) =
      if d ∈ w.shared.redis.sets (.devices u) then none
      else w.shared.redis.strings (.refresh u d))
    (hmember : d ∉ w'.shared.redis.sets (.devices u))
    (hactive : ¬ w'.shared.db.committed.Active u d)

section Touch

variable {x : Externals K} {w w' : World T K} {y : Reply T K} {f : Progress T} {u v : Uuid}
  {d e : String}

/-- A token pair is handed out for its device, and for no other. -/
lemma Minted.issues_iff {resp : Response T K} (hres : y.result = .ok resp)
    (h : Minted x v e resp (progress y.performed)) : Issues x y u d ↔ u = v ∧ d = e := by
  obtain ⟨r, a, made, t, email, name, -, -, -, htokens, -⟩ := h
  have hhanded : handedOut y = resp.tokens := by rw [handedOut, hres]
  rw [Issues, hhanded, htokens]
  constructor
  · rintro ⟨tok, htok, c, hver, htype, rfl, rfl⟩
    simp only [List.mem_cons, List.not_mem_nil, or_false] at htok
    rcases htok with rfl | rfl
    · rw [x.jwt.verify_sign] at hver
      cases hver
      cases htype
    · rw [x.jwt.verify_sign] at hver
      cases hver
      exact ⟨rfl, rfl⟩
  · rintro ⟨rfl, rfl⟩
    exact ⟨_, List.mem_cons_of_mem _ List.mem_cons_self,
      JwtService.refreshClaims x.settings u d made r, x.jwt.verify_sign _, rfl, rfl, rfl⟩

/-- A refresh token that was handed out is one of a pair, which the request has stored. -/
theorem Issues.minted (h : Issues x y u d)
    (hends : Ends x y.request y.result (progress y.performed)) :
    ∃ resp, y.result = .ok resp ∧ Minted x u d resp (progress y.performed) := by
  obtain ⟨tok, htok, -⟩ := id h
  unfold handedOut at htok
  split at htok
  · rename_i resp hres
    rw [hres] at hends
    obtain ⟨v, e, -, hminted⟩ := Succeeded.minted hends.2.1 htok
    obtain ⟨rfl, rfl⟩ := (hminted.issues_iff hres).mp h
    exact ⟨resp, hres, hminted⟩
  · exact absurd htok List.not_mem_nil

omit [Instant T] in
/-- A request without a token in its response issues nothing. -/
lemma not_issues_of_tokens {resp : Response T K} (hres : y.result = .ok resp)
    (htokens : resp.tokens = []) : ¬ Issues x y u d := by
  rintro ⟨tok, htok, -⟩
  rw [handedOut, hres] at htok
  change tok ∈ resp.tokens at htok
  rw [htokens] at htok
  exact List.not_mem_nil htok

omit [Instant T] in
lemma not_issues_of_error {err : Exc} (hres : y.result = .error err) : ¬ Issues x y u d := by
  rintro ⟨tok, htok, -⟩
  rw [handedOut, hres] at htok
  exact List.not_mem_nil htok

/-- Blacklist entries leave sessions and device sets alone. -/
lemma replay_blacklisting {c : Claims} {before : List (T × RedisCmd)}
    (h : Blacklisting f c before) (r : Redis.Store Key Document String T) :
    (∀ u d, (r.replay before).strings (.refresh u d) = r.strings (.refresh u d)) ∧
      (r.replay before).sets = r.sets := by
  obtain ⟨t, -, ⟨s, doc, rfl⟩ | ⟨rfl, -⟩⟩ := h
  · exact ⟨fun u d => by simp [Redis.Store.strings_setex], rfl⟩
  · exact ⟨fun u d => rfl, rfl⟩

/-- A request that sends nothing and changes no device row leaves every device alone. -/
lemma Served.touch_idle (h : Served x w y w') (hissue : ¬ Issues x y u d)
    (hrevoke : revokes x u d y = false) (hsent : (progress y.performed).sent = [])
    (hdevices : w'.shared.db.committed.devices = w.shared.db.committed.devices) :
    Touch x w y w' u d := by
  have hredis : w'.shared.redis = w.shared.redis := by
    rw [h.trail.redis, hsent]
    rfl
  exact .kept hissue hrevoke (by rw [hredis]) (by rw [hredis]) (Database.active_congr hdevices)

/-- A request that hands out a token pair opens a session for its device. -/
lemma Served.touch_opened (h : Served x w y w') {resp : Response T K} (hres : y.result = .ok resp)
    (hrevoke : revokes x u d y = false) (hm : Minted x v e resp (progress y.performed))
    (hrows : (∀ u d, w'.shared.db.committed.Active u d ↔
        (u = v ∧ d = e) ∨ w.shared.db.committed.Active u d) ∨
      (w.shared.redis.strings (.refresh v e) ≠ none ∧
        w'.shared.db.committed = w.shared.db.committed)) : Touch x w y w' u d := by
  obtain ⟨r, a, -, -, -, -, hdrawn, -, -, -, -, made, t, -, hstored⟩ := id hm
  have hredis := h.trail.redis
  by_cases hkey : u = v ∧ d = e
  · obtain ⟨rfl, rfl⟩ := hkey
    refine .opened ((hm.issues_iff hres).mpr ⟨rfl, rfl⟩) hrevoke ?_ ?_
    · rcases hstored with ⟨s, s', data, hsent, hdata⟩ | ⟨hsent, -⟩
      · rw [hsent] at hredis ⊢
        refine .inl ⟨s, _, data, List.mem_cons_of_mem _ List.mem_cons_self, ?_, ?_, ?_⟩
        · rw [hdrawn, hdata]
          rfl
        · rw [hredis]
          exact if_pos rfl
        · rw [hredis]
          simp [Redis.Store.sets_sadd]
      · rw [hsent] at hredis
        exact .inr ⟨hsent, hredis⟩
    · rcases hrows with hrows | hsame
      · exact .inl ((hrows u d).mpr (.inl ⟨rfl, rfl⟩))
      · exact .inr hsame
  · have hissue : ¬ Issues x y u d := fun hissue => hkey ((hm.issues_iff hres).mp hissue)
    refine .kept hissue hrevoke ?_ ?_ ?_
    · rcases hstored with ⟨s, s', data, hsent, -⟩ | ⟨hsent, -⟩
      · rw [hredis, hsent]
        refine if_neg ?_
        rintro ⟨⟩
        exact hkey ⟨rfl, rfl⟩
      · rw [hredis, hsent]
        rfl
    · rcases hstored with ⟨s, s', data, hsent, -⟩ | ⟨hsent, -⟩
      · rw [hredis, hsent, Redis.Store.replay_cons, Redis.Store.sets_sadd]
        split
        · rename_i hu
          cases hu
          rw [Finset.mem_insert]
          exact ⟨fun hor => hor.resolve_left fun hd => hkey ⟨rfl, hd⟩, .inr⟩
        · rfl
      · rw [hredis, hsent]
        rfl
    · rcases hrows with hrows | ⟨-, hsame⟩
      · rw [hrows]
        exact ⟨fun hor => hor.resolve_left hkey, .inr⟩
      · rw [hsame]

/-- A request that deletes a refresh token ends the session of its device. -/
lemma Served.touch_closed (h : Served x w y w') (hissue : ¬ Issues x y u d)
    (hrevoke : revokes x u d y = true ↔ u = v ∧ d = e) {before : List (T × RedisCmd)}
    (hclosed : SignedOut (progress y.performed) v e before)
    (hbefore : (∀ u d, (w.shared.redis.replay before).strings (.refresh u d) =
        w.shared.redis.strings (.refresh u d)) ∧
      (w.shared.redis.replay before).sets = w.shared.redis.sets)
    (hrows : (∀ u d, w'.shared.db.committed.Active u d ↔
        w.shared.db.committed.Active u d ∧ ¬ (u = v ∧ d = e)) ∨
      ((∃ c, Reuse x y.request (progress y.performed) c ∧ c.sub = v ∧ c.deviceId = e) ∧
        w'.shared.db.committed = w.shared.db.committed)) : Touch x w y w' u d := by
  obtain ⟨t, t', hsent⟩ := hclosed
  have hredis := h.trail.redis
  rw [hsent, Redis.Store.replay_cons, Redis.Store.replay_cons] at hredis
  have hstrings : w'.shared.redis.strings (.refresh u d) =
      if u = v ∧ d = e then none else w.shared.redis.strings (.refresh u d) := by
    rw [hredis, Redis.Store.strings_srem, Redis.Store.strings_del, hbefore.1]
    simp
  have hsets : d ∈ w'.shared.redis.sets (.devices u) ↔
      d ∈ w.shared.redis.sets (.devices u) ∧ ¬ (u = v ∧ d = e) := by
    rw [hredis, Redis.Store.sets_srem, Redis.Store.sets_del, hbefore.2]
    by_cases huv : u = v
    · simp [huv, and_comm]
    · simp [huv]
  by_cases hkey : u = v ∧ d = e
  · refine .closed hissue (hrevoke.mpr hkey) (by rw [hstrings, if_pos hkey])
      (fun hmem => (hsets.mp hmem).2 hkey) ?_
    rcases hrows with hrows | hreuse
    · exact .inl fun hact => ((hrows u d).mp hact).2 hkey
    · rw [hkey.1, hkey.2]
      exact .inr hreuse
  · refine .kept hissue (by simpa [hkey] using hrevoke) (by rw [hstrings, if_neg hkey])
      (by rw [hsets]; exact and_iff_left hkey) ?_
    rcases hrows with hrows | ⟨-, hsame⟩
    · rw [hrows]
      exact and_iff_left hkey
    · rw [hsame]

/-- A request that deletes all refresh tokens of a user ends the sessions in the device set. -/
lemma Served.touch_swept (h : Served x w y w') (hissue : ¬ Issues x y u d)
    (hrevoke : revokes x u d y = true ↔ u = v) {before : List (T × RedisCmd)}
    (hswept : Swept (progress y.performed) v before)
    (hbefore : (∀ u d, (w.shared.redis.replay before).strings (.refresh u d) =
        w.shared.redis.strings (.refresh u d)) ∧
      (w.shared.redis.replay before).sets = w.shared.redis.sets)
    {c : Claims} (hbears : Bears x y.request c) (hv : c.sub = v)
    (hrows : ∀ u d, w'.shared.db.committed.Active u d ↔
      w.shared.db.committed.Active u d ∧ u ≠ v) : Touch x w y w' u d := by
  obtain ⟨t, ds, hsnap, hsent⟩ := hswept
  have hredis := h.trail.redis
  rw [hsent, Redis.Store.replay_cons] at hredis
  obtain ⟨c', hbears', rfl⟩ := h.trail.snapshot ds hsnap
  cases hbears.unique hbears'
  subst hv
  by_cases hkey : u = c.sub
  · subst hkey
    refine .swept hissue (hrevoke.mpr rfl) ?_ ?_ fun hact => ((hrows _ _).mp hact).2 rfl
    · rw [hredis, Redis.Store.strings_del, hbefore.1]
      simp
    · rw [hredis, Redis.Store.sets_del, if_pos (by simp)]
      exact Finset.notMem_empty d
  · refine .kept hissue (by simpa [hkey] using hrevoke) ?_ ?_ ?_
    · rw [hredis, Redis.Store.strings_del, hbefore.1, if_neg (by simp [hkey])]
    · rw [hredis, Redis.Store.sets_del, hbefore.2, if_neg (by simp [hkey])]
    · rw [hrows]
      exact and_iff_left hkey

/-- A login makes the row of its device active. -/
lemma Served.rows_login (h : Served x w y w') {s : Stores T} {write : Write T}
    {rest : List (Write T)} (hs : (progress y.performed).devices = some s)
    (hup : Upserts s v e write) (hcommitted : (progress y.performed).committed = write :: rest)
    (hrest : ∀ wr ∈ rest, wr.table ≠ .userDevices) (u : Uuid) (d : String) :
    w'.shared.db.committed.Active u d ↔
      (u = v ∧ d = e) ∨ w.shared.db.committed.Active u d := by
  have hacc := h.trail.accepted
  rw [hcommitted, List.cons_append, Ledger.accepts] at hacc
  cases happ : Database.apply write w.shared.db.committed with
  | none => simp [happ] at hacc
  | some db =>
    rw [h.trail.committed, hcommitted, Ledger.applyAll_cons, happ, Option.getD_some,
      Database.active_congr (devices_applyAll hrest db)]
    exact Database.active_upsert hup (h.trail.devices s hs) happ

/-- A logout or a forced logout deactivates the row of its device. -/
lemma Served.rows_deactivated (h : Served x w y w')
    (hdeact : Deactivated (progress y.performed) v e) (u : Uuid) (d : String) :
    w'.shared.db.committed.Active u d ↔
      w.shared.db.committed.Active u d ∧ ¬ (u = v ∧ d = e) := by
  obtain ⟨s, t, hs, hcommitted⟩ := hdeact
  rw [h.trail.devices s hs] at hcommitted
  rw [h.trail.committed, hcommitted]
  cases hsel : w.shared.db.committed.select (.deviceByUserAndDevice v e) with
  | none =>
    have hno := Database.not_active_of_select_none hsel
    constructor
    · intro hact
      refine ⟨hact, ?_⟩
      rintro ⟨rfl, rfl⟩
      exact hno hact
    · exact And.left
  | some row =>
    obtain ⟨hu, hd⟩ := Database.select_device hsel
    rw [Option.toList_some, Database.active_deactivations, List.forall_mem_singleton, hu, hd,
      eq_comm (a := v), eq_comm (a := e)]
    intro r hr hno hact
    rw [List.mem_singleton.mp hr] at hno hact
    rw [hu, hd] at hact
    rw [(Database.active_of_select hsel).mp hact] at hno
    cases hno

/-- The bulk operations deactivate all rows of the user. -/
lemma Served.rows_deactivatedAll (h : Served x w y w') {before : List (Write T)}
    (hdeact : DeactivatedAll (progress y.performed) v before)
    (hbefore : ∀ wr ∈ before, wr.table ≠ .userDevices) (u : Uuid) (d : String) :
    w'.shared.db.committed.Active u d ↔ w.shared.db.committed.Active u d ∧ u ≠ v := by
  obtain ⟨s, t, hs, hcommitted⟩ := hdeact
  rw [h.trail.devices s hs] at hcommitted
  have hsame := Database.active_congr (u := u) (d := d)
    (devices_applyAll hbefore w.shared.db.committed)
  rw [h.trail.committed, hcommitted, Ledger.applyAll_append, Database.active_deactivations, hsame]
  · constructor
    · rintro ⟨hact, hno⟩
      refine ⟨hact, ?_⟩
      rintro rfl
      obtain ⟨row, hrow, hd⟩ := Database.active_iff_select.mp hact
      exact hno row hrow ⟨(Database.mem_select_active.mp hrow).2.1, hd⟩
    · rintro ⟨hact, hne⟩
      refine ⟨hact, fun row hrow heq => hne ?_⟩
      exact heq.1.symm.trans (Database.mem_select_active.mp hrow).2.1
  · intro row hrow hno
    rw [(Database.mem_select_active.mp hrow).2.2] at hno
    cases hno

/-- A request with a result that sends nothing leaves every device alone. -/
lemma Served.touch_error (h : Served x w y w') {err : Exc} (hres : y.result = .error err)
    (hrevoke : revokes x u d y = false) (hsent : (progress y.performed).sent = [])
    (hcommitted : (progress y.performed).committed = []) : Touch x w y w' u d := by
  refine h.touch_idle (not_issues_of_error hres) hrevoke hsent ?_
  rw [h.trail.committed, hcommitted]
  rfl

/-- A refresh that sends nothing detects no reuse. -/
lemma Served.not_detects (hf : (progress y.performed).failed = false) {tok : K}
    {client : ClientInfo} (hq : y.request = .refresh tok client)
    (hreason : ∀ c, x.jwt.verify tok = some c →
      ((progress y.performed).found = none ∧
        ((∃ t ∈ (progress y.performed).readings,
          validateClaims c t x.settings.jwtIssuer none ≠ .ok c) ∨
          c.type ≠ .refresh ∨ c.deviceId ≠ client.xDeviceId)) ∨
      (∃ s, LookedUp (progress y.performed) s c.sub c.deviceId ∧
        s.session c.sub c.deviceId = none) ∨
      (Matched x y.request (progress y.performed) c ∧ ∃ s,
        (progress y.performed).account = some (s, none) ∧
          s.db.committed.select (.userById c.sub) = none)) {err : Exc}
    (hres : y.result = .error err) : revokes x u d y = false := by
  rw [revokes, hq, hres]
  simp only [hf, Bool.not_false, Bool.true_and]
  cases hver : x.jwt.verify tok with
  | none => rfl
  | some c =>
    have hno : detectsReuse (progress y.performed) c = false := by
      rcases hreason c hver with ⟨hnone, -⟩ | ⟨s, hl, hsession⟩ | ⟨⟨-, s, hl, hsession⟩, -⟩
      · simp [detectsReuse, hnone]
      · rw [LookedUp] at hl
        rw [detectsReuse, hl]
        cases hlook : s.redis.lookup s.now (.refresh c.sub c.deviceId) with
        | none => rfl
        | some doc =>
          cases doc with
          | refreshToken data => simp [Stores.session, hlook] at hsession
          | blacklistEntry data => rfl
      · obtain ⟨data, hlook, hdata⟩ := session_eq_some.mp hsession
        rw [LookedUp, hlook] at hl
        simp [detectsReuse, hl, hdata]
    simp [hno]

/-- What a request that is served alone, while Redis and the database can be reached, does to one
device. -/
theorem Served.touch (h : Served x w y w') (hf : (progress y.performed).failed = false) (u : Uuid)
    (d : String) : Touch x w y w' u d := by
  have hends := h.ends
  cases hres : y.result with
  | error err =>
    rw [hres] at hends
    obtain ⟨-, hrefused, hcommitted, -⟩ := hends
    replace hrefused := hrefused.resolve_left (by rw [hf]; simp)
    have hsame : w'.shared.db.committed = w.shared.db.committed := by
      rw [h.trail.committed, hcommitted]
      rfl
    cases hq : y.request with
    | refresh tok client =>
      rw [hq] at hrefused
      rcases hrefused with ⟨c, hreuse, hclosed⟩ | ⟨hsent, hreason⟩
      · refine h.touch_closed (not_issues_of_error hres) ?_ hclosed ⟨fun _ _ => rfl, rfl⟩
          (.inr ⟨⟨c, by rw [hq]; exact hreuse, rfl, rfl⟩, hsame⟩)
        obtain ⟨⟨tok', client', hq', hver, -⟩, s, j, hl, hsession, hne⟩ := hreuse
        cases hq'
        obtain ⟨data, hlook, hdata⟩ := session_eq_some.mp hsession
        rw [LookedUp, hlook] at hl
        rw [revokes, hq, hres]
        simp only [hf, hver, Option.any_some, detectsReuse, hl, hdata, bne_iff_ne, ne_eq, hne,
          not_false_eq_true, Bool.not_false, Bool.true_and, Bool.and_eq_true, beq_iff_eq, and_true]
        rw [eq_comm (a := c.sub), eq_comm (a := c.deviceId)]
      · refine h.touch_error hres (Served.not_detects hf hq ?_ hres) hsent hcommitted
        rw [hq]
        exact hreason
    | _ =>
      rw [hq] at hrefused
      exact h.touch_error hres (by rw [revokes, hq, hres]) hrefused hcommitted
  | ok resp =>
    rw [hres] at hends
    obtain ⟨-, hsucc, hrec⟩ := hends
    cases hq : y.request with
    | login email password client =>
      rw [hq] at hsucc hrec
      obtain ⟨v, hlogin, hminted⟩ := hsucc
      obtain ⟨v', s, write, last, row, hlogin', hs, hup, hcommitted, hlast, -⟩ := hrec
      obtain rfl : v' = v := by
        obtain ⟨_, _, _, s₁, user, -, -, hacc, rfl, -⟩ := hlogin
        obtain ⟨_, _, _, s₂, user', -, -, hacc', rfl, -⟩ := hlogin'
        rw [hacc] at hacc'
        cases hacc'
        rfl
      refine h.touch_opened hres (by rw [revokes, hq, hres]) hminted
        (.inl (h.rows_login hs hup hcommitted fun wr hwr => ?_))
      rcases List.mem_append.mp hwr with hwr | hwr
      · obtain ⟨t, rfl⟩ := hlast wr hwr
        simp [lastLogin, Write.table]
      · rw [List.mem_singleton.mp hwr]
        simp [Write.table]
    | refresh tok client =>
      rw [hq] at hsucc hrec
      obtain ⟨c, ⟨⟨hpres, s, hl, hsession⟩, -⟩, -, hminted⟩ := hsucc
      refine h.touch_opened hres (by rw [revokes, hq, hres]) hminted (.inr ⟨?_, ?_⟩)
      · obtain ⟨data, hlook, -⟩ := session_eq_some.mp hsession
        obtain ⟨t, hstring, -⟩ := Redis.Store.lookup_eq_some.mp hlook
        rw [(h.trail.found s _ hl).1] at hstring
        rw [hstring]
        simp
      · rw [h.trail.committed, show (progress y.performed).committed = [] from hrec]
        rfl
    | logout tok dev =>
      rw [hq] at hsucc hrec
      obtain ⟨htokens, c, before, hauth, hblack, hclosed⟩ := hsucc
      obtain ⟨c', hbears', hdev, hdeact⟩ := hrec
      have hbears := hauth.bears
      cases hbears.unique hbears'
      subst hdev
      refine h.touch_closed (not_issues_of_tokens hres htokens) ?_ hclosed
        (replay_blacklisting hblack _) (.inl (h.rows_deactivated hdeact))
      obtain ⟨tok', dev', hb, hver⟩ := hbears
      cases hb
      rw [revokes, hq, hres]
      simp only [hver, Option.any_some, Bool.and_eq_true, beq_iff_eq]
      exact and_congr eq_comm eq_comm
    | forceLogoutDevice tok dev target =>
      rw [hq] at hsucc hrec
      obtain ⟨htokens, c, hauth, hclosed⟩ := hsucc
      obtain ⟨c', hbears', -, -, hdeact⟩ := hrec
      have hbears := hauth.bears
      cases hbears.unique hbears'
      refine h.touch_closed (not_issues_of_tokens hres htokens) ?_ hclosed
        ⟨fun _ _ => rfl, rfl⟩ (.inl (h.rows_deactivated hdeact))
      obtain ⟨tok', dev', hb, hver⟩ := hbears
      cases hb
      rw [revokes, hq, hres]
      simp only [hver, Option.any_some, Bool.and_eq_true, beq_iff_eq]
      exact ⟨fun hkey => ⟨hkey.2.symm, hkey.1.symm⟩, fun hkey => ⟨hkey.2.symm, hkey.1.symm⟩⟩
    | logoutAll tok dev =>
      rw [hq] at hsucc hrec
      obtain ⟨htokens, c, before, hauth, hblack, hswept⟩ := hsucc
      obtain ⟨c', ds, hbears', hdeact, -⟩ := hrec
      have hbears := hauth.bears
      cases hbears.unique hbears'
      refine h.touch_swept (not_issues_of_tokens hres htokens) ?_ hswept
        (replay_blacklisting hblack _) (by rw [hq]; exact hbears) rfl
        (h.rows_deactivatedAll hdeact (by simp))
      obtain ⟨tok', dev', hb, hver⟩ := hbears
      cases hb
      rw [revokes, hq, hres]
      simp only [hver, Option.any_some, beq_iff_eq]
      exact eq_comm
    | changePassword tok dev current new =>
      rw [hq] at hsucc hrec
      obtain ⟨htokens, c, user, hauth, -, hswept⟩ := hsucc
      obtain ⟨c', changes, hbears', -, hdeact⟩ := hrec
      have hbears := hauth.bears
      cases hbears.unique hbears'
      refine h.touch_swept (not_issues_of_tokens hres htokens) ?_ hswept
        ⟨fun _ _ => rfl, rfl⟩ (by rw [hq]; exact hbears) rfl
        (h.rows_deactivatedAll hdeact (by simp [Write.table]))
      obtain ⟨tok', dev', hb, hver⟩ := hbears
      cases hb
      rw [revokes, hq, hres]
      simp only [hver, Option.any_some, beq_iff_eq]
      exact eq_comm
    | deleteAccount tok dev password =>
      rw [hq] at hsucc hrec
      obtain ⟨htokens, c, hauth, hswept⟩ := hsucc
      obtain ⟨c', changes, hbears', -, hdeact⟩ := hrec
      have hbears := hauth.bears
      cases hbears.unique hbears'
      refine h.touch_swept (not_issues_of_tokens hres htokens) ?_ hswept
        ⟨fun _ _ => rfl, rfl⟩ (by rw [hq]; exact hbears) rfl
        (h.rows_deactivatedAll hdeact (by simp [Write.table]))
      obtain ⟨tok', dev', hb, hver⟩ := hbears
      cases hb
      rw [revokes, hq, hres]
      simp only [hver, Option.any_some, beq_iff_eq]
      exact eq_comm
    | signup email password name phone agreed =>
      rw [hq] at hsucc hrec
      obtain ⟨user, -, hcommitted, -⟩ := hrec
      refine h.touch_idle (not_issues_of_tokens hres hsucc.1) (by rw [revokes, hq, hres]) hsucc.2 ?_
      rw [h.trail.committed, hcommitted]
      exact devices_applyAll (by simp [Write.table]) _
    | updateMe tok dev name phone =>
      rw [hq] at hsucc hrec
      obtain ⟨c, changes, -, -, hcommitted⟩ := hrec
      refine h.touch_idle (not_issues_of_tokens hres hsucc.1) (by rw [revokes, hq, hres]) hsucc.2 ?_
      rw [h.trail.committed, hcommitted]
      exact devices_applyAll (by simp [Write.table]) _
    | getMe tok dev =>
      rw [hq] at hsucc hrec
      refine h.touch_idle (not_issues_of_tokens hres hsucc.1) (by rw [revokes, hq, hres]) hsucc.2 ?_
      rw [h.trail.committed, show (progress y.performed).committed = [] from hrec]
      rfl
    | listDevices tok dev =>
      rw [hq] at hsucc hrec
      obtain ⟨c, s, -, -, hcommitted, -⟩ := hrec
      refine h.touch_idle (not_issues_of_tokens hres hsucc.1) (by rw [revokes, hq, hres]) hsucc.2 ?_
      rw [h.trail.committed, hcommitted]
      rfl

end Touch

end SampleAuthApi
