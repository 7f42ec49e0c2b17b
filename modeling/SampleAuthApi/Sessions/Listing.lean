import SampleAuthApi.Sessions.Touch

/-!
# Sessions and the device list

In a serial run the two stores are kept in step, one device at a time: every stored refresh token is
in the device set and has an active row (`live_sessions_listed`), and an active row has lost its
token only to the end of its lifetime, or to a detected reuse (`listed_devices_have_sessions`).
-/

namespace SampleAuthApi

open Transactions Pool

variable {T K : Type} [Instant T]

/-- Requests arrive one after another, Redis and the database can be reached, and no administrator
is at work. -/
def Orderly (w : World T K) (e : Event (Request K) (Choice T)) : Prop := Serial w e ∧ Smooth w e

/-- `Orderly`, as a check. -/
def orderly (w : World T K) (e : Event (Request K) (Choice T)) : Bool := serial w e && smooth w e

omit [Instant T] in
lemma orderly_of_check (w : World T K) (e : Event (Request K) (Choice T))
    (h : orderly w e = true) : Orderly w e := by
  rw [orderly, Bool.and_eq_true] at h
  exact ⟨serial_of_check w e h.1, smooth_of_check w e h.2⟩

variable [DecidableEq K] {x : Externals K} {w w' : World T K}

/-- A request that is served alone is a part of a serial run. -/
lemma reach_of_served {y : Reply T K} (hy : ServedAlone (server x) Smooth w y w') :
    Reach (server x) Orderly w w' := by
  refine hy.reach ⟨hy.1, trivial, trivial⟩ ?_ fun v => ⟨trivial, trivial, trivial⟩
  intro v e hsmooth honly
  refine ⟨?_, hsmooth⟩
  cases e with
  | start q => exact honly.elim
  | _ => trivial

/-- What holds at the start of an orderly run, is kept when time passes and is kept by every
request that is served alone, holds whenever no request is being served. -/
theorem orderly_induct {I : World T K → Prop} {now : T} {db : Database T} {drawn : List Uuid}
    (h : Reach (server x) Orderly (Pool.initial (Stores.initial now db drawn)) w)
    (hq : w.Quiescent) (h0 : I (Pool.initial (Stores.initial now db drawn)))
    (henv : ∀ v v' : World T K, I v → v'.shared.redis = v.shared.redis →
      v'.shared.db = v.shared.db → v'.log = v.log → v.shared.now ≤ v'.shared.now → I v')
    (hserve : ∀ v y v', Invariant x v → I v → Served x v y v' →
      (progress y.performed).failed = false → I v') : I w := by
  have hall := h.serial (I := fun v => Invariant x v ∧ I v) (fun v e he => he.1) (fun i => by simp)
    ⟨invariant_initial x now db drawn, h0⟩ ?_ ?_ hq
  · exact hall.2
  · rintro v c v' - - ⟨hinv, hI⟩ hK he
    refine ⟨hinv.exec he, ?_⟩
    cases hinv.sound.change he with
    | env c _ hdrift hlog =>
      obtain ⟨hredis, hdb, -, hnow⟩ := drift_unattended hK.2.2 hdrift
      exact henv v v' hI hredis hdb hlog hnow
  · rintro v y v' hreach ⟨hinv, hI⟩ - hy
    have hserved := hinv.sound.served (fun _ _ he => he.2.2) hy
    have hfailed := hinv.sound.served_reliable (fun _ _ he => he.2.1) hy
    refine ⟨?_, hserve v y v' hinv hI hserved hfailed⟩
    obtain ⟨-, v₀, v₁, hstart, hrun, hrespond, -⟩ := hy
    exact ((hinv.exec hstart).reach hrun).exec hrespond

/-! ## Stored tokens are listed -/

/-- The stored refresh token of the device `d` of `u` is in the device set and has an active
row. -/
def Linked (w : World T K) (u : Uuid) (d : String) : Prop :=
  w.shared.redis.strings (.refresh u d) ≠ none →
    d ∈ w.shared.redis.sets (.devices u) ∧ w.shared.db.committed.Active u d

omit [DecidableEq K] in
lemma Linked.touch {y : Reply T K} {u : Uuid} {d : String} (hw : Linked w u d)
    (h : Touch x w y w' u d) : Linked w' u d := by
  intro hstored
  cases h with
  | kept hissue hrevoke hstring hmember hactive =>
    rw [hstring] at hstored
    exact ⟨hmember.mpr (hw hstored).1, hactive.mpr (hw hstored).2⟩
  | opened hissue hrevoke hredis hactive =>
    constructor
    · rcases hredis with ⟨t, n, data, -, -, -, hmem⟩ | ⟨-, hsame⟩
      · exact hmem
      · rw [hsame] at hstored ⊢
        exact (hw hstored).1
    · rcases hactive with hactive | ⟨hold, hsame⟩
      · exact hactive
      · rw [hsame]
        exact (hw hold).2
  | closed hissue hrevoke hstring hmember hactive => exact absurd hstring hstored
  | swept hissue hrevoke hstring hmember hactive =>
    rw [hstring] at hstored
    split at hstored
    · exact absurd rfl hstored
    · rename_i hno
      exact absurd (hw hstored).1 hno

/-- Stored tokens are listed whenever no request is being served. -/
theorem linked_of_orderly {now : T} {db : Database T} {drawn : List Uuid}
    (h : Reach (server x) Orderly (Pool.initial (Stores.initial now db drawn)) w)
    (hq : w.Quiescent) (u : Uuid) (d : String) : Linked w u d := by
  refine orderly_induct (I := fun v => Linked v u d) h hq (fun hstored => absurd rfl hstored) ?_ ?_
  · intro v v' hv hredis hdb hlog hnow hstored
    rw [hredis] at hstored ⊢
    rw [hdb]
    exact hv hstored
  · intro v y v' hinv hv hserved hfailed
    exact hv.touch (hserved.touch hfailed u d)

omit [DecidableEq K] in
/-- What `get_devices` returns to a request that is served alone. -/
lemma Served.listed {y : Reply T K} (h : Served x w y w') {tok : K} {dev : String} {c : Claims}
    (hq : y.request = .listDevices tok dev) (hver : x.jwt.verify tok = some c)
    {resp : Response T K} (hres : y.result = .ok resp) :
    ∃ l, resp = .devices l ∧ ∀ d, (∃ entry ∈ l, entry.deviceId = d) ↔
      w.shared.db.committed.Active c.sub d := by
  have hends := h.ends
  rw [hq, hres] at hends
  obtain ⟨-, -, c', s, ⟨tok', dev', hb, hver'⟩, -, -, hs, hresp⟩ := hends
  cases hb
  rw [hver, Option.some.injEq] at hver'
  subst hver'
  rw [h.trail.devices s hs] at hresp
  refine ⟨_, hresp, fun d => ?_⟩
  rw [Database.active_iff_select]
  simp only [List.mem_map, exists_exists_and_eq_and]

omit [DecidableEq K] in
/-- A forced logout that is served alone finds an active row. -/
lemma Served.finds {y : Reply T K} (h : Served x w y w')
    (hf : (progress y.performed).failed = false) {tok : K} {dev d : String} {c : Claims}
    (hq : y.request = .forceLogoutDevice tok dev d) (hver : x.jwt.verify tok = some c)
    (hactive : w.shared.db.committed.Active c.sub d) : y.result ≠ .error .deviceNotFound := by
  intro hres
  have hends := h.ends
  rw [hq, hres] at hends
  obtain ⟨-, -, -, hrejected⟩ := hends
  rcases hrejected.resolve_left (by rw [hf]; simp) with hauth | ⟨he, -⟩ |
    ⟨-, c', s, hauth, hs, hrow⟩
  · cases hauth
  · cases he
  · obtain ⟨tok', dev', hb, hver'⟩ := hauth.bears
    cases hb
    rw [hver, Option.some.injEq] at hver'
    subst hver'
    rw [h.trail.devices s hs] at hrow
    cases hsel : w.shared.db.committed.select (.deviceByUserAndDevice c.sub d) with
    | none => exact Database.not_active_of_select_none hsel hactive
    | some row =>
      have hno := hrow row hsel
      rw [(Database.active_of_select hsel).mp hactive] at hno
      cases hno

/-- In a serial run a live refresh token has an active row between requests; `get_devices` lists its
device, and a forced logout finds it. -/
theorem live_sessions_listed {now : T} {db : Database T} {drawn : List Uuid}
    (h : Reach (server x) Orderly (Pool.initial (Stores.initial now db drawn)) w)
    (hq : w.Quiescent) (u : Uuid) (d : String)
    (hlive : w.shared.redis.lookup w.shared.now (.refresh u d) ≠ none) :
    (∃ row ∈ w.shared.db.committed.devices, row.userId = u ∧ row.deviceId = d ∧
      row.isActive = true) ∧
    ∀ (y : Reply T K) (w' : World T K) (tok : K) (dev : String) (c : Claims),
      ServedAlone (server x) Smooth w y w' → x.jwt.verify tok = some c → c.sub = u →
      (y.request = .listDevices tok dev → ∀ resp, y.result = .ok resp →
        ∃ l, resp = .devices l ∧ ∃ entry ∈ l, entry.deviceId = d) ∧
      (y.request = .forceLogoutDevice tok dev d → y.result ≠ .error .deviceNotFound) := by
  have hstored : w.shared.redis.strings (.refresh u d) ≠ none := by
    intro hnone
    rw [Redis.Store.lookup, hnone] at hlive
    exact hlive rfl
  have hactive := (linked_of_orderly h hq u d hstored).2
  refine ⟨hactive, ?_⟩
  rintro y w' tok dev c hy hver rfl
  have hw : Sound x w := ((invariant_initial x now db drawn).reach h).sound
  have hserved := hw.served (fun _ _ he => he.2) hy
  constructor
  · intro hreq resp hres
    obtain ⟨l, hl, hlist⟩ := hserved.listed hreq hver hres
    exact ⟨l, hl, (hlist d).mpr hactive⟩
  · intro hreq
    exact hserved.finds (hw.served_reliable (fun _ _ he => he.1) hy) hreq hver hactive

/-- Alice's phone after a login. -/
theorem live_sessions_listed_replay : ∃ w : World ℚ Claims,
    w.Quiescent ∧ w.shared.redis.lookup w.shared.now (.refresh Plain.aliceId "phone") ≠ none ∧
      ∃ row ∈ w.shared.db.committed.devices, row.userId = Plain.aliceId ∧
        row.deviceId = "phone" ∧ row.isActive = true := by
  obtain ⟨w, h, hgood⟩ := reach_of_replay (S := server Plain.externals) orderly_of_check
    (loginScript 0 "alice@example.com" "old" Plain.phone Plain.a₁ Plain.r₁) (w := Plain.start)
    (g := fun w => quiescent w &&
      (w.shared.redis.lookup w.shared.now (.refresh Plain.aliceId "phone")).isSome) (v := true)
    (by decide +kernel)
  rw [Bool.and_eq_true] at hgood
  have hq := quiescent_of_check hgood.1
  have hlive := Option.ne_none_iff_isSome.mpr hgood.2
  exact ⟨w, hq, hlive, (live_sessions_listed h hq Plain.aliceId "phone" hlive).1⟩

/-! ## Listed devices have sessions -/

/-- An answer with `P` has been given, and no token has been issued for the device `d` of `u`
since. -/
def SinceIssued (x : Externals K) (w : World T K) (u : Uuid) (d : String)
    (P : Reply T K → Prop) : Prop :=
  ∃ l y l', w.log = l ++ y :: l' ∧ P y ∧ ∀ z ∈ l', ¬ Issues x z u d

/-- A reuse has been detected for the device `d` of `u` since the last token was issued for it. -/
def ReuseDetected (x : Externals K) (w : World T K) (u : Uuid) (d : String) : Prop :=
  SinceIssued x w u d fun y => ∃ c, Reuse x y.request (progress y.performed) c ∧ c.sub = u ∧
    c.deviceId = d

/-- The last refresh token that was issued for the device `d` of `u` has less than a second of its
lifetime left. -/
def Lapsed (x : Externals K) (w : World T K) (u : Uuid) (d : String) : Prop :=
  SinceIssued x w u d fun y => Issues x y u d ∧ ∃ made t,
    (progress y.performed).lifetime = some (made, t) ∧
      made + x.settings.jwtRefreshTokenExpireSeconds < w.shared.now + 1

section SinceIssued

variable {u : Uuid} {d : String} {P P' : Reply T K → Prop} {y : Reply T K}

omit [Instant T] [DecidableEq K]

lemma SinceIssued.mono (h : SinceIssued x w u d P) (hlog : w'.log = w.log)
    (himp : ∀ y, P y → P' y) : SinceIssued x w' u d P' := by
  obtain ⟨l, y, l', hl, hy, hlast⟩ := h
  exact ⟨l, y, l', hlog.trans hl, himp y hy, hlast⟩

/-- An answer that issues no token for the device. -/
lemma SinceIssued.append (h : SinceIssued x w u d P) (hlog : w'.log = w.log ++ [y])
    (hissue : ¬ Issues x y u d) (himp : ∀ y, P y → P' y) : SinceIssued x w' u d P' := by
  obtain ⟨l, z, l', hl, hz, hlast⟩ := h
  refine ⟨l, z, l' ++ [y], by rw [hlog, hl]; simp, himp z hz, fun z' hz' => ?_⟩
  rcases List.mem_append.mp hz' with hz' | hz'
  · exact hlast z' hz'
  · rw [List.mem_singleton.mp hz']
    exact hissue

lemma sinceIssued_last (hlog : w'.log = w.log ++ [y]) (hy : P y) : SinceIssued x w' u d P :=
  ⟨w.log, y, [], hlog, hy, fun _ hz => absurd hz List.not_mem_nil⟩

/-- Nothing is left since the last answer, if it has issued a token for the device. -/
lemma not_sinceIssued_of_issues (hlast : w.log.getLast? = some y) (hissue : Issues x y u d)
    (hno : ¬ P y) : ¬ SinceIssued x w u d P := by
  rintro ⟨l, z, l', hl, hz, hlater⟩
  rw [hl] at hlast
  rcases List.eq_nil_or_concat l' with rfl | ⟨l₁, y', rfl⟩
  · rw [List.getLast?_append_cons, List.getLast?_singleton] at hlast
    cases hlast
    exact hno hz
  · rw [List.concat_eq_append, ← List.cons_append, ← List.append_assoc,
      List.getLast?_concat] at hlast
    cases hlast
    exact hlater y (by simp) hissue

end SinceIssued

/-- The refresh token of the device `d` of `u` is there, or its time has run out: in Redis, or
before it could be stored. -/
def HasSession (x : Externals K) (w : World T K) (u : Uuid) (d : String) : Prop :=
  w.shared.redis.lookup w.shared.now (.refresh u d) ≠ none ∨
  (∃ doc t, w.shared.redis.strings (.refresh u d) = some (doc, t) ∧ t ≤ w.shared.now) ∨
  Lapsed x w u d

omit [DecidableEq K] in
lemma hasSession_of_stored {u : Uuid} {d : String}
    (h : w.shared.redis.strings (.refresh u d) ≠ none) : HasSession x w u d := by
  obtain ⟨⟨doc, t⟩, hdoc⟩ := Option.ne_none_iff_exists'.mp h
  by_cases ht : w.shared.now < t
  · left
    rw [Redis.Store.lookup_eq_some.mpr ⟨t, hdoc, ht⟩]
    simp
  · exact .inr (.inl ⟨doc, t, hdoc, not_lt.mp ht⟩)

/-- In a serial run an active row has its refresh token between requests, unless the time of the
token has run out, or a reuse has been detected since the token was issued. -/
theorem active_stored {now : T} {db : Database T} {drawn : List Uuid}
    (h : Reach (server x) Orderly (Pool.initial (Stores.initial now db drawn)) w)
    (hq : w.Quiescent) {u : Uuid} {d : String} (hdb : ¬ db.Active u d)
    (hreuse : ¬ ReuseDetected x w u d) (hactive : w.shared.db.committed.Active u d) :
    w.shared.redis.strings (.refresh u d) ≠ none ∨ Lapsed x w u d := by
  have hall := orderly_induct (I := fun v => ¬ ReuseDetected x v u d →
    v.shared.db.committed.Active u d → v.shared.redis.strings (.refresh u d) ≠ none ∨
      Lapsed x v u d) h hq (fun _ hactive => absurd hactive hdb) ?_ ?_
  · exact hall hreuse hactive
  · intro v v' hv hredis hdb hlog hnow hno hact
    rw [hdb] at hact
    rw [hredis]
    refine (hv (fun hdetected => hno (hdetected.mono hlog fun _ h => h)) hact).imp id ?_
    intro hlapsed
    refine hlapsed.mono hlog ?_
    rintro y ⟨hissue, made, t, hlife, hlt⟩
    exact ⟨hissue, made, t, hlife, hlt.trans_le (by linarith)⟩
  · intro v y v' hinv hv hserved hfailed hno hact
    cases hserved.touch hfailed u d with
    | kept hissue hrevoke hstring hmember hactive =>
      have hbefore : ¬ ReuseDetected x v u d := fun hdetected =>
        hno (hdetected.append hserved.log hissue fun _ h => h)
      rw [hstring]
      refine (hv hbefore (hactive.mp hact)).imp id fun hlapsed => ?_
      refine hlapsed.append hserved.log hissue ?_
      rintro z ⟨hissue', made, t, hlife, hlt⟩
      have hnow := hserved.trail.now
      exact ⟨hissue', made, t, hlife, hlt.trans_le (by linarith)⟩
    | opened hissue hrevoke hredis hactive =>
      rcases hredis with ⟨t, n, data, -, -, hstring, -⟩ | ⟨hsent, -⟩
      · rw [hstring]
        simp
      · right
        obtain ⟨resp, hres, hminted⟩ := hissue.minted hserved.ends
        obtain ⟨r, a, -, -, -, -, -, -, -, -, -, made, t, hlife, ⟨_, _, _, hsome, -⟩ | ⟨-, hlt⟩⟩ :=
          hminted
        · rw [hsent] at hsome
          cases hsome
        · have hle := hserved.trail.lifetime made t hlife
          exact sinceIssued_last hserved.log ⟨hissue, made, t, hlife, hlt.trans_le (by linarith)⟩
    | closed hissue hrevoke hstring hmember hactive =>
      rcases hactive with hinactive | ⟨hreuse, -⟩
      · exact absurd hact hinactive
      · exact absurd (sinceIssued_last hserved.log hreuse) hno
    | swept hissue hrevoke hstring hmember hactive => exact absurd hact hactive

/-- In a serial run an active row has its refresh token between requests, and so has every device
that `get_devices` returns, unless the time of the token has run out.  A row that was active at the
start, and a device for which a reuse has been detected since its last token was issued, are left
out. -/
theorem listed_devices_have_sessions {now : T} {db : Database T} {drawn : List Uuid}
    (h : Reach (server x) Orderly (Pool.initial (Stores.initial now db drawn)) w)
    (hq : w.Quiescent) (u : Uuid) :
    (∀ d, ¬ db.Active u d → ¬ ReuseDetected x w u d →
      (∃ row ∈ w.shared.db.committed.devices, row.userId = u ∧ row.deviceId = d ∧
        row.isActive = true) → HasSession x w u d) ∧
    ∀ (y : Reply T K) (w' : World T K) (tok : K) (dev : String) (c : Claims),
      ServedAlone (server x) Smooth w y w' → x.jwt.verify tok = some c → c.sub = u →
      y.request = .listDevices tok dev → ∀ l, y.result = .ok (.devices l) → ∀ entry ∈ l,
        ¬ db.Active u entry.deviceId → ¬ ReuseDetected x w u entry.deviceId →
          HasSession x w u entry.deviceId := by
  have hrow : ∀ d, ¬ db.Active u d → ¬ ReuseDetected x w u d →
      w.shared.db.committed.Active u d → HasSession x w u d := by
    intro d hdb hreuse hactive
    rcases active_stored h hq hdb hreuse hactive with hstored | hlapsed
    · exact hasSession_of_stored hstored
    · exact .inr (.inr hlapsed)
  refine ⟨hrow, ?_⟩
  rintro y w' tok dev c hy hver rfl hreq l hres entry hentry hdb hreuse
  have hw : Sound x w := ((invariant_initial x now db drawn).reach h).sound
  have hserved := hw.served (fun _ _ he => he.2) hy
  obtain ⟨l', hl, hlist⟩ := hserved.listed hreq hver hres
  cases hl
  exact hrow _ hdb hreuse ((hlist _).mp ⟨entry, hentry, rfl⟩)

/-- Alice refreshes the session of her phone, the superseded token is presented once more, which
ends the session, and Alice logs in again. -/
theorem listed_devices_have_sessions_replay : ∃ w : World ℚ Claims, w.Quiescent ∧
    (∃ y ∈ w.log, y.result = .error .invalidRefreshToken) ∧
    w.shared.db.committed.Active Plain.aliceId "phone" ∧
      HasSession Plain.externals w Plain.aliceId "phone" := by
  obtain ⟨w, h, hgood⟩ := reach_of_replay (S := server Plain.externals) orderly_of_check
    (loginScript 0 "alice@example.com" "old" Plain.phone Plain.a₁ Plain.r₁ ++
      refreshScript 1 (Plain.refresh 0 Plain.r₁) Plain.phone Plain.a₂ Plain.r₂ ++
      [.start (.refresh (Plain.refresh 0 Plain.r₁) Plain.phone)] ++ goes 2 5 ++ [.respond 2] ++
      loginScript 3 "alice@example.com" "old" Plain.phone Plain.a₃ Plain.r₃) (w := Plain.start)
    (g := fun w => quiescent w && w.log.any (answeredBy .invalidRefreshToken) &&
      (w.log.getLast?.any fun y : Reply ℚ Claims => y.request.isLogin &&
        (handedOut y).any fun tok : Claims =>
          decide (tok.type = .refresh ∧ tok.sub = Plain.aliceId ∧ tok.deviceId = "phone")) &&
      w.shared.db.committed.devices.any fun row =>
        decide (row.userId = Plain.aliceId ∧ row.deviceId = "phone" ∧ row.isActive = true))
    (v := true) (by decide +kernel)
  simp only [Bool.and_eq_true, List.any_eq_true, Option.any_eq_true, decide_eq_true_eq] at hgood
  obtain ⟨⟨⟨hquiet, z, hz, hreuse⟩, y, hlast, hlogin, tok, htok, hissued⟩, hrow⟩ := hgood
  have hq := quiescent_of_check hquiet
  have hissue : Issues Plain.externals y Plain.aliceId "phone" := ⟨tok, htok, tok, rfl, hissued⟩
  refine ⟨w, hq, ⟨z, hz, answeredBy_iff hreuse⟩, hrow,
    (listed_devices_have_sessions h hq Plain.aliceId).1 "phone" ?_ ?_ hrow⟩
  · rintro ⟨row, hmem, -⟩
    cases hmem
  · refine not_sinceIssued_of_issues hlast hissue ?_
    rintro ⟨c, ⟨⟨tok', client, hreq, -⟩, -⟩, -⟩
    rw [hreq] at hlogin
    cases hlogin

/-- When the time of the refresh token of Alice's phone has run out, the phone is still listed. -/
theorem expired_device_listed : ¬ ∀ w : World ℚ Claims,
    Reach (server Plain.externals) Orderly Plain.start w → w.Quiescent →
    ∀ row ∈ w.shared.db.committed.devices, row.isActive = true →
      w.shared.redis.lookup w.shared.now (.refresh row.userId row.deviceId) ≠ none := by
  intro hclaim
  obtain ⟨w, h, hgood⟩ := reach_of_replay (S := server Plain.externals) orderly_of_check
    (loginScript 0 "alice@example.com" "old" Plain.phone Plain.a₁ Plain.r₁ ++
      [.env (.clock 2592000)]) (w := Plain.start)
    (g := fun w => quiescent w && w.shared.db.committed.devices.any fun row => row.isActive &&
      (w.shared.redis.lookup w.shared.now (.refresh row.userId row.deviceId)).isNone) (v := true)
    (by decide +kernel)
  simp only [Bool.and_eq_true, List.any_eq_true, Option.isNone_iff_eq_none] at hgood
  obtain ⟨hquiet, row, hrow, hactive, hnone⟩ := hgood
  exact hclaim w h (quiescent_of_check hquiet) row hrow hactive hnone

end SampleAuthApi
