import SampleAuthApi.Sessions.Listing

/-!
# The count of `logout_all`

`logout_all` returns the size of the device set of its user.  In a serial run without failing calls
the set holds exactly the devices with a stored refresh token (`mem_devices_iff_stored`), whether or
not the time of the token has run out: an expired key is gone from Redis, but its device stays in
the set.  The count is therefore the number of sessions that are ended exactly when no stored token
of the user has expired (`logout_all_counts_sessions_iff`).  A call that fails between `DEL` and
`SREM`, or between `SETEX` and `SADD`, takes the set and the tokens apart.
-/

namespace SampleAuthApi

open Pool

variable {T K : Type} [Instant T]

/-! ## The device set -/

/-- A device in the device set of `u` has a stored refresh token. -/
def Backed (w : World T K) (u : Uuid) (d : String) : Prop :=
  d ∈ w.shared.redis.sets (.devices u) → w.shared.redis.strings (.refresh u d) ≠ none

lemma Backed.touch {x : Externals K} {w w' : World T K} {y : Reply T K} {u : Uuid} {d : String}
    (hw : Backed w u d) (h : Touch x w y w' u d) : Backed w' u d := by
  intro hmem
  cases h with
  | kept hissue hrevoke hstring hmember hactive =>
    rw [hstring]
    exact hw (hmember.mp hmem)
  | opened hissue hrevoke hredis hactive =>
    rcases hredis with ⟨t, n, data, -, -, hstring, -⟩ | ⟨-, hsame⟩
    · rw [hstring]
      exact Option.some_ne_none _
    · rw [hsame] at hmem ⊢
      exact hw hmem
  | closed hissue hrevoke hstring hmember hactive => exact absurd hmem hmember
  | swept hissue hrevoke hstring hmember hactive => exact absurd hmem hmember

variable [DecidableEq K] {x : Externals K} {w w' : World T K}

/-- Between the requests of a serial run, the device set of a user holds the devices with a stored
refresh token. -/
theorem mem_devices_iff_stored {now : T} {db : Database T} {drawn : List Uuid}
    (h : Reach (server x) Orderly (Pool.initial (Stores.initial now db drawn)) w)
    (hq : w.Quiescent) (u : Uuid) (d : String) :
    d ∈ w.shared.redis.sets (.devices u) ↔ w.shared.redis.strings (.refresh u d) ≠ none := by
  have hbacked : Backed w u d := by
    refine orderly_induct (I := fun v => Backed v u d) h hq ?_ ?_ ?_
    · intro hmem
      exact absurd hmem (Finset.notMem_empty d)
    · intro v v' hv hredis hdb hlog hnow hmem
      rw [hredis] at hmem ⊢
      exact hv hmem
    · intro v y v' hinv hv hserved hfailed
      exact hv.touch (hserved.touch hfailed u d)
  exact ⟨hbacked, fun hstored => (linked_of_orderly h hq u d hstored).1⟩

/-! ## The count -/

/-- The devices of `u` with a live refresh token. -/
def Stores.liveDevices (s : Stores T) (u : Uuid) : Set String :=
  { d | s.redis.lookup s.now (.refresh u d) ≠ none }

/-- The refresh token that was last stored for the device `d` of `u`, and not deleted since, has
expired. -/
def Stores.Expired (s : Stores T) (u : Uuid) (d : String) : Prop :=
  ∃ doc t, s.redis.strings (.refresh u d) = some (doc, t) ∧ t ≤ s.now

omit [DecidableEq K] in
/-- What a `logout_all` that is served alone returns. -/
lemma Served.counted {y : Reply T K} (h : Served x w y w') {tok : K} {dev : String} {c : Claims}
    {n : ℕ} (hq : y.request = .logoutAll tok dev) (hver : x.jwt.verify tok = some c)
    (hres : y.result = .ok (.logoutAll n)) : n = (w.shared.redis.sets (.devices c.sub)).card := by
  have hends := h.ends
  rw [hq, hres] at hends
  obtain ⟨-, -, c', ds, -, -, hsnap, hresp⟩ := hends
  cases hresp
  obtain ⟨c'', ⟨tok', dev', hbearer, hver'⟩, hds⟩ := h.trail.snapshot ds hsnap
  rw [hq] at hbearer
  cases hbearer
  rw [hver, Option.some.injEq] at hver'
  subst hver'
  rw [hds]

/-- The elements of a finite set are counted by a part of it exactly when the part is all of it. -/
lemma card_eq_ncard_iff {α : Type} {s : Finset α} {p : Set α} (h : p ⊆ s) :
    s.card = p.ncard ↔ (s : Set α) ⊆ p := by
  rw [← Set.ncard_coe_finset s]
  constructor
  · intro hcard
    exact (Set.eq_of_subset_of_ncard_le h hcard.le s.finite_toSet).ge
  · intro hsub
    rw [hsub.antisymm h]

/-- Every run has stored finitely many strings in Redis. -/
lemma finite_strings_of_reach {C : World T K → Event (Request K) (Choice T) → Prop} {now : T}
    {db : Database T} {drawn : List Uuid}
    (h : Reach (server x) C (Pool.initial (Stores.initial now db drawn)) w) :
    {k | w.shared.redis.strings k ≠ none}.Finite := by
  have hboth : Sound x w ∧ {k | w.shared.redis.strings k ≠ none}.Finite := by
    refine h.induct (I := fun v : World T K =>
      Sound x v ∧ {k | v.shared.redis.strings k ≠ none}.Finite) ⟨sound_initial now db drawn, ?_⟩ ?_
    · exact Set.finite_empty.subset fun k hk => hk rfl
    · intro v e v' _ hv _ he
      refine ⟨hv.1.exec he, ?_⟩
      cases hv.1.change he with
      | start q _ hadm hshared => rw [hshared]; exact hv.2
      | step i c q f f' o _ hnext hmay heff =>
        rcases heff.sent with ⟨-, hredis⟩ | ⟨cmd, -, -, -, -, -, hs⟩
        · rw [hredis]
          exact hv.2
        · rw [hs]
          exact Redis.Store.finite_strings_update _ _ hv.2
      | respond i z _ hserved hends hshared => rw [hshared]; exact hv.2
      | env c _ hdrift =>
        rw [(drift_frame hdrift).1]
        exact hv.2
  exact hboth.2

omit [DecidableEq K] in
/-- A user has finitely many live refresh tokens. -/
lemma finite_liveDevices (h : {k | w.shared.redis.strings k ≠ none}.Finite) (u : Uuid) :
    (w.shared.liveDevices u).Finite := by
  have hinj : Set.InjOn (fun d => Key.refresh u d) (w.shared.liveDevices u) := by
    rintro d - e - heq
    cases heq
    rfl
  refine Set.Finite.of_finite_image (h.subset ?_) hinj
  rintro _ ⟨d, hd, rfl⟩ hnone
  exact hd (by rw [Redis.Store.lookup, hnone])

omit [DecidableEq K] in
/-- When the device set holds exactly the devices with a stored token, its size is the number of
live tokens exactly when no stored token has expired. -/
lemma card_devices_iff {u : Uuid}
    (hstored : ∀ d, d ∈ w.shared.redis.sets (.devices u) ↔
      w.shared.redis.strings (.refresh u d) ≠ none) :
    (w.shared.redis.sets (.devices u)).card = (w.shared.liveDevices u).ncard ↔
      ∀ d, ¬ w.shared.Expired u d := by
  have hlive : w.shared.liveDevices u ⊆ w.shared.redis.sets (.devices u) := by
    intro d hd
    refine (hstored d).mpr fun hnone => hd ?_
    rw [Redis.Store.lookup, hnone]
  rw [card_eq_ncard_iff hlive]
  constructor
  · rintro hall d ⟨doc, t, hdoc, hle⟩
    have hmem : d ∈ w.shared.redis.sets (.devices u) := by
      rw [hstored d, hdoc]
      exact Option.some_ne_none _
    obtain ⟨v, hv⟩ := Option.ne_none_iff_exists'.mp (hall hmem)
    obtain ⟨t', ht', hlt⟩ := Redis.Store.lookup_eq_some.mp hv
    rw [hdoc] at ht'
    cases ht'
    exact absurd hle (not_le.mpr hlt)
  · intro hfresh d hmem
    obtain ⟨⟨doc, t⟩, hdoc⟩ := Option.ne_none_iff_exists'.mp ((hstored d).mp hmem)
    have hlt : w.shared.now < t := not_le.mp fun hle => hfresh d ⟨doc, t, hdoc, hle⟩
    change w.shared.redis.lookup w.shared.now (.refresh u d) ≠ none
    rw [Redis.Store.lookup_eq_some.mpr ⟨t, hdoc, hlt⟩]
    exact Option.some_ne_none _

/-- The number that a successful `logout_all` returns is the number of live refresh tokens that its
user had when it arrived exactly when the device set holds as many devices without a live token as
there are live tokens of devices outside the set.  When the set agrees with the stored tokens, as it
does in every serial run without failing calls, this says that no stored token of the user has
expired. -/
theorem logout_all_counts_sessions_iff {C : World T K → Event (Request K) (Choice T) → Prop}
    {now : T} {db : Database T} {drawn : List Uuid}
    (h : Reach (server x) C (Pool.initial (Stores.initial now db drawn)) w)
    {y : Reply T K} (hy : ServedAlone (server x) (fun _ e => Unattended e) w y w') {tok : K}
    {dev : String} {c : Claims} {n : ℕ} (hq : y.request = .logoutAll tok dev)
    (hver : x.jwt.verify tok = some c) (hres : y.result = .ok (.logoutAll n)) :
    (n = (w.shared.liveDevices c.sub).ncard ↔
      { d | d ∈ w.shared.redis.sets (.devices c.sub) ∧ d ∉ w.shared.liveDevices c.sub }.ncard =
        { d | d ∈ w.shared.liveDevices c.sub ∧ d ∉ w.shared.redis.sets (.devices c.sub) }.ncard) ∧
    ((∀ d, d ∈ w.shared.redis.sets (.devices c.sub) ↔
        w.shared.redis.strings (.refresh c.sub d) ≠ none) →
      (n = (w.shared.liveDevices c.sub).ncard ↔ ∀ d, ¬ w.shared.Expired c.sub d)) ∧
    ((∀ v e, C v e → Orderly v e) → ∀ d, d ∈ w.shared.redis.sets (.devices c.sub) ↔
      w.shared.redis.strings (.refresh c.sub d) ≠ none) := by
  have hw : Sound x w := ((invariant_initial x now db drawn).reach h).sound
  have hcount := (hw.served (fun _ _ he => he) hy).counted hq hver hres
  refine ⟨?_, fun hstored => ?_, fun hC d => ?_⟩
  · have hfinite := finite_liveDevices (finite_strings_of_reach h) c.sub
    rw [hcount, ← Set.ncard_coe_finset]
    exact Set.ncard_eq_ncard_iff_ncard_sdiff_eq_ncard_sdiff (Finset.finite_toSet _) hfinite
  · rw [hcount]
    exact card_devices_iff hstored
  · exact mem_devices_iff_stored (h.mono hC) hy.1 c.sub d

/-! ## Alice's devices -/

/-- Alice's second device. -/
def laptop : ClientInfo := { xDeviceId := "laptop" }

/-- The access token that is made for the laptop at the instant `t`. -/
def laptopAccess (t : ℚ) (a : Uuid) : Claims :=
  JwtService.accessClaims Plain.externals.settings Plain.aliceId "alice@example.com" "Alice"
    "laptop" t a

/-- The answer of a `logout_all` that counts `n` devices. -/
def counts (n : ℕ) (y : Reply ℚ Claims) : Bool :=
  match y.result with
  | .ok (.logoutAll m) => decide (m = n)
  | _ => false

lemma counts_iff {n : ℕ} {y : Reply ℚ Claims} (h : counts n y = true) :
    y.result = .ok (.logoutAll n) := by
  unfold counts at h
  split at h
  · rename_i m hres
    rw [hres, of_decide_eq_true h]
  · cases h

/-- Alice logs in on her phone, and at the instant `t` on her laptop. -/
def twoDevices (t : ℚ) : List (ServiceEvent ℚ Claims) :=
  loginScript 0 "alice@example.com" "old" Plain.phone Plain.a₁ Plain.r₁ ++ [.env (.clock t)] ++
    loginScript 1 "alice@example.com" "old" laptop Plain.a₂ Plain.r₂

/-- Alice calls `logout_all` while both her sessions last. -/
theorem logout_all_counts_sessions_replay : ∃ (w w' : World ℚ Claims) (y : Reply ℚ Claims),
    ServedAlone (server Plain.externals) (fun _ e => Unattended e) w y w' ∧
      y.result = .ok (.logoutAll 2) ∧
      2 = (w.shared.liveDevices Plain.aliceId).ncard := by
  obtain ⟨w, y, w', h, hq, hy, hgood⟩ := served_of_replay (S := server Plain.externals)
    orderly_of_check (fun w e he => (smooth_of_check w e he).2) 2 (twoDevices 1) (goes 2 11)
    (.logoutAll (laptopAccess 1 Plain.a₂) "laptop") (w := Plain.start)
    (g := fun w w' => decide (∀ d ∈ w.shared.redis.sets (.devices Plain.aliceId),
      ((w.shared.redis.strings (.refresh Plain.aliceId d)).all fun e =>
        decide (w.shared.now < e.2)) = true) && w'.log.getLast?.any (counts 2))
    (by decide +kernel)
  rw [hy.2.getLast?, Bool.and_eq_true, decide_eq_true_eq] at hgood
  obtain ⟨hfresh, hcount⟩ := hgood
  have hres := counts_iff hcount
  obtain ⟨-, hiff, hagree⟩ := logout_all_counts_sessions_iff h hy hq rfl hres
  have hstored := hagree fun _ _ he => he
  have hlasting : ∀ d, ¬ w.shared.Expired Plain.aliceId d := by
    rintro d ⟨doc, t, hdoc, hle⟩
    have hmem : d ∈ w.shared.redis.sets (.devices Plain.aliceId) := by
      refine (hstored d).mpr ?_
      change w.shared.redis.strings (.refresh Plain.aliceId d) ≠ none
      rw [hdoc]
      exact Option.some_ne_none _
    have hlt := hfresh d hmem
    rw [hdoc, Option.all_some, decide_eq_true_eq] at hlt
    exact absurd hle (not_le.mpr hlt)
  exact ⟨w, w', y, hy, hres, (hiff hstored).mpr hlasting⟩

/-- When the refresh token of Alice's phone has expired, `logout_all` still counts the phone. -/
theorem logout_all_counts_expired : ¬ ∀ (w w' : World ℚ Claims) (y : Reply ℚ Claims)
    (tok c : Claims) (dev : String) (n : ℕ),
    Reach (server Plain.externals) Orderly Plain.start w →
    ServedAlone (server Plain.externals) Smooth w y w' → y.request = .logoutAll tok dev →
    Plain.jwt.verify tok = some c → y.result = .ok (.logoutAll n) →
    n = (w.shared.liveDevices c.sub).ncard := by
  intro hclaim
  obtain ⟨w, y, w', h, hq, hy, hgood⟩ := served_of_replay (S := server Plain.externals)
    orderly_of_check smooth_of_check 2 (twoDevices 2592000) (goes 2 11)
    (.logoutAll (laptopAccess 2592000 Plain.a₂) "laptop") (w := Plain.start)
    (g := fun w w' => ((w.shared.redis.strings (.refresh Plain.aliceId "phone")).any fun e =>
      decide (e.2 ≤ w.shared.now)) && w'.log.getLast?.any (counts 2))
    (by decide +kernel)
  rw [hy.2.getLast?, Bool.and_eq_true, Option.any_eq_true] at hgood
  obtain ⟨⟨⟨doc, t⟩, hdoc, hle⟩, hcount⟩ := hgood
  have hres := counts_iff hcount
  have hw : Sound Plain.externals w :=
    ((invariant_initial Plain.externals 0 _ _).reach h).sound
  have hcard := (hw.served (fun _ _ he => he.2) hy).counted hq rfl hres
  have hnumber := hclaim w w' y _ _ "laptop" 2 h hy hq rfl hres
  rw [hcard] at hnumber
  exact (card_devices_iff (mem_devices_iff_stored h hy.1 Plain.aliceId)).mp hnumber "phone"
    ⟨doc, t, hdoc, of_decide_eq_true hle⟩

end SampleAuthApi
