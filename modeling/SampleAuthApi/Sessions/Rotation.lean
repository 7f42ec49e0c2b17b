import SampleAuthApi.Sessions.Current

/-!
# Rotation of refresh tokens

A refresh reads the stored token and later overwrites it, with a query in between.  Two refreshes of
one token can both pass the comparison, so a token can be exchanged twice.  `refresh_at_most_once`:
a token is exchanged at most once in every run in which a successor is only stored while no other
request has found the same token stored, and in which every refresh stores its successor.
-/

namespace SampleAuthApi

open Pool

variable {T K : Type} [Instant T] {x : Externals K} {c : Claims}

/-- A served or answered request that has found its token stored and has sent a command since. -/
def Redeeming (x : Externals K) (c : Claims) (q : Request K) (f : Progress T) : Prop :=
  Matched x q f c ∧ f.sent ≠ []

/-- The answered request is a successful refresh of the token `j`. -/
def redeems (x : Externals K) (j : Uuid) (e : Reply T K) : Bool :=
  match e.request, e.result with
  | .refresh tok _, .ok _ => (x.jwt.verify tok).any fun c => c.jti == j
  | _, _ => false

variable [DecidableEq K]

/-- A refresh stores the successor of its token only while no other request being served has found
that token stored. -/
def StoresAlone (x : Externals K) (w : World T K) (e : Event (Request K) (Choice T)) : Prop :=
  ∀ i q f u d j c, e = .step i .go → Storing w i q f u d j → Matched x q f c →
    ∀ k q' f', k ≠ i → serving w k = some (q', f') → ¬ Matched x q' f' c

/-- A refresh computes the time to live of its new token while a second of it is left. -/
def StoresInTime (x : Externals K) (w : World T K) (e : Event (Request K) (Choice T)) : Prop :=
  ∀ i ch tok client f made, e = .step i ch → NextCall w i (.refresh tok client) f .now →
    f.drawn.length = 2 → f.lifetime = none → f.readings.head? = some made →
    w.shared.now + 1 ≤ made + x.settings.jwtRefreshTokenExpireSeconds

/-- The invariant of the token with the claims `c`: at most one request redeems it, and from then on
it is not stored, and no other request that has found it is left. -/
structure Once (x : Externals K) (c : Claims) (w : World T K) : Prop where
  /-- No two answered requests have redeemed the token. -/
  logged : w.log.Pairwise fun e e' => Redeeming x c e.request (progress e.performed) →
    ¬ Redeeming x c e'.request (progress e'.performed)
  /-- Beside a request that has found the token, no other redeems it. -/
  alone : ∀ i q f, serving w i = some (q, f) → Matched x q f c →
    ∀ q' f', Other w i q' f' → ¬ Redeeming x c q' f'
  /-- A redeemed token is not stored. -/
  gone : ∀ q f, Party w q f → Redeeming x c q f →
    w.shared.session c.sub c.deviceId ≠ some c.jti

/-! ## One step -/

omit [DecidableEq K] in
/-- A request begins to redeem its token when it stores the successor. -/
lemma Effect.redeeming {i : ℕ} {ch : Choice T} {s s' : Stores T} {q : Request K}
    {f f' : Progress T} {o : Op T} (heff : Effect i ch s f o f' s') (hmay : MayCall x q f o)
    (h : Redeeming x c q f') :
    Redeeming x c q f ∨ (Matched x q f c ∧ f.sent = [] ∧ ch = .go ∧
      (∀ j, s'.session c.sub c.deviceId = some j → j ∈ f.drawn) ∧
      ∃ n data, o = .redis (.setex (.refresh c.sub c.deviceId) n (.refreshToken data))) := by
  obtain ⟨hm', hsent'⟩ := h
  rcases heff.matched hmay hm' with hm | ⟨-, hnil⟩
  · by_cases hsent : f.sent = []
    · rcases heff.sent with ⟨heq, -⟩ | ⟨cmd, rfl, rfl, hw, hv, rfl, rfl⟩
      · exact absurd (heq.trans hsent) hsent'
      · obtain ⟨n, data, rfl, hmem⟩ := hm.maySend hmay hw hsent
        refine .inr ⟨hm, hsent, rfl, fun j hj => ?_, n, data, rfl⟩
        exact session_setex hj ▸ hmem
    · exact .inl ⟨hm, hsent⟩
  · exact absurd hnil hsent'

/-! ## The invariant along runs -/

variable {w w' : World T K} {e : Event (Request K) (Choice T)} {q : Request K} {f : Progress T}

/-- One event keeps the invariant of a token. -/
theorem Once.change (hw : Invariant x w) (hI : Once x c w) (hK : StoresAlone x w e)
    (h : Change x w e w') : Once x c w' := by
  have hgone : ∀ q f, Party w q f → Redeeming x c q f →
      w'.shared.session c.sub c.deviceId ≠ some c.jti := by
    intro q f hp hr
    obtain ⟨tok, htok, hver⟩ := hw.issued_of_party hp hr.1.1
    exact hw.gone h htok hver (hI.gone q f hp hr)
  cases h with
  | start q₀ _ hadm hshared hlog hslots hserve =>
    have hparty : ∀ q f, Party w' q f → f = {} ∨ Party w q f := by
      rintro q f (⟨j, hj⟩ | ⟨y, hy, hyq⟩)
      · rw [hserve] at hj
        split at hj
        · cases hj
          exact .inl rfl
        · exact .inr (.inl ⟨j, hj⟩)
      · exact .inr (.inr ⟨y, hlog ▸ hy, hyq⟩)
    refine ⟨hlog ▸ hI.logged, fun k q f hk hm q' f' hother hr => ?_, fun q f hp hr => ?_⟩
    · rw [hserve] at hk
      split at hk
      · cases hk
        exact not_matched_empty hm
      · rcases hother with ⟨j, hjk, hj⟩ | ⟨y, hy, hyq⟩
        · rw [hserve] at hj
          split at hj
          · cases hj
            exact not_matched_empty hr.1
          · exact hI.alone k q f hk hm q' f' (.inl ⟨j, hjk, hj⟩) hr
        · exact hI.alone k q f hk hm q' f' (.inr ⟨y, hlog ▸ hy, hyq⟩) hr
    · rcases hparty q f hp with rfl | hp
      · exact absurd hr.1 not_matched_empty
      · exact hgone q f hp hr
  | step i ch q₀ f₀ f₁ o _ hnext hmay heff hlog hslots hserve =>
    have hi := hnext.serving
    by_cases hnew : Redeeming x c q₀ f₁ → Redeeming x c q₀ f₀
    · -- nobody begins to redeem the token
      refine ⟨hlog ▸ hI.logged, fun k q f hk hm q' f' hother hr => ?_, fun q f hp hr => ?_⟩
      · rw [hserve] at hk
        rw [Other] at hother
        simp only [hserve, hlog] at hother
        split at hk
        · rename_i hki
          subst hki
          cases hk
          have hother' : Other w k q' f' := by
            rcases hother with ⟨j, hjk, hj⟩ | hy
            · rw [if_neg hjk] at hj
              exact .inl ⟨j, hjk, hj⟩
            · exact .inr hy
          rcases heff.matched hmay hm with hm₀ | ⟨hs, -⟩
          · exact hI.alone k _ _ hi hm₀ q' f' hother' hr
          · exact hI.gone q' f' hother'.party hr hs
        · rename_i hki
          rcases hother with ⟨j, hjk, hj⟩ | hy
          · split at hj
            · cases hj
              exact hI.alone k q f hk hm q₀ f₀ (.inl ⟨i, Ne.symm hki, hi⟩) (hnew hr)
            · exact hI.alone k q f hk hm q' f' (.inl ⟨j, hjk, hj⟩) hr
          · exact hI.alone k q f hk hm q' f' (.inr hy) hr
      · rcases hp with ⟨j, hj⟩ | hy
        · rw [hserve] at hj
          split at hj
          · cases hj
            exact hgone q₀ f₀ (.inl ⟨i, hi⟩) (hnew hr)
          · exact hgone q f (.inl ⟨j, hj⟩) hr
        · rw [hlog] at hy
          exact hgone q f (.inr hy) hr
    · -- slot `i` stores the successor, and nobody else has found the token
      obtain ⟨hr₁, hr₀⟩ := Classical.not_imp.mp hnew
      rcases heff.redeeming hmay hr₁ with hr | ⟨hm₀, hsent, rfl, hdrawn, n, data, rfl⟩
      · exact absurd hr hr₀
      have hnone : ∀ k q f, k ≠ i → serving w k = some (q, f) → ¬ Matched x q f c :=
        hK i q₀ f₀ c.sub c.deviceId data.tokenId c rfl ⟨n, data, hnext, rfl⟩ hm₀
      refine ⟨hlog ▸ hI.logged, fun k q f hk hm q' f' hother hr => ?_, fun q f hp hr hs => ?_⟩
      · rw [hserve] at hk
        split at hk
        · rename_i hki
          subst hki
          cases hk
          refine hI.alone k _ _ hi hm₀ q' f' ?_ hr
          rcases hother with ⟨j, hjk, hj⟩ | hy
          · rw [hserve, if_neg hjk] at hj
            exact .inl ⟨j, hjk, hj⟩
          · rw [hlog] at hy
            exact .inr hy
        · rename_i hki
          exact hnone k q f hki hk hm
      · obtain ⟨tok, htok, hver⟩ := hw.issued_of_party (.inl ⟨i, hi⟩) hm₀.1
        exact hw.not_drawn htok hver hi (hdrawn _ hs)
  | respond i y _ hserved hends hshared hlog hslots hserve =>
    refine ⟨?_, fun k q f hk hm q' f' hother hr => ?_, fun q f hp hr => ?_⟩
    · rw [hlog]
      refine List.pairwise_append.mpr ⟨hI.logged, List.pairwise_singleton _ _, ?_⟩
      intro z hz y' hy'
      rw [List.mem_singleton] at hy'
      subst hy'
      exact fun hz' hy' => hI.alone i _ _ hserved hy'.1 _ _ (.inr ⟨z, hz, rfl, rfl⟩) hz'
    · rw [hserve] at hk
      split at hk
      · cases hk
      · rename_i hki
        refine hI.alone k q f hk hm q' f' ?_ hr
        rcases hother with ⟨j, hjk, hj⟩ | ⟨z, hz, rfl, rfl⟩
        · rw [hserve] at hj
          split at hj
          · cases hj
          · exact .inl ⟨j, hjk, hj⟩
        · rw [hlog] at hz
          rcases List.mem_append.mp hz with hz | hz
          · exact .inr ⟨z, hz, rfl, rfl⟩
          · rw [List.mem_singleton] at hz
            subst hz
            exact .inl ⟨i, Ne.symm hki, hserved⟩
    · refine hgone q f ?_ hr
      rcases hp with ⟨j, hj⟩ | ⟨z, hz, rfl, rfl⟩
      · rw [hserve] at hj
        split at hj
        · cases hj
        · exact .inl ⟨j, hj⟩
      · rw [hlog] at hz
        rcases List.mem_append.mp hz with hz | hz
        · exact .inr ⟨z, hz, rfl, rfl⟩
        · rw [List.mem_singleton] at hz
          subst hz
          exact .inl ⟨i, hserved⟩
  | env ch _ hdrift hlog hslots hserve =>
    refine ⟨hlog ▸ hI.logged, fun k q f hk hm q' f' hother hr => ?_, fun q f hp hr => ?_⟩
    · rw [hserve] at hk
      rw [Other] at hother
      simp only [hserve, hlog] at hother
      exact hI.alone k q f hk hm q' f' hother hr
    · rw [Party] at hp
      simp only [hserve, hlog] at hp
      exact hgone q f hp hr

/-- Every time to live that a refresh has computed is a second or more. -/
def InTime (x : Externals K) (w : World T K) : Prop :=
  Everyone (fun q f => ∀ tok client made t, q = .refresh tok client →
    f.lifetime = some (made, t) → t + 1 ≤ made + (x.settings.jwtRefreshTokenExpireSeconds : T)) w

lemma InTime.change (hw : InTime x w) (hK : StoresInTime x w e) (h : Change x w e w') :
    InTime x w' := by
  refine Everyone.change hw h (fun q f hf => hf) (fun q tok client made t _ hl => by cases hl) ?_
  rintro i ch q f f' o rfl hnext hmay heff hf tok client made t rfl hl
  generalize w'.shared = s' at heff
  cases heff with
  | now =>
    simp only [Progress.read] at hl
    split at hl
    · rename_i h2
      cases hlife : f.lifetime with
      | some p =>
        rw [hlife] at hl
        exact hf tok client made t rfl (hlife.trans hl)
      | none =>
        rw [hlife] at hl
        simp only [Option.none_or, Option.map_eq_some_iff, Prod.mk.injEq] at hl
        obtain ⟨made', hhead, rfl, rfl⟩ := hl
        exact hK i ch tok client f made' rfl hnext h2 hlife hhead
    · exact hf tok client made t rfl hl
  | _ => exact hf tok client made t rfl hl

omit [Instant T] in
lemma countP_le_one {α : Type} {p : α → Bool} {l : List α}
    (h : l.Pairwise fun a b => p a = true → ¬ p b = true) : l.countP p ≤ 1 := by
  induction l with
  | nil => simp
  | cons a l ih =>
    rw [List.pairwise_cons] at h
    rw [List.countP_cons]
    by_cases ha : p a = true
    · have hzero : l.countP p = 0 := List.countP_eq_zero.mpr fun b hb => h.1 b hb ha
      simp [hzero, ha]
    · simpa [ha] using ih h.2

omit [DecidableEq K] in
/-- A successful refresh in time has found its token stored and stored the successor. -/
lemma Invariant.redeeming (hw : Invariant x w) (ht : InTime x w) {y : Reply T K}
    (hy : y ∈ w.log) {j : Uuid} (hj : redeems x j y = true) :
    ∃ c, Redeeming x c y.request (progress y.performed) ∧ c.jti = j ∧
      ∃ tok, tok ∈ issued w.log ∧ x.jwt.verify tok = some c ∧ c.type = .refresh := by
  have hends := hw.sound.ends hy
  unfold redeems at hj
  split at hj
  · rename_i tok client resp hq hres
    rw [hres] at hends
    have hsucc := hends.2.1
    rw [hq] at hsucc
    obtain ⟨c, hrot, -, r, a, made, t, email, name, -, -, -, -, -, made', t', hlife, hst⟩ := hsucc
    have hpres : Presents x y.request c := hq ▸ hrot.1.1
    obtain ⟨tok', client', hq', hver, htype, -⟩ := id hrot.1.1
    cases hq'
    rw [hver] at hj
    have hjti : c.jti = j := by simpa using hj
    obtain ⟨tok'', htok, hver''⟩ := hw.issued_of_party (.inr ⟨y, hy, rfl, rfl⟩) hpres
    refine ⟨c, ⟨hq ▸ hrot.1, ?_⟩, hjti, tok'', htok, hver'', htype⟩
    rcases hst with ⟨s, s', data, hs, -⟩ | ⟨-, hlate⟩
    · rw [hs]
      exact List.cons_ne_nil _ _
    · exact absurd hlate (not_lt.mpr (ht.logged y hy tok client made' t' hq hlife))
  · cases hj

/-! ## Checks -/

/-- `StoresInTime`, as a check. -/
def storesInTime (x : Externals K) (w : World T K) : Event (Request K) (Choice T) → Bool
  | .step i _ => match w.slot i with
    | some ⟨.refresh _ _, .call .now _, tr⟩ =>
      (progress tr).drawn.length != 2 || (progress tr).lifetime.isSome ||
        (progress tr).readings.head?.all fun made =>
          decide (w.shared.now + 1 ≤ made + x.settings.jwtRefreshTokenExpireSeconds)
    | _ => true
  | _ => true

omit [DecidableEq K] in
lemma storesInTime_of_check (h : storesInTime x w e = true) : StoresInTime x w e := by
  rintro i ch tok client f made rfl ⟨k, tr, hslot, rfl⟩ h2 hlife hhead
  simpa [storesInTime, hslot, h2, hlife, hhead] using h

omit [DecidableEq K] in
lemma storesAlone_of_solo (h : solo w e = true) : StoresAlone x w e := by
  rintro i q f u d j c rfl - - k q' f' hk hserve
  rw [serving_of_solo h hk] at hserve
  cases hserve

/-! ## Single use -/

/-- **Single use.**  If a successor is only stored while no other request has found the same token
stored, and in time, then no refresh token is exchanged twice, in any interleaving. -/
theorem refresh_at_most_once (now : T) (db : Database T) (drawn : List Uuid) (j : Uuid)
    (h : Reach (server x) (fun w e => StoresAlone x w e ∧ StoresInTime x w e)
      (Pool.initial (Stores.initial now db drawn)) w) :
    w.log.countP (redeems x j) ≤ 1 := by
  have hall : Invariant x w ∧ (∀ c, Once x c w) ∧ InTime x w := by
    refine Reach.induct (I := fun w => Invariant x w ∧ (∀ c, Once x c w) ∧ InTime x w) h ?_ ?_
    · refine ⟨invariant_initial x now db drawn, fun c => ⟨List.Pairwise.nil, fun i q f hi => ?_,
        fun q f hp hr => ?_⟩, fun i q f hi => ?_, fun y hy => absurd hy List.not_mem_nil⟩
      · simp [serving_initial] at hi
      · simp [Pool.initial, Stores.initial, Stores.session]
      · simp [serving_initial] at hi
    · rintro v ev v' - ⟨hinv, honce, htime⟩ ⟨halone, hintime⟩ hex
      have hc := hinv.sound.change hex
      exact ⟨hinv.exec hex, fun c => (honce c).change hinv halone hc,
        htime.change hintime hc⟩
  obtain ⟨hinv, honce, htime⟩ := hall
  refine countP_le_one ?_
  by_cases hex : ∃ y ∈ w.log, redeems x j y = true
  · obtain ⟨y, hy, hj⟩ := hex
    obtain ⟨c, -, hcj, tok, htok, hver, htype⟩ := hinv.redeeming htime hy hj
    have hred : ∀ z ∈ w.log, redeems x j z = true →
        Redeeming x c z.request (progress z.performed) := by
      intro z hz hzj
      obtain ⟨c', hr, hcj', tok', htok', hver', htype'⟩ := hinv.redeeming htime hz hzj
      obtain ⟨-, rfl⟩ := hinv.refresh_unique htok' htok hver' hver htype' htype
        (hcj'.trans hcj.symm)
      exact hr
    exact (honce c).logged.imp_of_mem fun hz hz' hne hp hp' => hne (hred _ hz hp) (hred _ hz' hp')
  · push Not at hex
    exact List.pairwise_iff_forall_sublist.mpr fun {a b} hab ha =>
      absurd ha (hex a (hab.subset (by simp)))

/-- A login and a refresh, one after the other. -/
theorem refresh_at_most_once_replay : ∃ w, w.log.countP (redeems Plain.externals Plain.r₁) = 1 ∧
    w.log.countP (redeems Plain.externals Plain.r₁) ≤ 1 ∧
    Reach (server Plain.externals)
      (fun w e => StoresAlone Plain.externals w e ∧ StoresInTime Plain.externals w e)
      Plain.start w := by
  obtain ⟨w, hreach, hcount⟩ := reach_of_replay (S := server Plain.externals)
    (K := fun w e => StoresAlone Plain.externals w e ∧ StoresInTime Plain.externals w e)
    (k := fun w e => solo w e && storesInTime Plain.externals w e) (w := Plain.start)
    (g := fun w => w.log.countP (redeems Plain.externals Plain.r₁)) (v := 1)
    (fun w e h => by
      rw [Bool.and_eq_true] at h
      exact ⟨storesAlone_of_solo h.1, storesInTime_of_check h.2⟩)
    (loginScript 0 "alice@example.com" "old" Plain.phone Plain.a₁ Plain.r₁ ++
      refreshScript 1 (Plain.refresh 0 Plain.r₁) Plain.phone Plain.a₂ Plain.r₂)
    (by decide +kernel)
  exact ⟨w, hcount, refresh_at_most_once _ _ _ _ hreach, hreach⟩

/-- Two refreshes of one token that both look it up before either stores a successor both succeed:
the token is exchanged twice. -/
theorem refresh_twice : ¬ ∀ w, Reach (server Plain.externals) AnyEvent Plain.start w →
    w.log.countP (redeems Plain.externals Plain.r₁) ≤ 1 := by
  intro h
  obtain ⟨w, hreach, hcount⟩ := reach_of_replay (S := server Plain.externals)
    (w := Plain.start) (g := fun w => w.log.countP (redeems Plain.externals Plain.r₁)) (v := 2)
    anyEvent_of_check
    (loginScript 0 "alice@example.com" "old" Plain.phone Plain.a₁ Plain.r₁ ++
      [.start (.refresh (Plain.refresh 0 Plain.r₁) Plain.phone),
        .start (.refresh (Plain.refresh 0 Plain.r₁) Plain.phone)] ++ goes 1 2 ++ goes 2 2 ++
      rotateCalls 1 Plain.a₂ Plain.r₂ ++ [.respond 1] ++ rotateCalls 2 Plain.a₃ Plain.r₃ ++
      [.respond 2])
    (by decide +kernel)
  exact absurd (h w hreach) (by rw [hcount]; decide)

end SampleAuthApi
