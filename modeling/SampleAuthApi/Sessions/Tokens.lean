import SampleAuthApi.Sessions.Runs

/-!
# Tokens in every run

No `uuid4` value is drawn twice, no clock reading lies in the future, and a token that verifies was
handed out before it is presented.  From these, the claims of a token that was handed out are those
of one answered login or refresh, and its `jti` tells it from every other token of its type.
-/

namespace SampleAuthApi

open Pool

variable {T K : Type}

/-! ## Properties of single requests and of pairs -/

/-- The property `P` holds of every request that is being served or has been answered. -/
structure Everyone (P : Request K → Progress T → Prop) (w : World T K) : Prop where
  /-- The requests being served. -/
  served : ∀ i q f, serving w i = some (q, f) → P q f
  /-- The answered requests. -/
  logged : ∀ e ∈ w.log, P e.request (progress e.performed)

/-- The relation `R` holds between any two requests that are being served or have been answered. -/
structure Everypair (R : Request K → Progress T → Request K → Progress T → Prop) (w : World T K) :
    Prop where
  /-- Two requests being served. -/
  served : ∀ i j q f q' f', i ≠ j → serving w i = some (q, f) → serving w j = some (q', f') →
    R q f q' f'
  /-- A request being served and an answered one. -/
  mixed : ∀ i q f, serving w i = some (q, f) → ∀ e ∈ w.log,
    R q f e.request (progress e.performed)
  /-- Two answered requests. -/
  logged : w.log.Pairwise fun e e' =>
    R e.request (progress e.performed) e'.request (progress e'.performed)

/-- The digest `f` of a request `q` other than that of slot `i`. -/
def Other (w : World T K) (i : ℕ) (q : Request K) (f : Progress T) : Prop :=
  (∃ j, j ≠ i ∧ serving w j = some (q, f)) ∨ ∃ e ∈ w.log, e.request = q ∧ progress e.performed = f

/-- The digest `f` is that of a request `q` which is being served or has been answered. -/
def Party (w : World T K) (q : Request K) (f : Progress T) : Prop :=
  (∃ i, serving w i = some (q, f)) ∨ ∃ e ∈ w.log, e.request = q ∧ progress e.performed = f

lemma Other.party {w : World T K} {i : ℕ} {q : Request K} {f : Progress T} (h : Other w i q f) :
    Party w q f := by
  rcases h with ⟨j, -, hj⟩ | hlog
  · exact .inl ⟨j, hj⟩
  · exact .inr hlog

variable [Instant T] [DecidableEq K] {x : Externals K} {w w' : World T K}
  {e : Event (Request K) (Choice T)}

omit [DecidableEq K] in
/-- One event keeps a property of every request, if it holds before the first call and every call
keeps it. -/
theorem Everyone.change {P P' : Request K → Progress T → Prop} (hw : Everyone P w)
    {adm : List (Reply T K) → Request K → Bool}
    (h : Turn (MayCall x) (Ends x) adm w e w') (hmono : ∀ q f, P q f → P' q f)
    (hstart : ∀ q, P' q {})
    (hstep : ∀ i c q f f' o, e = .step i c → NextCall w i q f o → MayCall x q f o →
      Effect i c w.shared f o f' w'.shared → P q f → P' q f') : Everyone P' w' := by
  refine ⟨h.served hw.served hmono hstart hstep, fun y hy => ?_⟩
  cases h with
  | start q _ hadm hshared hlog => exact hmono _ _ (hw.logged y (hlog ▸ hy))
  | step i c q f f' o _ hnext hmay heff hlog => exact hmono _ _ (hw.logged y (hlog ▸ hy))
  | respond i z _ hserved hends hshared hlog =>
    rw [hlog] at hy
    rcases List.mem_append.mp hy with hy | hy
    · exact hmono _ _ (hw.logged y hy)
    · rw [List.mem_singleton] at hy
      subst hy
      exact hmono _ _ (hw.served i _ _ hserved)
  | env c _ hdrift hlog => exact hmono _ _ (hw.logged y (hlog ▸ hy))

omit [DecidableEq K] in
/-- One event keeps a symmetric relation between any two requests, if it holds of a request that
arrives and every call keeps it. -/
theorem Everypair.change {R : Request K → Progress T → Request K → Progress T → Prop}
    (hw : Everypair R w) {adm : List (Reply T K) → Request K → Bool}
    (h : Turn (MayCall x) (Ends x) adm w e w')
    (hsymm : ∀ q f q' f', R q f q' f' → R q' f' q f)
    (hstart : ∀ q, e = .start q → ∀ q' f', Party w q' f' → R q {} q' f')
    (hstep : ∀ i c q f f' o q' g, e = .step i c → NextCall w i q f o → MayCall x q f o →
      Effect i c w.shared f o f' w'.shared → Other w i q' g → R q f q' g → R q f' q' g) :
    Everypair R w' := by
  cases h with
  | start q _ hadm hshared hlog hslots hserve =>
    refine ⟨fun j k p f p' f' hjk hj hk => ?_, fun j p f hj y hy => ?_, hlog ▸ hw.logged⟩
    · rw [hserve] at hj hk
      split at hj
      · rename_i hjn
        cases hj
        rw [if_neg (hjn ▸ hjk.symm)] at hk
        exact hstart q rfl p' f' (.inl ⟨k, hk⟩)
      · split at hk
        · cases hk
          exact hsymm _ _ _ _ (hstart q rfl p f (.inl ⟨j, hj⟩))
        · exact hw.served j k p f p' f' hjk hj hk
    · rw [hserve] at hj
      split at hj
      · cases hj
        exact hstart q rfl _ _ (.inr ⟨y, hlog ▸ hy, rfl, rfl⟩)
      · exact hw.mixed j p f hj y (hlog ▸ hy)
  | step i c q f f' o _ hnext hmay heff hlog hslots hserve =>
    have hi := hnext.serving
    refine ⟨fun j k p g p' g' hjk hj hk => ?_, fun j p g hj y hy => ?_, hlog ▸ hw.logged⟩
    · rw [hserve] at hj hk
      split at hj
      · rename_i hji
        cases hj
        rw [if_neg (hji ▸ hjk.symm)] at hk
        exact hstep i c q f f' o p' g' rfl hnext hmay heff (.inl ⟨k, hji ▸ hjk.symm, hk⟩)
          (hw.served i k q f p' g' (hji ▸ hjk) hi hk)
      · rename_i hji
        split at hk
        · cases hk
          exact hsymm _ _ _ _ (hstep i c q f f' o p g rfl hnext hmay heff (.inl ⟨j, hji, hj⟩)
            (hw.served i j q f p g (Ne.symm hji) hi hj))
        · exact hw.served j k p g p' g' hjk hj hk
    · rw [hserve] at hj
      rw [hlog] at hy
      split at hj
      · cases hj
        exact hstep i c q f f' o _ _ rfl hnext hmay heff (.inr ⟨y, hy, rfl, rfl⟩)
          (hw.mixed i q f hi y hy)
      · exact hw.mixed j p g hj y hy
  | respond i y _ hserved hends hshared hlog hslots hserve =>
    refine ⟨fun j k p g p' g' hjk hj hk => ?_, fun j p g hj z hz => ?_, ?_⟩
    · rw [hserve] at hj hk
      split at hj
      · cases hj
      · split at hk
        · cases hk
        · exact hw.served j k p g p' g' hjk hj hk
    · rw [hserve] at hj
      split at hj
      · cases hj
      · rename_i hji
        rw [hlog] at hz
        rcases List.mem_append.mp hz with hz | hz
        · exact hw.mixed j p g hj z hz
        · rw [List.mem_singleton] at hz
          subst hz
          exact hw.served j i p g _ _ hji hj hserved
    · rw [hlog]
      refine List.pairwise_append.mpr ⟨hw.logged, List.pairwise_singleton _ _, ?_⟩
      intro z hz y' hy'
      rw [List.mem_singleton] at hy'
      subst hy'
      exact hsymm _ _ _ _ (hw.mixed i _ _ hserved z hz)
  | env c _ hdrift hlog hslots hserve =>
    refine ⟨fun j k p g p' g' hjk hj hk => ?_, fun j p g hj y hy => ?_, hlog ▸ hw.logged⟩
    · rw [hserve] at hj hk
      exact hw.served j k p g p' g' hjk hj hk
    · rw [hserve] at hj
      exact hw.mixed j p g hj y (hlog ▸ hy)

omit [DecidableEq K] in
/-- Where the digest of a request comes from. -/
lemma Turn.party {adm : List (Reply T K) → Request K → Bool} {q : Request K} {f' : Progress T}
    (h : Turn (MayCall x) (Ends x) adm w e w') (hp : Party w' q f') :
    (Party w q f' ∧ ∀ i c, e = .step i c → Other w i q f') ∨ (e = .start q ∧ f' = {}) ∨
    ∃ i c f o, e = .step i c ∧ NextCall w i q f o ∧ MayCall x q f o ∧
      Effect i c w.shared f o f' w'.shared := by
  cases h with
  | start q₀ _ hadm hshared hlog hslots hserve =>
    rcases hp with ⟨j, hj⟩ | ⟨y, hy, hyq⟩
    · rw [hserve] at hj
      split at hj
      · cases hj
        exact .inr (.inl ⟨rfl, rfl⟩)
      · exact .inl ⟨.inl ⟨j, hj⟩, fun i c hc => by cases hc⟩
    · exact .inl ⟨.inr ⟨y, hlog ▸ hy, hyq⟩, fun i c hc => by cases hc⟩
  | step i c q₀ f f'' o _ hnext hmay heff hlog hslots hserve =>
    rcases hp with ⟨j, hj⟩ | ⟨y, hy, hyq⟩
    · rw [hserve] at hj
      split at hj
      · cases hj
        exact .inr (.inr ⟨i, c, f, o, rfl, hnext, hmay, heff⟩)
      · rename_i hji
        refine .inl ⟨.inl ⟨j, hj⟩, fun i' c' hc => ?_⟩
        cases hc
        exact .inl ⟨j, hji, hj⟩
    · exact .inl ⟨.inr ⟨y, hlog ▸ hy, hyq⟩, fun _ _ _ => .inr ⟨y, hlog ▸ hy, hyq⟩⟩
  | respond i y _ hserved hends hshared hlog hslots hserve =>
    rcases hp with ⟨j, hj⟩ | ⟨z, hz, hzq, hzf⟩
    · rw [hserve] at hj
      split at hj
      · cases hj
      · exact .inl ⟨.inl ⟨j, hj⟩, fun i' c' hc => by cases hc⟩
    · rw [hlog] at hz
      rcases List.mem_append.mp hz with hz | hz
      · exact .inl ⟨.inr ⟨z, hz, hzq, hzf⟩, fun i' c' hc => by cases hc⟩
      · rw [List.mem_singleton] at hz
        subst hz
        exact .inl ⟨.inl ⟨i, by rw [hserved, hzq, hzf]⟩, fun i' c' hc => by cases hc⟩
  | env c _ hdrift hlog hslots hserve =>
    rcases hp with ⟨j, hj⟩ | ⟨y, hy, hyq⟩
    · exact .inl ⟨.inl ⟨j, hserve j ▸ hj⟩, fun i' c' hc => by cases hc⟩
    · exact .inl ⟨.inr ⟨y, hlog ▸ hy, hyq⟩, fun i' c' hc => by cases hc⟩

/-- The service without its first `n` answers. -/
def since (n : ℕ) (w : World T K) : World T K := { w with log := w.log.drop n }

omit [Instant T] [DecidableEq K] in
lemma Party.of_since {n : ℕ} {q : Request K} {f : Progress T} (h : Party (since n w) q f) :
    Party w q f := by
  rcases h with hserved | ⟨y, hy, hyq⟩
  · exact .inl hserved
  · exact .inr ⟨y, List.mem_of_mem_drop hy, hyq⟩

omit [Instant T] [DecidableEq K] in
lemma Other.of_since {n i : ℕ} {q : Request K} {f : Progress T} (h : Other (since n w) i q f) :
    Other w i q f := by
  rcases h with hserved | ⟨y, hy, hyq⟩
  · exact .inl hserved
  · exact .inr ⟨y, List.mem_of_mem_drop hy, hyq⟩

omit [DecidableEq K] in
/-- What an event does to the requests since the first `n` answers. -/
lemma Turn.since {adm : List (Reply T K) → Request K → Bool} {n : ℕ} (hn : n ≤ w.log.length)
    (h : Turn (MayCall x) (Ends x) adm w e w') :
    Turn (MayCall x) (Ends x) (fun _ _ => true) (since n w) e (since n w') := by
  cases h with
  | start q _ hadm hshared hlog hslots hserve =>
    exact .start q _ rfl hshared (congrArg (List.drop n) hlog) hslots hserve
  | step i c q f f' o _ hnext hmay heff hlog hslots hserve =>
    exact .step i c q f f' o _ hnext hmay heff (congrArg (List.drop n) hlog) hslots hserve
  | respond i y _ hserved hends hshared hlog hslots hserve =>
    refine .respond i y _ hserved hends hshared ?_ hslots hserve
    change w'.log.drop n = w.log.drop n ++ [y]
    rw [hlog, List.drop_append_of_le_length hn]
  | env c _ hdrift hlog hslots hserve =>
    exact .env c _ hdrift (congrArg (List.drop n) hlog) hslots hserve

/-! ## The invariant of the service -/

/-- A token that verifies was handed out before it is presented. -/
structure Presented (x : Externals K) (w : World T K) : Prop where
  /-- The requests being served. -/
  served : ∀ i q f tok c, serving w i = some (q, f) → q.token? = some tok →
    x.jwt.verify tok = some c → tok ∈ issued w.log
  /-- The answered requests. -/
  logged : ∀ l e l' tok c, w.log = l ++ e :: l' → e.request.token? = some tok →
    x.jwt.verify tok = some c → tok ∈ issued l

/-- The invariant of the service. -/
structure Invariant (x : Externals K) (w : World T K) : Prop where
  /-- The requests keep the contract. -/
  sound : Sound x w
  /-- The values of the requests have been drawn. -/
  drawn : Everyone (fun _ f => ∀ u ∈ f.drawn, u ∈ w.shared.drawn) w
  /-- Two requests draw different values. -/
  fresh : Everypair (fun _ f _ f' => ∀ u ∈ f.drawn, u ∉ f'.drawn) w
  /-- No clock reading lies in the future. -/
  dated : Everyone (fun _ f => ∀ t ∈ f.readings, t ≤ w.shared.now) w
  /-- Tokens are handed out before they are presented. -/
  presented : Presented x w
  /-- What a request has looked up is the session of the token it presents. -/
  found : Everyone (fun q f => ∀ s v, f.found = some (s, v) →
    ∃ c, Presents x q c ∧ v = s.redis.lookup s.now (.refresh c.sub c.deviceId)) w

/-- The clock does not run backwards, and what is drawn stays drawn. -/
lemma Change.frame (h : Change x w e w') :
    w.shared.now ≤ w'.shared.now ∧ ∀ u ∈ w.shared.drawn, u ∈ w'.shared.drawn := by
  cases h with
  | start q _ hadm hshared => rw [hshared]; exact ⟨le_rfl, fun _ hu => hu⟩
  | step i c q f f' o _ hnext hmay heff =>
    refine ⟨le_of_eq heff.readings.1.symm, fun u hu => ?_⟩
    rcases heff.drawn with ⟨-, hd⟩ | ⟨v, -, -, hd, -⟩
    · rwa [hd]
    · rw [hd]
      exact List.mem_cons_of_mem _ hu
  | respond i e _ hserved hends hshared => rw [hshared]; exact ⟨le_rfl, fun _ hu => hu⟩
  | env c _ hdrift =>
    obtain ⟨-, hdrawn, hle⟩ := drift_frame hdrift
    rw [hdrawn]
    exact ⟨hle, fun _ hu => hu⟩

lemma Presented.change (hw : Presented x w) (h : Change x w e w') : Presented x w' := by
  cases h with
  | start q _ hadm hshared hlog hslots hserve =>
    refine ⟨fun j q' f tok c hj htok hc => ?_, fun l y l' tok c hl => hw.logged l y l' tok c
      (hlog ▸ hl)⟩
    rw [hlog]
    rw [hserve] at hj
    split at hj
    · cases hj
      simp only [admits, htok, hc, Option.isNone_some, Bool.false_or, decide_eq_true_eq] at hadm
      exact hadm
    · exact hw.served j q' f tok c hj htok hc
  | step i c q f f' o _ hnext hmay heff hlog hslots hserve =>
    refine ⟨fun j q' g tok cl hj htok hc => ?_, fun l y l' tok c hl => hw.logged l y l' tok c
      (hlog ▸ hl)⟩
    rw [hlog]
    rw [hserve] at hj
    split at hj
    · cases hj
      exact hw.served i q f tok cl hnext.serving htok hc
    · exact hw.served j q' g tok cl hj htok hc
  | respond i y _ hserved hends hshared hlog hslots hserve =>
    refine ⟨fun j q' g tok cl hj htok hc => ?_, fun l z l' tok c hl htok hc => ?_⟩
    · rw [hserve] at hj
      split at hj
      · cases hj
      · rw [hlog, issued, List.flatMap_append]
        exact List.mem_append_left _ (hw.served j q' g tok cl hj htok hc)
    · rw [hlog] at hl
      rcases List.eq_nil_or_concat l' with rfl | ⟨l'', z', rfl⟩
      · obtain ⟨rfl, hz⟩ := List.append_inj' hl rfl
        cases hz
        exact hw.served i _ _ tok c hserved htok hc
      · have hl' : w.log ++ [y] = (l ++ z :: l'') ++ [z'] := by rw [hl]; simp
        obtain ⟨hw', -⟩ := List.append_inj' hl' rfl
        exact hw.logged l z l'' tok c hw' htok hc
  | env c _ hdrift hlog hslots hserve =>
    refine ⟨fun j q' g tok cl hj htok hc => ?_, fun l y l' tok c hl => hw.logged l y l' tok c
      (hlog ▸ hl)⟩
    rw [hlog]
    rw [hserve] at hj
    exact hw.served j q' g tok cl hj htok hc

/-- The invariant is kept by every event. -/
theorem Invariant.exec (hw : Invariant x w) (h : Pool.exec (server x) e w = some w') :
    Invariant x w' := by
  have hc := hw.sound.change h
  have hframe := hc.frame
  refine ⟨hw.sound.exec h, ?_, ?_, ?_, hw.presented.change hc, ?_⟩
  · refine hw.drawn.change hc (fun q f hf u hu => hframe.2 u (hf u hu))
      (fun q u hu => absurd hu List.not_mem_nil) ?_
    intro i c q f f' o _ hnext hmay heff hf u hu
    rcases heff.drawn with ⟨hd, -⟩ | ⟨v, -, hd, hs, -⟩
    · exact hframe.2 u (hf u (hd ▸ hu))
    · rw [hd] at hu
      rcases List.mem_cons.mp hu with rfl | hu
      · rw [hs]
        exact List.mem_cons_self
      · exact hframe.2 u (hf u hu)
  · refine hw.fresh.change hc (fun q f q' f' hR u hu hu' => hR u hu' hu)
      (fun q _ q' f' _ u hu => absurd hu List.not_mem_nil) ?_
    intro i c q f f' o q' g _ hnext hmay heff hother hR u hu hu'
    rcases heff.drawn with ⟨hd, -⟩ | ⟨v, hv, hd, -, -⟩
    · exact hR u (hd ▸ hu) hu'
    · rw [hd] at hu
      rcases List.mem_cons.mp hu with rfl | hu
      · -- a fresh value has been drawn by nobody
        rcases hother with ⟨j, -, hj⟩ | ⟨y, hy, -, rfl⟩
        · exact hv (hw.drawn.served j q' g hj u hu')
        · exact hv (hw.drawn.logged y hy u hu')
      · exact hR u hu hu'
  · refine hw.dated.change hc (fun q f hf t ht => (hf t ht).trans hframe.1)
      (fun q t ht => absurd ht List.not_mem_nil) ?_
    intro i c q f f' o _ hnext hmay heff hf t ht
    rcases heff.readings.2 with hr | hr
    · exact (hf t (hr ▸ ht)).trans hframe.1
    · rw [hr] at ht
      rcases List.mem_cons.mp ht with rfl | ht
      · exact hframe.1
      · exact (hf t ht).trans hframe.1
  · refine hw.found.change hc (fun q f hf => hf) (fun q s v hv => by cases hv) ?_
    intro i c q f f' o _ hnext hmay heff hf s v hv
    rcases heff.found with hfound | ⟨k, rfl, -, rfl⟩
    · exact hf s v (hfound ▸ hv)
    · obtain ⟨-, -, -, -, cl, hpres, -, rfl⟩ := hmay
      cases Option.some.inj hv
      exact ⟨cl, hpres, rfl⟩

omit [DecidableEq K] in
theorem invariant_initial (x : Externals K) (now : T) (db : Database T) (drawn : List Uuid) :
    Invariant x (Pool.initial (Stores.initial now db drawn)) where
  sound := sound_initial now db drawn
  drawn := ⟨fun i q f hi => by simp [serving_initial] at hi, fun e he => absurd he List.not_mem_nil⟩
  fresh := ⟨fun i j q f q' f' _ hi => by simp [serving_initial] at hi,
    fun i q f hi => by simp [serving_initial] at hi, List.Pairwise.nil⟩
  dated := ⟨fun i q f hi => by simp [serving_initial] at hi, fun e he => absurd he List.not_mem_nil⟩
  presented := ⟨fun i q f tok c hi => by simp [serving_initial] at hi,
    fun l e l' tok c hl => by simp [Pool.initial] at hl⟩
  found := ⟨fun i q f hi => by simp [serving_initial] at hi, fun e he => absurd he List.not_mem_nil⟩

/-- The invariant holds along every run. -/
theorem Invariant.reach {C : World T K → Event (Request K) (Choice T) → Prop}
    (hw : Invariant x w) (h : Reach (server x) C w w') : Invariant x w' :=
  h.induct hw fun _ _ _ _ hv _ he => hv.exec he

/-- No request draws a value twice. -/
theorem Invariant.nodup_drawn {C : World T K → Event (Request K) (Choice T) → Prop}
    {now : T} {db : Database T} {drawn : List Uuid}
    (h : Reach (server x) C (Pool.initial (Stores.initial now db drawn)) w) :
    Everyone (fun _ f => f.drawn.Nodup) w := by
  have hboth := h.induct (I := fun v => Invariant x v ∧ Everyone (fun _ f => f.drawn.Nodup) v)
    ⟨invariant_initial x now db drawn, fun i q f hi => by simp [serving_initial] at hi,
      fun e he => absurd he List.not_mem_nil⟩
    fun v e v' _ hv _ he => ?_
  · exact hboth.2
  · refine ⟨hv.1.exec he, hv.2.change (hv.1.sound.change he) (fun _ _ hf => hf)
      (fun _ => List.nodup_nil) ?_⟩
    intro i c q f f' o _ hnext hmay heff hf
    rcases heff.drawn with ⟨hd, -⟩ | ⟨u, hu, hd, -⟩
    · rwa [hd]
    · rw [hd]
      have hnew : u ∉ f.drawn := fun hmem => hu (hv.1.drawn.served i q f hnext.serving u hmem)
      exact List.nodup_cons.mpr ⟨hnew, hf⟩

/-! ## The tokens that have been handed out -/

section Issued

omit [DecidableEq K]

variable {tok : K} {c : Claims}

/-- A response with tokens is one of a login or a refresh. -/
lemma Succeeded.minted {q : Request K} {resp : Response T K} {f : Progress T}
    (h : Succeeded x q resp f) (ht : tok ∈ resp.tokens) :
    ∃ u d, Opens x q f u d ∧ Minted x u d resp f := by
  have hnil : resp.tokens ≠ [] := List.ne_nil_of_mem ht
  cases q with
  | login email password client =>
    obtain ⟨u, hlogin, hm⟩ := h
    exact ⟨u, client.xDeviceId, .inl hlogin, hm⟩
  | refresh tok client =>
    obtain ⟨c, hrot, -, hm⟩ := h
    exact ⟨c.sub, c.deviceId, .inr ⟨c, hrot, rfl, rfl⟩, hm⟩
  | _ => exact absurd h.1 hnil

/-- A token that was handed out is one of an answered login or refresh. -/
theorem Invariant.minted (hw : Invariant x w) (h : tok ∈ issued w.log) :
    ∃ e ∈ w.log, ∃ resp u d, e.result = .ok resp ∧ tok ∈ resp.tokens ∧
      Opens x e.request (progress e.performed) u d ∧ Minted x u d resp (progress e.performed) := by
  obtain ⟨e, he, htok⟩ := List.mem_flatMap.mp h
  have hends := hw.sound.ends he
  unfold handedOut at htok
  split at htok
  · rename_i resp hres
    rw [hres] at hends
    obtain ⟨u, d, hopen, hm⟩ := Succeeded.minted hends.2.1 htok
    exact ⟨e, he, resp, u, d, hres, htok, hopen, hm⟩
  · exact absurd htok List.not_mem_nil

/-- The claims of an access token that was handed out. -/
theorem Invariant.access_claims (hw : Invariant x w) (h : tok ∈ issued w.log)
    (hver : x.jwt.verify tok = some c) (htype : c.type = .access) :
    ∃ e ∈ w.log, ∃ resp email name t r, e.result = .ok resp ∧
      resp.tokens.head? = some tok ∧ Opens x e.request (progress e.performed) c.sub c.deviceId ∧
      (progress e.performed).drawn = [r, c.jti] ∧ t ∈ (progress e.performed).readings ∧
      c = JwtService.accessClaims x.settings c.sub email name c.deviceId t c.jti := by
  obtain ⟨e, he, resp, u, d, hres, htok, hopen, r, a, made, t, email, name, hdr, ht, -, htoks, -⟩ :=
    hw.minted h
  rw [htoks] at htok
  simp only [List.mem_cons, List.not_mem_nil, or_false] at htok
  rcases htok with rfl | rfl
  · rw [x.jwt.verify_sign] at hver
    cases hver
    exact ⟨e, he, resp, email, name, t, r, hres, by rw [htoks]; rfl, hopen, hdr, ht, rfl⟩
  · rw [x.jwt.verify_sign] at hver
    cases hver
    cases htype

/-- The claims of a refresh token that was handed out. -/
theorem Invariant.refresh_claims (hw : Invariant x w) (h : tok ∈ issued w.log)
    (hver : x.jwt.verify tok = some c) (htype : c.type = .refresh) :
    ∃ e ∈ w.log, ∃ resp made a, e.result = .ok resp ∧
      resp.tokens.getLast? = some tok ∧ Opens x e.request (progress e.performed) c.sub c.deviceId ∧
      (progress e.performed).drawn = [c.jti, a] ∧
      (∃ t, (progress e.performed).lifetime = some (made, t)) ∧
      Stored x (progress e.performed) c.sub c.deviceId c.jti ∧
      c = JwtService.refreshClaims x.settings c.sub c.deviceId made c.jti := by
  obtain ⟨e, he, resp, u, d, hres, htok, hopen, r, a, made, t, email, name, hdr, -, -, htoks, hlt,
    hst⟩ := hw.minted h
  rw [htoks] at htok
  simp only [List.mem_cons, List.not_mem_nil, or_false] at htok
  rcases htok with rfl | rfl
  · rw [x.jwt.verify_sign] at hver
    cases hver
    cases htype
  · rw [x.jwt.verify_sign] at hver
    cases hver
    exact ⟨e, he, resp, made, a, hres, by rw [htoks]; rfl, hopen, hdr, hlt, hst, rfl⟩

/-- Two answered requests that have drawn the same value are the same. -/
theorem Invariant.same_exchange (hw : Invariant x w) {e e' : Reply T K} (he : e ∈ w.log)
    (he' : e' ∈ w.log) {u : Uuid} (hu : u ∈ (progress e.performed).drawn)
    (hu' : u ∈ (progress e'.performed).drawn) : e = e' := by
  by_contra hne
  have hsymm : Std.Symm fun e e' : Reply T K =>
      ∀ u ∈ (progress e.performed).drawn, u ∉ (progress e'.performed).drawn :=
    ⟨fun _ _ h u hu hu' => h u hu' hu⟩
  exact hw.fresh.logged.forall he he' hne u hu hu'

/-- An access token that was handed out is known by its `jti`. -/
theorem Invariant.access_unique (hw : Invariant x w) {tok' : K} {c' : Claims}
    (h : tok ∈ issued w.log) (h' : tok' ∈ issued w.log) (hver : x.jwt.verify tok = some c)
    (hver' : x.jwt.verify tok' = some c') (htype : c.type = .access) (htype' : c'.type = .access)
    (hj : c.jti = c'.jti) : tok = tok' ∧ c = c' := by
  obtain ⟨e, he, resp, -, -, -, r, hres, hhead, -, hdr, -, -⟩ := hw.access_claims h hver htype
  obtain ⟨e', he', resp', -, -, -, r', hres', hhead', -, hdr', -, -⟩ :=
    hw.access_claims h' hver' htype'
  have heq : e = e' := hw.same_exchange he he' (u := c.jti) (by simp [hdr]) (by simp [hdr', hj])
  subst heq
  rw [hres] at hres'
  cases hres'
  rw [hhead] at hhead'
  cases hhead'
  rw [hver] at hver'
  exact ⟨rfl, Option.some.inj hver'⟩

/-- A refresh token that was handed out is known by its `jti`. -/
theorem Invariant.refresh_unique (hw : Invariant x w) {tok' : K} {c' : Claims}
    (h : tok ∈ issued w.log) (h' : tok' ∈ issued w.log) (hver : x.jwt.verify tok = some c)
    (hver' : x.jwt.verify tok' = some c') (htype : c.type = .refresh) (htype' : c'.type = .refresh)
    (hj : c.jti = c'.jti) : tok = tok' ∧ c = c' := by
  obtain ⟨e, he, resp, -, a, hres, hlast, -, hdr, -⟩ := hw.refresh_claims h hver htype
  obtain ⟨e', he', resp', -, a', hres', hlast', -, hdr', -⟩ := hw.refresh_claims h' hver' htype'
  have heq : e = e' := hw.same_exchange he he' (u := c.jti) (by simp [hdr]) (by simp [hdr', hj])
  subst heq
  rw [hres] at hres'
  cases hres'
  rw [hlast] at hlast'
  cases hlast'
  rw [hver] at hver'
  exact ⟨rfl, Option.some.inj hver'⟩

/-- A request being served has not drawn the `jti` of a refresh token that was handed out. -/
lemma Invariant.not_drawn (hw : Invariant x w) (h : tok ∈ issued w.log)
    (hver : x.jwt.verify tok = some c) {i : ℕ} {q : Request K} {f : Progress T}
    (hi : serving w i = some (q, f)) : c.jti ∉ f.drawn := by
  intro hmem
  cases htype : c.type with
  | access =>
    obtain ⟨e, he, -, -, -, -, r, -, -, -, hdr, -⟩ := hw.access_claims h hver htype
    exact hw.fresh.mixed i q f hi e he c.jti hmem (by simp [hdr])
  | refresh =>
    obtain ⟨e, he, -, -, a, -, -, -, hdr, -⟩ := hw.refresh_claims h hver htype
    exact hw.fresh.mixed i q f hi e he c.jti hmem (by simp [hdr])

end Issued

end SampleAuthApi
