import SampleAuthApi.Sessions.Access

/-!
# The blacklist entry of a logout

A logout at the instant `t₀` blacklists its token for the whole seconds that are left of it, so the
entry ends before the token unless `t₀` is a whole second.  `logout_final_iff`: the token is
rejected from then on, in every continuation of the run, exactly when `t₀` is a whole second.
-/

namespace SampleAuthApi

open Pool

variable {T K : Type} [Instant T] {x : Externals K} {tok : K} {c : Claims}

/-- The request is a logout, from one device or all, with the access token with the claims `c`. -/
def LogsOut (x : Externals K) (q : Request K) (c : Claims) : Prop :=
  q.signsOut = true ∧ Bears x q c

/-- The access token with the claims `c` was not blacklisted when this was tested. -/
def Cleared (f : Progress T) (c : Claims) : Prop :=
  ∃ s, f.checked = some s ∧ s.blacklisted c = false

/-- The clock stands still, and no further logout with the token arrives. -/
def Undisturbed (x : Externals K) (c : Claims) (_ : World T K) :
    Event (Request K) (Choice T) → Prop
  | .env (.clock _) => False
  | .start q => ¬ LogsOut x q c
  | _ => True

lemma Authorised.cleared {q : Request K} {f : Progress T} (h : Authorised x q f c) :
    Cleared f c := by
  obtain ⟨-, -, -, -, -, -, hs, -⟩ := h
  exact hs

variable [DecidableEq K] {w w' : World T K} {e : Event (Request K) (Choice T)}

/-! ## A token that has been ended -/

/-- The access token with the claims `c` has expired, or its blacklist entry lasts until it expires
and no logout with it is past the test of the blacklist. -/
def Ended (x : Externals K) (c : Claims) (w : World T K) : Prop :=
  (c.exp : T) ≤ w.shared.now ∨
    (∃ v t, w.shared.redis.strings (.blacklist c.jti) = some (v, t) ∧ (c.exp : T) ≤ t) ∧
    ∀ k q f, serving w k = some (q, f) → LogsOut x q c → ¬ Cleared f c

/-- A token that has been ended stays so. -/
theorem Ended.change (hended : Ended x c w) (hw : Invariant x w) (hsets : NoSets w)
    (htok : tok ∈ issued w.log) (hver : x.jwt.verify tok = some c) (htype : c.type = .access)
    (h : Change x w e w') : Ended x c w' := by
  by_cases hexp : (c.exp : T) ≤ w'.shared.now
  · exact .inl hexp
  · have hlive : w.shared.now < (c.exp : T) := lt_of_le_of_lt h.frame.1 (not_le.mp hexp)
    obtain ⟨⟨v, t, hentry, hle⟩, hnone⟩ := hended.resolve_left (not_le.mpr hlive)
    have hblack : w.shared.blacklisted c = true :=
      (blacklisted_iff hsets).mpr ⟨v, t, hentry, lt_of_lt_of_le hlive hle⟩
    refine .inr ⟨?_, ?_⟩
    · rcases h.blacklist c.jti with hs | ⟨i, q, f, n, v', c', -, hnext, hsign, hauth, hj, -⟩
      · exact ⟨v, t, by rw [hs, hentry], hle⟩
      · -- the entry is rewritten by a logout that has passed the test: there is none
        obtain rfl := hw.authorised_eq (.inl ⟨i, hnext.serving⟩) hauth htok hver htype hj
        exact absurd hauth.cleared (hnone i q f hnext.serving ⟨hsign, hauth.bears⟩)
    · refine h.served (P := fun q f => LogsOut x q c → ¬ Cleared f c)
        (N := fun q f => LogsOut x q c → ¬ Cleared f c) hnone (fun _ _ hf => hf) ?_ ?_
      · rintro q - ⟨s, hs, -⟩
        cases hs
      · rintro i ch q f f' o - hnext hmay heff hf hout ⟨s, hs, hclear⟩
        rcases heff.checked with hsame | ⟨k, -, -, hf'⟩
        · exact hf hout ⟨s, hsame ▸ hs, hclear⟩
        · rw [hf'] at hs
          cases hs
          rw [hblack] at hclear
          cases hclear

/-- A token that has been ended is rejected in every continuation of the run. -/
theorem Ended.rejects {C : World T K → Event (Request K) (Choice T) → Prop} (hended : Ended x c w)
    (hw : Invariant x w) (hsets : NoSets w) (htok : tok ∈ issued w.log)
    (hver : x.jwt.verify tok = some c) (htype : c.type = .access)
    (h : Reach (server x) C w w') : Rejects x w'.shared tok := by
  have hall : Invariant x w' ∧ NoSets w' ∧ tok ∈ issued w'.log ∧ Ended x c w' := by
    refine Reach.induct (I := fun v => Invariant x v ∧ NoSets v ∧ tok ∈ issued v.log ∧
      Ended x c v) h ⟨hw, hsets, htok, hended⟩ ?_
    rintro v ev v' - ⟨hv, hs, ht, hend⟩ - hex
    have hc := hv.sound.change hex
    exact ⟨hv.exec hex, hs.change hc, hc.issued ht, hend.change hv hs ht hver htype hc⟩
  obtain ⟨hw', hsets', htok', hended'⟩ := hall
  refine (hw'.rejects_iff htok' hver htype).mpr ?_
  rcases hended' with hexp | ⟨⟨v, t, hentry, hle⟩, -⟩
  · exact .inl hexp
  · by_cases hexp : (c.exp : T) ≤ w'.shared.now
    · exact .inl hexp
    · exact .inr ((blacklisted_iff hsets').mpr
        ⟨v, t, hentry, lt_of_lt_of_le (not_le.mp hexp) hle⟩)

/-! ## A logout while the clock stands still -/

/-- What the digest of a logout says about the blacklist while the clock stands at `t₀`. -/
structure Seen (c : Claims) (t₀ : T) (s : Stores T) (f : Progress T) : Prop where
  /-- All clock readings are the same. -/
  readings : ∀ t ∈ f.readings, t = t₀
  /-- An entry that has been written is there. -/
  entry : ∀ t (n : ℤ) v, (t, Redis.Cmd.setex (.blacklist c.jti) n v) ∈ f.sent →
    0 < n ∧ s.redis.strings (.blacklist c.jti) = some (v, t₀ + n)
  /-- As long as no entry has been written there is none, if the test has found none. -/
  noEntry : Cleared f c → (∀ t (n : ℤ) v, (t, Redis.Cmd.setex (.blacklist c.jti) n v) ∉ f.sent) →
    s.redis.lookup t₀ (.blacklist c.jti) = none

/-- Slot `i` serves the only logout with the token, and the clock stands at `t₀`. -/
structure Alone (x : Externals K) (c : Claims) (i : ℕ) (t₀ : T) (w : World T K) : Prop where
  /-- The clock. -/
  now : w.shared.now = t₀
  /-- The slot has been taken. -/
  slot : i < w.slots.length
  /-- No other slot serves a logout with the token. -/
  others : ∀ k q f, k ≠ i → serving w k = some (q, f) → ¬ LogsOut x q c
  /-- What the slot has seen. -/
  own : ∀ q f, serving w i = some (q, f) → Seen c t₀ w.shared f

omit [DecidableEq K] in
/-- What a logout has seen depends on the entry of its token only. -/
lemma Seen.frame {t₀ : T} {s s' : Stores T} {f : Progress T} (h : Seen c t₀ s f)
    (hs : s'.redis.strings (.blacklist c.jti) = s.redis.strings (.blacklist c.jti)) :
    Seen c t₀ s' f := by
  refine ⟨h.readings, fun t n v hmem => ?_, fun hclear hsent => ?_⟩
  · rw [hs]
    exact h.entry t n v hmem
  · have hnone := h.noEntry hclear hsent
    unfold Redis.Store.lookup at hnone ⊢
    rw [hs]
    exact hnone

omit [DecidableEq K] in
/-- A call of the logout itself. -/
lemma Seen.step {i : ℕ} {ch : Choice T} {t₀ : T} {s s' : Stores T} {f f' : Progress T} {o : Op T}
    (hseen : Seen c t₀ s f) (hnow : s.now = t₀) (heff : Effect i ch s f o f' s')
    (hs : s'.redis.strings (.blacklist c.jti) = s.redis.strings (.blacklist c.jti) ∨
      f.sent = [] ∧ ∃ t n v, (t, Redis.Cmd.setex (.blacklist c.jti) n v) ∈ f'.sent) :
    Seen c t₀ s' f' := by
  refine ⟨fun t ht => ?_, fun t n v hmem => ?_, fun hclear hsent => ?_⟩
  · rcases heff.readings.2 with hr | hr
    · exact hseen.readings t (hr ▸ ht)
    · rw [hr] at ht
      rcases List.mem_cons.mp ht with rfl | ht
      · exact hnow
      · exact hseen.readings t ht
  · have hold : (t, Redis.Cmd.setex (.blacklist c.jti) n v) ∈ f.sent →
        0 < n ∧ s'.redis.strings (.blacklist c.jti) = some (v, t₀ + n) := by
      intro hmem'
      rcases hs with hs | ⟨hnil, -⟩
      · rw [hs]
        exact hseen.entry t n v hmem'
      · rw [hnil] at hmem'
        cases hmem'
    rcases heff.sent with ⟨hsame, -⟩ | ⟨cmd, -, -, -, hvalid, rfl, rfl⟩
    · exact hold (hsame ▸ hmem)
    · rcases List.mem_cons.mp hmem with hnew | hmem'
      · cases hnew
        exact ⟨by simpa [Redis.Cmd.isValid] using hvalid,
          by simp [Redis.Store.strings_setex, hnow]⟩
      · exact hold hmem'
  · have hsame : s'.redis.strings (.blacklist c.jti) = s.redis.strings (.blacklist c.jti) := by
      rcases hs with hs | ⟨-, t, n, v, hmem⟩
      · exact hs
      · exact absurd hmem (hsent t n v)
    have hnone : s.redis.lookup t₀ (.blacklist c.jti) = none := by
      rcases heff.checked with hch | ⟨k, -, -, hf'⟩
      · obtain ⟨s₁, hs₁, hfalse⟩ := hclear
        exact hseen.noEntry ⟨s₁, hch ▸ hs₁, hfalse⟩ fun t n v hmem =>
          hsent t n v (heff.mem_sent hmem)
      · obtain ⟨s₁, hs₁, hfalse⟩ := hclear
        rw [hf'] at hs₁
        cases hs₁
        rw [← hnow]
        exact lookup_of_not_blacklisted hfalse
    unfold Redis.Store.lookup at hnone ⊢
    rw [hsame]
    exact hnone

/-- One event while the clock stands still. -/
theorem Alone.change {i : ℕ} {t₀ : T} (halone : Alone x c i t₀ w) (hw : Invariant x w)
    (htok : tok ∈ issued w.log) (hver : x.jwt.verify tok = some c) (htype : c.type = .access)
    (hC : Undisturbed x c w e) (h : Change x w e w') : Alone x c i t₀ w' := by
  -- the entry is only rewritten by slot `i`, as its first command
  have hentry : w'.shared.redis.strings (.blacklist c.jti) =
        w.shared.redis.strings (.blacklist c.jti) ∨
      ∃ ch q f, e = .step i ch ∧ serving w i = some (q, f) ∧ f.sent = [] ∧
        ∃ f', serving w' i = some (q, f') ∧
          ∃ t n v, (t, Redis.Cmd.setex (.blacklist c.jti) n v) ∈ f'.sent := by
    rcases h.blacklist c.jti with hs |
      ⟨k, q, f, n, v, c', rfl, hnext, hsign, hauth, hj, hnil, -, -, -, hserve⟩
    · exact .inl hs
    · obtain ⟨tok', htok', hver'⟩ := hw.issued_of_bears (.inl ⟨k, hnext.serving⟩) hauth.bears
      have htype' : c'.type = .access := by
        obtain ⟨-, -, -, -, htype', -⟩ := hauth
        exact htype'
      obtain ⟨-, rfl⟩ := hw.access_unique htok' htok hver' hver htype' htype hj
      have hki : k = i := by
        by_contra hne
        exact halone.others k q f hne hnext.serving ⟨hsign, hauth.bears⟩
      subst hki
      exact .inr ⟨.go, q, f, rfl, hnext.serving, hnil, _, hserve, _, n, v,
        List.mem_singleton_self _⟩
  cases h with
  | start q _ hadm hshared hlog hslots hserve =>
    have hi : i ≠ w.slots.length := halone.slot.ne
    refine ⟨by rw [hshared]; exact halone.now, by rw [hslots]; exact halone.slot.trans (by omega),
      fun k q' f hk hserving => ?_, fun q' f hserving => ?_⟩
    · rw [hserve] at hserving
      split at hserving
      · cases hserving
        exact hC
      · exact halone.others k q' f hk hserving
    · rw [hserve, if_neg hi] at hserving
      rw [hshared]
      exact halone.own q' f hserving
  | step k ch q f f' o _ hnext hmay heff hlog hslots hserve =>
    refine ⟨heff.readings.1.trans halone.now, by rw [hslots]; exact halone.slot,
      fun k' q' g hk hserving => ?_, fun q' g hserving => ?_⟩
    · rw [hserve] at hserving
      split at hserving
      · rename_i hk'
        cases hserving
        exact halone.others k q f (hk' ▸ hk) hnext.serving
      · exact halone.others k' q' g hk hserving
    · by_cases hki : i = k
      · subst hki
        have hs := hserving
        rw [hserve, if_pos rfl] at hserving
        cases hserving
        refine (halone.own q f hnext.serving).step halone.now heff (hentry.imp id ?_)
        rintro ⟨-, q₁, f₁, -, hserving₁, hnil, f₂, hserving₂, hmem⟩
        rw [hnext.serving] at hserving₁
        cases hserving₁
        rw [hs] at hserving₂
        cases hserving₂
        exact ⟨hnil, hmem⟩
      · rw [hserve, if_neg hki] at hserving
        refine (halone.own q' g hserving).frame ?_
        rcases hentry with hsame | ⟨ch', -, -, he, -⟩
        · exact hsame
        · cases he
          exact absurd rfl hki
  | respond k y _ hserved hends hshared hlog hslots hserve =>
    refine ⟨by rw [hshared]; exact halone.now, by rw [hslots]; exact halone.slot,
      fun k' q' f hk hserving => ?_, fun q' f hserving => ?_⟩
    · rw [hserve] at hserving
      split at hserving
      · cases hserving
      · exact halone.others k' q' f hk hserving
    · rw [hserve] at hserving
      split at hserving
      · cases hserving
      · rw [hshared]
        exact halone.own q' f hserving
  | env ch _ hdrift hlog hslots hserve =>
    have hnow : w'.shared.now = w.shared.now := by
      cases ch with
      | clock t => exact hC.elim
      | setStatus id status =>
        simp only [drift] at hdrift
        split at hdrift
        · cases hdrift
        · rw [← Option.some.inj hdrift]
      | _ => cases hdrift
    refine ⟨hnow.trans halone.now, by rw [hslots]; exact halone.slot, fun k q f hk hserving => ?_,
      fun q f hserving => ?_⟩
    · rw [hserve] at hserving
      exact halone.others k q f hk hserving
    · rw [hserve] at hserving
      refine (halone.own q f hserving).frame ?_
      rw [(drift_frame hdrift).1]

/-! ## Finality -/

/-- An access token is let in at a later instant before its expiry, if its blacklist entry has ended
by then. -/
lemma Invariant.not_rejects_later (hw : Invariant x w) (hsets : NoSets w)
    (htok : tok ∈ issued w.log) (hver : x.jwt.verify tok = some c) (htype : c.type = .access)
    {t : T} (hnow : w.shared.now ≤ t) (hexp : t < (c.exp : T))
    (hgone : ∀ v t', w.shared.redis.strings (.blacklist c.jti) = some (v, t') → t' ≤ t) :
    ∃ w', Reach (server x) AnyEvent w w' ∧ ¬ Rejects x w'.shared tok := by
  have hex : Pool.exec (server x) (.env (.clock t)) w =
      some { w with shared := { w.shared with now := t } } := by
    simp [Pool.exec, server, service, drift, hnow]
  refine ⟨_, (Reach.refl w).tail trivial hex, fun hrej => ?_⟩
  have hw' := hw.exec hex
  rcases (hw'.rejects_iff htok hver htype).mp hrej with hexp' | hblack
  · exact absurd hexp' (not_le.mpr hexp)
  · obtain ⟨v, t', hentry, hlt⟩ := (blacklisted_iff (hsets.change (hw.sound.change hex))).mp hblack
    exact absurd (hgone v t' hentry) (not_le.mpr hlt)

omit [DecidableEq K] in
/-- A successful logout has blacklisted its token before anything else, if a second of it was
left. -/
lemma Succeeded.blacklisting {q : Request K} {resp : Response T K} {f : Progress T}
    (h : Succeeded x q resp f) (hq : q.signsOut = true) :
    ∃ c before, Authorised x q f c ∧ Blacklisting f c before ∧
      ∀ t (n : ℤ) v, (t, Redis.Cmd.setex (.blacklist c.jti) n v) ∈ f.sent ↔
        (t, Redis.Cmd.setex (.blacklist c.jti) n v) ∈ before := by
  cases q with
  | logout tok dev =>
    obtain ⟨-, c, before, hauth, hbl, t, t', hsent⟩ := h
    exact ⟨c, before, hauth, hbl, fun s n v => by simp [hsent]⟩
  | logoutAll tok dev =>
    obtain ⟨-, c, before, hauth, hbl, t, ds, -, hsent⟩ := h
    exact ⟨c, before, hauth, hbl, fun s n v => by simp [hsent]⟩
  | _ => cases hq

omit [DecidableEq K] in
/-- The blacklist after a successful logout at the instant `t₀`: an entry for the whole seconds that
are left of the token, or none if less than a second is left. -/
lemma Alone.blacklist {i : ℕ} {t₀ : T} {q : Request K} {resp : Response T K} {f : Progress T}
    (halone : Alone x c i t₀ w) (hserving : serving w i = some (q, f))
    (hsucc : Succeeded x q resp f) (hout : LogsOut x q c) :
    t₀ < (c.exp : T) ∧
      ((0 < Instant.truncInt ((c.exp : T) - t₀) ∧ ∃ v, w.shared.redis.strings (.blacklist c.jti) =
          some (v, t₀ + Instant.truncInt ((c.exp : T) - t₀))) ∨
        (Instant.truncInt ((c.exp : T) - t₀) ≤ 0 ∧
          w.shared.redis.lookup t₀ (.blacklist c.jti) = none)) := by
  have hseen := halone.own q f hserving
  obtain ⟨c', before, hauth, ⟨t, ht, hbl⟩, hiff⟩ := hsucc.blacklisting hout.1
  obtain rfl := hauth.bears.unique hout.2
  have hexp : t₀ < (c'.exp : T) := by
    obtain ⟨-, -, -, -, -, -, -, t', ht', hval⟩ := id hauth
    rw [hseen.readings t' ht'] at hval
    by_contra hle
    have hnot : ¬ t₀ < (c'.iat : T) := by
      intro hlt
      simp [validateClaims, hlt] at hval
    simp [validateClaims, hnot, not_lt.mp hle] at hval
  refine ⟨hexp, ?_⟩
  rw [hseen.readings t ht] at hbl
  rcases hbl with ⟨s, v, hbefore⟩ | ⟨hbefore, hn⟩
  · have hmem : (s, Redis.Cmd.setex (.blacklist c'.jti)
        (Instant.truncInt ((c'.exp : T) - t₀)) v) ∈ f.sent := by
      rw [hiff, hbefore]
      exact List.mem_singleton_self _
    obtain ⟨hpos, hentry⟩ := hseen.entry _ _ _ hmem
    exact .inl ⟨hpos, v, hentry⟩
  · refine .inr ⟨hn, hseen.noEntry hauth.cleared fun s n v hmem => ?_⟩
    rw [hiff, hbefore] at hmem
    cases hmem

/-- A request that finds no logout with the token being served is alone when it arrives. -/
lemma Alone.arrive {q : Request K}
    (hidle : ∀ k q f, serving w k = some (q, f) → ¬ LogsOut x q c) (h : Change x w (.start q) w') :
    serving w' w.slots.length = some (q, {}) ∧ Alone x c w.slots.length w.shared.now w' := by
  cases h with
  | start _ _ hadm hshared hlog hslots hserve =>
    have hserving : serving w' w.slots.length = some (q, {}) := by rw [hserve, if_pos rfl]
    refine ⟨hserving, by rw [hshared], by rw [hslots]; omega, ?_, ?_⟩
    · intro k q' f hk hk'
      rw [hserve, if_neg hk] at hk'
      exact hidle k q' f hk'
    · intro q' f hi
      rw [hserving] at hi
      cases hi
      refine ⟨fun t ht => absurd ht List.not_mem_nil,
        fun t n v hmem => absurd hmem List.not_mem_nil, ?_⟩
      rintro ⟨s, hs, -⟩
      cases hs

/-- **A logout is final on whole seconds only.**  Let a logout, from one device or all, with the
access token `tok` arrive in `w₁` and succeed in `w₂`, while the clock stands still and no other
logout with the token is being served.  The token is rejected in every continuation of the run if
and only if the logout took place at a whole second. -/
theorem logout_final_iff (now : T) (db : Database T) (drawn : List Uuid) {w₁ w₂ : World T K}
    {y : Reply T K} {dev : String} {resp : Response T K}
    (h₁ : Reach (server x) AnyEvent (Pool.initial (Stores.initial now db drawn)) w₁)
    (hidle : ∀ k q f, serving w₁ k = some (q, f) → ¬ LogsOut x q c)
    (h₂ : Answered (server x) (Undisturbed x c) w₁ y w₂)
    (hlogout : y.request.signsOut = true) (hbearer : y.request.bearer? = some (tok, dev))
    (hver : x.jwt.verify tok = some c) (hsuccess : y.result = .ok resp) :
    (∀ w₃, Reach (server x) AnyEvent w₂ w₃ → Rejects x w₃.shared tok) ↔
      ∃ m : ℤ, w₁.shared.now = m := by
  obtain ⟨v₁, v₂, harrive, hrun, hanswer, hlog⟩ := h₂
  have hw₁ := (invariant_initial x now db drawn).reach h₁
  have hv₁ := hw₁.exec harrive
  have hv₂ := hv₁.reach hrun
  have hw₂ := hv₂.exec hanswer
  have hsets₁ : NoSets w₁ := NoSets.reach (invariant_initial x now db drawn) (fun _ => rfl) h₁
  have hsets₂ : NoSets w₂ :=
    (NoSets.reach hv₁ (hsets₁.change (hw₁.sound.change harrive)) hrun).change
      (hv₂.sound.change hanswer)
  have hout : LogsOut x y.request c := ⟨hlogout, tok, dev, hbearer, hver⟩
  -- the request was let in by the token
  have hy : y ∈ w₂.log := by rw [hlog]; simp
  have hsucc : Succeeded x y.request resp (progress y.performed) := by
    have hends := hw₂.sound.ends hy
    rw [hsuccess] at hends
    exact hends.2.1
  have htype : c.type = .access := by
    obtain ⟨c', -, hauth, -⟩ := hsucc.blacklisting hlogout
    obtain rfl := hauth.bears.unique hout.2
    obtain ⟨-, -, -, -, htype, -⟩ := hauth
    exact htype
  have htoken : y.request.token? = some tok := by
    cases hq : y.request <;> simp_all [Request.bearer?, Request.token?]
  -- it is alone when it arrives, and stays so until it is answered
  have hstart : tok ∈ issued v₁.log ∧ Alone x c w₁.slots.length w₁.shared.now v₁ := by
    obtain ⟨hserving, halone⟩ := Alone.arrive hidle (hw₁.sound.change harrive)
    exact ⟨hv₁.issued_of_token (.inl ⟨_, hserving⟩) htoken hver, halone⟩
  have hend : Invariant x v₂ ∧ tok ∈ issued v₂.log ∧
      Alone x c w₁.slots.length w₁.shared.now v₂ := by
    refine Reach.induct (I := fun v => Invariant x v ∧ tok ∈ issued v.log ∧
      Alone x c w₁.slots.length w₁.shared.now v) hrun ⟨hv₁, hstart⟩ ?_
    rintro v ev v' - ⟨hv, ht, halone⟩ hC hex
    have hc := hv.sound.change hex
    exact ⟨hv.exec hex, hc.issued ht, halone.change hv ht hver htype hC hc⟩
  obtain ⟨-, htok, halone⟩ := hend
  have hc := hv₂.sound.change hanswer
  have htok₂ := hc.issued htok
  cases hc with
  | respond _ z _ hserved hends hshared hlog' hslots hserve =>
    obtain rfl : y = z := by
      rw [hlog] at hlog'
      obtain ⟨-, hz⟩ := List.append_inj' hlog' rfl
      cases hz
      rfl
    obtain ⟨hlive, hblack⟩ := halone.blacklist hserved hsucc hout
    rw [← hshared] at hblack
    have hnow : w₂.shared.now = w₁.shared.now := by rw [hshared, halone.now]
    constructor
    · intro hrej
      rcases hblack with ⟨hpos, v, hentry⟩ | ⟨hzero, hnone⟩
      · rw [← Instant.truncInt_sub_eq_iff hpos]
        by_contra hlt
        have hle : w₂.shared.now ≤ w₁.shared.now +
            Instant.truncInt ((c.exp : T) - w₁.shared.now) := by
          rw [hnow]
          exact le_add_of_nonneg_right (by exact_mod_cast hpos.le)
        obtain ⟨w₃, hreach, hnot⟩ := hw₂.not_rejects_later hsets₂ htok₂ hver htype hle
          (not_le.mp hlt) fun v' t' hentry' => by
            rw [hentry] at hentry'
            cases hentry'
            exact le_rfl
        exact hnot (hrej w₃ hreach)
      · rw [← hnow] at hnone hlive
        obtain ⟨w₃, hreach, hnot⟩ := hw₂.not_rejects_later hsets₂ htok₂ hver htype le_rfl hlive
          fun v t hentry => not_lt.mp fun hlt => by
            rw [Redis.Store.lookup_eq_some.mpr ⟨t, hentry, hlt⟩] at hnone
            cases hnone
        exact absurd (hrej w₃ hreach) hnot
    · intro hwhole w₃ hreach
      refine Ended.rejects (.inr ⟨?_, ?_⟩) hw₂ hsets₂ htok₂ hver htype hreach
      · rcases hblack with ⟨hpos, v, hentry⟩ | ⟨hzero, -⟩
        · exact ⟨v, _, hentry, (Instant.truncInt_sub_eq_iff hpos).mpr hwhole⟩
        · -- at a whole second, at least one second of the token is left
          obtain ⟨m, hm⟩ := hwhole
          rw [hm, ← Int.cast_sub, Instant.truncInt_intCast] at hzero
          rw [hm, Int.cast_lt] at hlive
          omega
      · intro k q f hk hout'
        rw [hserve] at hk
        split at hk
        · cases hk
        · rename_i hne
          exact absurd hout' (halone.others k q f hne hk)

/-! ## Checks -/

/-- The clock stands still, and no request arrives. -/
def undisturbed (_ : World T K) : Event (Request K) (Choice T) → Bool
  | .env (.clock _) => false
  | .start _ => false
  | _ => true

omit [Instant T] [DecidableEq K] in
lemma undisturbed_of_check (x : Externals K) (c : Claims) (w : World T K)
    (e : Event (Request K) (Choice T)) (h : undisturbed w e = true) : Undisturbed x c w e := by
  cases e with
  | start q => cases h
  | env ch =>
    cases ch with
    | clock t => cases h
    | _ => trivial
  | _ => trivial

/-- A logout at the instant `0`. -/
theorem logout_final_replay : ∃ w₁ w₂ : World ℚ Claims, w₁.shared.now = 0 ∧
    Plain.access 0 Plain.a₁ ∈ issued w₁.log ∧
    ∀ w₃, Reach (server Plain.externals) AnyEvent w₂ w₃ →
      Rejects Plain.externals w₃.shared (Plain.access 0 Plain.a₁) := by
  obtain ⟨w₁, y, w₂, h₁, hq, h₂, hgood⟩ := answered_of_replay (S := server Plain.externals)
    anyEvent_of_check (undisturbed_of_check Plain.externals (Plain.access 0 Plain.a₁))
    (loginScript 0 "alice@example.com" "old" Plain.phone Plain.a₁ Plain.r₁) (goes 1 11)
    (.logout (Plain.access 0 Plain.a₁) "phone") (w := Plain.start)
    (g := fun w₁ w₂ => decide (w₁.shared.now = 0) && (w₁.slot 0).isNone &&
      decide (w₁.slots.length = 1) && decide (Plain.access 0 Plain.a₁ ∈ issued w₁.log) &&
      w₂.log.getLast?.any fun y => y.result.isOk)
    (by decide +kernel)
  rw [h₂.getLast?] at hgood
  simp only [Bool.and_eq_true, decide_eq_true_eq, Option.isNone_iff_eq_none,
    Option.any_some] at hgood
  obtain ⟨⟨⟨⟨hnow, hslot⟩, hlen⟩, htok⟩, hok⟩ := hgood
  have hidle : ∀ k q f, serving w₁ k = some (q, f) →
      ¬ LogsOut Plain.externals q (Plain.access 0 Plain.a₁) := by
    intro k q f hk
    obtain ⟨p, tr, hth, -⟩ := serving_eq_some.mp hk
    have hlt := slot_lt hth
    obtain rfl : k = 0 := by omega
    rw [hslot] at hth
    cases hth
  cases hres : y.result with
  | error err =>
    rw [hres] at hok
    cases hok
  | ok resp =>
    exact ⟨w₁, w₂, hnow, htok, (logout_final_iff _ _ _ h₁ hidle h₂ (by rw [hq]; rfl)
      (by rw [hq]; rfl) rfl hres).mpr ⟨0, by rw [hnow]; rfl⟩⟩

/-- After a logout half a second past a whole one, the token is let in again during the last half
second before it expires. -/
theorem logout_lapses : ¬ ∀ (w₁ w₂ w₃ : World ℚ Claims) (y : Reply ℚ Claims) (tok : Claims)
    (dev : String), Reach (server Plain.externals) AnyEvent Plain.start w₁ →
    Answered (server Plain.externals) AnyEvent w₁ y w₂ → y.request.signsOut = true →
    y.request.bearer? = some (tok, dev) → y.result.isOk = true →
    Reach (server Plain.externals) AnyEvent w₂ w₃ → Rejects Plain.externals w₃.shared tok := by
  intro hclaim
  obtain ⟨w₁, y, w₂, h₁, hq, h₂, hgood⟩ := answered_of_replay (S := server Plain.externals)
    anyEvent_of_check anyEvent_of_check
    (loginScript 0 "alice@example.com" "old" Plain.phone Plain.a₁ Plain.r₁ ++
      [.env (.clock (1 / 2))]) (goes 1 11)
    (.logout (Plain.access 0 Plain.a₁) "phone") (w := Plain.start)
    (g := fun _ w₂ => (w₂.log.getLast?.any fun y => y.result.isOk) &&
      (runWith (server Plain.externals) anyEvent [.env (.clock (7199 / 4))] w₂).any fun w₃ =>
        (authenticate Plain.externals w₃.shared (Plain.access 0 Plain.a₁) "phone").isOk)
    (by decide +kernel)
  rw [h₂.getLast?] at hgood
  simp only [Bool.and_eq_true, Option.any_some, Option.any_eq_true] at hgood
  obtain ⟨hok, w₃, h₃, hin⟩ := hgood
  exact not_rejects_of_isOk hin (hclaim w₁ w₂ w₃ y _ "phone" h₁ h₂ (by rw [hq]; rfl)
    (by rw [hq]; rfl) hok (reach_of_runWith anyEvent_of_check h₃))

end SampleAuthApi
