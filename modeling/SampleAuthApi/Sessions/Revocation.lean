import SampleAuthApi.Sessions.Current

/-!
# Revocation of refresh tokens

A refresh that has compared its token stores the successor unconditionally, so a revocation that
lands in between is undone; and the bulk revocations only reach the devices in the set.
`revocation_final`: when the revocation deletes the stored token only while no refresh of the same
device is between its comparison and its `SETEX`, and finds the device set complete when it reads
it, no token that descends from a login before the revocation is accepted after it.  Nothing is
asked of the other requests, nor of the run before and after.
-/

namespace SampleAuthApi

open Pool

variable {T K : Type} [Instant T] {x : Externals K} {u : Uuid} {d : String}

/-! ## Lineage -/

/-- The refresh token that a login hands out. -/
def loginToken? (e : Reply T K) : Option K :=
  match e.request, e.result with
  | .login _ _ _, .ok (.login data) => some data.refreshToken
  | _, _ => none

/-- The refresh token that a refresh redeems, and the one it hands out. -/
def rotation? (e : Reply T K) : Option (K × K) :=
  match e.request, e.result with
  | .refresh tok _, .ok (.refresh data) => some (tok, data.refreshToken)
  | _, _ => none

/-- The token that the refresh of slot `k` has redeemed, when it has ended. -/
def accepted? (w : World T K) (k : ℕ) : Option K :=
  match w.slot k with
  | some ⟨.refresh tok _, .ret _, _⟩ => some tok
  | _ => none

/-- The refresh tokens of `(u, d)` that were issued by a login of `before`, or obtained from such a
token by a chain of refreshes of `log`. -/
inductive Lineage (x : Externals K) (before log : List (Reply T K)) (u : Uuid) (d : String) :
    K → Prop
  /-- The token of a login. -/
  | login {e : Reply T K} {tok : K} {c : Claims} (he : e ∈ before) (ht : loginToken? e = some tok)
    (hc : x.jwt.verify tok = some c) (hu : c.sub = u) (hd : c.deviceId = d) :
    Lineage x before log u d tok
  /-- The token of a refresh. -/
  | refresh {e : Reply T K} {tok tok' : K} (h : Lineage x before log u d tok) (he : e ∈ log)
    (ht : rotation? e = some (tok, tok')) : Lineage x before log u d tok'

/-! ## Revocations -/

/-- The refresh token that a request looked up, if it is not the one with the claims `c`. -/
def detectsReuse (f : Progress T) (c : Claims) : Bool :=
  match f.found with
  | some (_, some (.refreshToken data)) => data.tokenId != c.jti
  | _ => false

/-- The answered request is a completed revocation for `(u, d)`: a logout from `d`, a forced logout
of `d`, a logout from all devices, a change of the password, a deletion of the account, or a refresh
that has detected the reuse of a superseded token. -/
def revokes (x : Externals K) (u : Uuid) (d : String) (e : Reply T K) : Bool :=
  match e.request, e.result with
  | .logout tok _, .ok _ => (x.jwt.verify tok).any fun c => c.sub == u && c.deviceId == d
  | .forceLogoutDevice tok _ target, .ok _ =>
    target == d && (x.jwt.verify tok).any fun c => c.sub == u
  | .logoutAll tok _, .ok _ | .changePassword tok _ _ _, .ok _ | .deleteAccount tok _ _, .ok _ =>
    (x.jwt.verify tok).any fun c => c.sub == u
  | .refresh tok _, .error _ => !(progress e.performed).failed && (x.jwt.verify tok).any fun c =>
    c.sub == u && c.deviceId == d && detectsReuse (progress e.performed) c
  | _, _ => false

/-- The request is a refresh of `(u, d)` between its comparison and its `SETEX`. -/
def Rotates (x : Externals K) (q : Request K) (f : Progress T) (u : Uuid) (d : String) : Prop :=
  ∃ c, Matched x q f c ∧ c.sub = u ∧ c.deviceId = d ∧ f.sent = []

variable [DecidableEq K]

/-- Slot `n` deletes the stored token of `(u, d)` only while no other refresh of the device is
between its comparison and its `SETEX`. -/
def DeletesAlone (x : Externals K) (u : Uuid) (d : String) (n : ℕ) (w : World T K)
    (e : Event (Request K) (Choice T)) : Prop :=
  ∀ q f ks, e = .step n .go → NextCall w n q f (.redis (.del ks)) → Key.refresh u d ∈ ks →
    ∀ k q' f', k ≠ n → serving w k = some (q', f') → ¬ Rotates x q' f' u d

/-- When slot `n` reads the device set of `u` and `d` is outside it, no refresh of the device is
between its comparison and its `SETEX`, and no token is stored for it but that of a login being
served. -/
def SweepsAll (x : Externals K) (u : Uuid) (d : String) (n : ℕ) (w : World T K)
    (e : Event (Request K) (Choice T)) : Prop :=
  ∀ q f, e = .step n .go → NextCall w n q f (.redis (.smembers (.devices u))) →
    d ∉ w.shared.redis.sets (.devices u) →
    (∀ k q' f', k ≠ n → serving w k = some (q', f') → ¬ Rotates x q' f' u d) ∧
    ∀ j, w.shared.session u d = some j →
      ∃ k q' f', serving w k = some (q', f') ∧ q'.isLogin = true ∧ j ∈ f'.drawn

/-! ## Dead tokens -/

/-- The tokens with an id in `D` are dead for `(u, d)`: none of them is stored or can be stored, and
neither can the successor of one. -/
structure Dead (x : Externals K) (u : Uuid) (d : String) (D : Set Uuid) (w : World T K) : Prop where
  /-- The stored token is not dead. -/
  session : ∀ j, w.shared.session u d = some j → j ∉ D
  /-- A request that may still store a token has drawn no dead one, and a refresh that has found a
  dead token stored has stored its successor. -/
  served : ∀ i q f, serving w i = some (q, f) → (f.sent = [] → ∀ v ∈ f.drawn, v ∉ D) ∧
    ∀ c, Matched x q f c → c.sub = u → c.deviceId = d → c.jti ∈ D → f.sent ≠ []
  /-- The successors of dead tokens are dead. -/
  children : Everyone (fun q f => ∀ c, Matched x q f c → c.sub = u → c.deviceId = d → c.jti ∈ D →
    ∀ v ∈ f.drawn, v ∈ D) w
  /-- Dead tokens have been drawn. -/
  drawn : ∀ v ∈ D, v ∈ w.shared.drawn

variable {w w' : World T K} {e : Event (Request K) (Choice T)} {D : Set Uuid}

/-- The commands sent by a request only grow. -/
lemma Effect.sent_eq_nil {i : ℕ} {ch : Choice T} {s s' : Stores T} {f f' : Progress T} {o : Op T}
    (h : Effect i ch s f o f' s') (hnil : f'.sent = []) : f.sent = [] := by
  rcases h.sent with ⟨heq, -⟩ | ⟨cmd, -, -, -, -, rfl, -⟩
  · exact heq ▸ hnil
  · cases hnil

/-- Dead tokens stay dead. -/
theorem Dead.change (hD : Dead x u d D w) (h : Change x w e w') : Dead x u d D w' := by
  have hframe := h.frame
  -- a dead token is not found stored
  have hfound : ∀ {i ch q f f' o} {c : Claims}, NextCall w i q f o → MayCall x q f o →
      Effect i ch w.shared f o f' w'.shared → Matched x q f' c → c.sub = u → c.deviceId = d →
      c.jti ∈ D → Matched x q f c := by
    intro i ch q f f' o c hnext hmay heff hm hu hd hj
    rcases heff.matched hmay hm with hm | ⟨hs, -⟩
    · exact hm
    · rw [hu, hd] at hs
      exact absurd hj (hD.session _ hs)
  refine ⟨fun j hj => ?_, ?_, ?_, fun v hv => hframe.2 v (hD.drawn v hv)⟩
  · rcases h.session hj with hs | ⟨i, q, f, a, -, ⟨n, data, hnext, -⟩, hsent, hdr, -⟩
    · exact hD.session j hs
    · exact (hD.served i q f hnext.serving).1 hsent j (by simp [hdr])
  · refine h.served hD.served (fun q f hf => hf)
      (fun q => ⟨fun _ v hv => absurd hv List.not_mem_nil,
        fun c hm => absurd hm not_matched_empty⟩) ?_
    rintro i ch q f f' o - hnext hmay heff ⟨hidle, hrot⟩
    refine ⟨fun hnil v hv => ?_, fun c hm hu hd hj hnil => ?_⟩
    · rcases heff.drawn with ⟨hdr, -⟩ | ⟨r, hr, hdr, -, -⟩
      · exact hidle (heff.sent_eq_nil hnil) v (hdr ▸ hv)
      · rw [hdr] at hv
        rcases List.mem_cons.mp hv with rfl | hv
        · exact fun hvD => hr (hD.drawn v hvD)
        · exact hidle (heff.sent_eq_nil hnil) v hv
    · exact hrot c (hfound hnext hmay heff hm hu hd hj) hu hd hj (heff.sent_eq_nil hnil)
  · refine hD.children.change h (fun q f hf => hf)
      (fun q c hm => absurd hm not_matched_empty) ?_
    rintro i ch q f f' o - hnext hmay heff hch c hm hu hd hj v hv
    have hm₀ := hfound hnext hmay heff hm hu hd hj
    rcases heff.drawn with ⟨hdr, -⟩ | ⟨r, -, -, -, rfl⟩
    · exact hch c hm₀ hu hd hj v (hdr ▸ hv)
    · exact absurd hmay ((hD.served i q f hnext.serving).2 c hm₀ hu hd hj)

omit [DecidableEq K] in
/-- When no refresh of a device is between its comparison and its `SETEX`, and no token is stored
for it but that of a login being served, all tokens of answered requests are dead. -/
theorem dead_of_idle (hw : Invariant x w)
    (hrot : ∀ k q f, serving w k = some (q, f) → ¬ Rotates x q f u d)
    (hsess : ∀ j, w.shared.session u d = some j →
      ∃ k q f, serving w k = some (q, f) ∧ q.isLogin = true ∧ j ∈ f.drawn) :
    ∃ D, Dead x u d D w ∧ ∀ y ∈ w.log, ∀ v ∈ (progress y.performed).drawn, v ∈ D := by
  refine ⟨{v | v ∈ w.shared.drawn ∧ ∀ k q f, serving w k = some (q, f) →
    (f.sent = [] ∨ q.isLogin = true) → v ∉ f.drawn}, ⟨?_, ?_, ⟨?_, ?_⟩, fun v hv => hv.1⟩, ?_⟩
  · rintro j hj ⟨-, hnot⟩
    obtain ⟨k, q, f, hk, hlogin, hmem⟩ := hsess j hj
    exact hnot k q f hk (.inr hlogin) hmem
  · refine fun i q f hi => ⟨fun hnil v hv hD => hD.2 i q f hi (.inl hnil) hv, ?_⟩
    exact fun c hm hu hd _ hnil => hrot i q f hi ⟨c, hm, hu, hd, hnil⟩
  · intro i q f hi c hm hu hd _ v hv
    refine ⟨hw.drawn.served i q f hi v hv, fun k q' f' hk hor hv' => ?_⟩
    by_cases hki : k = i
    · subst hki
      rw [hi] at hk
      cases hk
      obtain ⟨tok, client, rfl, -⟩ := hm.1
      rcases hor with hnil | hlogin
      · exact hrot k _ f hi ⟨c, hm, hu, hd, hnil⟩
      · cases hlogin
    · exact hw.fresh.served i k q f q' f' (Ne.symm hki) hi hk v hv hv'
  · intro y hy c _ _ _ _ v hv
    exact ⟨hw.drawn.logged y hy v hv,
      fun k q' f' hk _ hv' => hw.fresh.mixed k q' f' hk y hy v hv' hv⟩
  · intro y hy v hv
    exact ⟨hw.drawn.logged y hy v hv,
      fun k q' f' hk _ hv' => hw.fresh.mixed k q' f' hk y hy v hv' hv⟩

/-! ## The moment of a revocation -/

/-- The request has revoked `(u, d)`: it has deleted the stored token, or it has read a device set
of its user that lacks `d`. -/
def Cut (x : Externals K) (q : Request K) (f : Progress T) (u : Uuid) (d : String) : Prop :=
  (∃ t ks, (t, .del ks) ∈ f.sent ∧ Key.refresh u d ∈ ks) ∨
  ∃ c ds, Bears x q c ∧ c.sub = u ∧ f.snapshot = some ds ∧ d ∉ ds

omit [DecidableEq K] in
/-- A request with a bearer token is no refresh. -/
lemma Bears.not_rotates {q : Request K} {f : Progress T} {c : Claims} (h : Bears x q c) :
    ¬ Rotates x q f u d := by
  rintro ⟨c', ⟨⟨tok', client, rfl, -⟩, -⟩, -⟩
  obtain ⟨tok, dev, hb, -⟩ := h
  cases hb

omit [Instant T] [DecidableEq K] in
/-- A request with a bearer token is no login. -/
lemma Bears.not_login {q : Request K} {c : Claims} (h : Bears x q c) : q.isLogin = false := by
  obtain ⟨tok, dev, hb, -⟩ := h
  cases q with
  | login email password client => cases hb
  | _ => rfl

/-- At the moment of a revocation, all tokens of answered requests die. -/
theorem dead_of_cut (hw' : Invariant x w') {i : ℕ} (hdel : DeletesAlone x u d i w e)
    (hall : SweepsAll x u d i w e) (h : Change x w e w') {q : Request K} {f₀ f : Progress T}
    (hi₀ : serving w i = some (q, f₀)) (hi : serving w' i = some (q, f))
    (hnew : ¬ Cut x q f₀ u d) (hcut : Cut x q f u d) :
    ∃ D, Dead x u d D w' ∧ ∀ y ∈ w'.log, ∀ v ∈ (progress y.performed).drawn, v ∈ D := by
  cases h with
  | start q₁ _ hadm hshared hlog hslots hserve =>
    rw [hserve] at hi
    split at hi
    · rename_i hlen
      rw [hlen, serving_length] at hi₀
      cases hi₀
    · rw [hi₀] at hi
      cases hi
      exact absurd hcut hnew
  | respond k y _ hserved hends hshared hlog hslots hserve =>
    rw [hserve] at hi
    split at hi
    · cases hi
    · rw [hi₀] at hi
      cases hi
      exact absurd hcut hnew
  | env ch _ hdrift hlog hslots hserve =>
    rw [hserve, hi₀] at hi
    cases hi
    exact absurd hcut hnew
  | step k ch q₁ f₁ f₂ o _ hnext hmay heff hlog hslots hserve =>
    have hki : k = i := by
      by_contra hne
      rw [hserve, if_neg (Ne.symm hne), hi₀] at hi
      cases hi
      exact hnew hcut
    subst hki
    rw [hserve, if_pos rfl] at hi
    cases hi
    rw [hnext.serving] at hi₀
    cases hi₀
    -- nobody but slot `k` has moved
    have hothers : (∀ k' q' f', k' ≠ k → serving w k' = some (q', f') → ¬ Rotates x q' f' u d) →
        ¬ Rotates x q f u d →
        ∀ k' q' f', serving w' k' = some (q', f') → ¬ Rotates x q' f' u d := by
      intro hnone hself k' q' f' hk'
      rw [hserve] at hk'
      split at hk'
      · cases hk'
        exact hself
      · rename_i hne
        exact hnone k' q' f' hne hk'
    rcases hcut with ⟨t, ks, hmem, hks⟩ | ⟨c, ds, hb, hc, hsnap, hd⟩
    · rcases heff.sent with ⟨hsame, -⟩ | ⟨cmd, rfl, rfl, -, -, rfl, hs'⟩
      · rw [hsame] at hmem
        exact absurd (.inl ⟨t, ks, hmem, hks⟩) hnew
      · rcases List.mem_cons.mp hmem with heq | hmem
        · cases heq
          refine dead_of_idle hw' (hothers ?_ ?_) fun j hj => ?_
          · exact hdel q f₀ ks rfl hnext hks
          · rintro ⟨c, -, -, -, hnil⟩
            cases hnil
          · obtain ⟨data, hl, -⟩ := session_eq_some.mp hj
            rw [hs'] at hl
            simp only [Redis.Store.lookup_del, hks, if_true] at hl
            cases hl
        · exact absurd (.inl ⟨t, ks, hmem, hks⟩) hnew
    · rcases heff.snapshot with hsame | ⟨key, rfl, rfl, hs', rfl⟩
      · rw [hsame] at hsnap
        exact absurd (.inr ⟨c, ds, hb, hc, hsnap, hd⟩) hnew
      · obtain ⟨-, ⟨u', rfl, -, ⟨c', hauth, rfl⟩, -⟩, -⟩ := hmay
        cases hb.unique hauth.bears
        subst hc
        cases Option.some.inj hsnap
        obtain ⟨hnone, hsess⟩ := hall q f₀ rfl hnext hd
        refine dead_of_idle hw' (hothers hnone hb.not_rotates) fun j hj => ?_
        rw [hs'] at hj
        obtain ⟨k', q', f', hk', hlogin, hmem⟩ := hsess j hj
        refine ⟨k', q', f', ?_, hlogin, hmem⟩
        rw [hserve, if_neg ?_, hk']
        rintro rfl
        rw [hnext.serving] at hk'
        cases hk'
        rw [hb.not_login] at hlogin
        cases hlogin

omit [Instant T] [DecidableEq K] in
lemma SignedOut.cut {q : Request K} {f : Progress T} {before : List (T × RedisCmd)}
    (h : SignedOut f u d before) : Cut x q f u d := by
  obtain ⟨t, t', hs⟩ := h
  exact .inl ⟨t, {.refresh u d}, by rw [hs]; simp, by simp⟩

omit [Instant T] [DecidableEq K] in
lemma Swept.cut {q : Request K} {f : Progress T} {c : Claims} {before : List (T × RedisCmd)}
    (h : Swept f c.sub before) (hb : Bears x q c) : Cut x q f c.sub d := by
  obtain ⟨t, ds, hsnap, hs⟩ := h
  by_cases hd : d ∈ ds
  · exact .inl ⟨t, TokenStore.bulkKeys c.sub ds, by rw [hs]; simp, by simpa using hd⟩
  · exact .inr ⟨c, ds, hb, rfl, hsnap, hd⟩

omit [DecidableEq K] in
/-- A completed revocation has revoked. -/
theorem cut_of_revokes (hw : Invariant x w) {y : Reply T K} (hy : y ∈ w.log)
    (h : revokes x u d y = true) : Cut x y.request (progress y.performed) u d := by
  have hends := hw.sound.ends hy
  have hfound := hw.found.logged y hy
  obtain ⟨q, r, tr⟩ := y
  simp only at hends hfound
  unfold revokes at h
  cases r with
  | ok resp =>
    obtain ⟨-, hsucc, -⟩ := hends
    cases q with
    | logout tok dev =>
      obtain ⟨-, c, before, hauth, -, hout⟩ := hsucc
      have hc := hauth.bears.any rfl h
      simp only [Bool.and_eq_true, beq_iff_eq] at hc
      obtain ⟨rfl, rfl⟩ := hc
      exact hout.cut
    | forceLogoutDevice tok dev target =>
      obtain ⟨-, c, hauth, hout⟩ := hsucc
      rw [Bool.and_eq_true, beq_iff_eq] at h
      obtain ⟨rfl, h⟩ := h
      have hc := hauth.bears.any rfl h
      rw [beq_iff_eq] at hc
      subst hc
      exact hout.cut
    | logoutAll tok dev =>
      obtain ⟨-, c, before, hauth, -, hswept⟩ := hsucc
      have hc := hauth.bears.any rfl h
      rw [beq_iff_eq] at hc
      subst hc
      exact hswept.cut hauth.bears
    | changePassword tok dev current new =>
      obtain ⟨-, c, user, hauth, -, hswept⟩ := hsucc
      have hc := hauth.bears.any rfl h
      rw [beq_iff_eq] at hc
      subst hc
      exact hswept.cut hauth.bears
    | deleteAccount tok dev password =>
      obtain ⟨-, c, hauth, hswept⟩ := hsucc
      have hc := hauth.bears.any rfl h
      rw [beq_iff_eq] at hc
      subst hc
      exact hswept.cut hauth.bears
    | _ => cases h
  | error err =>
    obtain ⟨-, hends, -⟩ := hends
    cases q with
    | refresh tok client =>
      simp only [Bool.and_eq_true, Bool.not_eq_true'] at h
      obtain ⟨hfail, hany⟩ := h
      obtain ⟨c, hver, hc⟩ := (Option.any_eq_true _ _).mp hany
      simp only [Bool.and_eq_true, beq_iff_eq] at hc
      obtain ⟨⟨rfl, rfl⟩, hreuse⟩ := hc
      obtain ⟨s, data, hf, hne⟩ : ∃ s data,
          (progress tr).found = some (s, some (.refreshToken data)) ∧ data.tokenId ≠ c.jti := by
        unfold detectsReuse at hreuse
        split at hreuse
        · rename_i s data hf
          exact ⟨s, data, hf, by simpa using hreuse⟩
        · cases hreuse
      obtain ⟨c', hpres, hv⟩ := hfound s _ hf
      obtain ⟨tok', client', hq, hver', -⟩ := id hpres
      cases hq
      rw [hver] at hver'
      cases hver'
      have hsess : ∀ s', LookedUp (progress tr) s' c.sub c.deviceId →
          s'.session c.sub c.deviceId = some data.tokenId := by
        intro s' hl
        simp only [LookedUp, hf, Option.some.injEq, Prod.mk.injEq] at hl
        obtain ⟨rfl, -⟩ := hl
        exact session_eq_some.mpr ⟨data, hv.symm, rfl⟩
      rcases hends with hends | ⟨c', ⟨hpres', -⟩, hout⟩ | ⟨-, hreason⟩
      · rw [hends] at hfail
        cases hfail
      · cases hpres.unique hpres'
        exact hout.cut
      · rcases hreason c hver with ⟨hnone, -⟩ | ⟨s', hl, hnone⟩ | ⟨⟨-, s', hl, hj⟩, -⟩
        · rw [hf] at hnone
          cases hnone
        · rw [hsess s' hl] at hnone
          cases hnone
        · rw [hsess s' hl] at hj
          exact absurd (Option.some.inj hj) hne
    | _ => cases h

/-! ## Revocation is final -/

/-- The log of a later state continues the log of an earlier one. -/
lemma log_grows {C : World T K → Event (Request K) (Choice T) → Prop} (hw : Invariant x w)
    (h : Reach (server x) C w w') : w.log <+: w'.log := by
  refine (Reach.induct (I := fun v => Invariant x v ∧ w.log <+: v.log) h
    ⟨hw, List.prefix_refl _⟩ ?_).2
  rintro v ev v' - ⟨hinv, hpre⟩ - hex
  refine ⟨hinv.exec hex, ?_⟩
  rcases (hinv.sound.change hex).log with hlog | ⟨y, hlog⟩
  · rwa [hlog]
  · rw [hlog]
    exact hpre.trans (List.prefix_append _ _)

omit [DecidableEq K] in
/-- The tokens that descend from a login whose tokens are dead are dead. -/
lemma Dead.lineage (hw : Invariant x w) (hD : Dead x u d D w) {before : List (Reply T K)}
    (hpre : before <+: w.log)
    (hbefore : ∀ y ∈ before, ∀ v ∈ (progress y.performed).drawn, v ∈ D) {tok : K}
    (h : Lineage x before w.log u d tok) :
    ∃ c, x.jwt.verify tok = some c ∧ c.sub = u ∧ c.deviceId = d ∧ c.jti ∈ D := by
  -- what a login or refresh hands out has drawn its id
  have hminted : ∀ {q resp f u' d' tok'}, Minted x u' d' resp f → Response.tokens resp =
      [q, tok'] → ∃ c, x.jwt.verify tok' = some c ∧ c.sub = u' ∧ c.deviceId = d' ∧
        c.jti ∈ (f : Progress T).drawn := by
    rintro q resp f u' d' tok' ⟨r, a, made, t, email, name, hdr, -, -, htoks, -⟩ heq
    rw [heq] at htoks
    simp only [List.cons.injEq, and_true] at htoks
    obtain ⟨-, rfl⟩ := htoks
    exact ⟨_, x.jwt.verify_sign _, rfl, rfl, by simp [hdr, JwtService.refreshClaims]⟩
  induction h with
  | @login y tok c hy ht hc hu hd =>
    have hends := hw.sound.ends (hpre.subset hy)
    unfold loginToken? at ht
    split at ht
    · rename_i email password client data hq hres
      cases ht
      rw [hres, hq] at hends
      obtain ⟨u', -, hm⟩ := hends.2.1
      obtain ⟨c', hc', -, -, hj⟩ := hminted hm rfl
      rw [hc] at hc'
      cases hc'
      exact ⟨c, hc, hu, hd, hbefore y hy _ hj⟩
    · cases ht
  | @refresh y tok tok' _ hy ht ih =>
    obtain ⟨c, hc, hu, hd, hj⟩ := ih
    have hends := hw.sound.ends hy
    have hch := hD.children.logged y hy
    unfold rotation? at ht
    split at ht
    · rename_i tok₀ client data hq hres
      cases ht
      rw [hres] at hends
      have hsucc := hends.2.1
      rw [hq] at hsucc hch
      obtain ⟨c', hrot, -, hm⟩ := hsucc
      obtain ⟨tok₁, client', hq', hv', -⟩ := id hrot.1.1
      cases hq'
      rw [hc] at hv'
      cases hv'
      obtain ⟨c'', hc'', hu'', hd'', hj''⟩ := hminted hm rfl
      exact ⟨c'', hc'', hu''.trans hu, hd''.trans hd, hch c hrot.1 hu hd hj _ hj''⟩
    · cases ht

/-- A request that was being served is the same request after an event, if it still is served. -/
lemma Change.served_before (h : Change x w e w') {i : ℕ} {q : Request K} {f : Progress T}
    (hlt : i < w.slots.length) (hi : serving w' i = some (q, f)) :
    i < w'.slots.length ∧ ∃ f₀, serving w i = some (q, f₀) := by
  cases h with
  | start q₀ _ hadm hshared hlog hslots hserve =>
    rw [hserve, if_neg hlt.ne] at hi
    exact ⟨by omega, f, hi⟩
  | step j ch q₀ f₀ f₁ o _ hnext hmay heff hlog hslots hserve =>
    refine ⟨by omega, ?_⟩
    rw [hserve] at hi
    split at hi
    · rename_i hij
      subst hij
      cases hi
      exact ⟨f₀, hnext.serving⟩
    · exact ⟨f, hi⟩
  | respond j y _ hserved hends hshared hlog hslots hserve =>
    refine ⟨by omega, ?_⟩
    rw [hserve] at hi
    split at hi
    · cases hi
    · exact ⟨f, hi⟩
  | env ch _ hdrift hlog hslots hserve =>
    rw [hserve] at hi
    exact ⟨by omega, f, hi⟩

/-- A request that has not found a dead token stored does not find one later. -/
lemma Dead.unmatched (hD : Dead x u d D w) (h : Change x w e w') {k : ℕ}
    (hk : ∀ q f c, serving w k = some (q, f) → Matched x q f c → c.sub = u → c.deviceId = d →
      c.jti ∉ D) :
    ∀ q f c, serving w' k = some (q, f) → Matched x q f c → c.sub = u → c.deviceId = d →
      c.jti ∉ D := by
  intro q f c hk' hm hu hd
  cases h with
  | start q₀ _ hadm hshared hlog hslots hserve =>
    rw [hserve] at hk'
    split at hk'
    · cases hk'
      exact absurd hm not_matched_empty
    · exact hk q f c hk' hm hu hd
  | step j ch q₀ f₀ f₁ o _ hnext hmay heff hlog hslots hserve =>
    rw [hserve] at hk'
    split at hk'
    · rename_i hkj
      subst hkj
      cases hk'
      rcases heff.matched hmay hm with hm₀ | ⟨hs, -⟩
      · exact hk q f₀ c hnext.serving hm₀ hu hd
      · rw [hu, hd] at hs
        exact hD.session _ hs
    · exact hk q f c hk' hm hu hd
  | respond j y _ hserved hends hshared hlog hslots hserve =>
    rw [hserve] at hk'
    split at hk'
    · cases hk'
    · exact hk q f c hk' hm hu hd
  | env ch _ hdrift hlog hslots hserve =>
    rw [hserve] at hk'
    exact hk q f c hk' hm hu hd

/-- While slot `n` serves the revocation, the tokens of the requests in `l`, which were answered
before, are dead from its cut on. -/
lemma dead_while_served {n : ℕ} {l : List (Reply T K)} (hw : Invariant x w) (hpre : l <+: w.log)
    (hlt : n < w.slots.length) (hfresh : ∀ q f, serving w n = some (q, f) → ¬ Cut x q f u d)
    (hrun : Reach (server x) (fun v e => DeletesAlone x u d n v e ∧ SweepsAll x u d n v e) w w') :
    l <+: w'.log ∧ ∀ q f, serving w' n = some (q, f) → Cut x q f u d →
      ∃ D, Dead x u d D w' ∧ ∀ z ∈ l, ∀ v ∈ (progress z.performed).drawn, v ∈ D := by
  have hall := Reach.induct (I := fun v => Invariant x v ∧ l <+: v.log ∧ n < v.slots.length ∧
    ∀ q f, serving v n = some (q, f) → Cut x q f u d →
      ∃ D, Dead x u d D v ∧ ∀ z ∈ l, ∀ j ∈ (progress z.performed).drawn, j ∈ D) hrun
    ⟨hw, hpre, hlt, fun q f hi hcut => absurd hcut (hfresh q f hi)⟩ ?_
  · exact ⟨hall.2.1, hall.2.2.2⟩
  · rintro v ev v' - ⟨hinv, hpre, hlt, hdead⟩ ⟨hdel, hsweeps⟩ hex
    have hc := hinv.sound.change hex
    have hpre' : l <+: v'.log := by
      rcases hc.log with hl | ⟨z, hl⟩
      · rwa [hl]
      · rw [hl]
        exact hpre.trans (List.prefix_append _ _)
    have hlen : v.slots.length ≤ v'.slots.length := by cases hc <;> omega
    refine ⟨hinv.exec hex, hpre', by omega, fun q f hi hcut => ?_⟩
    obtain ⟨-, f₀, hi₀⟩ := hc.served_before hlt hi
    by_cases hcut₀ : Cut x q f₀ u d
    · obtain ⟨D, hD, hlogged⟩ := hdead q f₀ hi₀ hcut₀
      exact ⟨D, hD.change hc, hlogged⟩
    · obtain ⟨D, hD, hlogged⟩ := dead_of_cut (hinv.exec hex) hdel hsweeps hc hi₀ hi hcut₀ hcut
      exact ⟨D, hD, fun z hz => hlogged z (hpre'.subset hz)⟩

omit [Instant T] [DecidableEq K] in
/-- A request that arrives has not revoked anything. -/
lemma not_cut_start {q : Request K} : ¬ Cut x q ({} : Progress T) u d := by
  rintro (⟨t, ks, hmem, -⟩ | ⟨c, ds, -, -, hsnap, -⟩)
  · exact absurd hmem List.not_mem_nil
  · cases hsnap

/-- **Revocation is final.**  Let a revocation for `(u, d)` arrive in `w₁`, be served by the next
slot, whose calls meet the two conditions, and be answered in `w₂`.  A refresh that has not looked
up its token by then does not accept a token that descends from a login answered before `w₁`. -/
theorem revocation_final (now : T) (db : Database T) (drawn : List Uuid)
    {w₁ w₂ w₃ : World T K} {y : Reply T K} {k : ℕ} {tok : K}
    (h₁ : Reach (server x) AnyEvent (Pool.initial (Stores.initial now db drawn)) w₁)
    (h₂ : Answered (server x) (fun w e => DeletesAlone x u d w₁.slots.length w e ∧
      SweepsAll x u d w₁.slots.length w e) w₁ y w₂)
    (hrevokes : revokes x u d y = true)
    (h₃ : Reach (server x) AnyEvent w₂ w₃)
    (hlate : ∀ q f, serving w₂ k = some (q, f) → f.found = none)
    (haccepted : accepted? w₃ k = some tok) : ¬ Lineage x w₁.log w₃.log u d tok := by
  intro hlin
  obtain ⟨v₁, v₂, harrive, hrun, hanswer, hlog⟩ := h₂
  have hw₁ := (invariant_initial x now db drawn).reach h₁
  have hv₁ := hw₁.exec harrive
  have hv₂ := hv₁.reach hrun
  have hw₂ := hv₂.exec hanswer
  have hw₃ := hw₂.reach h₃
  have harrived := hw₁.sound.change harrive
  obtain ⟨hpre₂, hdead₂⟩ : w₁.log <+: v₂.log ∧
      ∀ q f, serving v₂ w₁.slots.length = some (q, f) → Cut x q f u d →
        ∃ D, Dead x u d D v₂ ∧ ∀ z ∈ w₁.log, ∀ v ∈ (progress z.performed).drawn, v ∈ D := by
    cases harrived with
    | start _ _ hadm hshared hlog' hslots hserve =>
      refine dead_while_served hv₁ (by rw [hlog']) (by omega) (fun q f hi hcut => ?_) hrun
      rw [hserve, if_pos rfl] at hi
      cases hi
      exact not_cut_start hcut
  have hc₂ := hv₂.sound.change hanswer
  obtain ⟨D, hD₂, hlogged⟩ : ∃ D, Dead x u d D v₂ ∧
      ∀ z ∈ w₁.log, ∀ v ∈ (progress z.performed).drawn, v ∈ D := by
    cases hc₂ with
    | respond _ z _ hserved hends hshared hlog' hslots hserve =>
      rw [hlog] at hlog'
      obtain ⟨-, hz⟩ := List.append_inj' hlog' rfl
      cases hz
      exact hdead₂ _ _ hserved (cut_of_revokes hw₂ (by rw [hlog]; simp) hrevokes)
  -- from then on they stay dead, and slot `k` does not find one of them stored
  obtain ⟨-, hD₃, hk₃⟩ := Reach.induct (I := fun w => Invariant x w ∧ Dead x u d D w ∧
      ∀ q f c, serving w k = some (q, f) → Matched x q f c → c.sub = u → c.deviceId = d →
        c.jti ∉ D) h₃
    ⟨hw₂, hD₂.change hc₂, fun q f c hi hm => by
      obtain ⟨-, s, hl, -⟩ := hm
      rw [LookedUp, hlate q f hi] at hl
      cases hl⟩
    (fun v ev v' _ hv _ hex => by
      have hc := hv.1.sound.change hex
      exact ⟨hv.1.exec hex, hv.2.1.change hc, hv.2.1.unmatched hc hv.2.2⟩)
  have hpre : w₁.log <+: w₃.log := by
    refine hpre₂.trans (List.IsPrefix.trans ?_ (log_grows hw₂ h₃))
    rw [hlog]
    exact List.prefix_append _ _
  obtain ⟨c, hver, hu, hd, hj⟩ := hD₃.lineage hw₃ hpre hlogged hlin
  unfold accepted? at haccepted
  split at haccepted
  · rename_i tok' client resp tr hk
    cases haccepted
    obtain ⟨-, ⟨c', hrot, -⟩, -⟩ := hw₃.sound.conforms.ended hk rfl
    obtain ⟨tok', client', hq', hver', -⟩ := id hrot.1.1
    cases hq'
    rw [hver] at hver'
    cases hver'
    exact hk₃ _ (progress tr) c (by simp [serving, hk]) hrot.1 hu hd hj
  · cases haccepted

/-! ## Replays of revocations -/

omit [DecidableEq K] in
lemma deletesAlone_of_solo {n : ℕ} (h : solo w e = true) : DeletesAlone x u d n w e := by
  rintro q f ks rfl - - k q' f' hk hserve
  rw [serving_of_solo h hk] at hserve
  cases hserve

/-- No device set is read. -/
def noSweep (w : World T K) : Event (Request K) (Choice T) → Bool
  | .step i _ => match w.slot i with
    | some ⟨_, .call (.redis (.smembers _)) _, _⟩ => false
    | _ => true
  | _ => true

omit [DecidableEq K] in
lemma sweepsAll_of_noSweep {n : ℕ} (h : noSweep w e = true) : SweepsAll x u d n w e := by
  rintro q f rfl ⟨k, tr, hslot, -⟩ -
  simp [noSweep, hslot] at h

/-- A login, a logout, a second login, and a refresh of the second token. -/
theorem revocation_final_replay : ∃ w₁ w₃ : World ℚ Claims,
    Lineage Plain.externals w₁.log w₃.log Plain.aliceId "phone" (Plain.refresh 0 Plain.r₁) ∧
    accepted? w₃ 3 = some (Plain.refresh 0 Plain.r₂) ∧
    ¬ Lineage Plain.externals w₁.log w₃.log Plain.aliceId "phone" (Plain.refresh 0 Plain.r₂) := by
  have hcheck : ∀ (w : World ℚ Claims) e, (solo w e && noSweep w e) = true →
      DeletesAlone Plain.externals Plain.aliceId "phone" 1 w e ∧
      SweepsAll Plain.externals Plain.aliceId "phone" 1 w e := by
    intro w e h
    rw [Bool.and_eq_true] at h
    exact ⟨deletesAlone_of_solo h.1, sweepsAll_of_noSweep h.2⟩
  obtain ⟨w₁, y, w₂, h₁, -, h₂, hgood⟩ := answered_of_replay (S := server Plain.externals)
    anyEvent_of_check hcheck (loginScript 0 "alice@example.com" "old" Plain.phone Plain.a₁ Plain.r₁)
    (goes 1 11) (.logout (Plain.access 0 Plain.a₁) "phone") (w := Plain.start)
    (g := fun w₁ w₂ => w₂.log.getLast?.any (revokes Plain.externals Plain.aliceId "phone") &&
      decide (w₁.slots.length = 1 ∧ w₁.log.filterMap loginToken? = [Plain.refresh 0 Plain.r₁]) &&
      (w₂.slot 3).isNone && (runWith (server Plain.externals) anyEvent (loginScript 2
          "alice@example.com" "old" Plain.phone Plain.a₂ Plain.r₂ ++
          [.start (.refresh (Plain.refresh 0 Plain.r₂) Plain.phone)] ++ goes 3 2 ++
          rotateCalls 3 Plain.a₃ Plain.r₃) w₂).any fun w₃ =>
           decide (accepted? w₃ 3 = some (Plain.refresh 0 Plain.r₂)))
    (by decide +kernel)
  rw [h₂.getLast?] at hgood
  simp only [Bool.and_eq_true, decide_eq_true_eq, Option.isNone_iff_eq_none, Option.any_some,
    Option.any_eq_true] at hgood
  obtain ⟨⟨⟨hrevokes, hslots, hlogin⟩, hslot⟩, w₃, h₃, haccepted⟩ := hgood
  obtain ⟨z, hz, htok⟩ := List.mem_filterMap.mp
    (show Plain.refresh 0 Plain.r₁ ∈ w₁.log.filterMap loginToken? by rw [hlogin]; simp)
  exact ⟨w₁, w₃, .login hz htok rfl rfl rfl, haccepted,
    revocation_final _ _ _ h₁ (hslots ▸ h₂) hrevokes (reach_of_runWith anyEvent_of_check h₃)
      (fun q f hk => by simp [serving, hslot] at hk) haccepted⟩

/-- A logout that lands between the comparison and the `SETEX` of a refresh is undone: the token
that the refresh stores descends from the login before the logout, and it is accepted after it. -/
theorem revocation_undone : ¬ ∀ (w₁ w₂ w₃ : World ℚ Claims) (y : Reply ℚ Claims) (k : ℕ)
    (tok : Claims), Reach (server Plain.externals) AnyEvent Plain.start w₁ →
    Answered (server Plain.externals) AnyEvent w₁ y w₂ →
    revokes Plain.externals Plain.aliceId "phone" y = true →
    Reach (server Plain.externals) AnyEvent w₂ w₃ →
    (∀ q f, serving w₂ k = some (q, f) → f.found = none) → accepted? w₃ k = some tok →
    ¬ Lineage Plain.externals w₁.log w₃.log Plain.aliceId "phone" tok := by
  intro hclaim
  obtain ⟨w₁, y, w₂, h₁, -, h₂, hgood⟩ := answered_of_replay (S := server Plain.externals)
    anyEvent_of_check anyEvent_of_check
    (loginScript 0 "alice@example.com" "old" Plain.phone Plain.a₁ Plain.r₁)
    ([.start (.refresh (Plain.refresh 0 Plain.r₁) Plain.phone)] ++ goes 2 2 ++ goes 1 11)
    (.logout (Plain.access 0 Plain.a₁) "phone") (w := Plain.start)
    (g := fun w₁ w₂ => w₂.log.getLast?.any (revokes Plain.externals Plain.aliceId "phone") &&
      decide (w₁.log.filterMap loginToken? = [Plain.refresh 0 Plain.r₁]) && (w₂.slot 3).isNone &&
      (runWith (server Plain.externals) anyEvent
        (rotateCalls 2 Plain.a₂ Plain.r₂ ++ [.respond 2] ++
          [.start (.refresh (Plain.refresh 0 Plain.r₂) Plain.phone)] ++ goes 3 2 ++
          rotateCalls 3 Plain.a₃ Plain.r₃) w₂).any
        fun w₃ => decide (accepted? w₃ 3 = some (Plain.refresh 0 Plain.r₂)) &&
          decide (w₃.log.filterMap rotation? =
            [(Plain.refresh 0 Plain.r₁, Plain.refresh 0 Plain.r₂)]))
    (by decide +kernel)
  rw [h₂.getLast?] at hgood
  simp only [Bool.and_eq_true, decide_eq_true_eq, Option.isNone_iff_eq_none, Option.any_some,
    Option.any_eq_true] at hgood
  obtain ⟨⟨⟨hrevokes, hlogin⟩, hslot⟩, w₃, h₃, haccepted, hrotation⟩ := hgood
  obtain ⟨z, hz, htok⟩ := List.mem_filterMap.mp
    (show Plain.refresh 0 Plain.r₁ ∈ w₁.log.filterMap loginToken? by rw [hlogin]; simp)
  obtain ⟨z', hz', htok'⟩ := List.mem_filterMap.mp
    (show (Plain.refresh 0 Plain.r₁, Plain.refresh 0 Plain.r₂) ∈ w₃.log.filterMap rotation? by
      rw [hrotation]; simp)
  exact hclaim w₁ w₂ w₃ y 3 _ h₁ h₂ hrevokes (reach_of_runWith anyEvent_of_check h₃)
    (fun q f hk => by simp [serving, hslot] at hk) haccepted
    (.refresh (.login hz htok rfl rfl rfl) hz' htok')

end SampleAuthApi
