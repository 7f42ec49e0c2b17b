import SampleAuthApi.Sessions.Tokens

/-!
# The current session of a device

`Stores.session` is the token id that Redis holds for a device.  One event either keeps it, takes it
away, or is the `SETEX` of a request that has drawn the new id itself.  A token that was handed out
is therefore never stored again once it is gone: `Invariant.gone` is the one fact about rotation
and revocation that every interleaving keeps.
-/

namespace SampleAuthApi

open Pool

variable {T K : Type} [Instant T] {u : Uuid} {d : String} {j : Uuid}

/-- The stored token of a device is the live value under its key. -/
lemma session_eq_some {s : Stores T} :
    s.session u d = some j ↔ ∃ data,
      s.redis.lookup s.now (.refresh u d) = some (.refreshToken data) ∧ data.tokenId = j := by
  unfold Stores.session
  split
  · rename_i data h
    simp [h]
  · rename_i h
    constructor
    · intro h'
      cases h'
    · rintro ⟨data, hd, -⟩
      exact absurd hd (h data)

/-- The session of a device depends on the Redis store and the clock, and does not come back when
time passes. -/
lemma session_of_drift {c : Choice T} {s s' : Stores T} (h : drift c s = some s')
    (hs : s'.session u d = some j) : s.session u d = some j := by
  obtain ⟨hredis, -, hle⟩ := drift_frame h
  obtain ⟨data, hl, hd⟩ := session_eq_some.mp hs
  rw [hredis] at hl
  exact session_eq_some.mpr ⟨data, Redis.Store.lookup_anti hl hle, hd⟩

/-- The session after a refresh token has been stored is that token, if it has not expired. -/
lemma session_setex {s : Stores T} {n : ℤ} {data : StoredRefreshToken}
    (h : Stores.session { s with
      redis := s.redis.update s.now (.setex (.refresh u d) n (.refreshToken data)) } u d = some j) :
    data.tokenId = j := by
  obtain ⟨data', hl, hd⟩ := session_eq_some.mp h
  simp only [Redis.Store.lookup_setex, if_true] at hl
  split at hl
  · cases Option.some.inj hl
    exact hd
  · cases hl

/-- A call keeps the session of a device, takes it away, or stores it. -/
lemma Effect.session {i : ℕ} {c : Choice T} {s s' : Stores T} {f f' : Progress T} {o : Op T}
    (h : Effect i c s f o f' s') (hs : s'.session u d = some j) :
    s.session u d = some j ∨
    ∃ n data, o = .redis (.setex (.refresh u d) n (.refreshToken data)) ∧ c = .go ∧
      data.tokenId = j ∧
      f' = { f with sent := (s.now, .setex (.refresh u d) n (.refreshToken data)) :: f.sent } := by
  obtain ⟨data, hl, hd⟩ := session_eq_some.mp hs
  have hnow := h.readings.1
  rcases h.sent with ⟨-, hredis⟩ | ⟨cmd, rfl, hc, -, -, hf, rfl⟩
  · rw [hredis, hnow] at hl
    exact .inl (session_eq_some.mpr ⟨data, hl, hd⟩)
  · have hkeep : s.redis.lookup s.now (.refresh u d) = some (.refreshToken data) →
        s.session u d = some j := fun h => session_eq_some.mpr ⟨data, h, hd⟩
    cases cmd with
    | setex k n v =>
      change (s.redis.update s.now (.setex k n v)).lookup s.now _ = _ at hl
      rw [Redis.Store.lookup_setex] at hl
      split at hl
      · rename_i hk
        subst hk
        split at hl
        · cases Option.some.inj hl
          exact .inr ⟨n, data, rfl, hc, hd, hf⟩
        · cases hl
      · exact .inl (hkeep hl)
    | del ks =>
      change (s.redis.update s.now (.del ks)).lookup s.now _ = _ at hl
      rw [Redis.Store.lookup_del] at hl
      split at hl
      · cases hl
      · exact .inl (hkeep hl)
    | _ => exact .inl (hkeep hl)

variable [DecidableEq K] {x : Externals K} {w w' : World T K} {e : Event (Request K) (Choice T)}

/-- The request `q` of slot `i`, with the digest `f`, is about to store the session `j` of
`(u, d)`. -/
def Storing (w : World T K) (i : ℕ) (q : Request K) (f : Progress T) (u : Uuid) (d : String)
    (j : Uuid) : Prop :=
  ∃ n data, NextCall w i q f (.redis (.setex (.refresh u d) n (.refreshToken data))) ∧
    data.tokenId = j

/-- A session that is there after an event was there before, or has just been stored, once, by a
request that has drawn its id and may open it. -/
theorem Change.session (h : Change x w e w') (hs : w'.shared.session u d = some j) :
    w.shared.session u d = some j ∨
    ∃ i q f a, e = .step i .go ∧ Storing w i q f u d j ∧ f.sent = [] ∧ f.drawn = [j, a] ∧
      Opens x q f u d ∧ ∃ p, serving w' i = some (q, { f with sent := [p] }) := by
  cases h with
  | start q _ hadm hshared => rw [hshared] at hs; exact .inl hs
  | step i c q f f' o _ hnext hmay heff hlog hslots hserve =>
    rcases heff.session hs with hs | ⟨n, data, rfl, rfl, hd, hf⟩
    · exact .inl hs
    · obtain ⟨hsent, hopen, r, a, data', made, t, hdr, hv, hr, -, -⟩ := hmay
      cases hv
      refine .inr ⟨i, q, f, a, rfl, ⟨n, data, hnext, hd⟩, hsent, ?_, hopen, ?_⟩
      · rw [hdr, ← hr, hd]
      · rw [hserve, if_pos rfl, hf, hsent]
        exact ⟨_, rfl⟩
  | respond i y _ hserved hends hshared => rw [hshared] at hs; exact .inl hs
  | env c _ hdrift => exact .inl (session_of_drift hdrift hs)

/-- A token that was handed out is not stored again. -/
theorem Invariant.gone (hw : Invariant x w) (h : Change x w e w') {tok : K} {c : Claims}
    (htok : tok ∈ issued w.log) (hver : x.jwt.verify tok = some c)
    (hgone : w.shared.session u d ≠ some c.jti) : w'.shared.session u d ≠ some c.jti := by
  intro hs
  rcases h.session hs with hs | ⟨i, q, f, a, -, ⟨n, data, hnext, -⟩, -, hdr, -⟩
  · exact hgone hs
  · exact hw.not_drawn htok hver hnext.serving (by simp [hdr])

omit [DecidableEq K] in
/-- The log only grows. -/
lemma Turn.log {adm : List (Reply T K) → Request K → Bool}
    (h : Turn (MayCall x) (Ends x) adm w e w') :
    w'.log = w.log ∨ ∃ y, w'.log = w.log ++ [y] := by
  cases h with
  | start q _ hadm hshared hlog => exact .inl hlog
  | step i c q f f' o _ hnext hmay heff hlog => exact .inl hlog
  | respond i y _ hserved hends hshared hlog => exact .inr ⟨y, hlog⟩
  | env c _ hdrift hlog => exact .inl hlog

/-- A token that was handed out stays handed out. -/
lemma Change.issued (h : Change x w e w') {tok : K} (htok : tok ∈ issued w.log) :
    tok ∈ issued w'.log := by
  rcases h.log with hlog | ⟨y, hlog⟩
  · rwa [hlog]
  · rw [hlog, SampleAuthApi.issued, List.flatMap_append]
    exact List.mem_append_left _ htok

/-! ## The lookup of a refresh -/

section Lookup

omit [DecidableEq K]

variable {c : Claims} {i : ℕ} {ch : Choice T} {s s' : Stores T} {q : Request K} {f f' : Progress T}
  {o : Op T}

/-- A refresh presents one token. -/
lemma Presents.unique {c c' : Claims} (h : Presents x q c) (h' : Presents x q c') : c = c' := by
  obtain ⟨tok, client, rfl, hv, -⟩ := h
  obtain ⟨tok', client', hq, hv', -⟩ := h'
  cases hq
  exact Option.some.inj (hv.symm.trans hv')

/-- A refresh that has found its token stored detects no reuse. -/
lemma Matched.not_reuse {c' : Claims} (h : Matched x q f c) : ¬ Reuse x q f c' := by
  rintro ⟨hp, s, j, hl, hs, hj⟩
  obtain ⟨hp', s', hl', hs'⟩ := h
  cases hp.unique hp'
  rw [LookedUp] at hl hl'
  rw [hl] at hl'
  cases Option.some.inj hl'
  rw [hs] at hs'
  exact hj (Option.some.inj hs')

/-- The first command that a refresh sends after it has found its token stores the successor. -/
lemma Matched.maySend {cmd : RedisCmd} (h : Matched x q f c) (hmay : MaySend x q f cmd)
    (hw : cmd.writes = true) (hsent : f.sent = []) :
    ∃ n data, cmd = .setex (.refresh c.sub c.deviceId) n
      (.refreshToken data) ∧ data.tokenId ∈ f.drawn := by
  obtain ⟨hp, s, hl, hs⟩ := h
  obtain ⟨tok, client, rfl, -⟩ := id hp
  cases cmd with
  | setex k n v =>
    cases k with
    | refresh u d =>
      obtain ⟨-, hopen, r, a, data, made, t, hdr, rfl, hr, -⟩ := hmay
      rcases hopen with ⟨_, _, _, _, _, hq, _⟩ | ⟨c', ⟨⟨hp', -⟩, -⟩, rfl, rfl⟩
      · cases hq
      · cases hp.unique hp'
        exact ⟨n, data, rfl, by simp [hdr, hr]⟩
    | devices u => exact hmay.elim
    | blacklist j => exact absurd hmay.2.1 (by simp [Request.signsOut])
  | del ks =>
    rcases hmay with ⟨u, d, -, ⟨_, _, _, hq, _⟩ | ⟨_, _, _, hq, _⟩ | ⟨c', hre, -⟩⟩ |
      ⟨u, ds, -, -, hsw, -⟩
    · cases hq
    · cases hq
    · exact absurd hre (Matched.not_reuse ⟨hp, s, hl, hs⟩)
    · cases hsw
  | sadd k m =>
    obtain ⟨u, t, n, v, -, h, -⟩ := hmay
    rw [hsent] at h
    cases h
  | srem k m =>
    obtain ⟨u, t, rest, -, h, -⟩ := hmay
    rw [hsent] at h
    cases h
  | _ => cases hw

/-- A refresh finds its token stored when it is, before it has sent anything. -/
lemma Effect.matched (heff : Effect i ch s f o f' s') (hmay : MayCall x q f o)
    (h : Matched x q f' c) :
    Matched x q f c ∨ (s.session c.sub c.deviceId = some c.jti ∧ f'.sent = []) := by
  rcases heff.found with hf | ⟨k, rfl, rfl, rfl⟩
  · exact .inl (h.keep hf.symm)
  · obtain ⟨-, s₀, hl, hs⟩ := h
    simp only [LookedUp, Option.some.injEq, Prod.mk.injEq] at hl
    obtain ⟨rfl, -⟩ := hl
    exact .inr ⟨hs, hmay.2.2.1⟩

end Lookup

/-! ## Requests that are being served or have been answered -/

variable {c : Claims} {q : Request K} {f : Progress T}

omit [Instant T] [DecidableEq K] in
/-- A request bears one token. -/
lemma Bears.unique {c' : Claims} (h : Bears x q c) (h' : Bears x q c') : c = c' := by
  obtain ⟨tok, dev, hb, hv⟩ := h
  obtain ⟨tok', dev', hb', hv'⟩ := h'
  rw [hb] at hb'
  cases hb'
  exact Option.some.inj (hv.symm.trans hv')

omit [Instant T] [DecidableEq K] in
/-- A check on the claims of a token, from the claims of its request. -/
lemma Bears.any {tok : K} {dev : String} {p : Claims → Bool} (h : Bears x q c)
    (hb : q.bearer? = some (tok, dev)) (hp : (x.jwt.verify tok).any p = true) : p c = true := by
  obtain ⟨tok', dev', hb', hv⟩ := h
  rw [hb] at hb'
  cases hb'
  rwa [hv] at hp

omit [DecidableEq K] in
/-- A request that has not looked up its token has found no match. -/
lemma not_matched_empty : ¬ Matched x q ({} : Progress T) c := by
  rintro ⟨-, s, hl, -⟩
  cases hl

omit [DecidableEq K] in
/-- A token that verifies and has been presented was handed out. -/
lemma Invariant.issued_of_token (hw : Invariant x w) (hp : Party w q f) {tok : K}
    (htok : q.token? = some tok) (hver : x.jwt.verify tok = some c) : tok ∈ issued w.log := by
  rcases hp with ⟨i, hi⟩ | ⟨y, hy, rfl, -⟩
  · exact hw.presented.served i _ f tok c hi htok hver
  · obtain ⟨l, l', hl⟩ := List.append_of_mem hy
    rw [hl, issued, List.flatMap_append]
    exact List.mem_append_left _ (hw.presented.logged l y l' tok c hl htok hver)

omit [DecidableEq K] in
/-- The token that a refresh presents was handed out. -/
lemma Invariant.issued_of_party (hw : Invariant x w) (hp : Party w q f) (hm : Presents x q c) :
    ∃ tok, tok ∈ issued w.log ∧ x.jwt.verify tok = some c := by
  obtain ⟨tok, client, rfl, hver, -⟩ := hm
  exact ⟨tok, hw.issued_of_token hp rfl hver, hver⟩

omit [DecidableEq K] in
/-- The bearer token of a request was handed out. -/
lemma Invariant.issued_of_bears (hw : Invariant x w) (hp : Party w q f) (hb : Bears x q c) :
    ∃ tok, tok ∈ issued w.log ∧ x.jwt.verify tok = some c := by
  obtain ⟨tok, dev, hbearer, hver⟩ := hb
  have htok : q.token? = some tok := by
    cases q <;> simp_all [Request.bearer?, Request.token?]
  exact ⟨tok, hw.issued_of_token hp htok hver, hver⟩

/-- What a request has sent stays sent. -/
lemma Effect.mem_sent {i : ℕ} {ch : Choice T} {s s' : Stores T} {f f' : Progress T} {o : Op T}
    (h : Effect i ch s f o f' s') {p : T × RedisCmd} (hp : p ∈ f.sent) : p ∈ f'.sent := by
  rcases h.sent with ⟨heq, -⟩ | ⟨cmd, -, -, -, -, rfl, -⟩
  · rwa [heq]
  · exact List.mem_cons_of_mem _ hp

omit [DecidableEq K] in
/-- No request is forgotten, and neither is what it has sent. -/
lemma Turn.stays {adm : List (Reply T K) → Request K → Bool}
    (h : Turn (MayCall x) (Ends x) adm w e w') (hp : Party w q f) :
    ∃ f', Party w' q f' ∧ ∀ p ∈ f.sent, p ∈ f'.sent := by
  rcases hp with ⟨i, hi⟩ | ⟨y, hy, rfl, rfl⟩
  · cases h with
    | start q₁ _ hadm hshared hlog hslots hserve =>
      have hne : i ≠ w.slots.length := by
        rintro rfl
        rw [serving_length] at hi
        cases hi
      exact ⟨f, .inl ⟨i, by rw [hserve, if_neg hne, hi]⟩, fun _ hp => hp⟩
    | step j ch q₁ g g' o _ hnext hmay heff hlog hslots hserve =>
      by_cases hij : i = j
      · subst hij
        have hq := hnext.serving
        rw [hi] at hq
        cases hq
        exact ⟨g', .inl ⟨i, by rw [hserve, if_pos rfl]⟩, fun _ hp => heff.mem_sent hp⟩
      · exact ⟨f, .inl ⟨i, by rw [hserve, if_neg hij, hi]⟩, fun _ hp => hp⟩
    | respond j y _ hserved hends hshared hlog hslots hserve =>
      by_cases hij : i = j
      · subst hij
        rw [hi] at hserved
        cases hserved
        exact ⟨_, .inr ⟨y, by rw [hlog]; simp, rfl, rfl⟩, fun _ hp => hp⟩
      · exact ⟨f, .inl ⟨i, by rw [hserve, if_neg hij, hi]⟩, fun _ hp => hp⟩
    | env ch _ hdrift hlog hslots hserve =>
      exact ⟨f, .inl ⟨i, by rw [hserve, hi]⟩, fun _ hp => hp⟩
  · refine ⟨_, .inr ⟨y, ?_, rfl, rfl⟩, fun _ hp => hp⟩
    rcases h.log with hlog | ⟨z, hlog⟩
    · rwa [hlog]
    · rw [hlog]
      exact List.mem_append_left _ hy

/-! ## Checks -/

/-- No other request is being served. -/
def solo (w : World T K) : Event (Request K) (Choice T) → Bool
  | .step i _ => (List.range w.slots.length).all fun k => k == i || (w.slot k).isNone
  | _ => true

omit [Instant T] [DecidableEq K] in
/-- No other slot serves a request when one moves alone. -/
lemma serving_of_solo {i k : ℕ} {ch : Choice T} (h : solo w (.step i ch) = true) (hk : k ≠ i) :
    serving w k = none := by
  by_cases hlt : k < w.slots.length
  · have hall := List.all_eq_true.mp h k (List.mem_range.mpr hlt)
    simp only [Bool.or_eq_true, beq_iff_eq, Option.isNone_iff_eq_none] at hall
    simp [serving, hall.resolve_left hk]
  · rw [serving, Option.map_eq_none_iff]
    by_contra hne
    obtain ⟨th, hth⟩ := Option.ne_none_iff_exists'.mp hne
    exact hlt (slot_lt hth)

end SampleAuthApi
