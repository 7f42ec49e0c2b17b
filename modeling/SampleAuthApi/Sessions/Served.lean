import SampleAuthApi.Foundation.Serial
import SampleAuthApi.Sessions.Tokens

/-!
# Requests that are served alone

`Trail x w q f s` relates the shared state `s` to the state `w` in which a request arrived that has
been served alone since then and has the digest `f`: the Redis store is that of `w` after the
commands of the digest, the committed database is that of `w` after the committed writes of the
digest, and everything the request has read it has read from the stores of `w`.  `Served` is what
this says once the request is answered.
-/

namespace SampleAuthApi

open Transactions Pool

variable {T K : Type} [Instant T]

/-- The event is not an administrator's. -/
def Unattended {Q : Type} : Event Q (Choice T) → Prop
  | .env (.setStatus _ _) => False
  | _ => True

/-- Redis and the database can be reached, and no administrator is at work. -/
def Smooth {α Q : Type} (_ : Pooled T α Q) (e : Event Q (Choice T)) : Prop :=
  Reliable e ∧ Unattended e

/-- `Unattended`, as a check. -/
def unattended {α Q : Type} (_ : Pooled T α Q) : Event Q (Choice T) → Bool
  | .env (.setStatus _ _) => false
  | _ => true

omit [Instant T] in
lemma unattended_of_check {α Q : Type} (w : Pooled T α Q) (e : Event Q (Choice T))
    (h : unattended w e = true) : Unattended e := by
  cases e with
  | env c => cases c <;> first | exact trivial | cases h
  | _ => exact trivial

/-- `Smooth`, as a check. -/
def smooth {α Q : Type} (_ : Pooled T α Q) : Event Q (Choice T) → Bool
  | .step _ .fail => false
  | .env (.setStatus _ _) => false
  | _ => true

omit [Instant T] in
lemma smooth_of_check {α Q : Type} (w : Pooled T α Q) (e : Event Q (Choice T))
    (h : smooth w e = true) : Smooth w e := by
  cases e with
  | step i c => cases c <;> first | exact ⟨trivial, trivial⟩ | cases h
  | env c => cases c <;> first | exact ⟨trivial, trivial⟩ | cases h
  | _ => exact ⟨trivial, trivial⟩

/-- The stores `s` after a request that arrived in `w` and has been served alone since then. -/
structure Trail (x : Externals K) (w : Stores T) (q : Request K) (f : Progress T) (s : Stores T) :
    Prop where
  redis : s.redis = w.redis.replay f.sent
  committed : s.db.committed = Ledger.applyAll Database.apply f.committed w.db.committed
  /-- The unique indexes have accepted the writes of the session. -/
  accepted : Ledger.accepts Database.apply (f.committed ++ f.wrote) w.db.committed = true
  now : w.now ≤ s.now
  /-- Values that were drawn stay drawn. -/
  drawn : ∀ u ∈ w.drawn, u ∈ s.drawn
  /-- The values that the request has drawn are new. -/
  fresh : ∀ u ∈ f.drawn, u ∉ w.drawn
  /-- The commands of the request were sent while it was being served. -/
  sent : ∀ p ∈ f.sent, w.now ≤ p.1 ∧ p.1 ≤ s.now
  /-- The clock was read while the request was being served. -/
  readings : ∀ t ∈ f.readings, w.now ≤ t ∧ t ≤ s.now
  /-- The lifetime of the new refresh token was computed while the request was being served. -/
  lifetime : ∀ made t, f.lifetime = some (made, t) → t ≤ s.now
  /-- The user was queried in the database of `w`. -/
  account : ∀ s' row, f.account = some (s', row) → s'.db.committed = w.db.committed
  /-- Device rows were queried in the database of `w`. -/
  devices : ∀ s', f.devices = some s' → s'.db.committed = w.db.committed
  /-- A flush was refused by the database of `w`. -/
  refused : ∀ s' ws, f.refused = some (s', ws) → s'.db.committed = w.db.committed
  /-- A session was looked up in the Redis store of `w`. -/
  found : ∀ s' v, f.found = some (s', v) →
    s'.redis = w.redis ∧ w.now ≤ s'.now ∧ s'.now ≤ s.now
  /-- The device set was that of the Redis store of `w`. -/
  snapshot : ∀ ds, f.snapshot = some ds →
    ∃ c, Bears x q c ∧ ds = w.redis.sets (.devices c.sub)

namespace Trail

variable {x : Externals K} {w s s' : Stores T} {q : Request K} {f f' : Progress T}

theorem start (x : Externals K) (w : Stores T) (q : Request K) : Trail x w q {} w where
  redis := rfl
  committed := rfl
  accepted := rfl
  now := le_rfl
  drawn _ h := h
  fresh _ h := absurd h List.not_mem_nil
  sent _ h := absurd h List.not_mem_nil
  readings _ h := absurd h List.not_mem_nil
  lifetime _ _ h := by cases h
  account _ _ h := by cases h
  devices _ h := by cases h
  refused _ _ h := by cases h
  found _ _ h := by cases h
  snapshot _ h := by cases h

/-- The clock may advance. -/
theorem tick (h : Trail x w q f s) (hr : s'.redis = s.redis)
    (hc : s'.db.committed = s.db.committed) (hd : s'.drawn = s.drawn) (hn : s.now ≤ s'.now) :
    Trail x w q f s' where
  redis := hr.trans h.redis
  committed := hc.trans h.committed
  accepted := h.accepted
  now := h.now.trans hn
  drawn u hu := hd ▸ h.drawn u hu
  fresh := h.fresh
  sent p hp := ⟨(h.sent p hp).1, (h.sent p hp).2.trans hn⟩
  readings t ht := ⟨(h.readings t ht).1, (h.readings t ht).2.trans hn⟩
  lifetime made t ht := (h.lifetime made t ht).trans hn
  account := h.account
  devices := h.devices
  refused := h.refused
  found s₀ v hv := ⟨(h.found s₀ v hv).1, (h.found s₀ v hv).2.1, (h.found s₀ v hv).2.2.trans hn⟩
  snapshot := h.snapshot

lemma sets_replay_setex (r : Redis.Store Key Document String T)
    {l : List (T × RedisCmd)} (h : ∀ p ∈ l, ∃ j n v, p.2 = .setex (.blacklist j) n v) :
    (r.replay l).sets = r.sets := by
  induction l with
  | nil => rfl
  | cons p l ih =>
    obtain ⟨j, n, v, hp⟩ := h p List.mem_cons_self
    rw [Redis.Store.replay_cons, hp, Redis.Store.sets_setex]
    exact ih fun p' hp' => h p' (List.mem_cons_of_mem _ hp')

/-- A call of the request. -/
theorem step {i : ℕ} {ch : Choice T} {o : Op T} (h : Trail x w q f s) (hmay : MayCall x q f o)
    (heff : Effect i ch s f o f' s') (hown : s.db.own i = f.wrote) : Trail x w q f' s' := by
  have hclean : f.committed = [] → s.db.committed = w.db.committed := by
    intro hc
    rw [h.committed, hc]
    rfl
  cases heff with
  | now =>
    refine { h with readings := fun t ht => ?_, lifetime := fun made t ht => ?_ }
    · rcases List.mem_cons.mp ht with rfl | ht
      · exact ⟨h.now, le_rfl⟩
      · exact h.readings t ht
    · simp only [Progress.read] at ht
      split at ht
      · rcases Option.or_eq_some_iff.mp ht with ht | ⟨-, ht⟩
        · exact h.lifetime made t ht
        · obtain ⟨made', -, heq⟩ := Option.map_eq_some_iff.mp ht
          cases heq
          exact le_rfl
      · exact h.lifetime made t ht
  | uuid4 u hu =>
    refine { h with
      drawn := fun v hv => List.mem_cons_of_mem _ (h.drawn v hv), fresh := fun v hv => ?_ }
    rcases List.mem_cons.mp hv with rfl | hv
    · exact fun hmem => hu (h.drawn v hmem)
    · exact h.fresh v hv
  | gensalt => exact h
  | checkpw => exact { h with }
  | get k =>
    refine { h with found := fun s₀ v hv => ?_ }
    cases hv
    refine ⟨?_, h.now, le_rfl⟩
    rw [h.redis, hmay.2.2.1]
    rfl
  | smembers k hc =>
    refine { h with snapshot := fun ds hds => ?_ }
    cases hds
    obtain ⟨-, ⟨u, rfl, -, ⟨c, hauth, rfl⟩, -⟩, hsent⟩ := hmay
    exact ⟨c, hauth.bears, by rw [h.redis, sets_replay_setex _ hsent]⟩
  | existsKey k => exact { h with }
  | send cmd hc hw hv =>
    refine { h with redis := congrArg (·.update s.now cmd) h.redis, sent := fun p hp => ?_ }
    rcases List.mem_cons.mp hp with rfl | hp
    · exact ⟨h.now, le_rfl⟩
    · exact h.sent p hp
  | refuse cmd hv => exact h
  | userById id =>
    refine { h with account := fun s₀ row hrow => ?_ }
    cases hacc : f.account with
    | some a => exact h.account s₀ row (by simpa [Progress.load, hacc] using hrow)
    | none =>
      simp only [Progress.load, hacc, Option.none_or, Option.some.injEq, Prod.mk.injEq] at hrow
      rw [← hrow.1]
      exact hclean hmay
  | userByEmail email =>
    refine { h with account := fun s₀ row hrow => ?_ }
    cases hacc : f.account with
    | some a => exact h.account s₀ row (by simpa [Progress.load, hacc] using hrow)
    | none =>
      simp only [Progress.load, hacc, Option.none_or, Option.some.injEq, Prod.mk.injEq] at hrow
      rw [← hrow.1]
      exact hclean hmay
  | deviceRow u d =>
    refine { h with devices := fun s₀ hs => ?_ }
    cases hs
    exact hclean hmay
  | activeDevices u =>
    refine { h with devices := fun s₀ hs => ?_ }
    cases hs
    exact hclean hmay
  | flush ws db hdb =>
    refine { h with committed := (Ledger.committed_flush hdb).trans h.committed, accepted := ?_ }
    rcases Ledger.flush_cases hdb with ⟨-, hacc, -⟩ | ⟨hb, -⟩
    · have hold := h.accepted
      rw [Ledger.view, hown, hclean hmay.1] at hacc
      rw [hmay.1, List.nil_append] at hold ⊢
      exact (Ledger.accepts_append _ _ _).mpr ⟨hold, hacc⟩
    · cases hb
  | integrity ws =>
    refine { h with refused := fun s₀ ws' hs => ?_ }
    cases hs
    exact hclean hmay.1
  | commit =>
    refine { h with committed := ?_, accepted := by simpa [Progress.commit] using h.accepted }
    change s.db.view Database.apply i = Ledger.applyAll Database.apply (f.committed ++ f.wrote) _
    rw [Ledger.view, hown, h.committed, Ledger.applyAll_append]
  | rollback =>
    refine { h with accepted := ?_ }
    rw [List.append_nil]
    exact ((Ledger.accepts_append _ _ _).mp h.accepted).1
  | fail o hc => exact { h with }

end Trail

/-! ## Answered requests -/

/-- What a request has done that arrived in `w`, was served alone and was answered by `y` in
`w'`. -/
structure Served (x : Externals K) (w : World T K) (y : Reply T K) (w' : World T K) : Prop where
  trail : Trail x w.shared y.request (progress y.performed) w'.shared
  ends : Ends x y.request y.result (progress y.performed)
  log : w'.log = w.log ++ [y]
  quiescent : w'.Quiescent
  sound : Sound x w'

variable {x : Externals K} {admits : List (Reply T K) → Request K → Bool} {w w' : World T K}
  {y : Reply T K} {C : World T K → Event (Request K) (Choice T) → Prop}

lemma drift_unattended {Q : Type} {c : Choice T} {s s' : Stores T}
    (hu : Unattended (Event.env (Q := Q) c)) (h : drift c s = some s') :
    s'.redis = s.redis ∧ s'.db = s.db ∧ s'.drawn = s.drawn ∧ s.now ≤ s'.now := by
  cases c with
  | clock t =>
    simp only [drift] at h
    split at h
    · rename_i ht
      cases h
      exact ⟨rfl, rfl, rfl, ht⟩
    · cases h
  | setStatus id status => exact hu.elim
  | _ => cases h

/-- What holds of the only request while it is being served. -/
structure Serving (x : Externals K) (w : World T K) (q : Request K) (v : World T K) : Prop where
  sound : Sound x v
  log : v.log = w.log
  trail : ∃ f, serving v w.slots.length = some (q, f) ∧ Trail x w.shared q f v.shared

lemma Serving.exec {q : Request K} {v v' : World T K} {e : Event (Request K) (Choice T)}
    (h : Serving x w q v) (hu : Unattended e) (honly : Only w.slots.length v e)
    (he : Pool.exec (service (endpoint x) admits) e v = some v') : Serving x w q v' := by
  obtain ⟨hsound, hlog, f, hserving, htrail⟩ := h
  have hc := Kept.turn hsound he
  have hsound' := hsound.exec he
  cases hc with
  | start q' _ hadm hshared hlog' hslots hserve => exact honly.elim
  | step i c q' f₀ f' o _ hnext hmay heff hlog' hslots hserve =>
    have hi : i = w.slots.length := honly
    subst hi
    rw [hnext.serving] at hserving
    cases hserving
    refine ⟨hsound', hlog'.trans hlog, f', by rw [hserve, if_pos rfl], ?_⟩
    refine htrail.step hmay heff ?_
    rw [hsound.own, hnext.serving]
    rfl
  | respond i y' _ hserved hends hshared hlog' hslots hserve => exact honly.elim
  | env c _ hdrift hlog' hslots hserve =>
    obtain ⟨hr, hdb, hd, hn⟩ := drift_unattended hu hdrift
    exact ⟨hsound', hlog'.trans hlog, f, by rw [hserve, hserving],
      htrail.tick hr (by rw [hdb]) hd hn⟩

/-- While Redis and the database can be reached, the only request records no failure. -/
lemma reliable_step {n : ℕ} {q : Request K} {v v' : World T K} {e : Event (Request K) (Choice T)}
    (hv : Sound x v) (hr : Reliable e) (honly : Only n v e)
    (hf : ∃ f, serving v n = some (q, f) ∧ f.failed = false)
    (he : Pool.exec (service (endpoint x) admits) e v = some v') :
    ∃ f, serving v' n = some (q, f) ∧ f.failed = false := by
  obtain ⟨f, hserving, hfailed⟩ := hf
  cases Kept.turn hv he with
  | start q' _ hadm hshared hlog' hslots hserve => exact honly.elim
  | step i c q' f₀ f' o _ hnext hmay heff hlog' hslots hserve =>
    have hi : i = n := honly
    subst hi
    rw [hnext.serving] at hserving
    cases hserving
    refine ⟨f', by rw [hserve, if_pos rfl], ?_⟩
    rw [heff.failed ?_, hfailed]
    rintro rfl
    exact hr
  | respond i y' _ hserved hends hshared hlog' hslots hserve => exact honly.elim
  | env c _ hdrift hlog' hslots hserve => exact ⟨f, by rw [hserve, hserving], hfailed⟩

/-- What holds of the digest of the only request that makes calls, from before its first call to its
answer: a property that every call keeps.  Other requests may have been left unanswered in `w`. -/
theorem Sound.alone {P : Progress T → Prop} (hw : Sound x w) (hC : ∀ v e, C v e → Unattended e)
    (h : Answered (service (endpoint x) admits)
      (fun v e => C v e ∧ Only w.slots.length v e) w y w') (h0 : P {})
    (hstep : ∀ (v v' : World T K) ch f f' o, C v (.step w.slots.length ch) →
      Trail x w.shared y.request f v.shared → MayCall x y.request f o →
      Effect w.slots.length ch v.shared f o f' v'.shared → P f → P f') :
    Trail x w.shared y.request (progress y.performed) w'.shared ∧ P (progress y.performed) ∧
      Ends x y.request y.result (progress y.performed) ∧ w'.log = w.log ++ [y] ∧ Sound x w' := by
  obtain ⟨v, v', hstart, hrun, hrespond, hlog⟩ := h
  have hfirst : Serving x w y.request v ∧
      ∃ f, serving v w.slots.length = some (y.request, f) ∧ P f := by
    cases Kept.turn hw hstart with
    | start q _ hadm hshared hlog₀ hslots hserve =>
      have hserving : serving v w.slots.length = some (y.request, {}) := by rw [hserve, if_pos rfl]
      exact ⟨⟨hw.exec hstart, hlog₀, {}, hserving, by rw [hshared]; exact Trail.start x _ _⟩,
        {}, hserving, h0⟩
  have hlast := hrun.induct (I := fun v => Serving x w y.request v ∧
      ∃ f, serving v w.slots.length = some (y.request, f) ∧ P f) hfirst
    fun u e u' _ hu hK he => by
      refine ⟨hu.1.exec (hC u e hK.1) hK.2 he, ?_⟩
      obtain ⟨⟨hsound, -, f, hserving, htrail⟩, f', hserving', hP⟩ := hu
      rw [hserving, Option.some.injEq, Prod.mk.injEq] at hserving'
      obtain ⟨-, rfl⟩ := hserving'
      cases Kept.turn hsound he with
      | start q' _ hadm hshared hlog' hslots hserve => exact hK.2.elim
      | step i c q' f₀ f' o _ hnext hmay heff hlog' hslots hserve =>
        have hi : i = w.slots.length := hK.2
        subst hi
        rw [hnext.serving] at hserving
        cases hserving
        exact ⟨f', by rw [hserve, if_pos rfl], hstep u u' c f f' o hK.1 htrail hmay heff hP⟩
      | respond i y' _ hserved hends hshared hlog' hslots hserve => exact hK.2.elim
      | env c _ hdrift hlog' hslots hserve => exact ⟨f, by rw [hserve, hserving], hP⟩
  obtain ⟨⟨hsound, hlog', f, hserving, htrail⟩, f', hserving', hP⟩ := hlast
  rw [hserving, Option.some.injEq, Prod.mk.injEq] at hserving'
  obtain ⟨-, rfl⟩ := hserving'
  have hsound' := hsound.exec hrespond
  cases Kept.turn hsound hrespond with
  | respond _ y' _ hserved hends hshared' hlog'' hslots hserve =>
    rw [hlog''] at hlog
    have hy : y' = y := by simpa using hlog
    subst hy
    rw [hserved] at hserving
    cases hserving
    exact ⟨by rw [hshared']; exact htrail, hP, hends, by rw [hlog'', hlog'], hsound'⟩

/-- A request that is served alone, without an administrator. -/
theorem Sound.served (hw : Sound x w) (hC : ∀ v e, C v e → Unattended e)
    (h : ServedAlone (service (endpoint x) admits) C w y w') : Served x w y w' := by
  obtain ⟨htrail, -, hends, hlog, hsound⟩ := hw.alone (P := fun _ => True) hC h.2 trivial
    fun _ _ _ _ _ _ _ _ _ _ _ => trivial
  exact ⟨htrail, hends, hlog, h.quiescent, hsound⟩

/-- A request that is served alone while Redis and the database can be reached records no
failure. -/
theorem Sound.served_reliable (hw : Sound x w) (hC : ∀ v e, C v e → Reliable e)
    (h : ServedAlone (service (endpoint x) admits) C w y w') :
    (progress y.performed).failed = false := by
  obtain ⟨hq, v, v', hstart, hrun, hrespond, hlog⟩ := h
  have hfirst : Sound x v ∧
      ∃ f, serving v w.slots.length = some (y.request, f) ∧ f.failed = false := by
    refine ⟨hw.exec hstart, {}, ?_, rfl⟩
    cases Kept.turn hw hstart with
    | start q _ hadm hshared hlog hslots hserve => rw [hserve, if_pos rfl]
  have hlast := hrun.induct (I := fun v => Sound x v ∧
      ∃ f, serving v w.slots.length = some (y.request, f) ∧ f.failed = false) hfirst
    fun u e u' _ hu hK he => ⟨hu.1.exec he, reliable_step hu.1 (hC u e hK.1) hK.2 hu.2 he⟩
  obtain ⟨hsound, f, hserving, hfailed⟩ := hlast
  cases Kept.turn hsound hrespond with
  | respond _ y' _ hserved hends hshared' hlog'' hslots hserve =>
    rw [hlog''] at hlog
    have hy : y' = y := by simpa using hlog
    subst hy
    rw [hserved] at hserving
    cases hserving
    exact hfailed

/-- A call does not move the clock, so only the environment does. -/
lemma exec_now {e : Event (Request K) (Choice T)}
    (h : Pool.exec (service (endpoint x) admits) e w = some w') (he : ∀ c, e ≠ .env c) :
    w'.shared.now = w.shared.now := by
  rcases exec_cases h with ⟨_, -, -, rfl⟩ | ⟨_, _, _, _, _, _, _, _, -, -, hp, rfl⟩ |
    ⟨_, _, _, -, -, -, rfl⟩ | ⟨c, _, rfl, -, -⟩
  · rfl
  · exact (perform_frame hp).1
  · rfl
  · exact absurd rfl (he c)

/-- A request is served at an instant if the environment does not move. -/
lemma ServedAlone.now (h : ServedAlone (service (endpoint x) admits) C w y w')
    (hC : ∀ v e, C v e → ∀ c, e ≠ .env c) : w'.shared.now = w.shared.now := by
  obtain ⟨-, v, v', hstart, hrun, hrespond, -⟩ := h
  have hmid : v'.shared.now = v.shared.now :=
    hrun.induct (I := fun u => u.shared.now = v.shared.now) rfl
      fun u e u' _ hu hK he => (exec_now he (hC u e hK.1)).trans hu
  rw [exec_now hrespond (fun c => by simp), hmid, exec_now hstart (fun c => by simp)]

end SampleAuthApi
