import SampleAuthApi.Sessions.Runs

/-!
# The device set as an index of the stored tokens

`delete_all_refresh_tokens` only reaches the devices in the set `auth:devices:{u}`.  A stored token
whose device is not in the set is harmless as long as the `SADD` of its own
`store_refresh_token` is still to come.  `Indexed.turn`: this is kept by every event that does not
take a device out of the set while a token is stored for it.  `device_set_complete` concludes for
any number of concurrent calls of the token store.
-/

namespace SampleAuthApi

open Pool

variable {T α Q : Type} [Instant T]

/-! ## The index -/

/-- A request has stored a refresh token for `(u, d)` and has still to add the device to the set. -/
def Pending (w : Pooled T α Q) (u : Uuid) (d : String) : Prop :=
  ∃ k q f t n v, serving w k = some (q, f) ∧ f.sent = [(t, Redis.Cmd.setex (.refresh u d) n v)]

/-- The device of a stored refresh token is in the set, or about to be added. -/
def Indexed (w : Pooled T α Q) : Prop :=
  ∀ u d, w.shared.redis.lookup w.shared.now (.refresh u d) ≠ none →
    d ∈ w.shared.redis.sets (.devices u) ∨ Pending w u d

/-- A command takes a device out of the set only if it leaves no refresh token of the device stored,
or if the device is about to be added. -/
def RemovesIdle (w : Pooled T α Q) (e : Event Q (Choice T)) : Prop :=
  ∀ i q f cmd u d, e = .step i .go → NextCall w i q f (.redis cmd) →
    d ∈ w.shared.redis.sets (.devices u) →
    d ∉ (w.shared.redis.update w.shared.now cmd).sets (.devices u) →
    (w.shared.redis.update w.shared.now cmd).lookup w.shared.now (.refresh u d) = none ∨
      Pending w u d

variable {may : Q → Progress T → Op T → Prop} {post : Q → Except Exc α → Progress T → Prop}
  {admits : List (Exchange (Op T) (Op.Reply T) Exc α Q (Stores T)) → Q → Bool}
  {w w' : Pooled T α Q} {e : Event Q (Choice T)}

/-- One event keeps the index.  A refresh token is stored first of all, the `SADD` follows at once,
and a request is not answered in between. -/
theorem Indexed.turn (hw : Indexed w) (h : Turn may post admits w e w') (hremove : RemovesIdle w e)
    (hfirst : ∀ q f u d n v, may q f (.redis (.setex (.refresh u d) n v)) → f.sent = [])
    (hnext : ∀ i q f cmd t u d n v, NextCall w i q f (.redis cmd) → may q f (.redis cmd) →
      cmd.writes = true → f.sent = [(t, .setex (.refresh u d) n v)] → cmd = .sadd (.devices u) d)
    (hlast : ∀ i q f t u d n v, e = .respond i → serving w i = some (q, f) →
      f.sent ≠ [(t, .setex (.refresh u d) n v)]) : Indexed w' := by
  intro u d hlive
  cases h with
  | start q _ hadm hshared hlog hslots hserve =>
    rw [hshared] at hlive ⊢
    refine (hw u d hlive).imp id ?_
    rintro ⟨k, q', f, t, n, v, hk, hsent⟩
    have hne : k ≠ w.slots.length := by
      rintro rfl
      rw [serving_length] at hk
      cases hk
    exact ⟨k, q', f, t, n, v, by rw [hserve, if_neg hne, hk], hsent⟩
  | step i ch q f f' o _ hnextcall hmay heff hlog hslots hserve =>
    have hkeep : ∀ k q' g, k ≠ i → serving w k = some (q', g) → serving w' k = some (q', g) := by
      intro k q' g hk hserving
      rw [hserve, if_neg hk, hserving]
    rw [heff.readings.1] at hlive
    rcases heff.sent with ⟨hsame, hredis⟩ | ⟨cmd, rfl, rfl, hwrites, -, rfl, hs⟩
    · rw [hredis] at hlive ⊢
      refine (hw u d hlive).imp id ?_
      rintro ⟨k, q', g, t, n, v, hk, hsent⟩
      by_cases hki : k = i
      · subst hki
        rw [hnextcall.serving] at hk
        cases hk
        exact ⟨k, q, f', t, n, v, by rw [hserve, if_pos rfl], hsame.trans hsent⟩
      · exact ⟨k, q', g, t, n, v, hkeep k q' g hki hk, hsent⟩
    · have hstate : w'.shared.redis = w.shared.redis.update w.shared.now cmd := by rw [hs]
      rw [hstate] at hlive ⊢
      -- a device about to be added before the command is in the set after it, or still about to be
      have hpending : Pending w u d →
          d ∈ (w.shared.redis.update w.shared.now cmd).sets (.devices u) ∨ Pending w' u d := by
        rintro ⟨k, q', g, t, n, v, hk, hsent⟩
        by_cases hki : k = i
        · subst hki
          rw [hnextcall.serving] at hk
          cases hk
          rw [hnext k q f cmd t u d n v hnextcall hmay hwrites hsent]
          exact .inl (by simp [Redis.Store.sets_sadd])
        · exact .inr ⟨k, q', g, t, n, v, hkeep k q' g hki hk, hsent⟩
      rcases Redis.Store.lookup_update _ _ _ hlive with hbefore | ⟨n, v, rfl⟩
      · rcases hw u d hbefore with hmem | hpend
        · by_cases hmem' : d ∈ (w.shared.redis.update w.shared.now cmd).sets (.devices u)
          · exact .inl hmem'
          · rcases hremove i q f cmd u d rfl hnextcall hmem hmem' with hnone | hpend
            · exact absurd hnone hlive
            · exact hpending hpend
        · exact hpending hpend
      · have hnil := hfirst q f u d n v hmay
        exact .inr ⟨i, q, _, w.shared.now, n, v, by rw [hserve, if_pos rfl], by rw [hnil]⟩
  | respond i y _ hserved hends hshared hlog hslots hserve =>
    rw [hshared] at hlive ⊢
    refine (hw u d hlive).imp id ?_
    rintro ⟨k, q', f, t, n, v, hk, hsent⟩
    have hne : k ≠ i := by
      rintro rfl
      exact hlast k q' f t u d n v rfl hk hsent
    exact ⟨k, q', f, t, n, v, by rw [hserve, if_neg hne, hk], hsent⟩
  | env ch _ hdrift hlog hslots hserve =>
    obtain ⟨hredis, -, hle⟩ := drift_frame hdrift
    rw [hredis] at hlive ⊢
    obtain ⟨v, hv⟩ := Option.ne_none_iff_exists'.mp hlive
    have hbefore := Redis.Store.lookup_anti hv hle
    refine (hw u d (by rw [hbefore]; simp)).imp id ?_
    rintro ⟨k, q', f, t, n, v, hk, hsent⟩
    exact ⟨k, q', f, t, n, v, by rw [hserve, hk], hsent⟩

/-! ## Concurrent calls of the token store -/

/-- A call of the token store that writes refresh tokens. -/
inductive StoreCall (T : Type) : Type
  | storeRefreshToken (userId : Uuid) (deviceId : String) (tokenId : Uuid)
    (deviceName osType appVersion ipAddress : Option String) (expiresAt : T)
  | deleteRefreshToken (userId : Uuid) (deviceId : String)
  | deleteAllRefreshTokens (userId : Uuid)

/-- The program of a call. -/
def StoreCall.run : StoreCall T → Proc T Unit
  | .storeRefreshToken userId deviceId tokenId deviceName osType appVersion ipAddress expiresAt =>
    TokenStore.storeRefreshToken userId deviceId tokenId deviceName osType appVersion ipAddress
      expiresAt
  | .deleteRefreshToken userId deviceId => TokenStore.deleteRefreshToken userId deviceId
  | .deleteAllRefreshTokens userId => do
    let _ ← TokenStore.deleteAllRefreshTokens userId
    pure ()

/-- Any number of concurrent calls of the token store. -/
def tokenStore : System (Op T) (Op.Reply T) Exc Unit (StoreCall T) (Stores T) (Choice T) :=
  service StoreCall.run fun _ _ => true

/-- The calls that a call of the token store may issue. -/
def StoreMay : StoreCall T → Progress T → Op T → Prop
  | .storeRefreshToken u d _ _ _ _ _ _, f, .redis (.setex k _ _) => k = .refresh u d ∧ f.sent = []
  | .storeRefreshToken u d _ _ _ _ _ _, f, .redis (.sadd k m) =>
    k = .devices u ∧ m = d ∧ ∃ t n v, f.sent = [(t, .setex (.refresh u d) n v)]
  | .storeRefreshToken _ _ _ _ _ _ _ _, _, .now => True
  | .deleteRefreshToken u d, f, .redis (.del ks) => ks = {.refresh u d} ∧ f.sent = []
  | .deleteRefreshToken u d, f, .redis (.srem k m) =>
    k = .devices u ∧ m = d ∧ ∃ t, f.sent = [(t, .del {.refresh u d})]
  | .deleteAllRefreshTokens u, f, .redis (.smembers k) => k = .devices u ∧ f.sent = []
  | .deleteAllRefreshTokens u, f, .redis (.del ks) =>
    ∃ ds, f.snapshot = some ds ∧ ks = TokenStore.bulkKeys u ds ∧ f.sent = []
  | _, _, _ => False

/-- How a call of the token store ends. -/
def StoreEnds (q : StoreCall T) (r : Except Exc Unit) (f : Progress T) : Prop :=
  f.wrote = [] ∧ (f.failed = true ∨ match q, r with
    | .storeRefreshToken u d _ _ _ _ _ _, .ok _ =>
      f.sent = [] ∨
        ∃ t t' n v, f.sent = [(t', .sadd (.devices u) d), (t, .setex (.refresh u d) n v)]
    | .deleteRefreshToken u d, .ok _ =>
      ∃ t t', f.sent = [(t', .srem (.devices u) d), (t, .del {.refresh u d})]
    | .deleteAllRefreshTokens u, .ok _ =>
      ∃ t ds, f.sent = [(t, .del (TokenStore.bulkKeys u ds))]
    | _, .error _ => False)

/-- The calls of the token store keep their contract. -/
theorem storeCall_conforms (q : StoreCall T) :
    Program.wp (observer StoreMay q) q.run (StoreEnds q) {} := by
  cases q with
  | storeRefreshToken u d r name os app ip expiresAt =>
    refine TokenStore.wp_storeRefreshToken trivial (fun t data _ => ⟨rfl, rfl⟩)
      (fun t s n v => ⟨rfl, rfl, s, n, v, rfl⟩) (fun t _ => ⟨rfl, .inr (.inl rfl)⟩)
      (fun t s s' data _ => ⟨rfl, .inr (.inr ⟨s, s', _, _, rfl⟩)⟩)
      fun e f' hw hf => ⟨hw, .inl hf.failed⟩
  | deleteRefreshToken u d =>
    exact TokenStore.wp_deleteRefreshToken ⟨rfl, rfl⟩ (fun t => ⟨rfl, rfl, t, rfl⟩)
      (fun t t' => ⟨rfl, .inr ⟨t, t', rfl⟩⟩) fun e f' hw hf => ⟨hw, .inl hf.failed⟩
  | deleteAllRefreshTokens u =>
    unfold StoreCall.run
    rw [Program.wp_bind]
    exact TokenStore.wp_deleteAllRefreshTokens ⟨rfl, rfl⟩ (fun ds => ⟨ds, rfl, rfl, rfl⟩)
      (fun t ds => ⟨rfl, .inr ⟨t, ds, rfl⟩⟩) fun e f' hw hf => ⟨hw, .inl hf.failed⟩

/-- What holds of the token store while no command fails. -/
structure StoreInvariant (w : Pooled T Unit (StoreCall T)) : Prop where
  /-- The calls keep their contract. -/
  kept : Kept StoreMay StoreEnds w
  /-- No failure has been recorded. -/
  reliable : ∀ i q f, serving w i = some (q, f) → f.failed = false
  /-- The sets index the stored tokens. -/
  indexed : Indexed w

section TokenStore

variable {w w' : Pooled T Unit (StoreCall T)} {e : Event (StoreCall T) (Choice T)} {u : Uuid}

lemma not_failed_step (hw : ∀ i q f, serving w i = some (q, f) → f.failed = false)
    (h : Turn StoreMay StoreEnds (fun _ _ => true) w e w') (hreliable : Reliable e) :
    ∀ i q f, serving w' i = some (q, f) → f.failed = false := by
  refine h.served hw (fun _ _ hf => hf) (fun _ => rfl) ?_
  rintro i c q f f' o rfl hnext hmay heff hf
  have hc : c ≠ .fail := by
    rintro rfl
    exact hreliable
  rw [heff.failed hc, hf]

/-- One event keeps the invariant. -/
theorem StoreInvariant.exec (hw : StoreInvariant w) (hreliable : Reliable e)
    (hremove : RemovesIdle w e) (h : Pool.exec tokenStore e w = some w') : StoreInvariant w' := by
  have hturn : Turn StoreMay StoreEnds (fun _ _ => true) w e w' := hw.kept.turn h
  refine ⟨hw.kept.exec storeCall_conforms (fun q r f hf => hf.1) h,
    not_failed_step hw.reliable hturn hreliable, hw.indexed.turn hturn hremove ?_ ?_ ?_⟩
  · intro q f u d n v hmay
    cases q with
    | storeRefreshToken => exact hmay.2
    | _ => exact hmay.elim
  · intro i q f cmd t u d n v _ hmay hwrites hsent
    cases q with
    | storeRefreshToken u' d' =>
      cases cmd with
      | setex k n' v' =>
        rw [hmay.2] at hsent
        cases hsent
      | sadd k m =>
        obtain ⟨rfl, rfl, t', n', v', hsent'⟩ := hmay
        rw [hsent] at hsent'
        cases hsent'
        rfl
      | _ => exact hmay.elim
    | deleteRefreshToken u' d' =>
      cases cmd with
      | del ks =>
        rw [hmay.2] at hsent
        cases hsent
      | srem k m =>
        obtain ⟨-, -, t', hsent'⟩ := hmay
        rw [hsent] at hsent'
        cases hsent'
      | _ => exact hmay.elim
    | deleteAllRefreshTokens u' =>
      cases cmd with
      | del ks =>
        obtain ⟨ds, -, -, hnil⟩ := hmay
        rw [hnil] at hsent
        cases hsent
      | smembers k => cases hwrites
      | _ => exact hmay.elim
  · rintro i q f t u d n v rfl hserving hsent
    cases hturn with
    | respond _ y _ hserved hends hshared hlog hslots hserve =>
      rw [hserved] at hserving
      cases hserving
      rcases hends with ⟨-, hfailed | hend⟩
      · rw [hw.reliable i _ _ hserved] at hfailed
        cases hfailed
      · split at hend
        · rcases hend with hnil | ⟨t₁, t₂, n', v', hend⟩
          · rw [hnil] at hsent
            cases hsent
          · rw [hend] at hsent
            cases hsent
        · obtain ⟨t₁, t₂, hend⟩ := hend
          rw [hend] at hsent
          cases hsent
        · obtain ⟨t₁, ds, hend⟩ := hend
          rw [hend] at hsent
          cases hsent
        · exact hend

/-! ## A bulk deletion on its own -/

/-- Slot `i` serves a bulk deletion for `u`, and no other slot serves anything. -/
structure Sweeping (u : Uuid) (i : ℕ) (w : Pooled T Unit (StoreCall T)) : Prop where
  /-- The calls keep their contract. -/
  kept : Kept StoreMay StoreEnds w
  /-- The slot has been taken. -/
  slot : i < w.slots.length
  /-- The other slots. -/
  others : ∀ k, k ≠ i → serving w k = none
  /-- The slot itself: before the `DEL` the set lists all devices with a stored token, and after it
  no token is stored. -/
  own : ∀ q f, serving w i = some (q, f) → q = .deleteAllRefreshTokens u ∧ f.failed = false ∧
    ((f.sent = [] ∧
        (∀ d, w.shared.redis.lookup w.shared.now (.refresh u d) ≠ none →
          d ∈ w.shared.redis.sets (.devices u)) ∧
        ∀ ds, f.snapshot = some ds → w.shared.redis.sets (.devices u) = ds) ∨
      (f.sent ≠ [] ∧ ∀ d, w.shared.redis.lookup w.shared.now (.refresh u d) = none))

/-- No call arrives and no command fails. -/
def AloneRun (_ : Pooled T Unit (StoreCall T)) (e : Event (StoreCall T) (Choice T)) : Prop :=
  Reliable e ∧ ∀ q, e ≠ .start q

/-- One event while the bulk deletion runs on its own. -/
theorem Sweeping.exec {i : ℕ} (hw : Sweeping u i w) (hC : AloneRun w e)
    (h : Pool.exec tokenStore e w = some w') : Sweeping u i w' := by
  have hturn : Turn StoreMay StoreEnds (fun _ _ => true) w e w' := hw.kept.turn h
  have hkept : Kept StoreMay StoreEnds w' :=
    hw.kept.exec storeCall_conforms (fun q r f hf => hf.1) h
  cases hturn with
  | start q => exact absurd rfl (hC.2 q)
  | step k ch q f f' o _ hnext hmay heff hlog hslots hserve =>
    have hk : k = i := by
      by_contra hne
      have hserving := hnext.serving
      rw [hw.others k hne] at hserving
      cases hserving
    subst hk
    refine ⟨hkept, by rw [hslots]; exact hw.slot,
      fun j hj => by rw [hserve, if_neg hj, hw.others j hj], fun q' g hserving => ?_⟩
    rw [hserve, if_pos rfl] at hserving
    cases hserving
    obtain ⟨rfl, hfailed, hcase⟩ := hw.own q f hnext.serving
    have hc : ch ≠ .fail := by
      rintro rfl
      exact hC.1
    refine ⟨rfl, by rw [heff.failed hc, hfailed], ?_⟩
    rw [heff.readings.1]
    cases o with
    | redis cmd =>
      cases cmd with
      | smembers key =>
        obtain ⟨rfl, hnil⟩ := hmay
        rcases hcase with ⟨-, hlive, -⟩ | ⟨hsent, -⟩
        · have hsets : w'.shared = w.shared ∧
              f' = { f with snapshot := some (w.shared.redis.sets (.devices u)) } := by
            generalize w'.shared = s' at heff
            cases heff with
            | smembers => exact ⟨rfl, rfl⟩
            | send cmd hc' hwrites => cases hwrites
            | refuse cmd hv => cases hv
            | fail o hfail => exact absurd hfail hc
          rw [hsets.1, hsets.2]
          exact .inl ⟨hnil, hlive, fun ds hds => Option.some.inj hds⟩
        · exact absurd hnil hsent
      | del ks =>
        obtain ⟨ds, hsnap, rfl, hnil⟩ := hmay
        rcases hcase with ⟨-, hlive, hsets⟩ | ⟨hsent, -⟩
        · have hupdate : w'.shared.redis =
              w.shared.redis.update w.shared.now (.del (TokenStore.bulkKeys u ds)) ∧
              f'.sent ≠ [] := by
            generalize w'.shared = s' at heff
            cases heff with
            | send cmd hc' hwrites hv => exact ⟨rfl, List.cons_ne_nil _ _⟩
            | refuse cmd hv => cases hv
            | fail o hfail => exact absurd hfail hc
          refine .inr ⟨hupdate.2, fun d => ?_⟩
          rw [hupdate.1, Redis.Store.lookup_del]
          split
          · rfl
          · rename_i hmem
            by_contra hne
            have hd := hlive d hne
            rw [hsets ds hsnap] at hd
            exact hmem (by simp [hd])
        · exact absurd hnil hsent
      | _ => exact hmay.elim
    | _ => exact hmay.elim
  | respond k y _ hserved hends hshared hlog hslots hserve =>
    refine ⟨hkept, by rw [hslots]; exact hw.slot, fun j hj => ?_, fun q f hserving => ?_⟩
    · rw [hserve]
      split
      · rfl
      · exact hw.others j hj
    · rw [hserve] at hserving
      split at hserving
      · cases hserving
      · rw [hshared]
        exact hw.own q f hserving
  | env ch _ hdrift hlog hslots hserve =>
    obtain ⟨hredis, -, hle⟩ := drift_frame hdrift
    refine ⟨hkept, by rw [hslots]; exact hw.slot, fun j hj => by rw [hserve, hw.others j hj],
      fun q f hserving => ?_⟩
    rw [hserve] at hserving
    obtain ⟨hq, hfailed, hcase⟩ := hw.own q f hserving
    have hbefore : ∀ d, w'.shared.redis.lookup w'.shared.now (.refresh u d) ≠ none →
        w.shared.redis.lookup w.shared.now (.refresh u d) ≠ none := by
      intro d hlive
      obtain ⟨v, hv⟩ := Option.ne_none_iff_exists'.mp hlive
      rw [hredis] at hv
      rw [Redis.Store.lookup_anti hv hle]
      simp
    refine ⟨hq, hfailed, hcase.imp ?_ ?_⟩
    · rintro ⟨hnil, hlive, hsets⟩
      rw [hredis] at hbefore ⊢
      exact ⟨hnil, fun d hd => hlive d (hbefore d hd), hsets⟩
    · rintro ⟨hsent, hnone⟩
      refine ⟨hsent, fun d => ?_⟩
      by_contra hne
      exact hbefore d hne (hnone d)

/-- A bulk deletion that runs on its own over an indexed store leaves no token. -/
theorem Sweeping.answered {y : Exchange (Op T) (Op.Reply T) Exc Unit (StoreCall T) (Stores T)}
    (hw : StoreInvariant w) (hq : w.Quiescent) (hrun : Answered tokenStore AloneRun w y w')
    (hy : y.request = .deleteAllRefreshTokens u) (d : String) :
    w'.shared.redis.lookup w'.shared.now (.refresh u d) = none := by
  obtain ⟨v, v', harrive, hreach, hanswer, -⟩ := hrun
  have hidle : ∀ k, serving w k = none := by
    intro k
    rw [serving, hq k]
    rfl
  have hlive : ∀ d, w.shared.redis.lookup w.shared.now (.refresh u d) ≠ none →
      d ∈ w.shared.redis.sets (.devices u) := by
    intro d hd
    rcases hw.indexed u d hd with hmem | ⟨k, q, f, t, n, v, hk, -⟩
    · exact hmem
    · rw [hidle k] at hk
      cases hk
  have hstart : Sweeping u w.slots.length v := by
    have hturn : Turn StoreMay StoreEnds (fun _ _ => true) w _ v := hw.kept.turn harrive
    have hkept := hw.kept.exec storeCall_conforms (fun q r f hf => hf.1) harrive
    cases hturn with
    | start _ _ hadm hshared hlog hslots hserve =>
      refine ⟨hkept, by omega, fun k hk => by rw [hserve, if_neg hk, hidle k], ?_⟩
      intro q f hserving
      rw [hserve, if_pos rfl] at hserving
      cases hserving
      rw [hshared]
      exact ⟨hy, rfl, .inl ⟨rfl, hlive, fun ds hds => by cases hds⟩⟩
  have hend : Sweeping u w.slots.length v' :=
    hreach.induct hstart fun _ _ _ _ hv hC hex => hv.exec hC hex
  have hturn : Turn StoreMay StoreEnds (fun _ _ => true) v' _ w' := hend.kept.turn hanswer
  cases hturn with
  | respond _ z _ hserved hends hshared hlog hslots hserve =>
    obtain ⟨hz, hfailed, hcase⟩ := hend.own _ _ hserved
    rw [hshared]
    rcases hcase with ⟨hnil, -⟩ | ⟨-, hnone⟩
    · rcases hends with ⟨-, hfail | hends⟩
      · rw [hfailed] at hfail
        cases hfail
      · rw [hz] at hends
        cases hr : z.result with
        | ok _ =>
          rw [hr] at hends
          obtain ⟨t, ds, hsent⟩ := hends
          rw [hnil] at hsent
          cases hsent
        | error err =>
          rw [hr] at hends
          exact hends.elim
    · exact hnone d

/-- **The set lists every stored token.**  In every interleaving of calls of the token store whose
commands do not take a device out of the set while a token is stored for it, the set is complete
whenever no call is in progress, and a bulk deletion that then runs on its own leaves no token. -/
theorem device_set_complete (now : T) (db : Database T) (drawn : List Uuid)
    (h : Reach tokenStore (fun w e => Reliable e ∧ RemovesIdle w e)
      (Pool.initial (Stores.initial now db drawn)) w) (hq : w.Quiescent) :
    (∀ u d, w.shared.redis.lookup w.shared.now (.refresh u d) ≠ none →
      d ∈ w.shared.redis.sets (.devices u)) ∧
    ∀ u y w', y.request = .deleteAllRefreshTokens u → Answered tokenStore AloneRun w y w' →
      ∀ d, w'.shared.redis.lookup w'.shared.now (.refresh u d) = none := by
  have hw : StoreInvariant w := by
    refine h.induct ⟨kept_initial now db drawn, fun i q f hi => ?_, fun u d hlive => ?_⟩
      fun _ _ _ _ hv hC hex => hv.exec hC.1 hC.2 hex
    · rw [serving_initial] at hi
      cases hi
    · exact absurd rfl hlive
  refine ⟨fun u d hlive => ?_, fun u y w' hy hrun d => Sweeping.answered hw hq hrun hy d⟩
  rcases hw.indexed u d hlive with hmem | ⟨k, q, f, t, n, v, hk, -⟩
  · exact hmem
  · rw [serving, hq k] at hk
    cases hk

end TokenStore

/-! ## Replays of concurrent calls -/

omit [Instant T] in
/-- `Reliable`, as a check. -/
def reliable : Event Q (Choice T) → Bool
  | .step _ .fail => false
  | _ => true

omit [Instant T] in
lemma reliable_of_check {e : Event Q (Choice T)} (h : reliable e = true) : Reliable e := by
  unfold Reliable
  split
  · cases h
  · trivial

/-- The event is a call that is carried out. -/
def carriedOut (_ : Pooled T α Q) : Event Q (Choice T) → Bool
  | .step _ .go => true
  | _ => false

omit [Instant T] in
lemma aloneRun_of_check (w : Pooled T Unit (StoreCall T)) (e : Event (StoreCall T) (Choice T))
    (h : carriedOut w e = true) : AloneRun w e := by
  unfold carriedOut at h
  split at h
  · exact ⟨trivial, fun q hq => by cases hq⟩
  · cases h

/-- The command leaves every device of the set `k` in it, or without a stored refresh token. -/
def leavesIdle (s : Stores T) (cmd : RedisCmd) : Key → Bool
  | .devices u => decide (∀ d ∈ s.redis.sets (.devices u),
    d ∈ (s.redis.update s.now cmd).sets (.devices u) ∨
      ((s.redis.update s.now cmd).lookup s.now (.refresh u d)).isNone = true)
  | _ => true

/-- `RemovesIdle`, as a check that knows of no pending calls. -/
def removesIdle (w : Pooled T α Q) : Event Q (Choice T) → Bool
  | .step i _ => match w.slot i with
    | some ⟨_, .call (.redis cmd) _, _⟩ => decide (∀ k ∈ cmd.keys, leavesIdle w.shared cmd k = true)
    | _ => true
  | _ => true

lemma removesIdle_of_check {w : Pooled T α Q} {e : Event Q (Choice T)}
    (h : removesIdle w e = true) : RemovesIdle w e := by
  rintro i q f cmd u d rfl ⟨k, tr, hslot, -⟩ hmem hgone
  have hkeys : ∀ k ∈ cmd.keys, leavesIdle w.shared cmd k = true := by
    simpa [removesIdle, hslot] using h
  have hkey : Key.devices u ∈ cmd.keys := by
    by_contra hno
    rw [(Redis.Store.update_of_notMem _ _ hno).2] at hgone
    exact hgone hmem
  have hidle := of_decide_eq_true (hkeys _ hkey) d hmem
  exact .inl (Option.isNone_iff_eq_none.mp (hidle.resolve_left hgone))

omit [Instant T] in
lemma quiescent_of_check {w : Pooled T α Q} (h : w.slots.all Option.isNone = true) :
    w.Quiescent := by
  intro i
  by_cases hi : i < w.slots.length
  · have hnone := List.all_eq_true.mp h _ (List.getElem_mem hi)
    rw [Option.isNone_iff_eq_none] at hnone
    rw [slot, List.getElem?_eq_getElem hi, hnone]
    rfl
  · rw [slot, List.getElem?_eq_none (Nat.le_of_not_lt hi)]
    rfl

namespace Plain

/-- The token store before its first call. -/
def emptyStore : Pooled ℚ Unit (StoreCall ℚ) :=
  Pool.initial (Stores.initial 0 Database.empty [])

/-- A call that stores the refresh token `r` for the phone. -/
def storeCall (r : Uuid) : StoreCall ℚ :=
  .storeRefreshToken aliceId "phone" r none none none none 1000

end Plain

/-- Tokens are stored for the phone, deleted alone and in bulk, and stored again before a bulk
deletion on its own. -/
theorem device_set_complete_replay : ∃ w w' : Pooled ℚ Unit (StoreCall ℚ),
    w.log.length = 5 ∧ w.shared.redis.lookup w.shared.now (.refresh Plain.aliceId "phone") ≠ none ∧
    "phone" ∈ w.shared.redis.sets (.devices Plain.aliceId) ∧
    w'.shared.redis.lookup w'.shared.now (.refresh Plain.aliceId "phone") = none := by
  obtain ⟨w, y, w', hreach, hy, hrun, hgood⟩ := answered_of_replay
    (S := (tokenStore : System (Op ℚ) (Op.Reply ℚ) Exc Unit (StoreCall ℚ) (Stores ℚ) (Choice ℚ)))
    (K := fun w e => Reliable e ∧ RemovesIdle w e)
    (k := fun w e => reliable e && removesIdle w e)
    (fun w e h => by
      rw [Bool.and_eq_true] at h
      exact ⟨reliable_of_check h.1, removesIdle_of_check h.2⟩)
    aloneRun_of_check
    [.start (Plain.storeCall Plain.r₁), .step 0 .go, .step 0 .go, .step 0 .go, .respond 0,
      .start (.deleteRefreshToken Plain.aliceId "phone"), .step 1 .go, .step 1 .go, .respond 1,
      .start (Plain.storeCall Plain.r₂), .step 2 .go, .step 2 .go, .step 2 .go, .respond 2,
      .start (.deleteAllRefreshTokens Plain.aliceId), .step 3 .go, .step 3 .go, .respond 3,
      .start (Plain.storeCall Plain.r₃), .step 4 .go, .step 4 .go, .step 4 .go, .respond 4]
    [.step 5 .go, .step 5 .go] (.deleteAllRefreshTokens Plain.aliceId) (w := Plain.emptyStore)
    (g := fun w _ => w.slots.all Option.isNone && (w.log.length == 5) &&
      (w.shared.redis.lookup w.shared.now (.refresh Plain.aliceId "phone")).isSome)
    (by decide +kernel)
  simp only [Bool.and_eq_true, beq_iff_eq] at hgood
  obtain ⟨⟨hquiet, hfive⟩, hstored⟩ := hgood
  have hlive : w.shared.redis.lookup w.shared.now (.refresh Plain.aliceId "phone") ≠ none := by
    intro hnone
    rw [hnone] at hstored
    cases hstored
  obtain ⟨hset, hsweep⟩ := device_set_complete _ _ _ hreach (quiescent_of_check hquiet)
  exact ⟨w, w', hfive, hlive, hset _ _ hlive, hsweep _ y w' hy hrun "phone"⟩

/-- The `SETEX` and the `SADD` of one call may fall between the `DEL` and the `SREM` of another:
the token is stored, and its device is not in the set. -/
theorem device_set_incomplete : ¬ ∀ w : Pooled ℚ Unit (StoreCall ℚ),
    Reach tokenStore (fun _ e => Reliable e) Plain.emptyStore w → w.Quiescent →
    ∀ u d, w.shared.redis.lookup w.shared.now (.refresh u d) ≠ none →
      d ∈ w.shared.redis.sets (.devices u) := by
  intro hclaim
  obtain ⟨w, hreach, hgood⟩ := reach_of_replay
    (S := (tokenStore : System (Op ℚ) (Op.Reply ℚ) Exc Unit (StoreCall ℚ) (Stores ℚ) (Choice ℚ)))
    (K := fun _ e => Reliable e) (k := fun _ e => reliable e) (w := Plain.emptyStore) (v := true)
    (g := fun w => w.slots.all Option.isNone &&
      (w.shared.redis.lookup w.shared.now (.refresh Plain.aliceId "phone")).isSome &&
      decide ("phone" ∉ w.shared.redis.sets (.devices Plain.aliceId)))
    (fun w e h => reliable_of_check h)
    [.start (Plain.storeCall Plain.r₁), .step 0 .go, .step 0 .go, .step 0 .go, .respond 0,
      .start (.deleteRefreshToken Plain.aliceId "phone"), .step 1 .go,
      .start (Plain.storeCall Plain.r₂), .step 2 .go, .step 2 .go, .step 2 .go, .respond 2,
      .step 1 .go, .respond 1]
    (by decide +kernel)
  simp only [Bool.and_eq_true, decide_eq_true_eq] at hgood
  obtain ⟨⟨hidle, hlive⟩, hout⟩ := hgood
  refine hout (hclaim w hreach (quiescent_of_check hidle) _ _ fun hnone => ?_)
  rw [hnone] at hlive
  cases hlive

end SampleAuthApi
