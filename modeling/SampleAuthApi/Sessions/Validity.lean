import SampleAuthApi.Sessions.Admission
import SampleAuthApi.Sessions.Gate
import SampleAuthApi.Sessions.Listing

/-!
# Valid sessions

In a serial run the entry that Redis holds for a device is the one that was written for the last
token pair of the device, as long as nothing has revoked it (`Tracked`).  A refresh therefore
succeeds exactly when its token is the last one that was handed out for its device, no revocation
has come since, and neither the token nor its entry has run out (`refresh_succeeds_iff`).
-/

namespace SampleAuthApi

open Transactions Pool
open Program (wp wp_bind wp_mono afterBind_ok afterBind_error)

variable {T K : Type} [Instant T]

/-! ## Accounts -/

section Accounts

omit [Instant T]

/-- The account `u` is there, and not deleted. -/
def Database.Live (db : Database T) (u : Uuid) : Prop :=
  ∃ row ∈ db.users, row.id = u ∧ row.deletedAt = none

/-- The statement does not delete the account `u`. -/
def Write.Retains (u : Uuid) : Write T → Prop
  | .updateUser v changes => v = u → changes.deletedAt = none
  | _ => True

lemma Database.live_of_select {db : Database T} {u : Uuid} {user : User T}
    (h : db.select (.userById u) = some user) : db.Live u := by
  obtain ⟨hmem, hid, hlive⟩ := Database.select_userById h
  exact ⟨user, hmem, hid, hlive⟩

lemma Database.Live.select {db : Database T} {u : Uuid} (h : db.Live u) :
    db.select (.userById u) ≠ none := by
  obtain ⟨row, hmem, rfl, hlive⟩ := h
  rw [Database.select_userById_of_mem hmem hlive]
  exact Option.some_ne_none _

lemma Write.Retains.live {u : Uuid} {wr : Write T} (h : wr.Retains u) {db : Database T}
    (hdb : db.Live u) : ((Database.apply wr db).getD db).Live u := by
  obtain ⟨row, hmem, hid, hlive⟩ := hdb
  cases wr with
  | insertUser user =>
    simp only [Database.apply, Database.insertUser]
    split
    · exact ⟨row, List.mem_append_left _ hmem, hid, hlive⟩
    · exact ⟨row, hmem, hid, hlive⟩
  | updateUser v changes =>
    refine ⟨_, List.mem_map.mpr ⟨row, hmem, rfl⟩, ?_⟩
    by_cases hv : row.id = v
    · have hkeep : changes.deletedAt = none := h (hv.symm.trans hid)
      rw [if_pos hv]
      exact ⟨hid, by simp [UserPatch.apply, hkeep, hlive]⟩
    · rw [if_neg hv]
      exact ⟨hid, hlive⟩
  | _ =>
    refine ⟨row, ?_, hid, hlive⟩
    rw [Database.users_apply (by simp [Write.table])]
    exact hmem

lemma live_applyAll {u : Uuid} {ws : List (Write T)} (h : ∀ wr ∈ ws, wr.Retains u)
    {db : Database T} (hdb : db.Live u) : (Ledger.applyAll Database.apply ws db).Live u := by
  induction ws generalizing db with
  | nil => exact hdb
  | cons wr ws ih =>
    rw [Ledger.applyAll_cons]
    exact ih (fun wr' hwr' => h wr' (List.mem_cons_of_mem _ hwr'))
      ((h wr List.mem_cons_self).live hdb)

lemma Dates.retains {wr : Write T} (h : Dates wr) (u : Uuid) : wr.Retains u := by
  rcases h with htable | ⟨v, t, rfl⟩
  · cases wr with
    | updateUser v changes => exact absurd rfl htable
    | _ => trivial
  · exact fun _ => rfl

lemma retains_deactivations {u : Uuid} {t : T} {rows : List (UserDevice T)} :
    ∀ wr ∈ rows.map (deactivation t), wr.Retains u := by
  intro wr hwr
  obtain ⟨row, -, rfl⟩ := List.mem_map.mp hwr
  trivial

end Accounts

section Serial

variable {x : Externals K} {w w' : World T K} {y : Reply T K} {u : Uuid} {d : String}

/-- A request keeps the account `u`, unless it ends all sessions of `u`. -/
lemma Served.retains (h : Served x w y w') (u : Uuid) :
    (∀ wr ∈ (progress y.performed).committed, wr.Retains u) ∨ ∀ d, revokes x u d y = true := by
  have hends := h.ends
  have hnothing : (progress y.performed).committed = [] →
      ∀ wr ∈ (progress y.performed).committed, wr.Retains u := by
    intro hnil wr hwr
    rw [hnil] at hwr
    exact absurd hwr List.not_mem_nil
  cases hres : y.result with
  | error e =>
    rw [hres] at hends
    exact .inl (hnothing hends.2.2.1)
  | ok resp =>
    rw [hres] at hends
    obtain ⟨-, -, hrec⟩ := hends
    cases hq : y.request with
    | signup email password name phone agreed =>
      rw [hq] at hrec
      obtain ⟨user, -, hcommitted, -⟩ := hrec
      left
      rw [hcommitted]
      exact List.forall_mem_singleton.mpr trivial
    | login email password client =>
      rw [hq] at hrec
      exact .inl fun wr hwr => (hrec.dates wr hwr).retains u
    | refresh tok client =>
      rw [hq] at hrec
      exact .inl (hnothing hrec)
    | getMe tok dev =>
      rw [hq] at hrec
      exact .inl (hnothing hrec)
    | listDevices tok dev =>
      rw [hq] at hrec
      obtain ⟨c, s, -, -, hcommitted, -⟩ := hrec
      exact .inl (hnothing hcommitted)
    | logout tok dev =>
      rw [hq] at hrec
      obtain ⟨c, -, -, s, t, -, hcommitted⟩ := hrec
      left
      rw [hcommitted]
      exact retains_deactivations
    | forceLogoutDevice tok dev target =>
      rw [hq] at hrec
      obtain ⟨c, -, -, -, s, t, -, hcommitted⟩ := hrec
      left
      rw [hcommitted]
      exact retains_deactivations
    | logoutAll tok dev =>
      rw [hq] at hrec
      obtain ⟨c, ds, -, ⟨s, t, -, hcommitted⟩, -⟩ := hrec
      left
      rw [hcommitted, List.nil_append]
      exact retains_deactivations
    | updateMe tok dev name phone =>
      rw [hq] at hrec
      obtain ⟨c, changes, -, ⟨t, -, hdeleted, -⟩, hcommitted⟩ := hrec
      left
      rw [hcommitted]
      exact List.forall_mem_singleton.mpr fun _ => hdeleted
    | changePassword tok dev current new =>
      rw [hq] at hrec
      obtain ⟨c, changes, -, ⟨user, salt, hash, t, -, -, rfl⟩, s, t', -, hcommitted⟩ := hrec
      left
      rw [hcommitted]
      exact List.forall_mem_cons.mpr ⟨fun _ => rfl, retains_deactivations⟩
    | deleteAccount tok dev password =>
      rw [hq] at hrec
      obtain ⟨c, changes, ⟨tok', dev', hb, hver⟩, -, s, t', -, hcommitted⟩ := hrec
      cases hb
      by_cases hu : c.sub = u
      · right
        intro d
        rw [revokes, hq, hres]
        simp [hver, hu]
      · left
        rw [hcommitted]
        exact List.forall_mem_cons.mpr ⟨fun heq => absurd heq hu, retains_deactivations⟩

/-- A token pair is only handed out for an account that is there. -/
lemma Served.live_of_issues (h : Served x w y w') (hissue : Issues x y u d) :
    w.shared.db.committed.Live u := by
  obtain ⟨resp, hres, hminted⟩ := hissue.minted h.ends
  have hends := h.ends
  rw [hres] at hends
  obtain ⟨-, hsucc, -⟩ := hends
  cases hq : y.request with
  | login email password client =>
    rw [hq] at hsucc
    obtain ⟨v, hlogin, hminted'⟩ := hsucc
    obtain ⟨rfl, -⟩ := (hminted'.issues_iff hres).mp hissue
    obtain ⟨s, user, hacc, hsel, -⟩ := hlogin.userById
    rw [h.trail.account s _ hacc] at hsel
    exact Database.live_of_select hsel
  | refresh tok client =>
    rw [hq] at hsucc
    obtain ⟨c, ⟨-, s, user, hacc, hsel⟩, -, hminted'⟩ := hsucc
    obtain ⟨rfl, -⟩ := (hminted'.issues_iff hres).mp hissue
    rw [h.trail.account s _ hacc] at hsel
    exact Database.live_of_select hsel
  | _ =>
    rw [hq] at hsucc
    obtain ⟨r, a, made, t, email, name, -, -, -, htokens, -⟩ := hminted
    rw [hsucc.1] at htokens
    cases htokens

/-! ## The last token pair of a device -/

/-- The answered request `z` has handed out the last refresh token for the device `d` of `u`, and
nothing has revoked it since. -/
def Current (x : Externals K) (w : World T K) (u : Uuid) (d : String) (z : Reply T K) : Prop :=
  ∃ l l', w.log = l ++ z :: l' ∧ Issues x z u d ∧
    ∀ z' ∈ l', ¬ Issues x z' u d ∧ revokes x u d z' = false

/-- The answered request has written the entry `data` for the device `d` of `u`, which lasts
until `t`. -/
def Writes (z : Reply T K) (u : Uuid) (d : String) (data : StoredRefreshToken) (t : T) : Prop :=
  ∃ (s : T) (n : ℤ), (s, .setex (.refresh u d) n (.refreshToken data)) ∈
    (progress z.performed).sent ∧ t = s + n

/-- The new refresh token was stored more than a second before its expiry. -/
def StoredInTime (x : Externals K) (z : Reply T K) : Prop :=
  ∀ made t, (progress z.performed).lifetime = some (made, t) →
    t + 1 < made + (x.settings.jwtRefreshTokenExpireSeconds : T)

omit [Instant T] in
lemma Current.mem {z : Reply T K} (h : Current x w u d z) : z ∈ w.log := by
  obtain ⟨l, l', hlog, -⟩ := h
  rw [hlog]
  exact List.mem_append_right _ List.mem_cons_self

omit [Instant T] in
lemma Current.issues {z : Reply T K} (h : Current x w u d z) : Issues x z u d := by
  obtain ⟨l, l', -, hissue, -⟩ := h
  exact hissue

omit [Instant T] in
/-- One more answer is the last pair itself, or leaves the last pair what it is. -/
lemma current_append {z : Reply T K} (hlog : w'.log = w.log ++ [y]) :
    Current x w' u d z ↔ (z = y ∧ Issues x y u d) ∨
      (Current x w u d z ∧ ¬ Issues x y u d ∧ revokes x u d y = false) := by
  constructor
  · rintro ⟨l, l', hl, hissue, hlast⟩
    rw [hlog] at hl
    rcases List.eq_nil_or_concat l' with rfl | ⟨l₁, y', rfl⟩
    · obtain ⟨-, hz⟩ := List.append_inj' hl rfl
      cases hz
      exact .inl ⟨rfl, hissue⟩
    · have hl' : w.log ++ [y] = (l ++ z :: l₁) ++ [y'] := by
        rw [hl]
        simp
      obtain ⟨hw, hy⟩ := List.append_inj' hl' rfl
      cases hy
      refine .inr ⟨⟨l, l₁, hw, hissue, fun z' hz' => ?_⟩, ?_⟩
      · exact hlast z' (by simp [hz'])
      · exact hlast y (by simp)
  · rintro (⟨rfl, hissue⟩ | ⟨⟨l, l', hl, hissue, hlast⟩, hy⟩)
    · exact ⟨w.log, [], hlog, hissue, fun z' hz' => absurd hz' List.not_mem_nil⟩
    · refine ⟨l, l' ++ [y], by rw [hlog, hl]; simp, hissue, fun z' hz' => ?_⟩
      rcases List.mem_append.mp hz' with hz' | hz'
      · exact hlast z' hz'
      · rw [List.mem_singleton.mp hz']
        exact hy

/-- A token pair is stored by one `SETEX`, if it is stored in time. -/
lemma Issues.writes {z : Reply T K} (h : Issues x z u d)
    (hends : Ends x z.request z.result (progress z.performed)) (htime : StoredInTime x z) :
    ∃ data t, Writes z u d data t ∧ (progress z.performed).drawn.head? = some data.tokenId ∧
      ∀ data' t', Writes z u d data' t' → data' = data ∧ t' = t := by
  obtain ⟨resp, -, r, a, made, t, email, name, hdrawn, -, -, -, -, made', t', hlife, hstored⟩ :=
    h.minted hends
  rcases hstored with ⟨s, s', data, hsent, hdata⟩ | ⟨-, hlt⟩
  · set n := Instant.truncInt (made' + (x.settings.jwtRefreshTokenExpireSeconds : T) - t') with hn
    refine ⟨data, s + n, ⟨s, n, ?_, rfl⟩, by rw [hdrawn, hdata]; rfl, ?_⟩
    · rw [hsent]
      exact List.mem_cons_of_mem _ List.mem_cons_self
    · rintro data' _ ⟨s₁, n₁, hmem, rfl⟩
      rw [hsent] at hmem
      simp only [List.mem_cons, List.not_mem_nil, or_false, Prod.mk.injEq, reduceCtorEq, and_false,
        false_or] at hmem
      obtain ⟨rfl, hcmd⟩ := hmem
      cases hcmd
      exact ⟨rfl, rfl⟩
  · exact absurd (htime made' t' hlife) (not_lt.mpr (by linarith))

/-- The entry of the device `d` of `u` is the one that was written for its last token pair, and its
account is there. -/
structure Tracked (x : Externals K) (w : World T K) (u : Uuid) (d : String) : Prop where
  linked : Linked w u d
  live : w.shared.redis.strings (.refresh u d) ≠ none → w.shared.db.committed.Live u
  /-- The last token pair is stored. -/
  stored : ∀ z, Current x w u d z → ∃ data t, Writes z u d data t ∧
    w.shared.redis.strings (.refresh u d) = some (.refreshToken data, t)
  /-- What is stored is the last token pair. -/
  current : w.shared.redis.strings (.refresh u d) ≠ none → ∃ z, Current x w u d z

/-- A request that is served alone, and stores its tokens in time, keeps the entry of a device. -/
theorem Tracked.touch (hw : Tracked x w u d) (hy : Served x w y w') (htime : StoredInTime x y)
    (h : Touch x w y w' u d) : Tracked x w' u d := by
  have hlive : revokes x u d y = false → w.shared.db.committed.Live u →
      w'.shared.db.committed.Live u := by
    intro hrevoke hdb
    rw [hy.trail.committed]
    refine live_applyAll ?_ hdb
    rcases hy.retains u with hretains | hall
    · exact hretains
    · rw [hall d] at hrevoke
      cases hrevoke
  have hnone : ∀ {z}, revokes x u d y = true → ¬ Issues x y u d → ¬ Current x w' u d z := by
    intro z hrevoke hissue hz
    rcases (current_append hy.log).mp hz with ⟨-, hissue'⟩ | ⟨-, -, hno⟩
    · exact hissue hissue'
    · rw [hrevoke] at hno
      cases hno
  refine ⟨hw.linked.touch h, ?_, ?_, ?_⟩
  · intro hstored
    cases h with
    | kept hissue hrevoke hstring hmember hactive =>
      rw [hstring] at hstored
      exact hlive hrevoke (hw.live hstored)
    | opened hissue hrevoke hredis hactive => exact hlive hrevoke (hy.live_of_issues hissue)
    | closed hissue hrevoke hstring hmember hactive => exact absurd hstring hstored
    | swept hissue hrevoke hstring hmember hactive =>
      rw [hstring] at hstored
      split at hstored
      · exact absurd rfl hstored
      · rename_i hout
        exact absurd (hw.linked hstored).1 hout
  · intro z hz
    cases h with
    | kept hissue hrevoke hstring hmember hactive =>
      rcases (current_append hy.log).mp hz with ⟨-, hissue'⟩ | ⟨hz, -⟩
      · exact absurd hissue' hissue
      · rw [hstring]
        exact hw.stored z hz
    | opened hissue hrevoke hredis hactive =>
      rcases (current_append hy.log).mp hz with ⟨rfl, -⟩ | ⟨-, hno, -⟩
      · rcases hredis with ⟨t, n, data, hsent, -, hstring, -⟩ | ⟨hsent, -⟩
        · exact ⟨data, t + n, ⟨t, n, hsent, rfl⟩, hstring⟩
        · obtain ⟨data, t, ⟨s, n, hmem, -⟩, -⟩ := hissue.writes hy.ends htime
          rw [hsent] at hmem
          exact absurd hmem List.not_mem_nil
      · exact absurd hissue hno
    | closed hissue hrevoke hstring hmember hactive => exact absurd hz (hnone hrevoke hissue)
    | swept hissue hrevoke hstring hmember hactive => exact absurd hz (hnone hrevoke hissue)
  · intro hstored
    cases h with
    | kept hissue hrevoke hstring hmember hactive =>
      rw [hstring] at hstored
      obtain ⟨z, hz⟩ := hw.current hstored
      exact ⟨z, (current_append hy.log).mpr (.inr ⟨hz, hissue, hrevoke⟩)⟩
    | opened hissue hrevoke hredis hactive =>
      exact ⟨y, (current_append hy.log).mpr (.inl ⟨rfl, hissue⟩)⟩
    | closed hissue hrevoke hstring hmember hactive => exact absurd hstring hstored
    | swept hissue hrevoke hstring hmember hactive =>
      rw [hstring] at hstored
      split at hstored
      · exact absurd rfl hstored
      · rename_i hout
        exact absurd (hw.linked hstored).1 hout

end Serial

/-! ## When a token is decoded -/

section Decoding

variable {x : Externals K} {q : Request K} {tok : K} {client : ClientInfo} {f : Progress T}

/-- The claims `c` are accepted at the instant `t`, from the device `h`. -/
def Accepts (x : Externals K) (c : Claims) (h : String) (t : T) : Prop :=
  validateClaims c t x.settings.jwtIssuer none = .ok c ∧ c.type = .refresh ∧ c.deviceId = h

/-- The first clock reading was `t`, and a session has been looked up. -/
def Looked (t : T) (f : Progress T) : Prop :=
  f.readings.getLast? = some t ∧ f.found.isSome = true

/-- A refresh looks its session up exactly when it accepts its token at its first clock reading. -/
def Decoded (x : Externals K) (q : Request K) (f : Progress T) : Prop :=
  ∀ tok client c, q = .refresh tok client → x.jwt.verify tok = some c → f.failed = true ∨
    ∃ t, f.readings.getLast? = some t ∧
      (f.found.isSome = true ↔ Accepts x c client.xDeviceId t)

omit [Instant T] in
/-- The first clock reading stays the first. -/
lemma Looked.note {t : T} (h : Looked t f) (s : Stores T) (o : Op T) (r : Except Exc o.Reply) :
    Looked t (f.note s o r) := by
  obtain ⟨hfirst, hfound⟩ := h
  have hread : ∀ t', (t' :: f.readings).getLast? = some t := by
    intro t'
    rw [List.getLast?_cons, hfirst]
    rfl
  unfold Progress.note
  split
  all_goals first | exact ⟨hfirst, hfound⟩ | exact ⟨hread _, hfound⟩ | exact ⟨hfirst, rfl⟩

/-- No call undoes a lookup. -/
lemma wp_looked {α : Type} {p : Proc T α} {t : T} (h : Looked t f) :
    wp (bystander q) p (fun _ => Looked t) f := by
  induction p generalizing f with
  | ret a => exact h
  | raise e => exact h
  | call o k ih => exact ⟨trivial, fun s r _ => ih r (h.note s o r)⟩

/-- A refresh of the token with the claims `c` looks its session up exactly when it accepts it. -/
def Looks (x : Externals K) (c : Claims) (h : String) (f : Progress T) : Prop :=
  f.failed = true ∨ ∃ t, f.readings.getLast? = some t ∧ (f.found.isSome = true ↔ Accepts x c h t)

lemma Looked.looks {c : Claims} {h : String} {t : T} (hl : Looked t f) (hc : Accepts x c h t) :
    Looks x c h f := .inr ⟨t, hl.1, iff_of_true hl.2 hc⟩

/-- `get_db` around a program that has looked its session up, or has failed before. -/
lemma wp_getDb_looks {α : Type} {p : Proc T α} {c : Claims} {h : String}
    (hp : wp (bystander q) p (fun r f' => (∃ t, Looked t f' ∧ Accepts x c h t) ∨
      (Looks x c h f' ∧ ∃ e, r = .error e)) f) :
    wp (bystander q) (getDb p) (fun _ => Looks x c h) f := by
  unfold getDb
  rw [Program.wp_tryCatch, wp_bind]
  refine wp_mono (observer_monotone _ q) (fun r f' hr => ?_) hp
  have hlooked : ∀ {β : Type} (k : Proc T β) (f' : Progress T) t, Looked t f' → Accepts x c h t →
      wp (bystander q) k (fun _ => Looks x c h) f' := by
    intro β k f' t hl hc
    exact wp_mono (observer_monotone _ q) (fun _ f'' hl' => Looked.looks hl' hc) (wp_looked hl)
  rcases hr with ⟨t, hl, hc⟩ | ⟨hlooks, e, rfl⟩
  · cases r with
    | error e => exact hlooked _ f' t hl hc
    | ok a =>
      refine wp_mono (observer_monotone _ q) (fun r' f'' hl' => ?_) (wp_looked hl)
      cases r' with
      | ok a' => exact Looked.looks hl' hc
      | error e => exact hlooked _ f'' t hl' hc
  · rw [afterBind_error, Program.afterTry_error, wp_bind]
    exact wp_rollback trivial hlooks

/-- `refresh` looks the session up exactly when it accepts the token. -/
lemma wp_refresh_looks {c : Claims} (hver : x.jwt.verify tok = some c) {h : String}
    {name os app ip : Option String} :
    wp (bystander q) (AuthService.refresh x tok h name os app ip)
      (fun r f' => (∃ t, Looked t f' ∧ Accepts x c h t) ∨ (Looks x c h f' ∧ ∃ e, r = .error e))
      ({} : Progress T) := by
  have hrefused : ∀ (e : Exc) (t : T), ¬ Accepts x c h t →
      Looks x c h (Progress.read {} t) ∧ ∃ e', (.error e : Except Exc (TokenResponse K)) =
        .error e' := by
    intro e t hno
    refine ⟨.inr ⟨t, rfl, iff_of_false ?_ hno⟩, e, rfl⟩
    exact Bool.false_ne_true
  have hdecode : wp (onlooker x q) (JwtService.decodeRefreshToken x tok) (fun r f' =>
      (∃ (e : Exc) (t : T), r = .error e ∧ f' = Progress.read {} t ∧ ¬ Accepts x c h t) ∨
      ∃ t : T, r = .ok ⟨c.sub, c.deviceId, c.jti, c.exp, c.iat⟩ ∧ f' = Progress.read {} t ∧
        validateClaims c t x.settings.jwtIssuer none = .ok c ∧ c.type = .refresh)
      ({} : Progress T) := by
    refine wp_decodeRefreshToken ?_ ?_ ?_
    · intro c' t hver' htype hvalid
      rw [hver] at hver'
      cases hver'
      exact .inr ⟨t, rfl, rfl, hvalid, htype⟩
    · intro e hnone
      rw [hver] at hnone
      cases hnone
    · intro e c' t hver' hno
      rw [hver] at hver'
      cases hver'
      refine .inl ⟨e, t, rfl, rfl, ?_⟩
      rintro ⟨hvalid, htype, -⟩
      rcases hno with hno | hno
      · exact hno hvalid
      · exact hno htype
  unfold AuthService.refresh
  rw [wp_bind]
  refine wp_mono (observer_monotone _ q) (fun r f' hr => ?_) (wp_watch_any _ _ _ hdecode)
  rcases hr with ⟨e, t, rfl, rfl, hno⟩ | ⟨t, rfl, rfl, hvalid, htype⟩
  · exact .inr (hrefused e t hno)
  · rw [afterBind_ok]
    by_cases hdev : c.deviceId = h
    · simp only [hdev, ne_eq, not_true_eq_false, if_false]
      unfold TokenStore.getRefreshToken
      rw [wp_bind, wp_bind]
      refine wp_redis trivial rfl (fun s => ?_) ?_
      · rw [afterBind_ok, ← wp_bind]
        refine wp_mono (observer_monotone _ q) (fun _ f'' hl => ?_) (wp_looked ⟨rfl, rfl⟩)
        exact .inl ⟨t, hl, hvalid, htype, hdev⟩
      · exact .inr ⟨.inl rfl, _, rfl⟩
    · simp only [ne_eq, hdev, not_false_eq_true, if_true]
      exact .inr (hrefused _ t fun hc => hdev hc.2.2)

/-- Every endpoint keeps its contract, and a refresh looks its session up exactly when it accepts
its token. -/
lemma endpoint_decoded (x : Externals K) (q : Request K) :
    wp (onlooker x q) (endpoint x q) (fun r f => Ends x q r f ∧ Decoded x q f)
      ({} : Progress T) := by
  have hends := endpoint_conforms (T := T) x q
  cases q with
  | refresh tok client =>
    cases hver : x.jwt.verify tok with
    | none =>
      refine wp_mono (observer_monotone _ _) (fun r f hr => ⟨hr, ?_⟩) hends
      intro tok' client' c hq hver'
      cases hq
      rw [hver] at hver'
      cases hver'
    | some c =>
      have hlooks : wp (bystander (.refresh tok client)) (endpoint x (.refresh tok client))
          (fun _ => Looks x c client.xDeviceId) ({} : Progress T) := by
        refine wp_getDb_looks ?_
        rw [wp_bind]
        refine wp_mono (observer_monotone _ _) (fun r f hr => ?_) (wp_refresh_looks hver)
        cases r with
        | error e => exact hr.imp id fun hr => ⟨hr.1, e, rfl⟩
        | ok a => exact .inl (hr.resolve_right fun hr => by obtain ⟨e, he⟩ := hr.2; cases he)
      refine wp_mono (observer_monotone _ _) (fun r f hr => ⟨hr.1, ?_⟩)
        (wp_watch_and _ _ _ hends hlooks)
      intro tok' client' c' hq hver'
      cases hq
      rw [hver] at hver'
      cases hver'
      exact hr.2
  | _ =>
    refine wp_mono (observer_monotone _ _) (fun r f hr => ⟨hr, ?_⟩) hends
    intro tok' client' c hq
    cases hq

end Decoding

section Runs

variable [DecidableEq K] {x : Externals K} {w w' : World T K} {y : Reply T K} {u : Uuid}
  {d : String}

/-- In a serial run that stores its tokens in time, the entries are tracked between requests. -/
theorem tracked_of_orderly {now : T} {db : Database T} {drawn : List Uuid}
    (h : Reach (server x) Orderly (Pool.initial (Stores.initial now db drawn)) w)
    (hq : w.Quiescent) (htime : ∀ z ∈ w.log, StoredInTime x z) (u : Uuid) (d : String) :
    Tracked x w u d := by
  have hall := orderly_induct
    (I := fun v => (∀ z ∈ v.log, StoredInTime x z) → Tracked x v u d) h hq ?_ ?_ ?_
  · exact hall htime
  · intro _
    refine ⟨fun hstored => absurd rfl hstored, fun hstored => absurd rfl hstored, ?_,
      fun hstored => absurd rfl hstored⟩
    rintro z ⟨l, l', hlog, -⟩
    have hnil : ([] : List (Reply T K)) = l ++ z :: l' := hlog
    simp at hnil
  · intro v v' hv hredis hdb hlog hnow htimes
    rw [hlog] at htimes
    obtain ⟨hlinked, hlive, hstored, hcurrent⟩ := hv htimes
    have hsame : ∀ z, Current x v' u d z ↔ Current x v u d z := by
      intro z
      rw [Current, Current, hlog]
    refine ⟨?_, ?_, ?_, ?_⟩
    · intro hne
      rw [hredis] at hne ⊢
      rw [hdb]
      exact hlinked hne
    · rw [hredis, hdb]
      exact hlive
    · intro z hz
      rw [hredis]
      exact hstored z ((hsame z).mp hz)
    · rw [hredis]
      intro hne
      obtain ⟨z, hz⟩ := hcurrent hne
      exact ⟨z, (hsame z).mpr hz⟩
  · intro v y v' hinv hv hserved hfailed htimes
    rw [hserved.log] at htimes
    refine (hv fun z hz => htimes z (List.mem_append_left _ hz)).touch hserved ?_
      (hserved.touch hfailed u d)
    exact htimes y (List.mem_append_right _ (List.mem_singleton_self y))

omit [DecidableEq K] in
/-- A refresh that has found its own token stored, and whose account is there, succeeds. -/
lemma Served.succeeds_of_matched (h : Served x w y w') (hf : (progress y.performed).failed = false)
    {tok : K} {client : ClientInfo} {c : Claims} (hq : y.request = .refresh tok client)
    (hver : x.jwt.verify tok = some c) {s : Stores T}
    (hl : LookedUp (progress y.performed) s c.sub c.deviceId)
    (hs : s.session c.sub c.deviceId = some c.jti) (hlive : w.shared.db.committed.Live c.sub) :
    ∃ resp, y.result = .ok resp := by
  have hends := h.ends
  cases hres : y.result with
  | ok resp => exact ⟨resp, rfl⟩
  | error e =>
    rw [hres, hq] at hends
    obtain ⟨-, hrefused, -⟩ := hends
    rcases hrefused.resolve_left (by rw [hf]; simp) with
      ⟨c', ⟨⟨tok', client', hq', hver', -⟩, s', j, hl', hs', hne⟩, -⟩ | ⟨-, hreason⟩
    · cases hq'
      rw [hver, Option.some.injEq] at hver'
      subst hver'
      rw [LookedUp, hl, Option.some.injEq, Prod.mk.injEq] at hl'
      obtain ⟨rfl, -⟩ := hl'
      rw [hs, Option.some.injEq] at hs'
      exact absurd hs'.symm hne
    · rcases hreason c hver with ⟨hnone, -⟩ | ⟨s', hl', hs'⟩ | ⟨-, s', hacc, hnone⟩
      · rw [LookedUp, hnone] at hl
        cases hl
      · rw [LookedUp, hl, Option.some.injEq, Prod.mk.injEq] at hl'
        obtain ⟨rfl, -⟩ := hl'
        rw [hs] at hs'
        cases hs'
      · rw [h.trail.account s' _ hacc] at hnone
        exact absurd hnone hlive.select

omit [DecidableEq K] in
/-- Claims that are accepted have not expired. -/
lemma lt_exp_of_validateClaims {c : Claims} {t : T} {iss : String} {aud : Option String}
    (h : validateClaims c t iss aud = .ok c) : t < (c.exp : T) := by
  by_contra hle
  unfold validateClaims at h
  split at h
  · cases h
  · rw [if_pos (not_lt.mp hle)] at h
    cases h

omit [DecidableEq K] in
/-- The claims of a refresh token are accepted from the instant of their making until they
expire. -/
lemma validateClaims_refreshClaims {s : Settings} {made t : T} {r : Uuid} (hpast : made ≤ t)
    (hexp : t < ((JwtService.refreshClaims s u d made r).exp : T)) :
    validateClaims (JwtService.refreshClaims s u d made r) t s.jwtIssuer none =
      .ok (JwtService.refreshClaims s u d made r) := by
  have hiat : (((JwtService.refreshClaims s u d made r).iat : ℤ) : T) ≤ t :=
    (Int.floor_le made).trans hpast
  unfold validateClaims
  rw [if_neg (not_lt.mpr hiat), if_neg (not_le.mpr hexp),
    if_neg (by simp [JwtService.refreshClaims])]

/-- The request decodes its token at the instant `t`, and looks its session up at `t'`. -/
structure DecodesAt (y : Reply T K) (t t' : T) : Prop where
  decode : ∀ s, (progress y.performed).readings.getLast? = some s → s = t
  lookup : ∀ s v, (progress y.performed).found = some (s, v) → s.now = t'

/-- The token `tok` is the last refresh token that was handed out for its device, which is `h`,
nothing has revoked it since, and neither the token nor the entry that was written for it has run
out at the instants `t` and `t'`. -/
def Redeemable (x : Externals K) (w : World T K) (tok : K) (h : String) (t t' : T) : Prop :=
  ∃ c z, x.jwt.verify tok = some c ∧ c.type = .refresh ∧ c.deviceId = h ∧ tok ∈ handedOut z ∧
    Current x w c.sub c.deviceId z ∧ t < (c.exp : T) ∧
    ∃ data e, Writes z c.sub c.deviceId data e ∧ t' < e

omit [DecidableEq K] in
/-- The claims of the refresh token of the pair that was handed out for a device. -/
lemma Issues.claims {z : Reply T K} (h : Issues x z u d)
    (hends : Ends x z.request z.result (progress z.performed)) {tok : K} {c : Claims}
    (htok : tok ∈ handedOut z) (hver : x.jwt.verify tok = some c) (htype : c.type = .refresh) :
    ∃ made ∈ (progress z.performed).readings, (progress z.performed).drawn.head? = some c.jti ∧
      c = JwtService.refreshClaims x.settings u d made c.jti := by
  obtain ⟨resp, hres, r, a, made, t, email, name, hdrawn, -, hmade, htokens, -⟩ := h.minted hends
  rw [handedOut, hres] at htok
  change tok ∈ resp.tokens at htok
  rw [htokens] at htok
  simp only [List.mem_cons, List.not_mem_nil, or_false] at htok
  rcases htok with rfl | rfl
  · rw [x.jwt.verify_sign] at hver
    cases hver
    cases htype
  · rw [x.jwt.verify_sign] at hver
    cases hver
    exact ⟨made, hmade, by rw [hdrawn]; rfl, rfl⟩

/-- A refresh in a serial run that stores its tokens in time succeeds exactly when its token is the
last one that was handed out for the device that it names, nothing has revoked it since, and neither
the token nor its entry has run out when it is decoded and looked up. -/
theorem refresh_succeeds_iff {now : T} {db : Database T} {drawn : List Uuid}
    (h : Reach (server x) Orderly (Pool.initial (Stores.initial now db drawn)) w)
    (htime : ∀ z ∈ w.log, StoredInTime x z) (hy : ServedAlone (server x) Smooth w y w') {tok : K}
    {client : ClientInfo} (hq : y.request = .refresh tok client) {t t' : T}
    (hat : DecodesAt y t t') :
    (∃ resp, y.result = .ok resp) ↔ Redeemable x w tok client.xDeviceId t t' := by
  have hlater : Reach (server x) Orderly (Pool.initial (Stores.initial now db drawn)) w' :=
    h.trans (reach_of_served hy)
  have hinv : Invariant x w := (invariant_initial x now db drawn).reach h
  have hinv' : Invariant x w' := (invariant_initial x now db drawn).reach hlater
  have hserved := hinv.sound.served (fun _ _ he => he.2) hy
  have hfailed := hinv.sound.served_reliable (fun _ _ he => he.1) hy
  have hmem : y ∈ w'.log := by
    rw [hserved.log]
    exact List.mem_append_right _ (List.mem_singleton_self y)
  have hdecoded := ((kept_and_of_reach (endpoint_decoded x) hlater).conforms.log y hmem).2
  have hfirst : ∀ c, x.jwt.verify tok = some c → t ∈ (progress y.performed).readings ∧
      ((progress y.performed).found.isSome = true ↔ Accepts x c client.xDeviceId t) := by
    intro c hver
    rcases hdecoded tok client c hq hver with hfail | ⟨t₀, hreading, hiff⟩
    · change (progress y.performed).failed = true at hfail
      rw [hfailed] at hfail
      cases hfail
    · cases hat.decode t₀ hreading
      exact ⟨List.mem_of_getLast? hreading, hiff⟩
  constructor
  · rintro ⟨resp, hres⟩
    have hends := hserved.ends
    rw [hq, hres] at hends
    obtain ⟨-, ⟨c, ⟨⟨⟨tok', client', hq', hver, htype, hdev⟩, s, hl, hsession⟩, -⟩, -, -⟩, -⟩ :=
      hends
    cases hq'
    have haccepts := (hfirst c hver).2.mp (by rw [hl]; rfl)
    obtain ⟨data, hlook, hdata⟩ := session_eq_some.mp hsession
    obtain ⟨e, hstring, hlt⟩ := Redis.Store.lookup_eq_some.mp hlook
    rw [(hserved.trail.found s _ hl).1] at hstring
    rw [hat.lookup s _ hl] at hlt
    have htracked := tracked_of_orderly h hy.1 htime c.sub c.deviceId
    obtain ⟨z, hz⟩ := htracked.current (by rw [hstring]; exact Option.some_ne_none _)
    obtain ⟨data', e', hwrites, hstring'⟩ := htracked.stored z hz
    rw [hstring] at hstring'
    cases hstring'
    refine ⟨c, z, hver, htype, hdev, ?_, hz, lt_exp_of_validateClaims haccepts.1, data, e, hwrites,
      hlt⟩
    -- the pair with the stored token is the one that the token was handed out with
    have htok : tok ∈ issued w.log := issued_of_served hy (by rw [hq]; rfl) hver
    obtain ⟨z', hz', resp', made, a, hres', hlast, -, hdrawn', -⟩ :=
      hinv.refresh_claims htok hver htype
    obtain ⟨data', e', -, hdrawn, hunique⟩ :=
      hz.issues.writes (hinv.sound.ends hz.mem) (htime z hz.mem)
    obtain ⟨rfl, rfl⟩ := hunique data e hwrites
    rw [hdata] at hdrawn
    have hsame : z' = z := hinv.same_exchange hz' hz.mem
      (by rw [hdrawn']; exact List.mem_cons_self) (List.mem_of_mem_head? hdrawn)
    subst hsame
    rw [handedOut, hres']
    exact List.mem_of_getLast? hlast
  · rintro ⟨c, z, hver, htype, hdev, htok, hz, hexp, data, e, hwrites, hlt⟩
    have htracked := tracked_of_orderly h hy.1 htime c.sub c.deviceId
    obtain ⟨made, hmade, hhead, hc⟩ := hz.issues.claims (hinv.sound.ends hz.mem) htok hver htype
    obtain ⟨data', e', hstored, hdrawn, hunique⟩ :=
      hz.issues.writes (hinv.sound.ends hz.mem) (htime z hz.mem)
    obtain ⟨rfl, rfl⟩ := hunique data e hwrites
    have haccepts : Accepts x c client.xDeviceId t := by
      refine ⟨?_, htype, hdev⟩
      have hpast : made ≤ t := (hinv.dated.logged z hz.mem made hmade).trans
        (hserved.trail.readings t (hfirst c hver).1).1
      rw [hc] at hexp ⊢
      exact validateClaims_refreshClaims hpast hexp
    obtain ⟨⟨s, v⟩, hfound⟩ := Option.isSome_iff_exists.mp ((hfirst c hver).2.mpr haccepts)
    obtain ⟨c', ⟨tok', client', hq', hver', -⟩, hv⟩ := hinv'.found.logged y hmem s v hfound
    rw [hq] at hq'
    cases hq'
    rw [hver, Option.some.injEq] at hver'
    subst hver'
    rw [hv] at hfound
    obtain ⟨data₁, e₁, hwrites₁, hstring⟩ := htracked.stored z hz
    obtain ⟨rfl, rfl⟩ := hunique data₁ e₁ hwrites₁
    rw [hhead, Option.some.injEq] at hdrawn
    have hsession : s.session c.sub c.deviceId = some c.jti := by
      refine session_eq_some.mpr ⟨_, Redis.Store.lookup_eq_some.mpr ⟨e₁, ?_, ?_⟩, hdrawn.symm⟩
      · rw [(hserved.trail.found s _ hfound).1]
        exact hstring
      · rw [hat.lookup s _ hfound]
        exact hlt
    exact hserved.succeeds_of_matched hfailed hq hver hfound hsession
      (htracked.live (by rw [hstring]; exact Option.some_ne_none _))

end Runs

/-! ## A valid session -/

/-- `StoredInTime`, as a check. -/
def storedInTime (z : Reply ℚ Claims) : Bool :=
  (progress z.performed).lifetime.all fun p => decide (p.2 + 1 < p.1 + 2592000)

lemma storedInTime_of_check {z : Reply ℚ Claims} (h : storedInTime z = true) :
    StoredInTime Plain.externals z := by
  intro made t hlife
  rw [storedInTime, hlife] at h
  exact of_decide_eq_true h

/-- The request has succeeded, with its decoding and its lookup at the instant `t`. -/
def succeedsAt (t : ℚ) (y : Reply ℚ Claims) : Bool :=
  y.result.isOk && decide ((progress y.performed).readings.getLast? = some t) &&
    (progress y.performed).found.all fun p => decide (p.1.now = t)

lemma succeedsAt_iff {t : ℚ} {y : Reply ℚ Claims} (h : succeedsAt t y = true) :
    (∃ resp, y.result = .ok resp) ∧ DecodesAt y t t := by
  simp only [succeedsAt, Bool.and_eq_true, decide_eq_true_eq] at h
  obtain ⟨⟨hok, hread⟩, hfound⟩ := h
  refine ⟨?_, ?_, ?_⟩
  · cases hres : y.result with
    | ok resp => exact ⟨resp, rfl⟩
    | error e =>
      rw [hres] at hok
      cases hok
  · intro s hs
    rw [hread] at hs
    exact (Option.some.inj hs).symm
  · intro s v hs
    rw [hs] at hfound
    exact of_decide_eq_true hfound

/-- Alice refreshes the session of her phone. -/
theorem refresh_succeeds_replay : ∃ w : World ℚ Claims,
    Redeemable Plain.externals w (Plain.refresh 0 Plain.r₁) "phone" 0 0 := by
  obtain ⟨w, y, w', h, hq, hy, hgood⟩ := served_of_replay (S := server Plain.externals)
    orderly_of_check smooth_of_check 1
    (loginScript 0 "alice@example.com" "old" Plain.phone Plain.a₁ Plain.r₁)
    (goes 1 2 ++ rotateCalls 1 Plain.a₂ Plain.r₂) (.refresh (Plain.refresh 0 Plain.r₁) Plain.phone)
    (w := Plain.start)
    (g := fun w w' => w.log.all storedInTime && w'.log.getLast?.any (succeedsAt 0))
    (by decide +kernel)
  rw [hy.2.getLast?, Bool.and_eq_true, List.all_eq_true] at hgood
  obtain ⟨hsuccess, hat⟩ := succeedsAt_iff hgood.2
  exact ⟨w, (refresh_succeeds_iff h (fun z hz => storedInTime_of_check (hgood.1 z hz)) hy hq
    hat).mp hsuccess⟩

end SampleAuthApi
