import SampleAuthApi.Sessions.Access

/-!
# Authentication provenance

`authentication_provenance`: whoever gets past `get_current_user` presents an access token that was
handed out by a login with the password of the user, or by the last of a chain of refreshes that
starts at such a login, all of the same user and with the `X-Device-Id` that is now presented.
-/

namespace SampleAuthApi

open Pool
open Program (Returns)

variable {T K : Type} [Instant T] {x : Externals K} {u : Uuid} {d : String}

/-! ## Descent from a login -/

/-- The answered request is a login of the user `u` on device `d`: when it queried for the user, the
row with its email was one of `u`, neither deleted nor suspended nor withdrawn, and the password
verified against the hash of that row. -/
def LoginOf (x : Externals K) (y : Reply T K) (u : Uuid) (d : String) : Prop :=
  ∃ email password client resp z user, y.request = .login email password client ∧
    client.xDeviceId = d ∧ y.result = .ok resp ∧ z ∈ y.performed ∧ (∃ q, z.op = .select q) ∧
    z.before.db.committed.select (.userByEmail email) = some user ∧ user.id = u ∧
    user.deletedAt = none ∧ user.status ≠ .inactive ∧ user.status ≠ .withdrawn ∧
    x.pwdContext.verify password user.hashedPassword = .ok true

/-- The answered requests of `(u, d)` that descend from a login: the logins, and the refreshes of a
token that was handed out by one that descends from a login. -/
inductive Descends (x : Externals K) (log : List (Reply T K)) (u : Uuid) (d : String) :
    Reply T K → Prop
  /-- A login. -/
  | login {y : Reply T K} (hy : y ∈ log) (h : LoginOf x y u d) : Descends x log u d y
  /-- A refresh. -/
  | refresh {y z : Reply T K} {tok : K} {client : ClientInfo} {resp : Response T K} {c : Claims}
    (h : Descends x log u d y) (htok : tok ∈ handedOut y) (hz : z ∈ log)
    (hq : z.request = .refresh tok client) (hclient : client.xDeviceId = d)
    (hres : z.result = .ok resp) (hver : x.jwt.verify tok = some c) (htype : c.type = .refresh)
    (hu : c.sub = u) (hd : c.deviceId = d) : Descends x log u d z

omit [Instant T] in
/-- Only a query changes the row that a request has loaded. -/
lemma account_note {f : Progress T} {s s' : Stores T} {o : Op T} {r : Except Exc o.Reply}
    {row : Option (User T)} (h : (f.note s' o r).account = some (s, row)) :
    f.account = some (s, row) ∨ (s' = s ∧ ∃ q, o = .select q) := by
  have hload : ∀ row', (f.load s' row').account = some (s, row) →
      f.account = some (s, row) ∨ s' = s := by
    intro row' hl
    cases ha : f.account with
    | some a => exact .inl (by simpa [Progress.load, ha] using hl)
    | none =>
      simp only [Progress.load, ha, Option.none_or, Option.some.injEq, Prod.mk.injEq] at hl
      exact .inr hl.1
  unfold Progress.note at h
  split at h
  case h_4 => exact (hload _ h).imp id fun hs => ⟨hs, _, rfl⟩
  case h_5 => exact (hload _ h).imp id fun hs => ⟨hs, _, rfl⟩
  all_goals exact .inl h

omit [Instant T] in
/-- The state in which a request first queried for a user is that of one of its calls. -/
lemma account_recorded {tr : List (Call T)} {s : Stores T} {row : Option (User T)}
    (h : (progress tr).account = some (s, row)) :
    ∃ z ∈ tr, z.before = s ∧ ∃ q, z.op = .select q := by
  induction tr with
  | nil => cases h
  | cons z tr ih =>
    rw [progress_cons] at h
    rcases account_note h with hold | hnew
    · obtain ⟨z', hz', hs⟩ := ih hold
      exact ⟨z', List.mem_cons_of_mem _ hz', hs⟩
    · exact ⟨z, List.mem_cons_self, hnew⟩

variable {w : World T K} {tok : K} {c : Claims} {y : Reply T K}

omit [Instant T] in
/-- A successful login is one of the user of its account. -/
lemma LoggedIn.loginOf {resp : Response T K} (h : LoggedIn x y.request (progress y.performed) u d)
    (hres : y.result = .ok resp) : LoginOf x y u d := by
  obtain ⟨email, password, client, s, user, hq, hd, hacc, hid, hrow, hver, hstatus⟩ := h
  obtain ⟨z, hz, rfl, hop⟩ := account_recorded hacc
  have hdeleted : user.deletedAt = none := (Database.select_userByEmail hrow).2.2
  exact ⟨email, password, client, resp, z, user, hq, hd, hres, hz, hop, hrow, hid, hdeleted,
    by rw [hstatus]; decide, by rw [hstatus]; decide, hver⟩

/-- What an answered request has handed out was made for the user and device that it opened a
session for. -/
lemma Invariant.opens_of_handedOut (hw : Invariant x w) (hy : y ∈ w.log) (htok : tok ∈ handedOut y)
    (hver : x.jwt.verify tok = some c) :
    (∃ resp, y.result = .ok resp) ∧ Opens x y.request (progress y.performed) c.sub c.deviceId ∧
      (c.type = .access → (handedOut y).head? = some tok) := by
  have hends := hw.sound.ends hy
  unfold handedOut at htok ⊢
  split at htok
  · rename_i resp hres
    rw [hres] at hends
    obtain ⟨u, d, hopen, r, a, made, t, email, name, -, -, -, htoks, -⟩ :=
      Succeeded.minted hends.2.1 htok
    refine ⟨⟨resp, hres⟩, ?_⟩
    rw [htoks] at htok ⊢
    simp only [List.mem_cons, List.not_mem_nil, or_false] at htok
    rcases htok with rfl | rfl
    · rw [x.jwt.verify_sign] at hver
      cases hver
      exact ⟨hopen, fun _ => rfl⟩
    · rw [x.jwt.verify_sign] at hver
      cases hver
      exact ⟨hopen, fun htype => by cases htype⟩
  · exact absurd htok List.not_mem_nil

/-- An answered request that has opened a session descends from a login.  The induction is on the
number of requests answered before it: a refresh presents a token that one of these has handed
out. -/
theorem Invariant.descends (hw : Invariant x w) {resp : Response T K} {l l' : List (Reply T K)}
    (hlog : w.log = l ++ y :: l') (hres : y.result = .ok resp)
    (hopen : Opens x y.request (progress y.performed) u d) : Descends x w.log u d y := by
  induction hn : l.length using Nat.strong_induction_on generalizing l l' y u d resp with
  | h n ih
  have hy : y ∈ w.log := by rw [hlog]; simp
  rcases hopen with hlogin | ⟨c, ⟨⟨hpres, -⟩, -⟩, rfl, rfl⟩
  · exact .login hy (hlogin.loginOf hres)
  · obtain ⟨tok, client, hq, hver, htype, hdev⟩ := hpres
    have htok : tok ∈ issued l := hw.presented.logged l y l' tok c hlog (by rw [hq]; rfl) hver
    obtain ⟨z, hz, hztok⟩ := List.mem_flatMap.mp htok
    obtain ⟨l₁, l₂, hl⟩ := List.append_of_mem hz
    have hzlog : w.log = l₁ ++ z :: (l₂ ++ y :: l') := by rw [hlog, hl]; simp
    have hzmem : z ∈ w.log := by rw [hzlog]; simp
    obtain ⟨⟨resp', hres'⟩, hopen', -⟩ := hw.opens_of_handedOut hzmem hztok hver
    have hlt : l₁.length < n := by
      rw [← hn, hl]
      simp
    exact .refresh (ih _ hlt hzlog hres' hopen' rfl) hztok hy hq hdev.symm hres hver htype rfl rfl

/-! ## Provenance -/

/-- What `decode_access_token` returns, whatever the clock says. -/
lemma returns_decodeAccessToken {payload : AccessTokenPayload T}
    (h : Returns (JwtService.decodeAccessToken x tok) payload) :
    ∃ c, x.jwt.verify tok = some c ∧ c.type = .access ∧ payload.sub = c.sub ∧
      payload.deviceId = c.deviceId := by
  unfold JwtService.decodeAccessToken at h
  rw [Program.returns_bind] at h
  obtain ⟨decoded, hdecoded, h⟩ := h
  unfold jwtDecode at hdecoded
  cases hver : x.jwt.verify tok with
  | none =>
    rw [hver] at hdecoded
    rw [Program.returns_pure.mp hdecoded] at h
    exact absurd h Program.returns_raise
  | some c =>
    rw [hver] at hdecoded
    simp only [Program.returns_bind, Program.returns_pure] at hdecoded
    obtain ⟨t, -, rfl⟩ := hdecoded
    cases hval : validateClaims c t x.settings.jwtIssuer (some x.settings.jwtAudience) with
    | error e =>
      rw [hval] at h
      cases e <;> exact absurd h Program.returns_raise
    | ok c' =>
      cases validateClaims_ok hval
      rw [hval] at h
      simp only at h
      split at h
      · exact absurd h Program.returns_raise
      · rename_i htype
        split at h
        · rw [Program.returns_pure] at h
          subst h
          exact ⟨c, rfl, not_not.mp htype, rfl, rfl⟩
        · exact absurd h Program.returns_raise

/-- What `get_current_user` returns, whatever the clock and Redis answer. -/
lemma returns_getCurrentUser {dev : String} {user : CurrentUser T}
    (h : Returns (getCurrentUser x tok dev) user) :
    ∃ c, x.jwt.verify tok = some c ∧ c.type = .access ∧ c.deviceId = dev ∧
      user.userId = c.sub ∧ user.deviceId = c.deviceId := by
  unfold getCurrentUser at h
  rw [Program.returns_bind] at h
  obtain ⟨payload, hpayload, h⟩ := h
  obtain ⟨c, hver, htype, hsub, hdev⟩ := returns_decodeAccessToken hpayload
  split at h
  · rw [Program.returns_bind] at h
    obtain ⟨_, hraise, -⟩ := h
    exact absurd hraise Program.returns_raise
  · rename_i hsame
    rw [Program.returns_bind] at h
    obtain ⟨blacklisted, -, h⟩ := h
    cases blacklisted with
    | true =>
      simp only [if_true, Program.returns_bind] at h
      obtain ⟨_, hraise, -⟩ := h
      exact absurd hraise Program.returns_raise
    | false =>
      simp only [Bool.false_eq_true, if_false, Program.returns_pure] at h
      subst h
      exact ⟨c, hver, htype, hdev.symm.trans (not_not.mp hsame), hsub, hdev⟩

variable [DecidableEq K]

/-- **Provenance.**  In every interleaving, a request that `get_current_user` may let in bears a
token that descends from a login of its user on the device that it names. -/
theorem authentication_provenance (now : T) (db : Database T) (drawn : List Uuid) {i : ℕ}
    {th : Worker T K} {dev : String} {user : CurrentUser T}
    (h : Reach (server x) AnyEvent (Pool.initial (Stores.initial now db drawn)) w)
    (hslot : w.slot i = some th) (hbearer : th.request.bearer? = some (tok, dev))
    (hreturns : Returns (getCurrentUser x tok dev) user) :
    user.deviceId = dev ∧
      ∃ y, Descends x w.log user.userId dev y ∧ (handedOut y).head? = some tok := by
  have hw := (invariant_initial x now db drawn).reach h
  obtain ⟨c, hver, htype, hdev, huser, hdevice⟩ := returns_getCurrentUser hreturns
  have hserving : serving w i = some (th.request, progress th.performed) := by
    simp [serving, hslot]
  have htok : tok ∈ issued w.log := by
    refine hw.issued_of_token (.inl ⟨i, hserving⟩) ?_ hver
    cases hq : th.request <;> simp_all [Request.bearer?, Request.token?]
  obtain ⟨y, hy, hytok⟩ := List.mem_flatMap.mp htok
  obtain ⟨⟨resp, hres⟩, hopen, hhead⟩ := hw.opens_of_handedOut hy hytok hver
  obtain ⟨l, l', hlog⟩ := List.append_of_mem hy
  have hdesc := hw.descends hlog hres hopen
  rw [← huser, hdev] at hdesc
  exact ⟨hdevice.trans hdev, y, hdesc, hhead htype⟩

/-- A login, a refresh of its token, and a request with the access token of the refresh. -/
theorem authentication_provenance_replay : ∃ (w : World ℚ Claims) (user : CurrentUser ℚ)
    (y : Reply ℚ Claims), Descends Plain.externals w.log user.userId "phone" y ∧
      (handedOut y).head? = some (Plain.access 0 Plain.a₂) := by
  obtain ⟨w, hreach, hgood⟩ := reach_of_replay (S := server Plain.externals) (w := Plain.start)
    (g := fun w => (authenticate Plain.externals w.shared (Plain.access 0 Plain.a₂) "phone").isOk &&
      (w.slot 2).any fun th : Worker ℚ Claims =>
        decide (th.request.bearer? = some (Plain.access 0 Plain.a₂, "phone")))
    (v := true) anyEvent_of_check
    (loginScript 0 "alice@example.com" "old" Plain.phone Plain.a₁ Plain.r₁ ++
      refreshScript 1 (Plain.refresh 0 Plain.r₁) Plain.phone Plain.a₂ Plain.r₂ ++
      [.start (.getMe (Plain.access 0 Plain.a₂) "phone")])
    (by decide +kernel)
  rw [Bool.and_eq_true, Option.any_eq_true] at hgood
  obtain ⟨hok, th, hslot, hbearer⟩ := hgood
  cases hauth : authenticate Plain.externals w.shared (Plain.access 0 Plain.a₂) "phone" with
  | error e =>
    rw [hauth] at hok
    cases hok
  | ok user =>
    obtain ⟨-, y, hdesc, hhead⟩ := authentication_provenance _ _ _ hreach hslot
      (of_decide_eq_true hbearer) (Program.returns_of_eval hauth)
    exact ⟨w, user, y, hdesc, hhead⟩

end SampleAuthApi
