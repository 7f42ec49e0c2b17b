import SampleAuthApi.Sessions.Records

/-!
# Rules for the functions that the services call

One rule for each function of the repositories, the decoders and the token store: what it may be
called with under the contract `MayCall`, and what it leaves behind in the digest of its request.
-/

namespace SampleAuthApi

open Transactions
open Program (wp wp_bind wp_mono wp_pure afterBind_ok afterBind_error)

variable {T K : Type} {f : Progress T}

variable [Instant T] {x : Externals K} {q : Request K}

/-- The onlooker of one request of the service. -/
abbrev onlooker (x : Externals K) (q : Request K) :
    Program.Observer (Op T) (Op.Reply T) Exc (Progress T) := observer (MayCall x) q

/-! ## What the facts about a request depend on -/

/-- A request that is authorised stays so as long as its test of the blacklist is remembered. -/
lemma Authorised.keep {f f' : Progress T} {c : Claims} (h : Authorised x q f c)
    (hc : f'.checked = f.checked) (hr : ∀ t ∈ f.readings, t ∈ f'.readings) :
    Authorised x q f' c := by
  obtain ⟨tok, dev, hb, hv, ht, hd, hs, t, htr, hval⟩ := h
  exact ⟨tok, dev, hb, hv, ht, hd, hc ▸ hs, t, hr t htr, hval⟩

/-- Calm calls leave a request authorised. -/
lemma Authorised.calm {f f' : Progress T} {c : Claims} (h : Authorised x q f c)
    (hcalm : Calm f f') : Authorised x q f' c :=
  h.keep hcalm.checked fun _ => hcalm.mem_readings

/-- A request that is authorised presents a token. -/
lemma Authorised.bears {c : Claims} (h : Authorised x q f c) : Bears x q c := by
  obtain ⟨tok, dev, hb, hv, -⟩ := h
  exact ⟨tok, dev, hb, hv⟩

/-- A token that was valid at a reading of the clock was so whatever is read later. -/
lemma Valid.of_readings {f f' : Progress T} {c : Claims} (h : Valid x f c)
    (hr : ∀ t ∈ f.readings, t ∈ f'.readings) : Valid x f' c := by
  obtain ⟨t, htr, hval⟩ := h
  exact ⟨t, hr t htr, hval⟩

/-- A match depends on what was looked up only. -/
lemma Matched.keep {f f' : Progress T} {c : Claims} (h : Matched x q f c)
    (hf : f'.found = f.found) : Matched x q f' c := by
  obtain ⟨hp, s, hl, hs⟩ := h
  exact ⟨hp, s, hf.trans hl, hs⟩

/-- A reuse depends on what was looked up only. -/
lemma Reuse.keep {f f' : Progress T} {c : Claims} (h : Reuse x q f c) (hf : f'.found = f.found) :
    Reuse x q f' c := by
  obtain ⟨hp, s, j, hl, hs, hj⟩ := h
  exact ⟨hp, s, j, hf.trans hl, hs, hj⟩

section Facts

variable {u : Uuid} {d : String}

omit [Instant T] in
/-- A login is known by the user that it has loaded. -/
lemma LoggedIn.keep {f f' : Progress T} (h : LoggedIn x q f u d)
    (ha : ∀ a, f.account = some a → f'.account = some a) : LoggedIn x q f' u d := by
  obtain ⟨email, password, client, s, user, hq, hd, hacc, hrest⟩ := h
  exact ⟨email, password, client, s, user, hq, hd, ha _ hacc, hrest⟩

/-- What a request may open depends on its lookup and the user it has loaded. -/
lemma Opens.keep {f f' : Progress T} (h : Opens x q f u d) (hf : f'.found = f.found)
    (ha : ∀ a, f.account = some a → f'.account = some a) : Opens x q f' u d := by
  rcases h with hlogin | ⟨c, ⟨hm, s, user, hacc, hid⟩, hu, hd⟩
  · exact .inl (hlogin.keep ha)
  · exact .inr ⟨c, ⟨hm.keep hf, s, user, ha _ hacc, hid⟩, hu, hd⟩

omit [Instant T] in
/-- The checks of a change depend on the user that the request has loaded. -/
lemma Changing.keep {f f' : Progress T} {user : User T} (h : Changing x q f u user)
    (ha : ∀ a, f.account = some a → f'.account = some a) : Changing x q f' u user := by
  obtain ⟨tok, dev, current, new, s, hq, hacc, hrest⟩ := h
  exact ⟨tok, dev, current, new, s, hq, ha _ hacc, hrest⟩

/-- What a request may delete depends on its authorisation and its lookup. -/
lemma Deletes.keep {f f' : Progress T} (h : Deletes x q f u d) (hc : f'.checked = f.checked)
    (hf : f'.found = f.found) (hr : ∀ t ∈ f.readings, t ∈ f'.readings) : Deletes x q f' u d := by
  rcases h with ⟨tok, dev, c, hq, hauth, hrest⟩ | ⟨tok, dev, c, hq, hauth, hu⟩ | ⟨c, hreuse, hrest⟩
  · exact .inl ⟨tok, dev, c, hq, hauth.keep hc hr, hrest⟩
  · exact .inr (.inl ⟨tok, dev, c, hq, hauth.keep hc hr, hu⟩)
  · exact .inr (.inr ⟨c, hreuse.keep hf, hrest⟩)

/-- Calm calls leave what a request may delete. -/
lemma Deletes.calm {f f' : Progress T} (h : Deletes x q f u d) (hcalm : Calm f f') :
    Deletes x q f' u d :=
  h.keep hcalm.checked hcalm.found fun _ => hcalm.mem_readings

/-- What a request has stored depends on its commands and the lifetime of its new token. -/
lemma Stored.calm {f f' : Progress T} {r : Uuid} (h : Stored x f u d r) (hcalm : Calm f f') :
    Stored x f' u d r := by
  obtain ⟨made, t, hlife, hcases⟩ := h
  have hlife' : f'.lifetime = some (made, t) :=
    (hcalm.lifetime fun _ => by rw [hlife]; rfl).trans hlife
  refine ⟨made, t, hlife', hcases.imp ?_ ?_⟩
  · rintro ⟨s, s', data, hsent, hdata⟩
    exact ⟨s, s', data, hcalm.sent.trans hsent, hdata⟩
  · rintro ⟨hsent, hlate⟩
    exact ⟨hcalm.sent.trans hsent, hlate⟩

/-- What a request may sweep depends on its authorisation and the user it has loaded. -/
lemma Sweeps.keep {f f' : Progress T} (h : Sweeps x q f u) (hc : f'.checked = f.checked)
    (hr : ∀ t ∈ f.readings, t ∈ f'.readings)
    (ha : ∀ a, f.account = some a → f'.account = some a) : Sweeps x q f' u := by
  obtain ⟨hq, ⟨c, hauth, hu⟩, hchange⟩ := h
  refine ⟨hq, ⟨c, hauth.keep hc hr, hu⟩, fun tok dev current new heq => ?_⟩
  obtain ⟨user, hchanging⟩ := hchange tok dev current new heq
  exact ⟨user, hchanging.keep ha⟩

/-- Calm calls leave what a request may sweep. -/
lemma Sweeps.calm {f f' : Progress T} (h : Sweeps x q f u) (hcalm : Calm f f') : Sweeps x q f' u :=
  h.keep hcalm.checked (fun _ => hcalm.mem_readings) hcalm.account

end Facts

/-! ## Repositories -/

section Repositories

variable {u : Uuid} {d : String} {P : Except Exc Unit → Progress T → Prop}

/-- `update_last_login` flushes the time of the login, if the row is there. -/
lemma wp_updateLastLogin (hlogin : LoggedIn x q f u d) (hc : f.committed = [])
    (h : ∀ f' last, Calm f f' → f'.devices = f.devices → f'.wrote = f.wrote ++ last →
      (∀ w ∈ last, ∃ t, w = lastLogin u t) → P (.ok ()) f')
    (hfail : ∀ e f', Broken f f' → P (.error e) f') :
    wp (onlooker x q) (UserRepository.updateLastLogin u) P f := by
  unfold UserRepository.updateLastLogin UserRepository.getById
  rw [wp_bind]
  refine wp_select hc (fun s row hrow => ?_) (hfail _ _ ⟨rfl, rfl⟩)
  have hload : Calm f (f.load s row) := Calm.load f s row
  rw [afterBind_ok]
  cases row with
  | none => exact h _ [] hload rfl (by simp [Progress.note, Progress.load]) (by simp)
  | some user =>
    have hid : user.id = u := (Database.select_userById hrow.symm).2.1
    change wp _ (utcnow >>= _) P _
    rw [wp_bind]
    refine wp_utcnow trivial fun t => ?_
    have hcalm : Calm f ((f.load s (some user)).read t) := hload.trans (Calm.read _ t)
    rw [afterBind_ok, hid]
    refine wp_flush ⟨hc, fun w hw => ?_⟩ ?_ (.inl (by simp [Write.Total])) (hfail _ _ ⟨rfl, rfl⟩)
    · rw [List.mem_singleton] at hw
      subst hw
      exact .inl ⟨d, t, hlogin.keep hcalm.account, rfl⟩
    · refine h _ [lastLogin u t] (hcalm.trans (Calm.flush _ _)) rfl rfl fun w hw => ?_
      exact ⟨t, List.mem_singleton.mp hw⟩

/-- `upsert_device` flushes one row of the device, which the unique index may refuse. -/
lemma wp_upsertDevice {name : Option String} {os : String} {osVersion app ip : Option String}
    (hlogin : LoggedIn x q f u d) (hwrote : f.wrote = []) (hc : f.committed = [])
    (h : ∀ f' s write, Calm f f' → f'.devices = some s → Upserts s u d write →
      f'.wrote = [write] → P (.ok ()) f')
    (hrefused : ∀ f' s s' device, Calm f f' → f'.devices = some s →
      Upserts s u d (.insertDevice device) → f'.refused = some (s', [.insertDevice device]) →
      s'.db.committed.insertDevice device = none → P (.error .integrity) f')
    (hfail : ∀ e f', Broken f f' → P (.error e) f') :
    wp (onlooker x q) (UserDeviceRepository.upsertDevice u d name os osVersion app ip) P f := by
  unfold UserDeviceRepository.upsertDevice UserDeviceRepository.getByUserAndDevice
  rw [wp_bind]
  refine wp_select hc (fun s row hrow => ?_) (hfail _ _ ⟨rfl, rfl⟩)
  rw [afterBind_ok, wp_bind]
  refine wp_utcnow trivial fun t => ?_
  have hcalm : Calm f (Progress.read { f with devices := some s } t) :=
    (Calm.queried f s).trans (Calm.read _ t)
  rw [hwrote] at hrow
  rw [afterBind_ok]
  have hflush : ∀ write, Upserts s u d write → MayWrite x q
      (Progress.read { f with devices := some s } t) write →
      (write.Total ∨ ∃ device, write = .insertDevice device) →
      wp (onlooker x q) (flush [write]) P (Progress.read { f with devices := some s } t) := by
    intro write hup hmay htotal
    refine wp_flush ⟨hc, fun w hw => List.mem_singleton.mp hw ▸ hmay⟩ ?_ ?_ (hfail _ _ ⟨rfl, rfl⟩)
    · refine h _ s write (hcalm.trans (Calm.flush _ _)) rfl hup ?_
      change f.wrote ++ [write] = [write]
      rw [hwrote, List.nil_append]
    · rcases htotal with htotal | ⟨device, rfl⟩
      · exact .inl fun w hw => List.mem_singleton.mp hw ▸ htotal
      · refine .inr fun s' hs' => ?_
        refine hrefused _ s s' device (hcalm.trans (Calm.refuse _ _)) rfl hup rfl ?_
        change Ledger.accepts _ _ (Ledger.applyAll _ f.wrote _) = false at hs'
        rw [hwrote, Ledger.accepts_singleton] at hs'
        exact Option.not_isSome_iff_eq_none.mp (Bool.eq_false_iff.mp hs')
  have hlogin' : LoggedIn x q (Progress.read { f with devices := some s } t) u d :=
    hlogin.keep hcalm.account
  cases row with
  | none =>
    refine hflush _ ⟨rfl, rfl, rfl, hrow.symm⟩ ?_ (.inr ⟨_, rfl⟩)
    exact ⟨hwrote, hlogin', s, rfl, rfl, rfl, rfl, hrow.symm⟩
  | some row =>
    obtain ⟨hu, hd⟩ := Database.select_device hrow.symm
    simp only [hu, hd]
    refine hflush _ ⟨rfl, rfl, row, hrow.symm, rfl⟩ (.inl ?_) (.inl trivial)
    exact ⟨hwrote, hlogin', s, rfl, rfl, rfl, row, hrow.symm, rfl⟩

/-- `deactivate_device` flushes the row as inactive, if it is there. -/
lemma wp_deactivateDevice {P : Except Exc Bool → Progress T → Prop} (hdel : Deletes x q f u d)
    (hwrote : f.wrote = []) (hc : f.committed = [])
    (h : ∀ b f' s t, Calm f f' → f'.devices = some s → f'.wrote =
      (s.db.committed.select (.deviceByUserAndDevice u d)).toList.map (deactivation t) →
      P (.ok b) f')
    (hfail : ∀ e f', Broken f f' → P (.error e) f') :
    wp (onlooker x q) (UserDeviceRepository.deactivateDevice u d) P f := by
  unfold UserDeviceRepository.deactivateDevice UserDeviceRepository.getByUserAndDevice
  rw [wp_bind]
  refine wp_select hc (fun s row hrow => ?_) (hfail _ _ ⟨rfl, rfl⟩)
  rw [hwrote] at hrow
  have hsel : s.db.committed.select (.deviceByUserAndDevice u d) = row := hrow.symm
  rw [afterBind_ok]
  cases row with
  | none => exact h false _ s s.now (Calm.queried f s) rfl (by simp [Progress.note, hsel, hwrote])
  | some row =>
    change wp _ (utcnow >>= _) P _
    rw [wp_bind]
    refine wp_utcnow trivial fun t => ?_
    have hcalm : Calm f (Progress.read { f with devices := some s } t) :=
      (Calm.queried f s).trans (Calm.read _ t)
    obtain ⟨hu, hd⟩ := Database.select_device hsel
    rw [afterBind_ok, wp_bind]
    refine wp_flush ⟨hc, fun w hw => ?_⟩ ?_ (.inl (by simp [Write.Total])) (hfail _ _ ⟨rfl, rfl⟩)
    · rw [List.mem_singleton] at hw
      subst hw
      refine .inr ⟨.inl ?_, s, row, t, rfl, Database.mem_of_select_device hsel, rfl⟩
      rw [hu, hd]
      exact hdel.calm hcalm
    · refine h true _ s t (hcalm.trans (Calm.flush _ _)) rfl ?_
      change f.wrote ++ _ = _
      rw [hwrote, hsel]
      rfl

/-- `deactivate_all_devices` flushes the active rows as inactive. -/
lemma wp_deactivateAllDevices {P : Except Exc ℕ → Progress T → Prop} (hsweep : Sweeps x q f u)
    (hview : ∀ db, (Ledger.applyAll Database.apply f.wrote db).devices = db.devices)
    (hc : f.committed = [])
    (h : ∀ n f' s t, Calm f f' → f'.devices = some s → f'.wrote =
      f.wrote ++ (s.db.committed.select (.activeDevices u)).map (deactivation t) → P (.ok n) f')
    (hfail : ∀ e f', Broken f f' → P (.error e) f') :
    wp (onlooker x q) (UserDeviceRepository.deactivateAllDevices u) P f := by
  unfold UserDeviceRepository.deactivateAllDevices UserDeviceRepository.getActiveDevices
  rw [wp_bind]
  refine wp_select hc (fun s rows hrows => ?_) (hfail _ _ ⟨rfl, rfl⟩)
  have hsel : s.db.committed.select (.activeDevices u) = rows := by
    rw [hrows]
    simp only [Database.select, hview]
  rw [afterBind_ok, wp_bind]
  refine wp_utcnow trivial fun t => ?_
  have hcalm : Calm f (Progress.read { f with devices := some s } t) :=
    (Calm.queried f s).trans (Calm.read _ t)
  rw [afterBind_ok, wp_bind]
  refine wp_flush ⟨hc, fun w hw => ?_⟩ ?_ (.inl (by simp [Write.Total])) (hfail _ _ ⟨rfl, rfl⟩)
  · obtain ⟨row, hrow, rfl⟩ := List.mem_map.mp hw
    rw [← hsel] at hrow
    obtain ⟨hmem, hu, -⟩ := Database.mem_select_active.mp hrow
    refine .inr ⟨.inr ?_, s, row, t, rfl, hmem, rfl⟩
    rw [hu]
    exact hsweep.calm hcalm
  · refine h _ _ s t (hcalm.trans (Calm.flush _ _)) rfl ?_
    rw [hsel]
    rfl

/-- A row of `login_histories` is flushed as it was given. -/
lemma wp_loginHistory {email password : String} {client : ClientInfo} {user : Option Uuid}
    {ip agent os app : Option String} {success : Bool} {reason : Option String}
    (hq : q = .login email password client) (hc : f.committed = [])
    (hstored : success = true → ∃ u r, LoggedIn x q f u client.xDeviceId ∧ r ∈ f.drawn ∧
      Stored x f u client.xDeviceId r)
    (h : ∀ f' row, Calm f f' → f'.devices = f.devices →
      f'.wrote = f.wrote ++ [.insertHistory row] → row.userId = user →
      row.deviceId = client.xDeviceId → row.success = success → row.failureReason = reason →
      row.ipAddress = ip → P (.ok ()) f')
    (hfail : ∀ e f', Broken f f' → P (.error e) f') :
    wp (onlooker x q) (LoginHistoryRepository.create user client.xDeviceId ip agent os app success
      reason) P f := by
  unfold LoginHistoryRepository.create
  rw [wp_bind]
  refine wp_utcnow trivial fun t => ?_
  rw [afterBind_ok]
  refine wp_flush ⟨hc, fun w hw => ?_⟩ ?_ (.inl (by simp [Write.Total])) (hfail _ _ ⟨rfl, rfl⟩)
  · rw [List.mem_singleton] at hw
    subst hw
    refine ⟨email, password, client, hq, rfl, fun hsuccess => ?_⟩
    obtain ⟨u, r, hlogin, hr, hst⟩ := hstored hsuccess
    have hcalm : Calm f (f.read t) := Calm.read f t
    exact ⟨u, r, hlogin.keep hcalm.account, hcalm.drawn ▸ hr, hst.calm hcalm⟩
  · exact h _ _ ((Calm.read f t).trans (Calm.flush _ _)) rfl rfl rfl rfl rfl rfl rfl

end Repositories

/-! ## Decoders -/

/-- The checks on the claims change nothing in them. -/
lemma validateClaims_ok {c c' : Claims} {t : T} {iss : String} {aud : Option String}
    (h : validateClaims c t iss aud = .ok c') : c' = c := by
  unfold validateClaims at h
  split at h
  · cases h
  split at h
  · cases h
  split at h
  · cases h
  cases aud with
  | none => exact (Except.ok.inj h).symm
  | some a =>
    simp only at h
    split at h
    · exact (Except.ok.inj h).symm
    · cases h

section Decoders

variable {tok : K} {P : Except Exc (CurrentUser T) → Progress T → Prop}

/-- Decoding refuses a bad signature at once, and checks the claims at a reading of the clock. -/
lemma wp_jwtDecode {P : Except Exc (Except JwtError Claims) → Progress T → Prop}
    {aud : Option String} (hnone : x.jwt.verify tok = none → P (.ok (.error .invalidToken)) f)
    (h : ∀ c t, x.jwt.verify tok = some c →
      P (.ok (validateClaims c t x.settings.jwtIssuer aud)) (f.read t)) :
    wp (onlooker x q) (jwtDecode x tok aud) P f := by
  unfold jwtDecode
  cases hv : x.jwt.verify tok with
  | none => exact hnone hv
  | some c =>
    change wp _ (utcnow >>= _) P f
    rw [wp_bind]
    exact wp_utcnow trivial fun t => h c t hv

/-- `decode_access_token` reads the clock and returns the claims of a valid access token. -/
lemma wp_decodeAccessToken {P : Except Exc (AccessTokenPayload T) → Progress T → Prop}
    (h : ∀ c t email name, x.jwt.verify tok = some c → c.type = .access →
      validateClaims c t x.settings.jwtIssuer (some x.settings.jwtAudience) = .ok c →
      P (.ok ⟨c.sub, email, name, c.deviceId, c.jti, c.exp, c.iat⟩) (f.read t))
    (herr : ∀ e f', Calm f f' → f'.wrote = f.wrote → e.authentication = true → P (.error e) f') :
    wp (onlooker x q) (JwtService.decodeAccessToken x tok) P f := by
  unfold JwtService.decodeAccessToken
  rw [wp_bind]
  refine wp_jwtDecode (fun _ => herr _ _ (Calm.refl f) rfl rfl) fun c t hv => ?_
  rw [afterBind_ok]
  have herr' : ∀ e, e.authentication = true → P (.error e) (f.read t) :=
    fun e => herr e _ (Calm.read f t) rfl
  cases hval : validateClaims c t x.settings.jwtIssuer (some x.settings.jwtAudience) with
  | error e =>
    cases e with
    | expiredSignature => exact herr' _ rfl
    | invalidToken => exact herr' _ rfl
  | ok c' =>
    cases validateClaims_ok hval
    by_cases ht : c.type = .access
    · simp only [ht, ne_eq, not_true_eq_false, if_false]
      cases he : c.email with
      | none => exact herr' _ rfl
      | some email =>
        cases hn : c.name with
        | none => exact herr' _ rfl
        | some name => exact h c t email name hv ht hval
    · simp only [ne_eq, ht, not_false_eq_true, if_true]
      exact herr' _ rfl

/-- `get_current_user` lets in an access token of the requesting device. -/
lemma wp_getCurrentUser {dev : String} (hb : q.bearer? = some (tok, dev))
    (hchecked : f.checked = none)
    (h : ∀ c t s email name, Authorised x q { f.read t with checked := some s } c →
      c.deviceId = dev →
      P (.ok ⟨c.sub, email, name, c.deviceId, c.jti, c.exp⟩) { f.read t with checked := some s })
    (herr : ∀ e f', f'.sent = f.sent → f'.wrote = f.wrote → f'.committed = f.committed →
      f'.failed = true ∨ e.authentication = true → P (.error e) f') :
    wp (onlooker x q) (getCurrentUser x tok dev) P f := by
  unfold getCurrentUser
  rw [wp_bind]
  refine wp_decodeAccessToken (fun c t email name hv ht hval => ?_)
    fun e f' hc hw he => herr e f' hc.sent hw hc.committed (.inr he)
  rw [afterBind_ok]
  by_cases hd : c.deviceId = dev
  · simp only [hd, ne_eq, not_true_eq_false, if_false]
    rw [wp_bind]
    refine wp_redis hchecked rfl (fun s => ?_) (herr _ _ rfl rfl rfl (.inl rfl))
    rw [afterBind_ok]
    split
    · exact herr _ _ rfl rfl rfl (.inr rfl)
    · rename_i hblack
      have hauth : Authorised x q { f.read t with checked := some s } c :=
        ⟨tok, dev, hb, hv, ht, hd, ⟨s, rfl, Bool.eq_false_iff.mpr hblack⟩, t,
          List.mem_cons_self, hval⟩
      have hok := h c t s email name hauth hd
      rwa [hd] at hok
  · simp only [ne_eq, hd, not_false_eq_true, if_true]
    exact herr _ _ rfl rfl rfl (.inr rfl)

/-- `decode_refresh_token` reads the clock and returns the claims of a valid refresh token. -/
lemma wp_decodeRefreshToken {P : Except Exc (RefreshTokenPayload T) → Progress T → Prop}
    (h : ∀ c t, x.jwt.verify tok = some c → c.type = .refresh →
      validateClaims c t x.settings.jwtIssuer none = .ok c →
      P (.ok ⟨c.sub, c.deviceId, c.jti, c.exp, c.iat⟩) (f.read t))
    (hnone : ∀ e, x.jwt.verify tok = none → P (.error e) f)
    (herr : ∀ e c t, x.jwt.verify tok = some c →
      validateClaims c t x.settings.jwtIssuer none ≠ .ok c ∨ c.type ≠ .refresh →
      P (.error e) (f.read t)) :
    wp (onlooker x q) (JwtService.decodeRefreshToken x tok) P f := by
  unfold JwtService.decodeRefreshToken
  rw [wp_bind]
  refine wp_jwtDecode (fun hv => hnone _ hv) fun c t hv => ?_
  rw [afterBind_ok]
  cases hval : validateClaims c t x.settings.jwtIssuer none with
  | error e =>
    have hne : validateClaims c t x.settings.jwtIssuer none ≠ .ok c := by rw [hval]; simp
    cases e with
    | expiredSignature => exact herr _ c t hv (.inl hne)
    | invalidToken => exact herr _ c t hv (.inl hne)
  | ok c' =>
    cases validateClaims_ok hval
    by_cases ht : c.type = .refresh
    · simp only [ht, ne_eq, not_true_eq_false, if_false]
      exact h c t hv ht hval
    · simp only [ne_eq, ht, not_false_eq_true, if_true]
      exact herr _ c t hv (.inr ht)

end Decoders

/-! ## The token store -/

section TokenStore

variable {u : Uuid} {d : String} {P : Except Exc Unit → Progress T → Prop}

/-- `store_refresh_token` stores the token, unless less than a second of its lifetime is left. -/
lemma wp_storeRefreshToken {r a : Uuid} {made : T} {name os app ip : Option String}
    (hsent : f.sent = []) (hopen : Opens x q f u d) (hdrawn : f.drawn = [r, a])
    (hlife : f.lifetime = none) (hmade : f.readings.head? = some made)
    (hskip : ∀ t, made + x.settings.jwtRefreshTokenExpireSeconds < t + 1 →
      P (.ok ()) (f.read t))
    (hstore : ∀ t s s' data, data.tokenId = r →
      P (.ok ()) { f.read t with
        sent := [(s', .sadd (.devices u) d), (s, .setex (.refresh u d)
          (Instant.truncInt (made + x.settings.jwtRefreshTokenExpireSeconds - t))
          (.refreshToken data))] })
    (hfail : ∀ e f', Broken f f' → P (.error e) f') :
    wp (onlooker x q) (TokenStore.storeRefreshToken u d r name os app ip
      (made + x.settings.jwtRefreshTokenExpireSeconds)) P f := by
  refine TokenStore.wp_storeRefreshToken trivial (fun t data hdata => ?_) (fun t s n v => ?_)
    (fun t hn => ?_) (fun t s s' data hdata => ?_) fun e f' _ hf => hfail e f' hf
  · have hlife' : (f.read t).lifetime = some (made, t) := by
      simp [Progress.read, hdrawn, hlife, hmade]
    exact ⟨hsent, hopen.keep rfl fun _ h => h, r, a, _, made, t, hdrawn, rfl, hdata, hlife', rfl⟩
  · exact ⟨u, s, n, v, rfl, congrArg _ hsent, hopen.keep rfl fun _ h => h⟩
  · refine hskip t ?_
    have hlt : ¬ 1 ≤ made + x.settings.jwtRefreshTokenExpireSeconds - t := fun h =>
      absurd (Instant.truncInt_pos.mpr h) (not_lt.mpr hn)
    linarith [not_le.mp hlt]
  · rw [hsent]
    exact hstore t s s' data hdata

/-- `delete_refresh_token` deletes the token and takes the device out of the set. -/
lemma wp_deleteRefreshToken (hdel : Deletes x q f u d)
    (h : ∀ t t', P (.ok ()) { f with
      sent := (t', .srem (.devices u) d) :: (t, .del {.refresh u d}) :: f.sent })
    (hfail : ∀ e f', Broken f f' → P (.error e) f') :
    wp (onlooker x q) (TokenStore.deleteRefreshToken u d) P f :=
  TokenStore.wp_deleteRefreshToken (.inl ⟨u, d, rfl, hdel⟩)
    (fun t => ⟨u, t, f.sent, rfl, rfl, hdel.keep rfl rfl fun _ h => h⟩) h
    fun e f' _ hf => hfail e f' hf

/-- `delete_all_refresh_tokens` deletes the tokens of the devices in the set, and the set. -/
lemma wp_deleteAllRefreshTokens {P : Except Exc ℕ → Progress T → Prop} (hsweep : Sweeps x q f u)
    (hsnap : f.snapshot = none)
    (hsent : ∀ p ∈ f.sent, ∃ j n v, p.2 = .setex (.blacklist j) n v)
    (h : ∀ t ds, P (.ok ds.card) { f with
      snapshot := some ds
      sent := (t, .del (TokenStore.bulkKeys u ds)) :: f.sent })
    (hfail : ∀ e f', Broken f f' → P (.error e) f') :
    wp (onlooker x q) (TokenStore.deleteAllRefreshTokens u) P f :=
  TokenStore.wp_deleteAllRefreshTokens ⟨hsnap, ⟨u, rfl, hsweep⟩, hsent⟩
    (fun ds => .inr ⟨u, ds, rfl, rfl, hsweep⟩) h fun e f' _ hf => hfail e f' hf

/-- `blacklist_token` blacklists the token, if its time to live is positive. -/
lemma wp_blacklistToken {c : Claims} {dev reason : String} {τ : T} (hsent : f.sent = [])
    (hauth : Authorised x q f c) (hq : q.signsOut = true) (hτ : τ ∈ f.readings)
    (hskip : Instant.truncInt ((c.exp : T) - τ) ≤ 0 → P (.ok ()) f)
    (hstore : ∀ t s v, P (.ok ()) { f.read t with
      sent := [(s, .setex (.blacklist c.jti) (Instant.truncInt ((c.exp : T) - τ)) v)] })
    (hfail : ∀ e f', Broken f f' → P (.error e) f') :
    wp (onlooker x q) (TokenStore.blacklistToken c.jti c.sub dev reason
      (Instant.truncInt ((c.exp : T) - τ))) P f := by
  unfold TokenStore.blacklistToken
  by_cases hn : Instant.truncInt ((c.exp : T) - τ) ≤ 0
  · simp only [hn, if_true]
    exact hskip hn
  · simp only [hn, if_false]
    rw [wp_bind]
    refine wp_utcnow trivial fun t => ?_
    rw [afterBind_ok]
    refine wp_redis ?_ (by simpa [Redis.Cmd.isValid] using hn) (fun s => ?_) (hfail _ _ ⟨rfl, rfl⟩)
    · exact ⟨hsent, hq, c, hauth.calm (Calm.read f t), rfl, τ, List.mem_cons_of_mem _ hτ, rfl⟩
    · have h := hstore t s.now
        (.blacklistEntry ⟨c.sub, dev, reason, Instant.truncInt t⟩)
      rw [← hsent] at h
      exact h

end TokenStore

end SampleAuthApi
