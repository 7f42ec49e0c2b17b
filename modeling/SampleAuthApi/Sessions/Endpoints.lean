import SampleAuthApi.Sessions.Rules

/-!
# The endpoints keep the contract

`endpoint_conforms`: every endpoint only issues calls that `MayCall` allows and ends as `Ends` says.
The proof follows the services statement by statement.
-/

namespace SampleAuthApi

open Transactions
open Program (wp wp_bind wp_mono wp_pure wp_tryCatch afterBind_ok afterBind_error afterTry_ok
  afterTry_error)

variable {T K : Type} [Instant T] {x : Externals K} {q : Request K} {f : Progress T}

/-! ## The session dependency -/

/-- How an endpoint ends inside `get_db`, before the transaction is committed or rolled back. -/
def Closes (x : Externals K) (q : Request K) : Except Exc (Response T K) → Progress T → Prop
  | .ok resp, f => f.committed = [] ∧ Succeeded x q resp f.commit ∧ Recorded x q resp f.commit
  | .error e, f => f.committed = [] ∧ (f.failed = true ∨ Refused x q { f with wrote := [] }) ∧
    (f.failed = true ∨ Rejected x q e { f with wrote := [] })

/-- A failure of Redis or the database closes an endpoint that has committed nothing. -/
lemma closes_broken (hc : f.committed = []) (e : Exc) (f' : Progress T) (hf : Broken f f') :
    Closes x q (.error e) f' :=
  ⟨hf.committed.trans hc, .inl hf.failed, .inl hf.failed⟩

/-- `get_db` commits or rolls back. -/
lemma wp_getDb {p : Proc T (Response T K)} (h : wp (onlooker x q) p (Closes x q) f) :
    wp (onlooker x q) (getDb p) (Ends x q) f := by
  unfold getDb
  rw [wp_tryCatch, wp_bind]
  refine wp_mono (observer_monotone _ q) (fun r f' hr => ?_) h
  have hback : ∀ (e : Exc) (g : Progress T), Closes x q (.error e) g →
      Program.afterTry (onlooker x q) (fun e => do
        Program.perform Op.rollback
        throw e) (Ends x q) (.error e) g := by
    intro e g ⟨hc, href, hrej⟩
    rw [afterTry_error, wp_bind]
    exact wp_rollback trivial ⟨rfl, href, hc, hrej⟩
  cases r with
  | ok resp =>
    obtain ⟨hc, hresp⟩ := hr
    rw [afterBind_ok, wp_bind]
    exact wp_commit ⟨resp, hresp⟩ ⟨rfl, hresp⟩ (hback _ _ (closes_broken hc _ _ ⟨rfl, rfl⟩))
  | error e => exact hback e f' hr

/-- `get_current_user` in front of an endpoint. -/
lemma wp_authenticated {tok : K} {dev : String} {body : CurrentUser T → Proc T (Response T K)}
    (hb : q.bearer? = some (tok, dev))
    (hrefused : ∀ f : Progress T, f.sent = [] → Refused x q f)
    (hrejected : ∀ e, ∀ f : Progress T, e.authentication = true → Rejected x q e f)
    (h : ∀ c t s email name, Authorised x q { Progress.read {} t with checked := some s } c →
      c.deviceId = dev →
      wp (onlooker x q) (body ⟨c.sub, email, name, c.deviceId, c.jti, c.exp⟩) (Closes x q)
        { Progress.read {} t with checked := some s }) :
    wp (onlooker x q) (getCurrentUser x tok dev >>= fun user => getDb (body user))
      (Ends x q) {} := by
  rw [wp_bind]
  refine wp_getCurrentUser hb rfl (fun c t s email name hauth hdev => ?_)
    fun e f' hsent hw hc he => ?_
  · exact wp_getDb (h c t s email name hauth hdev)
  · exact ⟨hw, .inr (hrefused f' hsent), hc, he.imp id (hrejected e f')⟩

/-! ## Protected endpoints -/

/-- The last statements of `logout` and `force_logout_device`. -/
lemma wp_signOut {u : Uuid} {d : String} {P : Except Exc Unit → Progress T → Prop}
    (hdel : Deletes x q f u d) (hwrote : f.wrote = []) (hc : f.committed = [])
    (h : ∀ f' before, Calm { f with sent := before } f' → SignedOut f' u d f.sent →
      Deactivated f'.commit u d → P (.ok ()) f')
    (hfail : ∀ e f', Broken f f' → P (.error e) f') :
    wp (onlooker x q) (do
      TokenStore.deleteRefreshToken u d
      let _ ← UserDeviceRepository.deactivateDevice u d) P f := by
  rw [wp_bind]
  refine wp_deleteRefreshToken hdel (fun t t' => ?_) hfail
  rw [afterBind_ok, wp_bind]
  refine wp_deactivateDevice (hdel.keep rfl rfl fun _ h => h) hwrote hc
    (fun b f' s t₁ hcalm hs hw => ?_) fun e f' hf => hfail e f' ⟨hf.failed, hf.committed⟩
  refine h f' _ hcalm ⟨t, t', hcalm.sent⟩ ⟨s, t₁, hs, ?_⟩
  have hnil : f'.committed = [] := hcalm.committed.trans hc
  simpa [Progress.commit, hnil] using hw

/-- The last statements of `logout_all`, `change_password` and `delete_account`. -/
lemma wp_sweep {α : Type} {u : Uuid} {k : ℕ → α} {P : Except Exc α → Progress T → Prop}
    (hsweep : Sweeps x q f u) (hsnap : f.snapshot = none)
    (hsent : ∀ p ∈ f.sent, ∃ j n v, p.2 = .setex (.blacklist j) n v)
    (hview : ∀ db, (Ledger.applyAll Database.apply f.wrote db).devices = db.devices)
    (hc : f.committed = [])
    (h : ∀ f' before ds, Calm { f with snapshot := some ds, sent := before } f' →
      Swept f' u f.sent → DeactivatedAll f'.commit u f.wrote → P (.ok (k ds.card)) f')
    (hfail : ∀ e f', Broken f f' → P (.error e) f') :
    wp (onlooker x q) (do
      let n ← TokenStore.deleteAllRefreshTokens u
      let _ ← UserDeviceRepository.deactivateAllDevices u
      pure (k n)) P f := by
  rw [wp_bind]
  refine wp_deleteAllRefreshTokens hsweep hsnap hsent (fun t ds => ?_) hfail
  rw [afterBind_ok, wp_bind]
  refine wp_deactivateAllDevices (hsweep.keep rfl (fun _ h => h) fun _ h => h) hview hc
    (fun b f' s t₁ hcalm hs hw => ?_) fun e f' hf => hfail e f' ⟨hf.failed, hf.committed⟩
  refine h f' _ ds hcalm ⟨t, ds, hcalm.snapshot, hcalm.sent⟩ ⟨s, t₁, hs, ?_⟩
  have hnil : f'.committed = [] := hcalm.committed.trans hc
  simpa [Progress.commit, hnil] using hw

/-- The lifetime in the blacklist entry comes from one of the readings of the clock. -/
lemma Blacklisting.of_readings {f f' : Progress T} {c : Claims} {l : List (T × RedisCmd)}
    (h : Blacklisting f c l) (hr : ∀ t ∈ f.readings, t ∈ f'.readings) : Blacklisting f' c l := by
  obtain ⟨t, ht, h⟩ := h
  exact ⟨t, hr t ht, h⟩

/-- Blacklisting sends nothing but the `SETEX` of a blacklist entry. -/
lemma Blacklisting.setex {c : Claims} {l : List (T × RedisCmd)} (h : Blacklisting f c l) :
    ∀ p ∈ l, ∃ j n v, p.2 = .setex (.blacklist j) n v := by
  obtain ⟨t, -, ⟨s, v, rfl⟩ | ⟨rfl, -⟩⟩ := h
  · intro p hp
    rw [List.mem_singleton] at hp
    subst hp
    exact ⟨c.jti, _, v, rfl⟩
  · exact fun p hp => absurd hp List.not_mem_nil

/-- The first statements of `logout` and `logout_all`. -/
lemma wp_signsOut {α : Type} {c : Claims} {dev reason : String} {rest : Proc T α}
    {P : Except Exc α → Progress T → Prop}
    (hq : q.signsOut = true) (hsent : f.sent = []) (hauth : Authorised x q f c)
    (h : ∀ f' : Progress T, Authorised x q f' c → f'.snapshot = f.snapshot → f'.wrote = f.wrote →
      f'.committed = f.committed → Blacklisting f' c f'.sent → wp (onlooker x q) rest P f')
    (hfail : ∀ e f', Broken f f' → P (.error e) f') :
    wp (onlooker x q) (do
      let now ← utcnow
      let ttl := Instant.truncInt ((c.exp : T) - now)
      TokenStore.blacklistToken c.jti c.sub dev reason ttl
      rest) P f := by
  rw [wp_bind]
  refine wp_utcnow trivial fun τ => ?_
  rw [afterBind_ok, wp_bind]
  have hauth' : Authorised x q (f.read τ) c := hauth.calm (Calm.read f τ)
  refine wp_blacklistToken hsent hauth' hq List.mem_cons_self (fun hn => ?_) (fun t s v => ?_)
    fun e f' hf => hfail e f' ⟨hf.failed, hf.committed⟩
  · exact h _ hauth' rfl rfl rfl ⟨τ, List.mem_cons_self, .inr ⟨hsent, hn⟩⟩
  · have hmem : ∀ t' ∈ (f.read τ).readings, t' ∈ ((f.read τ).read t).readings := fun t' ht' =>
      List.mem_cons_of_mem _ ht'
    exact h _ (hauth'.keep rfl hmem) rfl rfl rfl
      ⟨τ, hmem τ List.mem_cons_self, .inl ⟨s, v, rfl⟩⟩

/-- `logout` blacklists its token, deletes the refresh token of its device and deactivates the
device row, in this order. -/
lemma logout_ends (tok : K) (dev : String) :
    wp (onlooker x (.logout tok dev)) (endpoint x (.logout tok dev))
      (Ends (T := T) x (.logout tok dev)) {} := by
  refine wp_authenticated rfl (fun f hf => hf) (fun _ _ _ => trivial)
    fun c t s₀ email name hauth hdev => ?_
  unfold AuthService.logout
  rw [wp_bind]
  refine wp_signsOut rfl rfl hauth (fun f' hauth' _ hw hc hbl => ?_) (closes_broken rfl)
  refine wp_signOut (.inl ⟨tok, dev, c, rfl, hauth', rfl, rfl⟩) hw hc
    (fun f'' before hcalm hout hdeact => ?_) (closes_broken hc)
  have hmem : ∀ t ∈ f'.readings, t ∈ f''.readings := fun _ => hcalm.mem_readings
  refine ⟨hcalm.committed.trans hc, ⟨rfl, c, f'.sent, hauth'.keep hcalm.checked hmem,
    hbl.of_readings hmem, hout⟩, c, hauth.bears, hdev, ?_⟩
  rwa [hdev] at hdeact

/-- `logout_all` blacklists its token, deletes the refresh tokens in the device set and deactivates
all device rows, in this order. -/
lemma logoutAll_ends (tok : K) (dev : String) :
    wp (onlooker x (.logoutAll tok dev)) (endpoint x (.logoutAll tok dev))
      (Ends (T := T) x (.logoutAll tok dev)) {} := by
  refine wp_authenticated rfl (fun f hf => hf) (fun _ _ _ => trivial)
    fun c t s₀ email name hauth hdev => ?_
  unfold AuthService.logoutAll
  rw [wp_bind]
  refine wp_signsOut rfl rfl hauth (fun f' hauth' hsnap hw hc hbl => ?_) (closes_broken rfl)
  refine wp_sweep ⟨rfl, ⟨c, hauth', rfl⟩, fun _ _ _ _ hq => by cases hq⟩ hsnap hbl.setex
    (fun db => by rw [hw]; rfl) hc (fun f'' before ds hcalm hswept hdeact => ?_) (closes_broken hc)
  have hmem : ∀ t ∈ f'.readings, t ∈ f''.readings := fun _ => hcalm.mem_readings
  refine ⟨hcalm.committed.trans hc, ⟨rfl, c, f'.sent, hauth'.keep hcalm.checked hmem,
    hbl.of_readings hmem, hswept⟩, c, ds, hauth.bears, ?_, hcalm.snapshot, rfl⟩
  rwa [hw] at hdeact

/-- `get_me` only reads. -/
lemma getMe_ends (tok : K) (dev : String) :
    wp (onlooker x (.getMe tok dev)) (endpoint x (.getMe tok dev))
      (Ends (T := T) x (.getMe tok dev)) {} := by
  refine wp_authenticated rfl (fun f hf => hf) (fun _ _ _ => trivial)
    fun c t s₀ email name hauth _ => ?_
  unfold UserService.getMe UserRepository.getById
  rw [wp_bind, wp_bind]
  refine wp_select rfl (fun s row _ => ?_) (closes_broken rfl _ _ ⟨rfl, rfl⟩)
  cases row with
  | none => exact ⟨rfl, .inr rfl, .inr trivial⟩
  | some user => exact ⟨rfl, ⟨rfl, rfl⟩, rfl⟩

/-- `update_me` changes the row of its user, and nothing in Redis. -/
lemma updateMe_ends (tok : K) (dev : String) (name phone : Option String) :
    wp (onlooker x (.updateMe tok dev name phone)) (endpoint x (.updateMe tok dev name phone))
      (Ends (T := T) x (.updateMe tok dev name phone)) {} := by
  refine wp_authenticated rfl (fun f hf => hf) (fun _ _ _ => trivial)
    fun c t s₀ email cname hauth _ => ?_
  unfold UserService.updateMe UserRepository.getById
  rw [wp_bind, wp_bind]
  refine wp_select rfl (fun s row hrow => ?_) (closes_broken rfl _ _ ⟨rfl, rfl⟩)
  cases row with
  | none => exact ⟨rfl, .inr rfl, .inr trivial⟩
  | some user =>
    have hid : user.id = c.sub := (Database.select_userById hrow.symm).2.1
    simp only [afterBind_ok]
    rw [wp_bind]
    refine wp_utcnow trivial fun t' => ?_
    set changes : UserPatch T :=
      { name := name.bind (changed user.name)
        phoneNumber := phone.bind fun p => (changed user.phoneNumber (some p)).join
        updatedAt := some t' } with hchanges
    have hedits : ∀ f : Progress T, Edits x (.updateMe tok dev name phone) f c.sub changes := by
      intro f
      refine ⟨t', rfl, rfl, rfl, rfl, fun n hn => ?_, fun p hp => ?_⟩
      · obtain ⟨n', rfl, hn'⟩ := Option.bind_eq_some_iff.mp hn
        rw [changed_eq_some hn']
      · obtain ⟨p', rfl, hp'⟩ := Option.bind_eq_some_iff.mp hp
        rw [← Option.join_eq_some_iff.mp hp' |> changed_eq_some]
    unfold UserRepository.update
    rw [afterBind_ok, wp_bind, wp_bind, hid]
    refine wp_flush ⟨rfl, ?_⟩ ?_ (.inl (by simp [Write.Total])) (closes_broken rfl _ _ ⟨rfl, rfl⟩)
    · intro w hw
      rw [List.mem_singleton] at hw
      subst hw
      exact .inr ⟨c, hauth.keep rfl fun _ h => List.mem_cons_of_mem _ h, rfl, hedits _⟩
    · exact ⟨rfl, ⟨rfl, rfl⟩, c, changes, hauth.bears, hedits _, rfl⟩

/-- The statements of `change_password` after the checks. -/
lemma wp_setPassword {tok : K} {dev current new : String} {c : Claims} {user : User T}
    (hq : q = .changePassword tok dev current new) (hauth : Authorised x q f c)
    (hchange : Changing x q f c.sub user) (hid : user.id = c.sub)
    {P : Except Exc Unit → Progress T → Prop} (hsnap : f.snapshot = none) (hsent : f.sent = [])
    (hwrote : f.wrote = []) (hc : f.committed = [])
    (h : ∀ f' changes, Authorised x q f' c → Changing x q f' c.sub user → Swept f' c.sub [] →
      f'.committed = [] → Edits x q f'.commit c.sub changes →
      DeactivatedAll f'.commit c.sub [.updateUser c.sub changes] → P (.ok ()) f')
    (herr : ∀ e f', f'.committed = [] → f'.failed = true ∨ f'.sent = [] → P (.error e) f') :
    wp (onlooker x q) (do
      let hashedPassword ← hashPassword x new
      let now ← utcnow
      let _ ← UserRepository.update user
        { hashedPassword := changed user.hashedPassword hashedPassword, updatedAt := some now }
      let _ ← TokenStore.deleteAllRefreshTokens c.sub
      let _ ← UserDeviceRepository.deactivateAllDevices c.sub) P f := by
  subst hq
  unfold hashPassword
  rw [wp_bind, wp_bind]
  refine wp_gensalt trivial fun salt => ?_
  rw [afterBind_ok, Program.wp_ofExcept]
  cases hhash : x.pwdContext.hash salt new with
  | error e => exact herr e f hc (.inr hsent)
  | ok hash =>
    rw [afterBind_ok, wp_bind]
    refine wp_utcnow trivial fun t => ?_
    have hauth' := hauth.calm (Calm.read f t)
    have hchange' : Changing x _ (f.read t) c.sub user := hchange.keep fun _ h => h
    have hbroken : ∀ e f', Broken f f' → P (.error e) f' := fun e f' hf =>
      herr e f' (hf.committed.trans hc) (.inl hf.failed)
    unfold UserRepository.update
    rw [afterBind_ok, wp_bind, wp_bind, hid]
    set changes : UserPatch T :=
      { hashedPassword := changed user.hashedPassword hash, updatedAt := some t } with hchanges
    refine wp_flush ⟨hc, ?_⟩ ?_ (.inl (by simp [Write.Total])) (hbroken _ _ ⟨rfl, rfl⟩)
    · intro w hw
      rw [List.mem_singleton] at hw
      subst hw
      exact .inr ⟨c, hauth', rfl, user, salt, hash, t, hchange', hhash, rfl⟩
    · rw [afterBind_ok]
      refine wp_sweep ⟨rfl, ⟨c, hauth', rfl⟩, fun _ _ _ _ _ => ⟨user, hchange'⟩⟩ hsnap
        (fun p hp => ?_) (fun db => ?_) hc (fun f' before ds hcalm hswept hdeact => ?_)
        fun e f' hf => hbroken e f' ⟨hf.failed, hf.committed⟩
      · change p ∈ f.sent at hp
        rw [hsent] at hp
        exact absurd hp List.not_mem_nil
      · change (Ledger.applyAll Database.apply (f.wrote ++ _) db).devices = _
        rw [hwrote]
        rfl
      · have hchange'' : Changing x _ f' c.sub user := hchange'.keep hcalm.account
        refine h f' changes (hauth'.keep hcalm.checked fun _ => hcalm.mem_readings) hchange''
          (hsent ▸ hswept) (hcalm.committed.trans hc)
          ⟨user, salt, hash, t, hchange''.keep fun _ h => h, hhash, rfl⟩ ?_
        change DeactivatedAll f'.commit c.sub (f.wrote ++ _) at hdeact
        rwa [hwrote] at hdeact

/-- `change_password` compares the passwords before anything else, and sweeps the refresh tokens
after the new hash has been flushed. -/
lemma changePassword_ends (tok : K) (dev current new : String) :
    wp (onlooker x (.changePassword tok dev current new))
      (endpoint x (.changePassword tok dev current new))
      (Ends (T := T) x (.changePassword tok dev current new)) {} := by
  refine wp_authenticated rfl (fun f hf => hf) (fun _ _ _ => trivial)
    fun c t s₀ email cname hauth _ => ?_
  have hbroken : ∀ e (f' : Progress T), f'.committed = [] → f'.failed = true ∨ f'.sent = [] →
      Closes x (.changePassword tok dev current new) (.error e) f' :=
    fun e f' hc hf => ⟨hc, hf, .inr trivial⟩
  unfold UserService.changePassword UserRepository.getById
  rw [wp_bind, wp_bind]
  refine wp_select rfl (fun s row hrow => ?_) (hbroken _ _ rfl (.inl rfl))
  cases row with
  | none => exact hbroken _ _ rfl (.inr rfl)
  | some user =>
    simp only [afterBind_ok]
    unfold verifyPassword
    rw [wp_bind, wp_bind]
    refine wp_checkpw trivial ?_
    rw [afterBind_ok, Program.wp_ofExcept]
    cases hcur : x.pwdContext.verify current user.hashedPassword with
    | error e => exact hbroken _ _ rfl (.inr rfl)
    | ok b =>
      cases b with
      | false => exact hbroken _ _ rfl (.inr rfl)
      | true =>
        simp only [afterBind_ok, Bool.not_true, Bool.false_eq_true, if_false]
        rw [wp_bind, wp_bind]
        refine wp_checkpw trivial ?_
        rw [afterBind_ok, Program.wp_ofExcept]
        cases hnew : x.pwdContext.verify new user.hashedPassword with
        | error e => exact hbroken _ _ rfl (.inr rfl)
        | ok b =>
          cases b with
          | true => exact hbroken _ _ rfl (.inr rfl)
          | false =>
            simp only [afterBind_ok, Bool.false_eq_true, if_false]
            have hid : user.id = c.sub := (Database.select_userById hrow.symm).2.1
            refine wp_setPassword rfl ?_ ?_ hid rfl rfl rfl rfl
              (fun f' changes hauth' hchange hswept hc hedits hdeact => ?_) ?_
            · exact hauth.keep rfl fun _ h => h
            · exact ⟨tok, dev, current, new, s, rfl, rfl, hrow.symm, hcur, hnew⟩
            · exact ⟨hc, ⟨rfl, c, user, hauth', hchange, hswept⟩, c, changes, hauth.bears, hedits,
                hdeact⟩
            · exact fun e f' hc hf => hbroken e f' hc hf

/-- `delete_account` compares the password before anything else, and sweeps the refresh tokens after
the row has been marked as deleted. -/
lemma deleteAccount_ends (tok : K) (dev password : String) :
    wp (onlooker x (.deleteAccount tok dev password)) (endpoint x (.deleteAccount tok dev password))
      (Ends (T := T) x (.deleteAccount tok dev password)) {} := by
  refine wp_authenticated rfl (fun f hf => hf) (fun _ _ _ => trivial)
    fun c t s₀ email cname hauth _ => ?_
  have hclean : ∀ e (f' : Progress T), f'.committed = [] → f'.sent = [] →
      Closes x (.deleteAccount tok dev password) (.error e) f' :=
    fun e f' hc hs => ⟨hc, .inr hs, .inr trivial⟩
  unfold UserService.deleteAccount UserRepository.getById
  rw [wp_bind, wp_bind]
  refine wp_select rfl (fun s row hrow => ?_) (hclean _ _ rfl rfl)
  cases row with
  | none => exact hclean _ _ rfl rfl
  | some user =>
    simp only [afterBind_ok]
    unfold verifyPassword
    rw [wp_bind, wp_bind]
    refine wp_checkpw trivial ?_
    rw [afterBind_ok, Program.wp_ofExcept]
    cases hver : x.pwdContext.verify password user.hashedPassword with
    | error e => exact hclean _ _ rfl rfl
    | ok b =>
      cases b with
      | false => exact hclean _ _ rfl rfl
      | true =>
        simp only [afterBind_ok, Bool.not_true, Bool.false_eq_true, if_false]
        have hid : user.id = c.sub := (Database.select_userById hrow.symm).2.1
        unfold UserRepository.softDelete
        rw [wp_bind, wp_bind]
        refine wp_utcnow trivial fun t' => ?_
        have hauth' := (hauth.calm (Calm.load _ s (some user))).calm (Calm.read _ t')
        rw [afterBind_ok, hid]
        set changes : UserPatch T :=
          { deletedAt := some t', status := changed user.status .withdrawn } with hchanges
        refine wp_flush ⟨rfl, ?_⟩ ?_ (.inl (by simp [Write.Total])) (hclean _ _ rfl rfl)
        · intro w hw
          rw [List.mem_singleton] at hw
          subst hw
          exact .inr ⟨c, hauth', rfl, s, user, t', rfl, hrow.symm, hver, rfl⟩
        · rw [afterBind_ok]
          refine wp_sweep ⟨rfl, ⟨c, hauth', rfl⟩, fun _ _ _ _ hq => by cases hq⟩ rfl
            (fun p hp => absurd hp List.not_mem_nil) (fun db => rfl) rfl
            (fun f' before ds hcalm hswept hdeact => ?_) (closes_broken rfl)
          exact ⟨hcalm.committed, ⟨rfl, c, hauth'.keep hcalm.checked fun _ => hcalm.mem_readings,
            hswept⟩, c, changes, hauth.bears, ⟨s, user, t', hcalm.account _ rfl, hrow.symm, hver,
            rfl⟩, hdeact⟩

/-- `list_devices` only reads. -/
lemma listDevices_ends (tok : K) (dev : String) :
    wp (onlooker x (.listDevices tok dev)) (endpoint x (.listDevices tok dev))
      (Ends (T := T) x (.listDevices tok dev)) {} := by
  refine wp_authenticated rfl (fun f hf => hf) (fun _ _ _ => trivial)
    fun c t s₀ email cname hauth hdev => ?_
  unfold DeviceService.getDevices UserDeviceRepository.getActiveDevices
  rw [wp_bind, wp_bind]
  refine wp_select rfl (fun s rows hrows => ?_) (closes_broken rfl _ _ ⟨rfl, rfl⟩)
  have hsel : rows = s.db.committed.select (.activeDevices c.sub) := hrows
  subst hsel
  exact ⟨rfl, ⟨rfl, rfl⟩, c, s, hauth.bears, hdev, rfl, rfl, rfl⟩

/-- `force_logout_device` refuses the device of its caller, then looks for an active row, and only
then deletes the refresh token. -/
lemma forceLogoutDevice_ends (tok : K) (dev target : String) :
    wp (onlooker x (.forceLogoutDevice tok dev target))
      (endpoint x (.forceLogoutDevice tok dev target))
      (Ends (T := T) x (.forceLogoutDevice tok dev target)) {} := by
  refine wp_authenticated rfl (fun f hf => hf) (fun _ _ he => .inl he)
    fun c t s₀ email cname hauth hdev => ?_
  unfold DeviceService.forceLogoutDevice UserDeviceRepository.getByUserAndDevice
  rw [wp_bind]
  by_cases hself : target = c.deviceId
  · simp only [hself, if_true]
    exact ⟨rfl, .inr rfl, .inr (.inr (.inl ⟨rfl, hdev⟩))⟩
  · simp only [hself, if_false]
    change wp _ (select _ >>= _) _ _
    rw [wp_bind]
    refine wp_select rfl (fun s row hrow => ?_) (closes_broken rfl _ _ ⟨rfl, rfl⟩)
    have hsel : s.db.committed.select (.deviceByUserAndDevice c.sub target) = row := hrow.symm
    have hmissing : (∀ device, row = some device → device.isActive = false) →
        ∀ f : Progress T, Authorised x (.forceLogoutDevice tok dev target) f c →
        f.devices = some s → Rejected x (.forceLogoutDevice tok dev target) .deviceNotFound f :=
      fun hrow' f hauth' hs => .inr (.inr ⟨rfl, c, s, hauth', hs, fun device hdevice =>
        hrow' device (hsel.symm.trans hdevice)⟩)
    cases row with
    | none =>
      refine ⟨rfl, .inr rfl, .inr (hmissing (fun device h => by cases h) _ ?_ rfl)⟩
      exact hauth.keep rfl fun _ h => h
    | some device =>
      cases hact : device.isActive with
      | false =>
        simp only [afterBind_ok, hact, Bool.not_false, if_true]
        refine ⟨rfl, .inr rfl, .inr (hmissing (fun device' h => ?_) _ ?_ rfl)⟩
        · cases h
          exact hact
        · exact hauth.keep rfl fun _ h => h
      | true =>
        simp only [afterBind_ok, hact, Bool.not_true, Bool.false_eq_true, if_false]
        have hauth' : Authorised x (.forceLogoutDevice tok dev target) (Progress.note
            { Progress.read {} t with checked := some s₀ } s
            (.select (.deviceByUserAndDevice c.sub target)) (.ok (some device))) c :=
          hauth.keep rfl fun _ h => h
        refine wp_signOut (.inr (.inl ⟨tok, dev, c, rfl, hauth', rfl⟩)) rfl rfl
          (fun f' before hcalm hout hdeact => ?_) (closes_broken rfl)
        exact ⟨hcalm.committed, ⟨rfl, c, hauth'.keep hcalm.checked fun _ => hcalm.mem_readings,
          hout⟩, c, hauth.bears, hdev, hdev ▸ hself, hdeact⟩

/-! ## Open endpoints -/

/-- `signup` inserts one row of `users`, or answers that the address is taken. -/
lemma signup_ends (email password name : String) (phone : Option String) (agreed : Bool) :
    wp (onlooker x (.signup email password name phone agreed))
      (endpoint x (.signup email password name phone agreed))
      (Ends (T := T) x (.signup email password name phone agreed)) {} := by
  refine wp_getDb ?_
  unfold AuthService.signup UserRepository.emailExists
  rw [wp_bind, wp_bind, wp_bind]
  refine wp_select rfl (fun s row hrow => ?_) (closes_broken rfl _ _ ⟨rfl, rfl⟩)
  cases row with
  | some user =>
    exact ⟨rfl, .inr rfl, .inr (.inl ⟨rfl, .inl ⟨s, user, rfl, hrow.symm⟩⟩)⟩
  | none =>
    simp only [afterBind_ok, wp_pure, Option.isSome_none, Bool.false_eq_true, if_false]
    rw [wp_bind]
    refine wp_utcnow trivial fun t => ?_
    rw [afterBind_ok, wp_bind]
    refine wp_uuid4 rfl fun id => ?_
    unfold hashPassword
    rw [afterBind_ok, wp_bind, wp_bind]
    refine wp_gensalt trivial fun salt => ?_
    rw [afterBind_ok, Program.wp_ofExcept]
    cases hhash : x.pwdContext.hash salt password with
    | error e => exact ⟨rfl, .inr rfl, .inr (.inr ⟨s, salt, rfl, hrow.symm, hhash⟩)⟩
    | ok hash =>
      simp only [afterBind_ok]
      unfold UserRepository.create
      rw [wp_bind, wp_tryCatch, wp_bind]
      set user : User T := ⟨id, email, hash, name, phone, none, .active, agreed, none, t, t, none⟩
        with huser
      have hreg : ∀ f : Progress T, f.drawn = [id] →
          Registers x (.signup email password name phone agreed) f user := fun f hf =>
        ⟨email, password, name, phone, agreed, salt, rfl, rfl, rfl, rfl, hhash, hf, rfl, rfl⟩
      refine wp_flush ⟨rfl, ?_⟩ ?_ (.inr fun s' hs' => ?_) (closes_broken rfl _ _ ⟨rfl, rfl⟩)
      · intro w hw
        rw [List.mem_singleton] at hw
        subst hw
        exact ⟨rfl, hreg _ rfl⟩
      · exact ⟨rfl, ⟨rfl, rfl⟩, user, hreg _ rfl, rfl, rfl⟩
      · rw [Ledger.accepts_singleton] at hs'
        refine ⟨rfl, .inr rfl, .inr (.inl ⟨rfl, .inr ⟨s, s', user, rfl, hrow.symm, hreg _ rfl, rfl,
          ?_⟩⟩)⟩
        exact Option.not_isSome_iff_eq_none.mp (Bool.eq_false_iff.mp hs')

/-- `create_access_token`, `create_refresh_token` and `store_refresh_token` in a row. -/
lemma wp_mint {α : Type} {u : Uuid} {email name d : String} {dname os app ip : Option String}
    (rest : K → K → Proc T α) {P : Except Exc α → Progress T → Prop}
    (hsent : f.sent = []) (hdrawn : f.drawn = []) (hlife : f.lifetime = none)
    (hopen : Opens x q f u d)
    (h : ∀ r a t made t' readings sent, (∀ t ∈ f.readings, t ∈ readings) → t ∈ readings →
      made ∈ readings →
      Stored x { f with
        drawn := [r, a], readings := readings, lifetime := some (made, t'), sent := sent } u d r →
      wp (onlooker x q) (rest
        (x.jwt.sign (JwtService.accessClaims x.settings u email name d t a))
        (x.jwt.sign (JwtService.refreshClaims x.settings u d made r))) P { f with
          drawn := [r, a], readings := readings, lifetime := some (made, t'), sent := sent })
    (hfail : ∀ e f', Broken f f' → P (.error e) f') :
    wp (onlooker x q) (do
      let at' ← JwtService.createAccessToken x u email name d
      let rt ← JwtService.createRefreshToken x u d
      TokenStore.storeRefreshToken u d rt.2.1 dname os app ip rt.2.2
      rest at'.1 rt.1) P f := by
  unfold JwtService.createAccessToken JwtService.createRefreshToken
  rw [wp_bind, wp_bind]
  refine wp_utcnow trivial fun t => ?_
  rw [afterBind_ok, wp_bind]
  refine wp_uuid4 hsent fun a => ?_
  simp only [afterBind_ok, wp_pure]
  rw [wp_bind, wp_bind]
  refine wp_utcnow trivial fun made => ?_
  rw [afterBind_ok, wp_bind]
  refine wp_uuid4 hsent fun r => ?_
  simp only [afterBind_ok, wp_pure]
  rw [wp_bind]
  set g : Progress T := { Progress.read { f.read t with drawn := a :: f.drawn } made with
    drawn := r :: a :: f.drawn } with hg
  have hdrawn' : g.drawn = [r, a] := by simp [hg, hdrawn]
  have hlife' : g.lifetime = none := by simp [hg, Progress.read, hdrawn, hlife]
  have hread : ∀ τ sent, ({ g.read τ with sent := sent } : Progress T) = { f with
      drawn := [r, a], readings := τ :: made :: t :: f.readings, lifetime := some (made, τ)
      sent := sent } := by
    intro τ sent
    simp [hg, Progress.read, hdrawn, hlife]
  have hr : ∀ τ, ∀ t' ∈ f.readings, t' ∈ τ :: made :: t :: f.readings := fun τ t' ht' => by
    simp [ht']
  refine wp_storeRefreshToken hsent (hopen.keep rfl fun _ ha => ha) hdrawn' hlife' rfl
    (fun τ hτ => ?_) (fun τ s s' data hdata => ?_)
    fun e f' hf => hfail e f' ⟨hf.failed, hf.committed⟩
  · have hok := h r a t made τ _ f.sent (hr τ) (by simp) (by simp)
      ⟨made, τ, rfl, .inr ⟨hsent, hτ⟩⟩
    rw [← hread τ] at hok
    exact hok
  · have hok := h r a t made τ _ _ (hr τ) (by simp) (by simp)
      ⟨made, τ, rfl, .inl ⟨s, s', data, rfl, hdata⟩⟩
    rw [← hread τ] at hok
    exact hok

/-- After the comparison, `refresh` draws two ids and stores the successor. -/
lemma rotate_ends {tok : K} {client : ClientInfo} {c : Claims}
    (hq : q = .refresh tok client) (hver : x.jwt.verify tok = some c)
    (hm : Matched x q f c) (hval : Valid x f c) (hsent : f.sent = [])
    (hdrawn : f.drawn = []) (hlife : f.lifetime = none) (hacc : f.account = none)
    (hwrote : f.wrote = []) (hc : f.committed = []) (dname os app ip : Option String) :
    wp (onlooker x q) (do
      let result ← AuthService.rotate x c.sub c.deviceId dname os app ip
      pure (Response.refresh result)) (Closes x q) f := by
  subst hq
  unfold AuthService.rotate UserRepository.getById
  rw [wp_bind, wp_bind]
  refine wp_select hc (fun s' row hrow => ?_) (closes_broken hc _ _ ⟨rfl, rfl⟩)
  rw [hwrote] at hrow
  have hsel : s'.db.committed.select (.userById c.sub) = row := hrow.symm
  have hload : (f.load s' row).account = some (s', row) := by simp [Progress.load, hacc]
  cases row with
  | none =>
    refine ⟨hc, .inr (.inr ⟨hsent, fun c' hc' => ?_⟩), .inr trivial⟩
    rw [hver] at hc'
    cases hc'
    exact .inr (.inr ⟨hm.keep rfl, s', hload, hsel⟩)
  | some user =>
    simp only [afterBind_ok]
    have hid : user.id = c.sub := (Database.select_userById hsel).2.1
    have hrot : Rotating x (.refresh tok client) (f.load s' (some user)) c :=
      ⟨hm.keep rfl, s', user, hload, hsel⟩
    refine wp_mint (f := f.load s' (some user))
      (fun a r => pure (TokenResponse.mk a r "Bearer" _ _)) hsent hdrawn hlife
      (.inr ⟨c, hrot, hid, rfl⟩) ?_ (closes_broken hc)
    intro r a t made t' readings sent hr ht hmade hst
    rw [hid] at hst
    refine ⟨hc, ⟨c, ⟨hrot.1.keep rfl, s', user, hload, hsel⟩, hval.of_readings hr, r, a, made, t,
      user.email, user.name, rfl, ht, hmade, ?_, ⟨t', rfl⟩, hst⟩, ?_⟩
    · rw [← hid]
      rfl
    · change f.committed ++ f.wrote = []
      rw [hc, hwrote]
      rfl

/-- `refresh` hands out a successor, deletes the stored token if a superseded one is presented, or
leaves everything as it is. -/
lemma refresh_ends (tok : K) (client : ClientInfo) :
    wp (onlooker x (.refresh tok client)) (endpoint x (.refresh tok client))
      (Ends (T := T) x (.refresh tok client)) {} := by
  refine wp_getDb ?_
  unfold AuthService.refresh
  rw [wp_bind, wp_bind]
  have hrefuse : ∀ e (f' : Progress T), f'.committed = [] → (f'.failed = true ∨
      Refused x (.refresh tok client) { f' with wrote := [] }) →
      Closes x (.refresh tok client) (.error e) f' := fun e f' hc hf => ⟨hc, hf, .inr trivial⟩
  refine wp_decodeRefreshToken (fun c t hv ht hval => ?_) (fun e hv => ?_) fun e c t hv hbad => ?_
  · simp only [afterBind_ok]
    by_cases hd : c.deviceId = client.xDeviceId
    · rw [if_neg (not_not_intro hd), wp_bind, ← hd]
      have hpres : Presents x (.refresh tok client) c := ⟨tok, client, rfl, hv, ht, hd⟩
      have hvalid : Valid x (Progress.read {} t) c := ⟨t, List.mem_cons_self, hval⟩
      unfold TokenStore.getRefreshToken
      rw [wp_bind]
      refine wp_redis ⟨rfl, rfl, rfl, rfl, c, hpres, hvalid, rfl⟩ rfl (fun s => ?_)
        (hrefuse _ _ rfl (.inl rfl))
      set g : Progress T := (Progress.read {} t).note s
        (.redis (.get (.refresh c.sub c.deviceId)))
        (.ok (s.redis.answer s.now (.get (.refresh c.sub c.deviceId)))) with hg
      have hlook : LookedUp g s c.sub c.deviceId := rfl
      have hnone : s.session c.sub c.deviceId = none → ∀ e, Closes x (.refresh tok client)
          (.error e) g := by
        intro hs e
        refine hrefuse e g rfl (.inr (.inr ⟨rfl, fun c' hc => ?_⟩))
        rw [hv] at hc
        cases hc
        exact .inr (.inl ⟨s, hlook, hs⟩)
      rw [afterBind_ok]
      cases hfound : s.redis.answer s.now (.get (.refresh c.sub c.deviceId)) with
      | none =>
        have hlk : s.redis.lookup s.now (.refresh c.sub c.deviceId) = none := hfound
        exact hnone (by simp [Stores.session, hlk]) _
      | some doc =>
        have hlk : s.redis.lookup s.now (.refresh c.sub c.deviceId) = some doc := hfound
        cases doc with
        | blacklistEntry data => exact hnone (by simp [Stores.session, hlk]) _
        | refreshToken data =>
          have hs : s.session c.sub c.deviceId = some data.tokenId := by
            simp [Stores.session, hlk]
          simp only [wp_pure, afterBind_ok]
          by_cases hj : data.tokenId = c.jti
          · rw [if_neg (not_not_intro hj)]
            have hm : Matched x (.refresh tok client) g c := ⟨hpres, s, hlook, hj ▸ hs⟩
            have h := rotate_ends rfl hv hm hvalid rfl rfl rfl rfl rfl rfl client.xDeviceName
              client.xOsType client.xAppVersion client.clientIp
            rwa [wp_bind] at h
          · rw [if_pos hj, wp_bind]
            have hreuse : Reuse x (.refresh tok client) g c :=
              ⟨hpres, s, data.tokenId, hlook, hs, hj⟩
            refine wp_deleteRefreshToken (.inr (.inr ⟨c, hreuse, rfl, rfl⟩)) (fun t₁ t₂ => ?_)
              (closes_broken rfl)
            exact hrefuse _ _ rfl (.inr (.inl ⟨c, hreuse, t₁, t₂, rfl⟩))
    · rw [if_pos hd]
      refine hrefuse _ _ rfl (.inr (.inr ⟨rfl, fun c' hc => ?_⟩))
      rw [hv] at hc
      cases hc
      exact .inl ⟨rfl, .inr (.inr hd)⟩
  · refine hrefuse _ _ rfl (.inr (.inr ⟨rfl, fun c hc => ?_⟩))
    rw [hv] at hc
    cases hc
  · refine hrefuse _ _ rfl (.inr (.inr ⟨rfl, fun c' hc => ?_⟩))
    rw [hv] at hc
    cases hc
    rcases hbad with hbad | hbad
    · exact .inl ⟨rfl, .inl ⟨t, List.mem_cons_self, hbad⟩⟩
    · exact .inl ⟨rfl, .inr (.inl hbad)⟩

/-- After both checks, `login` writes its rows, draws the tokens and stores the refresh token. -/
lemma openSession_ends {email password : String} {client : ClientInfo} {user : User T}
    {s₀ : Stores T} (hq : q = .login email password client)
    (hacc : f.account = some (s₀, some user))
    (hsel : s₀.db.committed.select (.userByEmail email) = some user)
    (hver : x.pwdContext.verify password user.hashedPassword = .ok true)
    (hact : user.status = .active) (hchecks : f.checks = 1) (hsent : f.sent = [])
    (hdrawn : f.drawn = []) (hlife : f.lifetime = none) (hwrote : f.wrote = [])
    (hc : f.committed = []) (dname : Option String) (os : String)
    (osVersion app agent : Option String) :
    wp (onlooker x q) (do
      let result ← AuthService.openSession x user client.xDeviceId dname os osVersion app
        client.clientIp agent
      pure (Response.login result)) (Closes x q) f := by
  subst hq
  have hlogin : LoggedIn x (.login email password client) f user.id client.xDeviceId :=
    ⟨email, password, client, s₀, user, rfl, rfl, hacc, rfl, hsel, hver, hact⟩
  unfold AuthService.openSession
  rw [wp_bind, wp_bind]
  refine wp_upsertDevice hlogin hwrote hc (fun f₁ s write h₁ hs₁ hup hw₁ => ?_)
    (fun f₁ s s' device h₁ hs₁ hup href hins => ?_) (closes_broken hc)
  · rw [afterBind_ok, wp_bind]
    refine wp_updateLastLogin (hlogin.keep h₁.account) (h₁.committed.trans hc)
      (fun f₂ last h₂ hs₂ hw₂ hlast => ?_) (closes_broken (h₁.committed.trans hc))
    have hcalm : Calm f f₂ := h₁.trans h₂
    have hopen : LoggedIn x (.login email password client) f₂ user.id client.xDeviceId :=
      hlogin.keep hcalm.account
    have hlife₂ : f₂.lifetime = none := by
      rw [hcalm.lifetime (by simp [hdrawn]), hlife]
    have hc₂ : f₂.committed = [] := hcalm.committed.trans hc
    simp only [afterBind_ok]
    refine wp_mint (fun a r => LoginHistoryRepository.create (some user.id) client.xDeviceId
        client.clientIp agent (some os) app true none >>= fun _ =>
          pure (LoginResponse.mk a r "Bearer" _ _ _))
      (hcalm.sent.trans hsent) (hcalm.drawn.trans hdrawn) hlife₂ (.inl hopen) ?_
      (closes_broken hc₂)
    intro r a t made t' readings sent hr ht hmade hst
    rw [wp_bind]
    refine wp_loginHistory rfl hc₂
      (fun _ => ⟨user.id, r, hopen.keep fun _ h => h, List.mem_cons_self, hst⟩)
      (fun f₄ row h₄ hs₄ hw₄ hru hrd hsuccess hreason hip => ?_)
      fun e f' hf => closes_broken hc₂ e f' ⟨hf.failed, hf.committed⟩
    have hlt₄ : f₄.lifetime = some (made, t') := h₄.lifetime fun _ => rfl
    have hlogin₄ : LoggedIn x (.login email password client) f₄ user.id client.xDeviceId :=
      hopen.keep h₄.account
    have hst₄ : Stored x f₄ user.id client.xDeviceId r := hst.calm h₄
    refine ⟨h₄.committed.trans hc₂, ⟨user.id, hlogin₄, r, a, made, t, user.email, user.name,
      h₄.drawn, h₄.mem_readings ht, h₄.mem_readings hmade, rfl, ⟨t', hlt₄⟩, ?_⟩, ?_⟩
    · exact hst₄
    · refine ⟨user.id, s, write, last, row, hlogin₄, (hs₄.trans hs₂).trans hs₁, hup, ?_, hlast, hru,
        hrd, hsuccess, hreason, (h₄.checks.trans hcalm.checks).trans hchecks, hip⟩
      change f₄.committed ++ f₄.wrote = _
      rw [h₄.committed, hw₄]
      change f₂.committed ++ (f₂.wrote ++ _) = _
      rw [hc₂, hw₂, hw₁]
      rfl
  · refine ⟨h₁.committed.trans hc, .inr (h₁.sent.trans hsent), .inr ⟨s₀, ?_, ?_⟩⟩
    · rw [hsel]
      exact h₁.account _ hacc
    · rw [hsel]
      exact ⟨h₁.checks.trans hchecks, .inr (.inr ⟨hver, .inr (.inr ⟨hact, rfl, s, s', device, hs₁,
        hup, href, hins⟩)⟩)⟩

/-- `login` opens a session, or records the rejected attempt in a row that is rolled back. -/
lemma login_ends (email password : String) (client : ClientInfo) :
    wp (onlooker x (.login email password client)) (endpoint x (.login email password client))
      (Ends (T := T) x (.login email password client)) {} := by
  refine wp_getDb ?_
  unfold AuthService.login AuthService.checkCredentials UserRepository.getByEmail
  rw [wp_bind, wp_bind, wp_bind]
  refine wp_select rfl (fun s row hrow => ?_) (closes_broken rfl _ _ ⟨rfl, rfl⟩)
  have hsel : s.db.committed.select (.userByEmail email) = row := hrow.symm
  have hreject : ∀ e (f' : Progress T), f'.account = some (s, row) → f'.checks = 1 →
      f'.committed = [] → f'.sent = [] → LoginRejected x password client.xDeviceId
        { f' with wrote := [] } e row →
      Closes x (.login email password client) (.error e) f' := by
    intro e f' hacc hchecks hc hsent hrej
    refine ⟨hc, .inr hsent, .inr ⟨s, ?_, hchecks, ?_⟩⟩
    · rw [hsel]
      exact hacc
    · rw [hsel]
      exact hrej
  have hbad : ∀ (g : Progress T) (u : Option Uuid), g.account = some (s, row) → g.checks = 1 →
      g.committed = [] → g.sent = [] →
      (∀ f' : Progress T, LoginRejected x password client.xDeviceId f' .invalidCredentials row) →
      wp (onlooker x (.login email password client)) (do
        LoginHistoryRepository.create u client.xDeviceId client.clientIp client.userAgent
          (some (client.xOsType.getD "unknown")) client.xAppVersion false
          (some "INVALID_CREDENTIALS")
        (throw .invalidCredentials : Proc T (LoginResponse K)))
      (Program.afterBind (onlooker x (.login email password client))
        (fun result => pure (Response.login result))
        (Closes x (.login email password client))) g := by
    intro g u hacc hchecks hc hsent hrej
    rw [wp_bind]
    refine wp_loginHistory rfl hc (fun hsuccess => by cases hsuccess)
      (fun g' _ hcalm _ _ _ _ _ _ _ => ?_) (closes_broken hc)
    exact hreject _ g' (hcalm.account _ hacc) (hcalm.checks.trans hchecks)
      (hcalm.committed.trans hc) (hcalm.sent.trans hsent) (hrej _)
  rw [afterBind_ok]
  unfold verifyPassword
  cases row with
  | none =>
    simp only
    rw [wp_bind, wp_bind]
    refine wp_checkpw trivial ?_
    rw [afterBind_ok, Program.wp_ofExcept]
    cases hver : x.pwdContext.verify password x.dummyHash with
    | error e => exact hreject e _ rfl rfl rfl rfl (.inr hver)
    | ok b => exact hbad _ none rfl rfl rfl rfl fun _ => .inl ⟨b, hver, rfl⟩
  | some user =>
    simp only
    rw [wp_bind, wp_bind]
    refine wp_checkpw trivial ?_
    rw [afterBind_ok, Program.wp_ofExcept]
    cases hver : x.pwdContext.verify password user.hashedPassword with
    | error e => exact hreject e _ rfl rfl rfl rfl (.inr (.inl hver))
    | ok b =>
      cases b with
      | false => exact hbad _ (some user.id) rfl rfl rfl rfl fun _ => .inl ⟨hver, rfl⟩
      | true =>
        simp only [afterBind_ok, wp_pure]
        by_cases hin : user.status = .inactive
        · rw [if_pos hin]
          exact hreject _ _ rfl rfl rfl rfl (.inr (.inr ⟨hver, .inl ⟨hin, rfl⟩⟩))
        rw [if_neg hin]
        by_cases hwi : user.status = .withdrawn
        · rw [if_pos hwi]
          exact hreject _ _ rfl rfl rfl rfl (.inr (.inr ⟨hver, .inr (.inl ⟨hwi, rfl⟩)⟩))
        rw [if_neg hwi]
        have hact : user.status = .active := by
          cases hst : user.status with
          | active => rfl
          | inactive => exact absurd hst hin
          | withdrawn => exact absurd hst hwi
        have h := openSession_ends (q := .login email password client)
          (f := { Progress.load {} s (some user) with checks := 1 }) rfl rfl hsel hver hact rfl rfl
          rfl rfl rfl rfl client.xDeviceName (client.xOsType.getD "unknown") client.xOsVersion
          client.xAppVersion client.userAgent
        rwa [wp_bind] at h

/-- Every endpoint keeps the contract. -/
theorem endpoint_conforms (x : Externals K) (q : Request K) :
    wp (onlooker x q) (endpoint x q) (Ends (T := T) x q) {} := by
  cases q with
  | signup email password name phone agreed => exact signup_ends email password name phone agreed
  | login email password client => exact login_ends email password client
  | refresh tok client => exact refresh_ends tok client
  | logout tok dev => exact logout_ends tok dev
  | logoutAll tok dev => exact logoutAll_ends tok dev
  | getMe tok dev => exact getMe_ends tok dev
  | updateMe tok dev name phone => exact updateMe_ends tok dev name phone
  | changePassword tok dev current new => exact changePassword_ends tok dev current new
  | deleteAccount tok dev password => exact deleteAccount_ends tok dev password
  | listDevices tok dev => exact listDevices_ends tok dev
  | forceLogoutDevice tok dev target => exact forceLogoutDevice_ends tok dev target

end SampleAuthApi
