import SampleAuthApi.Model.Scripts
import SampleAuthApi.Sessions.Gate
import SampleAuthApi.Sessions.Indexes
import SampleAuthApi.Sessions.Touch
import SampleAuthApi.Sessions.Waiting

/-!
# Concurrent logins from one device

`concurrent_logins_succeed`: any number of concurrent logins of one user from one device all return
a token pair and leave one active row for the device, in every run in which a login looks up the
row of its device, while there is none, only when no other login that has found none has yet to
commit.  `rivals_collide` is a run without that condition.

The invariant is that at most one login has found no row and has not committed, and that there is
still no row while there is one (`Contest.sole`).  Only this login inserts the row, so its insert
cannot be refused, and every other login updates a row that is there.  A race that comes to a halt
has answered every login, since logins take their rows table by table
(`Contest.quiescent_of_stuck`).
-/

namespace SampleAuthApi

open Transactions Pool

variable {T K : Type} [Instant T]

/-! ## The race -/

/-- The request is a login with this email and password from the device `d`. -/
def LogsIn (email password d : String) (q : Request K) : Prop :=
  ∃ client, q = .login email password client ∧ client.xDeviceId = d

/-- Only logins with this email and password from the device `d` arrive, Redis and the database can
be reached, and no administrator is at work. -/
def Contending (email password d : String) (w : World T K) (e : Event (Request K) (Choice T)) :
    Prop :=
  Smooth w e ∧ ∀ q, e = .start q → LogsIn email password d q

/-- The request has looked device rows up before the device `d` of `u` had one, and has not
committed yet. -/
def Misses (u : Uuid) (d : String) (f : Progress T) : Prop :=
  f.committed = [] ∧ ∃ s, f.devices = some s ∧ ¬ s.db.committed.Has (.device u d)

/-- A request looks device rows up, while the device `d` of `u` has none, only when no other request
that has found none has yet to commit. -/
def Unrivalled (u : Uuid) (d : String) (w : World T K) (e : Event (Request K) (Choice T)) : Prop :=
  ∀ i c q f o, e = .step i c → NextCall w i q f o → o.readsDevices = true →
    ¬ w.shared.db.committed.Has (.device u d) →
    ∀ j q' g, j ≠ i → serving w j = some (q', g) → ¬ Misses u d g

/-- The email is that of the active user `u`, and the password verifies. -/
def Known (x : Externals K) (email password : String) (u : Uuid) (db : Database T) : Prop :=
  ∃ user, db.select (.userByEmail email) = some user ∧ user.id = u ∧ user.status = .active ∧
    x.pwdContext.verify password user.hashedPassword = .ok true

/-- The statements of a login of `u` from `d`, given the database `db` and whether the login has
found no row. -/
def Fits (u : Uuid) (d : String) (db : Database T) (misses : Prop) : Write T → Prop
  | .insertUser _ => False
  | .updateUser _ changes => ∃ t, changes = { lastLoginAt := some t }
  | .insertDevice device =>
    device.userId = u ∧ device.deviceId = d ∧ device.isActive = true ∧ misses
  | .updateDevice u' d' changes => u' = u ∧ d' = d ∧ db.Has (.device u d) ∧
    (changes.isActive = some true ∨ (changes.isActive = none ∧ db.Active u d))
  | .insertHistory _ => True

section Statements

omit [Instant T]

variable {u : Uuid} {d email password : String} {db db' : Database T} {misses : Prop} {wr : Write T}
  {ws : List (Write T)}

lemma Fits.mono {misses' : Prop} (h : Fits u d db misses wr)
    (hhas : db.Has (.device u d) → db'.Has (.device u d))
    (hactive : db.Active u d → db'.Active u d) (hmiss : misses → misses') :
    Fits u d db' misses' wr := by
  cases wr with
  | insertUser user => exact h
  | updateUser id changes => exact h
  | insertDevice device => exact ⟨h.1, h.2.1, h.2.2.1, hmiss h.2.2.2⟩
  | updateDevice u' d' changes =>
    obtain ⟨hu, hd, hrow, hact⟩ := h
    exact ⟨hu, hd, hhas hrow, hact.imp id fun hact => ⟨hact.1, hactive hact.2⟩⟩
  | insertHistory row => exact trivial

lemma Fits.dates (h : Fits u d db misses wr) : Dates wr := by
  cases wr with
  | insertUser user => exact h.elim
  | updateUser id changes =>
    obtain ⟨t, rfl⟩ := h
    exact .inr ⟨id, t, rfl⟩
  | _ => exact .inl (by simp [Write.table])

/-- A statement of a login keeps the row of its device active, and makes it active if it is one on
device rows. -/
lemma Fits.active (h : Fits u d db misses wr) (happ : Database.apply wr db = some db') :
    (db.Active u d → db'.Active u d) ∧ (wr.table = .userDevices → db'.Active u d) := by
  cases wr with
  | insertUser user => exact h.elim
  | updateUser id changes =>
    cases happ
    exact ⟨fun hact => hact, fun htable => by cases htable⟩
  | insertDevice device =>
    obtain ⟨hu, hd, hact, -⟩ := h
    simp only [Database.apply, Database.insertDevice] at happ
    split at happ
    · cases happ
      have hmem : device ∈ db.devices ++ [device] :=
        List.mem_append_right _ (List.mem_singleton_self _)
      exact ⟨fun _ => ⟨device, hmem, hu, hd, hact⟩, fun _ => ⟨device, hmem, hu, hd, hact⟩⟩
    · cases happ
  | updateDevice u' d' changes =>
    obtain ⟨rfl, rfl, hrow, hact⟩ := h
    cases happ
    have hnew : (db.updateDevice u' d' changes).Active u' d' := by
      rw [Database.active_updateDevice_self]
      rcases hact with hact | ⟨hnone, row, hmem, hu, hd, hact⟩
      · obtain ⟨row, hmem, hu, hd⟩ := Database.has_device.mp hrow
        exact ⟨row, hmem, hu, hd, by rw [hact]; rfl⟩
      · exact ⟨row, hmem, hu, hd, by rw [hnone]; exact hact⟩
    exact ⟨fun _ => hnew, fun _ => hnew⟩
  | insertHistory row =>
    cases happ
    exact ⟨fun hact => hact, fun htable => by cases htable⟩

/-- The statements of a login keep the row of its device active, and make it active if one of them
is on device rows. -/
lemma active_of_fits (hacc : Ledger.accepts Database.apply ws db = true)
    (hfit : ∀ wr ∈ ws, Fits u d db misses wr)
    (h : db.Active u d ∨ ∃ wr ∈ ws, wr.table = .userDevices) :
    (Ledger.applyAll Database.apply ws db).Active u d := by
  induction ws generalizing db with
  | nil =>
    rcases h with h | ⟨wr, hwr, -⟩
    · exact h
    · cases hwr
  | cons wr ws ih =>
    cases happ : Database.apply wr db with
    | none => simp [Ledger.accepts, happ] at hacc
    | some db' =>
      have hrest : Ledger.accepts Database.apply ws db' = true := by
        simpa [Ledger.accepts, happ] using hacc
      have hthis := hfit wr List.mem_cons_self
      obtain ⟨hkeep, hmake⟩ := hthis.active happ
      have hhas : db.Has (.device u d) → db'.Has (.device u d) := fun hrow =>
        (Database.has_apply happ).mpr (.inl hrow)
      rw [Ledger.applyAll_cons, happ, Option.getD_some]
      refine ih hrest (fun wr' hwr' => ?_) ?_
      · exact (hfit wr' (List.mem_cons_of_mem _ hwr')).mono hhas hkeep id
      · rcases h with hact | ⟨wr', hwr', htable⟩
        · exact .inl (hkeep hact)
        · rcases List.mem_cons.mp hwr' with rfl | hwr'
          · exact .inl (hmake htable)
          · exact .inr ⟨wr', hwr', htable⟩

/-- Statements that change a user at most by the date of the last login keep its email, its status
and its password. -/
lemma Known.applyAll {x : Externals K} (h : Known x email password u db)
    (hws : ∀ wr ∈ ws, Dates wr) :
    Known x email password u (Ledger.applyAll Database.apply ws db) := by
  induction ws generalizing db with
  | nil => exact h
  | cons wr ws ih =>
    rw [Ledger.applyAll_cons]
    refine ih ?_ fun w hw => hws w (List.mem_cons_of_mem _ hw)
    obtain ⟨user, hsel, hid, hactive, hver⟩ := h
    rcases hws wr List.mem_cons_self with htable | ⟨v, t, rfl⟩
    · refine ⟨user, ?_, hid, hactive, hver⟩
      rwa [Database.select, Database.users_apply htable]
    · change Known x email password u (db.updateUser v { lastLoginAt := some t })
      refine ⟨if user.id = v then UserPatch.apply { lastLoginAt := some t } user else user, ?_, ?_⟩
      · rw [Database.select_userByEmail_updateUser rfl, hsel]
        rfl
      · split <;> exact ⟨hid, hactive, hver⟩

end Statements

/-! ## The invariant -/

/-- What is known of a login that has arrived since the race began, in a state with the database
`db`. -/
structure Contender (x : Externals K) (email password : String) (u : Uuid) (d : String)
    (db : Database T) (q : Request K) (f : Progress T) : Prop where
  login : LogsIn email password d q
  failed : f.failed = false
  /-- The user was there whenever the login has read, and a device row that was active is still
  active. -/
  seen : ∀ s, f.Recalls s → Known x email password u s.db.committed ∧
    (s.db.committed.Active u d → db.Active u d)
  /-- A login commits once. -/
  once : f.wrote = [] ∨ f.committed = []
  wrote : ∀ wr ∈ f.wrote, Fits u d db (Misses u d f) wr
  /-- A login that has committed has left the row of the device active. -/
  committed : f.committed ≠ [] → db.Active u d
  /-- No insert was refused because of its key. -/
  refused : ∀ s ws, f.refused = some (s, ws) → ∀ device, .insertDevice device ∈ ws →
    ¬ s.db.committed.Has (.device device.userId device.deviceId)

/-- What holds during the race. -/
structure Contest (x : Externals K) (email password : String) (u : Uuid) (d : String)
    (w₀ w : World T K) : Prop where
  known : Known x email password u w.shared.db.committed
  since : Since w₀ (Contender x email password u d w.shared.db.committed) w
  /-- Of the logins that have found no row, at most one has not committed, and there is still no
  row while there is one. -/
  sole : ∀ i q f, serving w i = some (q, f) → Misses u d f →
    ¬ w.shared.db.committed.Has (.device u d) ∧
    ∀ j q' g, serving w j = some (q', g) → Misses u d g → j = i

section Race

variable {x : Externals K} {email password d : String} {u : Uuid} {w₀ w w' : World T K}
  {e : Event (Request K) (Choice T)} {q : Request K} {f f' : Progress T} {db db₀ : Database T}

omit [Instant T] in
/-- A login that has loaded a user is one of the known user from its own device. -/
lemma Contender.loggedIn (h : Contender x email password u d db q f) {v : Uuid} {d' : String}
    (hlogin : LoggedIn x q f v d') : v = u ∧ d' = d := by
  obtain ⟨client, rfl, rfl⟩ := h.login
  obtain ⟨email', password', client', s, user, hq, rfl, hacc, rfl, hsel, -⟩ := hlogin
  cases hq
  obtain ⟨user', hsel', hid, -⟩ := (h.seen s (.inl ⟨_, hacc⟩)).1
  rw [hsel] at hsel'
  cases hsel'
  exact ⟨hid, rfl⟩

/-- What a login may flush. -/
lemma Contender.mayWrite (h : Contender x email password u d db q f)
    (hseen : ∀ s, f.devices = some s → s.db.committed.Has (.device u d) → db.Has (.device u d))
    (hnone : f.committed = []) {wr : Write T} (hmay : MayWrite x q f wr) :
    Fits u d db (Misses u d f) wr := by
  have hlogin : q.isLogin = true := by
    obtain ⟨client, rfl, -⟩ := h.login
    rfl
  cases wr with
  | insertUser user =>
    obtain ⟨-, _, _, _, _, _, _, rfl, -⟩ := hmay
    cases hlogin
  | updateUser id changes =>
    rcases hmay with ⟨d', t, -, rfl⟩ | ⟨c, hauth, -⟩
    · exact ⟨t, rfl⟩
    · obtain ⟨client, rfl, -⟩ := h.login
      obtain ⟨tok, dev, hb, -⟩ := hauth
      cases hb
  | insertDevice device =>
    obtain ⟨-, hlog, s, hs, hu, hd, hact, hmiss⟩ := hmay
    obtain ⟨hu', hd'⟩ := h.loggedIn hlog
    refine ⟨hu', hd', hact, hnone, s, hs, ?_⟩
    rw [← hu', ← hd', Database.has_device]
    rintro ⟨r, hr, hru, hrd⟩
    exact Database.select_device_eq_none.mp hmiss r hr ⟨hru, hrd⟩
  | updateDevice u' d' changes =>
    rcases hmay with ⟨-, hlog, s, hs, -, -, row, hsel, hchanges⟩ | ⟨hdel | hsweep, -⟩
    · obtain ⟨rfl, rfl⟩ := h.loggedIn hlog
      have hrow : s.db.committed.Has (.device u' d') := by
        obtain ⟨hu, hd⟩ := Database.select_device hsel
        exact Database.has_device.mpr ⟨row, Database.mem_of_select_device hsel, hu, hd⟩
      refine ⟨rfl, rfl, hseen s hs hrow, ?_⟩
      rw [hchanges, changed]
      split
      · rename_i hact
        have hrow := (Database.active_of_select hsel).mpr hact.symm
        exact .inr ⟨rfl, (h.seen s (.inr (.inl hs))).2 hrow⟩
      · exact .inl rfl
    · rcases hdel with ⟨_, _, _, rfl, -⟩ | ⟨_, _, _, rfl, -⟩ | ⟨c, ⟨⟨_, _, rfl, -⟩, -⟩, -⟩ <;>
        cases hlogin
    · obtain ⟨client, rfl, -⟩ := h.login
      cases hsweep.1
  | insertHistory row => trivial

/-- A login that has found no row has still found none after a query of its own for device rows. -/
lemma Misses.effect {i : ℕ} {c : Choice T} {o : Op T} {s s' : Stores T} (h : Misses u d f)
    (heff : Effect i c s f o f' s') (hs : ¬ s.db.committed.Has (.device u d))
    (hc : f'.committed = f.committed) : Misses u d f' := by
  obtain ⟨hnone, hdev⟩ := h
  refine ⟨hc.trans hnone, ?_⟩
  rcases heff.devices with hsame | ⟨-, rfl, -⟩
  · rwa [hsame]
  · exact ⟨s, rfl, hs⟩

omit [Instant T] in
/-- A login that commits has a statement on device rows, or has committed one before. -/
lemma Contender.upserts {resp : Response T K} (h : Contender x email password u d db q f)
    (hrec : Recorded x q resp f.commit) :
    f.commit.committed ≠ [] ∧ (f.committed ≠ [] ∨ ∃ wr ∈ f.wrote, wr.table = .userDevices) := by
  obtain ⟨client, rfl, rfl⟩ := h.login
  obtain ⟨v, s, write, last, row, -, -, hup, hcommitted, -⟩ := hrec
  refine ⟨by rw [hcommitted]; exact List.cons_ne_nil _ _, ?_⟩
  by_cases hnone : f.committed = []
  · refine .inr ⟨write, ?_, hup.table⟩
    have hwrote : f.wrote = write :: (last ++ [.insertHistory row]) := by
      rw [← hcommitted, Progress.commit, hnone, List.nil_append]
    rw [hwrote]
    exact List.mem_cons_self
  · exact .inl hnone

variable [DecidableEq K]

/-- The database stays one of the known user, and the row of the device stays active. -/
lemma Contest.database (hw : Contest x email password u d w₀ w) (hsound : Sound x w)
    (hent : Entered db₀ w) (hu : Unattended e) (h : Change x w e w') :
    Known x email password u w'.shared.db.committed ∧
    (w.shared.db.committed.Active u d → w'.shared.db.committed.Active u d) := by
  rcases h.committed hu hsound with hsame | ⟨i, q, f, resp, hi, -, -, -, hcommitted⟩
  · rw [hsame]
    exact ⟨hw.known, id⟩
  · have hfit := (hw.since.served i q f hi).wrote
    have hown : w.shared.db.own i = f.wrote := by rw [hsound.own, hi]; rfl
    have hacc := hent.exclusive.accepted index i
    rw [hown] at hacc
    rw [hcommitted]
    exact ⟨hw.known.applyAll fun wr hwr => (hfit wr hwr).dates,
      fun hact => active_of_fits hacc hfit (.inl hact)⟩

omit [DecidableEq K] in
/-- The rows that a commit adds are those of a login that has found none. -/
lemma Contest.has_commit (hw : Contest x email password u d w₀ w) (hsound : Sound x w)
    (hent : Entered db₀ w) {i : ℕ} (hi : serving w i = some (q, f)) :
    (w.shared.db.commit Database.apply i).committed.Has (.device u d) →
      w.shared.db.committed.Has (.device u d) ∨ Misses u d f := by
  intro hhas
  refine ((hent.has_commit hsound hi _).mp hhas).imp id ?_
  rintro ⟨wr, hwr, hentry⟩
  have hfit := (hw.since.served i q f hi).wrote wr hwr
  cases wr with
  | insertUser user => exact hfit.elim
  | insertDevice device => exact hfit.2.2.2
  | _ => cases hentry

/-- A call of a login keeps what is known of it. -/
lemma Contest.contender_step (hw : Contest x email password u d w₀ w) (hsound : Sound x w)
    (hent : Entered db₀ w) (hK : Smooth w e) (h : Change x w e w') {i : ℕ} {c : Choice T} {o : Op T}
    (he : e = .step i c) (hnext : NextCall w i q f o) (hmay : MayCall x q f o)
    (heff : Effect i c w.shared f o f' w'.shared)
    (hf : Contender x email password u d w.shared.db.committed q f) :
    Contender x email password u d w'.shared.db.committed q f' := by
  have hi := hnext.serving
  obtain ⟨-, hactive⟩ := hw.database hsound hent hK.2 h
  have hhas : w.shared.db.committed.Has (.device u d) → w'.shared.db.committed.Has (.device u d) :=
    hent.has_mono hsound h
  have hseen : ∀ s, f.devices = some s → s.db.committed.Has (.device u d) →
      w.shared.db.committed.Has (.device u d) := fun s hs =>
    hent.recalled.served i q f hi s (.inr (.inl hs)) _
  have hold : f'.committed = f.committed → ∀ wr ∈ f.wrote,
      Fits u d w'.shared.db.committed (Misses u d f') wr := fun hc wr hwr =>
    (hf.wrote wr hwr).mono hhas hactive fun hmiss => hmiss.effect heff (hw.sole i q f hi hmiss).1 hc
  refine ⟨hf.login, ?_, fun s hs => ?_, ?_, ?_, ?_, ?_⟩
  · have hc : c ≠ .fail := by
      rintro rfl
      subst he
      exact hK.1
    rw [heff.failed hc, hf.failed]
  · rcases heff.recalls hs with hs | rfl
    · exact ⟨(hf.seen s hs).1, fun hact => hactive ((hf.seen s hs).2 hact)⟩
    · exact ⟨hw.known, hactive⟩
  · rcases heff.wrote with ⟨hwr, hc, -⟩ | ⟨ws, db, rfl, -, rfl, -⟩ | ⟨-, rfl, -⟩ | ⟨-, rfl, -⟩
    · rw [hwr, hc]
      exact hf.once
    · exact .inr hmay.1
    · exact .inl rfl
    · exact .inl rfl
  · rcases heff.wrote with ⟨hwr, hc, -⟩ | ⟨ws, db, rfl, -, rfl, -⟩ | ⟨-, rfl, -⟩ | ⟨-, rfl, -⟩
    · rw [hwr]
      exact hold hc
    · intro wr hwr
      rcases List.mem_append.mp hwr with hwr | hwr
      · exact hold rfl wr hwr
      · exact (hf.mayWrite hseen hmay.1 (hmay.2 wr hwr)).mono hhas hactive id
    · exact fun wr hwr => absurd hwr List.not_mem_nil
    · exact fun wr hwr => absurd hwr List.not_mem_nil
  · intro hne
    rcases heff.wrote with ⟨-, hc, -⟩ | ⟨ws, db, -, -, rfl, -⟩ | ⟨rfl, rfl, hs'⟩ | ⟨-, rfl, -⟩
    · exact hactive (hf.committed (hc ▸ hne))
    · exact hactive (hf.committed hne)
    · obtain ⟨resp, -, hrec⟩ := hmay
      have hown : w.shared.db.own i = f.wrote := by rw [hsound.own, hi]; rfl
      have hacc := hent.exclusive.accepted index i
      rw [hown] at hacc
      rw [hs', Ledger.committed_commit, Ledger.view, hown]
      exact active_of_fits hacc hf.wrote ((hf.upserts hrec).2.imp hf.committed id)
    · exact hactive (hf.committed hne)
  · intro s ws hs device hdevice
    rcases heff.refused with hsame | ⟨ws', rfl, rfl, -⟩
    · exact hf.refused s ws (hsame ▸ hs) device hdevice
    · -- only the login that has found no row inserts it, and there is still none
      cases hs
      obtain ⟨hu, hd, -, hmiss⟩ := hf.mayWrite hseen hmay.1 (hmay.2 _ hdevice)
      rw [hu, hd]
      exact (hw.sole i q f hi hmiss).1

omit [Instant T] [DecidableEq K] in
/-- It is enough that the logins that miss the row have missed it before, and that the row has not
been added since. -/
lemma Contest.sole_keep (hw : Contest x email password u d w₀ w)
    (hold : ∀ j q g, serving w' j = some (q, g) → Misses u d g →
      ∃ q' g', serving w j = some (q', g') ∧ Misses u d g')
    (hrow : ∀ j q g, serving w' j = some (q, g) → Misses u d g →
      w'.shared.db.committed.Has (.device u d) → w.shared.db.committed.Has (.device u d)) :
    ∀ i q f, serving w' i = some (q, f) → Misses u d f →
      ¬ w'.shared.db.committed.Has (.device u d) ∧
      ∀ j q' g, serving w' j = some (q', g) → Misses u d g → j = i := by
  intro i q f hi hmiss
  obtain ⟨q₁, f₁, hi₁, hmiss₁⟩ := hold i q f hi hmiss
  obtain ⟨hnone, hsole⟩ := hw.sole i q₁ f₁ hi₁ hmiss₁
  refine ⟨fun hhas => hnone (hrow i q f hi hmiss hhas), fun j q' g hj hg => ?_⟩
  obtain ⟨q₂, g₂, hj₂, hg₂⟩ := hold j q' g hj hg
  exact hsole j q₂ g₂ hj₂ hg₂

omit [Instant T] in
lemma not_misses_start : ¬ Misses u d ({} : Progress T) := by
  rintro ⟨-, s, hs, -⟩
  cases hs

/-- At most one login has found no row and has not committed. -/
lemma Contest.sole_change (hw : Contest x email password u d w₀ w) (hsound : Sound x w)
    (hent : Entered db₀ w) (hK : Smooth w e) (hU : Unrivalled u d w e) (h : Change x w e w') :
    ∀ i q f, serving w' i = some (q, f) → Misses u d f →
      ¬ w'.shared.db.committed.Has (.device u d) ∧
      ∀ j q' g, serving w' j = some (q', g) → Misses u d g → j = i := by
  cases h with
  | start q _ hadm hshared hlog hslots hserve =>
    refine hw.sole_keep (fun j q' g hj hg => ?_) fun j q' g _ _ hhas => by rwa [hshared] at hhas
    rw [hserve] at hj
    split at hj
    · cases hj
      exact absurd hg not_misses_start
    · exact ⟨q', g, hj, hg⟩
  | step i c q f f' o _ hnext hmay heff hlog hslots hserve =>
    have hi := hnext.serving
    have hne : ∀ j q' g, j ≠ i → serving w' j = some (q', g) → serving w j = some (q', g) := by
      intro j q' g hj hsv
      rwa [hserve, if_neg hj] at hsv
    have hself : serving w' i = some (q, f') := by rw [hserve, if_pos rfl]
    by_cases hcommit : f' = f.commit ∧
        w'.shared = { w.shared with db := w.shared.db.commit Database.apply i } ∧ o = .commit
    · -- the login commits: it has a row now, and no other login adds one
      obtain ⟨rfl, hs', rfl⟩ := hcommit
      obtain ⟨resp, -, hrec⟩ := hmay
      have hdone : ¬ Misses u d f.commit := fun hmiss =>
        ((hw.since.served i q f hi).upserts hrec).1 hmiss.1
      have hjne : ∀ j q' g, serving w' j = some (q', g) → Misses u d g → j ≠ i := by
        rintro j q' g hj hg rfl
        rw [hself] at hj
        cases hj
        exact hdone hg
      refine hw.sole_keep (fun j q' g hj hg => ⟨q', g, hne j q' g (hjne j q' g hj hg) hj, hg⟩) ?_
      intro j q' g hj hg hhas
      have hji := hjne j q' g hj hg
      rw [hs'] at hhas
      rcases hw.has_commit hsound hent hi hhas with hhas | hmiss
      · exact hhas
      · exact absurd ((hw.sole j q' g (hne j q' g hji hj) hg).2 i q f hi hmiss).symm hji
    · have hsame : f'.committed = f.committed ∧
          w'.shared.db.committed = w.shared.db.committed := by
        rcases heff.wrote with ⟨-, hc, hdb⟩ | ⟨ws, db, -, hflush, rfl, hs'⟩ | ⟨ho, hf', hs'⟩ |
          ⟨-, rfl, hs'⟩
        · exact ⟨hc, by rw [hdb]⟩
        · exact ⟨rfl, by rw [hs', Ledger.committed_flush hflush]⟩
        · exact absurd ⟨hf', hs', ho⟩ hcommit
        · exact ⟨rfl, by rw [hs', Ledger.committed_rollback]⟩
      rcases heff.devices with hdev | ⟨hread, rfl, -⟩
      · refine hw.sole_keep (fun j q' g hj hg => ?_) fun j q' g _ _ hhas => by rwa [hsame.2] at hhas
        by_cases hji : j = i
        · subst hji
          rw [hself] at hj
          cases hj
          refine ⟨q, f, hi, ?_⟩
          rwa [Misses, ← hsame.1, ← hdev]
        · exact ⟨q', g, hne j q' g hji hj, hg⟩
      · -- the login looks the row up: if there is none, no other login misses it
        have hmisser : ∀ j q' g, serving w' j = some (q', g) → Misses u d g →
            ¬ w.shared.db.committed.Has (.device u d) ∧ j = i := by
          intro j q' g hj hg
          by_cases hji : j = i
          · subst hji
            rw [hself] at hj
            cases hj
            obtain ⟨-, s, hs, hnone⟩ := hg
            cases hs
            exact ⟨hnone, rfl⟩
          · have hj₀ := hne j q' g hji hj
            have hnone := (hw.sole j q' g hj₀ hg).1
            exact absurd hg (hU i c q f o rfl hnext hread hnone j q' g hji hj₀)
        intro j q' g hj hg
        obtain ⟨hnone, rfl⟩ := hmisser j q' g hj hg
        refine ⟨by rwa [hsame.2], fun j' q'' g' hj' hg' => (hmisser j' q'' g' hj' hg').2⟩
  | respond i y _ hserved hends hshared hlog hslots hserve =>
    refine hw.sole_keep (fun j q' g hj hg => ?_) fun j q' g _ _ hhas => by rwa [hshared] at hhas
    rw [hserve] at hj
    split at hj
    · cases hj
    · exact ⟨q', g, hj, hg⟩
  | env c _ hdrift hlog hslots hserve =>
    obtain ⟨-, hdb, -, -⟩ := drift_unattended hK.2 hdrift
    refine hw.sole_keep (fun j q' g hj hg => ⟨q', g, by rw [← hserve]; exact hj, hg⟩)
      fun j q' g _ _ hhas => by rwa [hdb] at hhas

/-- The invariant is kept by every event of the race. -/
theorem Contest.change (hw : Contest x email password u d w₀ w) (hsound : Sound x w)
    (hent : Entered db₀ w) (hK : Contending email password d w e) (hU : Unrivalled u d w e)
    (h : Change x w e w') : Contest x email password u d w₀ w' := by
  obtain ⟨hknown, hactive⟩ := hw.database hsound hent hK.1.2 h
  have hhas : w.shared.db.committed.Has (.device u d) → w'.shared.db.committed.Has (.device u d) :=
    hent.has_mono hsound h
  refine ⟨hknown, ?_, ?_⟩
  · refine hw.since.change h (fun q f hf => ?_) (fun q he => ?_)
      fun i c q f f' o he hnext hmay heff hf =>
        hw.contender_step hsound hent hK.1 h he hnext hmay heff hf
    · exact { hf with
        seen := fun s hs => ⟨(hf.seen s hs).1, fun hact => hactive ((hf.seen s hs).2 hact)⟩
        wrote := fun wr hwr => (hf.wrote wr hwr).mono hhas hactive id
        committed := fun hne => hactive (hf.committed hne) }
    · exact ⟨hK.2 q he, rfl, fun s hs => (not_recalls_start s hs).elim, .inl rfl,
        fun wr hwr => absurd hwr List.not_mem_nil, fun hne => absurd rfl hne,
        fun s ws hs => by cases hs⟩
  · exact hw.sole_change hsound hent hK.1 hU h

theorem Contest.reach (hw : Contest x email password u d w₀ w₀) (hsound : Sound x w₀)
    (hent : Entered db₀ w₀)
    (h : Reach (server x) (fun v e => Contending email password d v e ∧ Unrivalled u d v e) w₀ w) :
    Sound x w ∧ Entered db₀ w ∧ Contest x email password u d w₀ w :=
  h.induct (I := fun v => Sound x v ∧ Entered db₀ v ∧ Contest x email password u d w₀ v)
    ⟨hsound, hent, hw⟩ fun v e v' _ hv hK he => by
      have hc := hv.1.change he
      exact ⟨hv.1.exec he, hv.2.1.change hv.1 hc, hv.2.2.change hv.1 hv.2.1 hK.1 hK.2 hc⟩

/-! ## The outcome -/

omit [DecidableEq K] in
/-- A login of the race that has been answered has returned a token pair and committed. -/
lemma Contender.outcome (h : Contender x email password u d db q f)
    {result : Except Exc (Response T K)} (hends : Ends x q result f) :
    (∃ resp a r, result = .ok resp ∧ resp.tokens = [a, r]) ∧ f.committed ≠ [] := by
  obtain ⟨client, rfl, rfl⟩ := h.login
  cases result with
  | ok resp =>
    obtain ⟨-, ⟨v, -, r, a, made, t, email', name, -, -, -, htokens, -⟩, v', s, write, last, row, -,
      -, -, hcommitted, -⟩ := hends
    refine ⟨⟨resp, _, _, rfl, htokens⟩, ?_⟩
    rw [hcommitted]
    exact List.cons_ne_nil _ _
  | error err =>
    obtain ⟨-, -, -, hfail | ⟨s, hacc, -, hrej⟩⟩ := hends
    · rw [h.failed] at hfail
      cases hfail
    · obtain ⟨user, hsel, rfl, hactive, hver⟩ := (h.seen s (.inl ⟨_, hacc⟩)).1
      rw [hsel] at hrej
      rcases hrej with ⟨hno, -⟩ | hno | ⟨-, ⟨hno, -⟩ | ⟨hno, -⟩ | ⟨-, -, s₁, s₂, device, -, -, href,
        hinsert⟩⟩
      · rw [hver] at hno
        cases hno
      · rw [hver] at hno
        cases hno
      · rw [hactive] at hno
        cases hno
      · rw [hactive] at hno
        cases hno
      · obtain ⟨row, hrow, hu, hd⟩ := Database.insertDevice_eq_none.mp hinsert
        exact absurd (Database.has_device.mpr ⟨row, hrow, hu, hd⟩)
          (h.refused s₂ _ href device List.mem_cons_self)

/-- What a login waits for when nothing can move: a row that another login has written, or another
login that has found no row of the device. -/
lemma waits_of_stuck
    (hstuck : Stuck (server x) (fun e => Contending email password d w e ∧ Unrivalled u d w e) w)
    {i : ℕ} {th : Worker T K} (hi : w.slot i = some th) :
    (∃ j, Ledger.Waits Write.conflicts w.shared.db i (asked w i) j) ∨
    ∃ q f o j q' g, NextCall w i q f o ∧ o.readsDevices = true ∧ j ≠ i ∧
      serving w j = some (q', g) ∧ Misses u d g := by
  have hrespond : ∀ j, Contending email password d w (.respond j) ∧
      Unrivalled u d w (.respond j) := fun j =>
    ⟨⟨⟨trivial, trivial⟩, fun q hq => by cases hq⟩, fun i c q f o he => by cases he⟩
  obtain ⟨q, o, k, tr, rfl, hnone⟩ := hstuck.waits hrespond hi
  rcases performUnder_ready rowLocks i o w.shared with ⟨c, hc, hready⟩ | ⟨ws, rfl, hheld⟩
  · rw [performUnder_rowLocks] at hready
    by_contra hno
    refine hready (hnone c ⟨⟨⟨?_, trivial⟩, fun q hq => by cases hq⟩, ?_⟩)
    · cases c with
      | fail => exact absurd rfl hc
      | _ => trivial
    · intro i' c' q' f' o' he hnext' hread hrow j q'' g hj hserved hmiss
      obtain ⟨rfl, rfl⟩ := Event.step.inj he
      exact hno (.inr ⟨q', f', o', j, q'', g, hnext', hread, hj, hserved, hmiss⟩)
  · refine .inl ((Ledger.flush_eq_none_iff (l := w.shared.db)).mp (?_ :
      w.shared.db.flush Database.apply Write.conflicts i (asked w i) = none))
    rw [asked, hi]
    exact if_pos hheld

/-- A race in which nothing can move has answered every login.  Whoever is waited for has written
rows, so it has looked its row up and waits itself, for a row of a later table. -/
lemma Contest.quiescent_of_stuck (hw : Contest x email password u d w₀ w) (hsound : Sound x w)
    (hascends : ∀ i q f o, NextCall w i q f o → Ascends q f o)
    (hstuck : Stuck (server x) (fun e => Contending email password d w e ∧ Unrivalled u d w e) w) :
    w.Quiescent := by
  have hlogin : ∀ i q f, serving w i = some (q, f) → q.isLogin = true := by
    intro i q f hi
    obtain ⟨client, rfl, -⟩ := (hw.since.served i q f hi).login
    rfl
  have horder : ∀ i, ∀ wr ∈ asked w i, ∀ wr' ∈ w.shared.db.own i,
      wr'.table.rank < wr.table.rank := by
    intro i wr hwr wr' hwr'
    obtain ⟨q, f, ws, hnext, hmem⟩ := mem_asked.mp hwr
    rw [hsound.own i, hnext.serving] at hwr'
    exact (hascends i q f _ hnext (hlogin i q f hnext.serving)).2 ws rfl wr hmem wr' hwr'
  have hall : ∀ i j, Ledger.Waits Write.conflicts w.shared.db i (asked w i) j →
      ∃ k, Ledger.Waits Write.conflicts w.shared.db j (asked w j) k := by
    intro i j hij
    obtain ⟨th, hth⟩ : ∃ th, w.slot j = some th := by
      refine Option.ne_none_iff_exists'.mp fun hnone => hij.own_ne_nil ?_
      rw [hsound.own j, serving, hnone]
      rfl
    rcases waits_of_stuck hstuck hth with hk | ⟨q, f, o, -, -, -, hnext, hread, -⟩
    · exact hk
    · refine absurd ?_ hij.own_ne_nil
      rw [hsound.own j, hnext.serving]
      exact (hascends j q f o hnext (hlogin j q f hnext.serving)).1 hread
  have hnobody : ∀ i j, ¬ Ledger.Waits Write.conflicts w.shared.db i (asked w i) j := fun i j =>
    Ledger.not_waits (fun _ _ h => Write.conflicts_rank h) horder hall
  intro i
  by_contra hne
  obtain ⟨th, hth⟩ := Option.ne_none_iff_exists'.mp hne
  rcases waits_of_stuck hstuck hth with ⟨j, hj⟩ | ⟨-, -, -, j, q', g, -, -, -, hserved, hmiss⟩
  · exact hnobody i j hj
  · -- the login that has found no row is the only one, so it has nobody to wait for
    obtain ⟨p, tr, hslot, -⟩ := serving_eq_some.mp hserved
    rcases waits_of_stuck hstuck hslot with ⟨k, hk⟩ | ⟨-, -, -, k, q'', g', -, -, hkj, hk, hmiss'⟩
    · exact hnobody j k hk
    · exact hkj ((hw.sole j q' g hserved hmiss).2 k q'' g' hk hmiss')

/-- Any number of concurrent logins of one user from one device return a token pair each and leave
one active row for the device, if a login looks up the row, while there is none, only when no other
login that has found none has yet to commit.  When nothing can move any more, all are answered. -/
theorem concurrent_logins_succeed {C : World T K → Event (Request K) (Choice T) → Prop} {now : T}
    {drawn₀ : List Uuid}
    (hreach : Reach (server x) C (Pool.initial (Stores.initial now db₀ drawn₀)) w₀)
    (hquiet : w₀.Quiescent) (hknown : Known x email password u w₀.shared.db.committed)
    (hrun : Reach (server x) (fun v e => Contending email password d v e ∧ Unrivalled u d v e)
      w₀ w) :
    ∃ ys, w.log = w₀.log ++ ys ∧
      (∀ y ∈ ys, ∃ resp a r, y.result = .ok resp ∧ resp.tokens = [a, r]) ∧
      (ys ≠ [] → ∃ row, row.isActive = true ∧ (w.shared.db.committed.devices.filter fun r =>
        decide (r.userId = u ∧ r.deviceId = d)) = [row]) ∧
      (Stuck (server x) (fun e => Contending email password d w e ∧ Unrivalled u d w e) w →
        w.Quiescent) := by
  have hnone : ∀ i q f, serving w₀ i ≠ some (q, f) := fun i q f =>
    not_serving_of_quiescent hquiet i
  have hstart : Contest x email password u d w₀ w₀ :=
    ⟨hknown, ⟨fun i q f hi => absurd hi (hnone i q f), [], (List.append_nil _).symm,
      fun y hy => absurd hy List.not_mem_nil⟩, fun i q f hi => absurd hi (hnone i q f)⟩
  have hsound₀ : Sound x w₀ := ((invariant_initial x now db₀ drawn₀).reach hreach).sound
  obtain ⟨hsound, -, hcontest⟩ := hstart.reach hsound₀ (Entered.reach hreach) hrun
  obtain ⟨-, ys, hlog, hys⟩ := hcontest.since
  have hmem : ∀ y ∈ ys, y ∈ w.log := fun y hy => by
    rw [hlog]
    exact List.mem_append_right _ hy
  have hascends := (ascends_of_reach
    ((hreach.mono fun _ _ _ => trivial).trans (hrun.mono fun _ _ _ => trivial) :
      Reach (server x) AnyEvent (Pool.initial (Stores.initial now db₀ drawn₀)) w)).2
  refine ⟨ys, hlog, fun y hy => ((hys y hy).outcome (hsound.ends (hmem y hy))).1, fun hsome => ?_,
    fun hstuck => hcontest.quiescent_of_stuck hsound hascends hstuck⟩
  obtain ⟨y, hy⟩ := List.exists_mem_of_ne_nil _ hsome
  obtain ⟨row, hrow, rfl, rfl, hactive⟩ :=
    (hys y hy).committed ((hys y hy).outcome (hsound.ends (hmem y hy))).2
  exact ⟨row, hactive, Database.filter_device hrow⟩

end Race

/-! ## Runs of the race -/

/-- Only logins of Alice on her phone arrive, Redis and the database can be reached, and no
administrator is at work, as a check. -/
def contending (w : World ℚ Claims) (e : ServiceEvent ℚ Claims) : Bool :=
  smooth w e && match e with
    | .start (.login email password client) =>
      email == "alice@example.com" && password == "old" && client.xDeviceId == "phone"
    | .start _ => false
    | _ => true

lemma contending_of_check (w : World ℚ Claims) (e : ServiceEvent ℚ Claims)
    (h : contending w e = true) : Contending "alice@example.com" "old" "phone" w e := by
  unfold contending at h
  rw [Bool.and_eq_true] at h
  refine ⟨smooth_of_check w e h.1, ?_⟩
  rintro q rfl
  cases q with
  | login email password client =>
    simp only [Bool.and_eq_true, beq_iff_eq] at h
    obtain ⟨-, ⟨rfl, rfl⟩, hd⟩ := h
    exact ⟨client, rfl, hd⟩
  | _ => cases h.2

/-- A request looks device rows up only when every other request that has done so has committed, as
a check. -/
def unrivalled (w : World ℚ Claims) : ServiceEvent ℚ Claims → Bool
  | .step i _ => match w.slot i with
    | some ⟨_, .call o _, _⟩ => !o.readsDevices || (List.range w.slots.length).all fun j =>
      j == i || match serving w j with
        | some (_, g) => g.devices.isNone || !g.committed.isEmpty
        | none => true
    | _ => true
  | _ => true

lemma unrivalled_of_check (u : Uuid) (d : String) (w : World ℚ Claims) (e : ServiceEvent ℚ Claims)
    (h : unrivalled w e = true) : Unrivalled u d w e := by
  rintro i c q f o rfl ⟨k, tr, hslot, -⟩ hread - j q' g hj hserved ⟨hnone, s, hs, -⟩
  simp only [unrivalled, hslot, hread, Bool.not_true, Bool.false_or, List.all_eq_true,
    List.mem_range, Bool.or_eq_true, beq_iff_eq] at h
  obtain ⟨p, tr', hslot', -⟩ := serving_eq_some.mp hserved
  have hother := (h j (slot_lt hslot')).resolve_left hj
  rw [hserved] at hother
  simp [hs, hnone] at hother

/-- Two logins from one new device, the second of which looks its row up when the first has
committed. -/
theorem concurrent_logins_succeed_replay : ∃ w : World ℚ Claims, w.log.length = 2 ∧
    (∀ y ∈ w.log, ∃ resp a r, y.result = .ok resp ∧ resp.tokens = [a, r]) ∧
    ∃ row, row.isActive = true ∧ (w.shared.db.committed.devices.filter fun r =>
      decide (r.userId = Plain.aliceId ∧ r.deviceId = "phone")) = [row] := by
  obtain ⟨w, hrun, hlength⟩ := reach_of_replay (S := server Plain.externals)
    (K := fun w e => Contending "alice@example.com" "old" "phone" w e ∧
      Unrivalled Plain.aliceId "phone" w e)
    (k := fun w e => contending w e && unrivalled w e) (w := Plain.start)
    (g := fun w => w.log.length) (v := 2)
    (fun w e h => by
      rw [Bool.and_eq_true] at h
      exact ⟨contending_of_check w e h.1, unrivalled_of_check _ _ w e h.2⟩)
    ([.start (.login "alice@example.com" "old" Plain.phone),
        .start (.login "alice@example.com" "old" Plain.phone)] ++ goes 0 2 ++ goes 1 2 ++
      (goes 0 7 ++ draws 0 Plain.a₁ ++ goes 0 1 ++ draws 0 Plain.r₁ ++ goes 0 6) ++
      (goes 1 7 ++ draws 1 Plain.a₂ ++ goes 1 1 ++ draws 1 Plain.r₂ ++ goes 1 6) ++
      [.respond 1, .respond 0])
    (by decide +kernel)
  obtain ⟨ys, hlog, hok, hrow, -⟩ :=
    concurrent_logins_succeed (Reach.refl (K := AnyEvent) Plain.start)
      (fun i => by simp [Plain.start]) ⟨Plain.alice, rfl, rfl, rfl, rfl⟩ hrun
  have hys : ys = w.log := by rw [hlog]; rfl
  subst hys
  refine ⟨w, hlength, hok, hrow fun hnil => ?_⟩
  rw [hnil] at hlength
  cases hlength

/-- Two logins from one new device that have both found no row: the second to insert it ends with an
unhandled `IntegrityError`. -/
theorem rivals_collide : ¬ ∀ w : World ℚ Claims, Reach (server Plain.externals)
    (Contending "alice@example.com" "old" "phone") Plain.start w → w.Quiescent →
    ∀ y ∈ w.log, ∃ resp, y.result = .ok resp := by
  intro hclaim
  obtain ⟨w, hrun, hgood⟩ := reach_of_replay (S := server Plain.externals) contending_of_check
    ([.start (.login "alice@example.com" "old" Plain.phone),
        .start (.login "alice@example.com" "old" Plain.phone)] ++ goes 0 3 ++ goes 1 3 ++
      (goes 0 6 ++ draws 0 Plain.a₁ ++ goes 0 1 ++ draws 0 Plain.r₁ ++ goes 0 6) ++ goes 1 3 ++
      [.respond 1, .respond 0])
    (w := Plain.start)
    (g := fun w => quiescent w && w.log.any fun y => y.result.toOption.isNone) (v := true)
    (by decide +kernel)
  simp only [Bool.and_eq_true, List.any_eq_true] at hgood
  obtain ⟨hquiet, y, hy, herror⟩ := hgood
  obtain ⟨resp, hok⟩ := hclaim w hrun (quiescent_of_check hquiet) y hy
  rw [hok] at herror
  cases herror

end SampleAuthApi
