import SampleAuthApi.Model.Scripts
import SampleAuthApi.Sessions.Indexes
import SampleAuthApi.Sessions.Passwords

/-!
# Concurrent signups

`one_signup_succeeds_iff`: of any number of concurrent signups for an email that no row has, exactly
one succeeds and every other one ends with `EmailAlreadyExistsError`, however their checks, inserts
and commits are interleaved with one another and with all other requests, unless one of them finds
the email free and has a password with the character `U+0000`: the schema accepts it, `bcrypt` does
not, and nothing catches the exception.

The check of a signup may pass in all of them; it is the unique index that lets one of them in.  A
signup is rejected because a row with its email was there or because its insert was refused, and
its id is fresh, so a row with the email has been committed in either case.  Such a row was inserted
by a signup of the run (`Entered.origin`), by one only (`Entered.apart`).
-/

namespace SampleAuthApi

open Transactions Pool

variable {T K : Type}

/-- The request is a signup for this email. -/
def Request.signsUp (email : String) : Request K → Bool
  | .signup email' _ _ _ _ => email' == email
  | _ => false

/-- The signups for this email reach the database, and their passwords have passed the schema. -/
def Registering (email : String) (w : World T K) : Event (Request K) (Choice T) → Prop
  | .start (.signup email' password _ _ _) => email' = email → checkPassword password = .ok password
  | .step i .fail => ∀ q f, serving w i = some (q, f) → q.signsUp email = false
  | _ => True

/-- The request is a signup with a password that `bcrypt` refuses. -/
def Request.Nul (q : Request K) : Prop :=
  ∃ email password name phone agreed, q = .signup email password name phone agreed ∧
    HasNul password

/-- When the request checked the email, in the state `s`, a row with it was there. -/
def FindsTaken (email : String) (f : Progress T) : Prop :=
  ∃ s row, f.account = some (s, some row) ∧
    s.db.committed.select (.userByEmail email) = some row

/-- No signup for this email is being served. -/
def NoSignup (email : String) (w : World T K) : Prop :=
  ∀ i q f, serving w i = some (q, f) → q.signsUp email = false

section Requests

lemma eq_signup {email : String} {q : Request K} (h : q.signsUp email = true) :
    ∃ password name phone agreed, q = .signup email password name phone agreed := by
  cases q with
  | signup email' password name phone agreed =>
    have heq : email' = email := beq_iff_eq.mp h
    exact ⟨password, name, phone, agreed, by rw [heq]⟩
  | _ => cases h

end Requests

variable [Instant T]

/-! ## Ids of signups -/

/-- What signups do with ids, in a run that began with the drawn values `drawn₀`. -/
structure Registered (drawn₀ : List Uuid) (w : World T K) : Prop where
  /-- Values drawn before the run stay drawn. -/
  known : ∀ u ∈ drawn₀, u ∈ w.shared.drawn
  /-- No request draws one of them. -/
  new : Everyone (fun _ f => ∀ u ∈ f.drawn, u ∉ drawn₀) w
  /-- A user is inserted by a signup for its email, under an id that the signup has drawn. -/
  inserted : Everyone (fun q f => ∀ user, .insertUser user ∈ f.wrote ++ f.committed →
    user.id ∈ f.drawn ∧ q.signsUp user.email = true) w
  /-- An insert is not refused because of its id. -/
  unclaimed : Everyone (fun _ f => ∀ s ws, f.refused = some (s, ws) →
    ∀ user, .insertUser user ∈ ws → ¬ s.db.committed.Has (.id user.id)) w

section Ids

variable [DecidableEq K] {x : Externals K} {w w' : World T K} {e : Event (Request K) (Choice T)}
  {db₀ : Database T} {drawn₀ : List Uuid}

omit [Instant T] [DecidableEq K] in
lemma Registered.commits {q : Request K} {f : Progress T}
    (h : ∀ user, .insertUser user ∈ f.wrote ++ f.committed →
      user.id ∈ f.drawn ∧ q.signsUp user.email = true) :
    (∀ id, f.Commits (.id id) → id ∈ f.drawn) ∧
      ∀ email, f.Commits (.email email) → q.signsUp email = true := by
  have hrow : ∀ k, f.Commits k → (∃ u d, k = .device u d) ∨
      ∃ user, .insertUser user ∈ f.committed ∧ k ∈ user.entries := by
    rintro k ⟨wr, hwr, hk⟩
    cases wr with
    | insertUser user => exact .inr ⟨user, hwr, hk⟩
    | insertDevice device =>
      rw [Write.entries, List.mem_singleton] at hk
      exact .inl ⟨device.userId, device.deviceId, hk⟩
    | _ => cases hk
  constructor
  · intro id hid
    rcases hrow _ hid with ⟨u, d, hk⟩ | ⟨user, huser, hk⟩
    · cases hk
    · have heq : id = user.id := by simpa [User.entries] using hk
      rw [heq]
      exact (h user (List.mem_append_right _ huser)).1
  · intro email hemail
    rcases hrow _ hemail with ⟨u, d, hk⟩ | ⟨user, huser, hk⟩
    · cases hk
    · have heq : email = user.email := by simpa [User.entries] using hk
      rw [heq]
      exact (h user (List.mem_append_right _ huser)).2

omit [DecidableEq K] in
/-- The id that a signup has drawn is the id of no row. -/
lemma Registered.free (hw : Registered drawn₀ w) (hinv : Invariant x w) (hent : Entered db₀ w)
    (hids : IdsDrawn drawn₀ db₀) {i : ℕ} {q : Request K} {f : Progress T}
    (hi : serving w i = some (q, f)) (hnone : f.committed = []) {u : Uuid} (hu : u ∈ f.drawn) :
    ¬ w.shared.db.committed.Has (.id u) := by
  intro hhas
  rcases hent.origin _ hhas with hold | ⟨j, q', g, hj, hg⟩ | ⟨y, hy, hcommits⟩
  · obtain ⟨r, hr, rfl⟩ := Database.has_id.mp hold
    exact hw.new.served i q f hi _ hu (hids r hr)
  · have hdrawn := (Registered.commits (hw.inserted.served j q' g hj)).1 u hg
    by_cases hij : i = j
    · subst hij
      rw [hi] at hj
      cases hj
      obtain ⟨wr, hwr, -⟩ := hg
      rw [hnone] at hwr
      cases hwr
    · exact hinv.fresh.served i j q f q' g hij hi hj u hu hdrawn
  · have hdrawn := (Registered.commits (hw.inserted.logged y hy)).1 u hcommits
    exact hinv.fresh.mixed i q f hi y hy u hu hdrawn

theorem Registered.change (hw : Registered drawn₀ w) (hinv : Invariant x w) (hent : Entered db₀ w)
    (hids : IdsDrawn drawn₀ db₀) (h : Change x w e w') : Registered drawn₀ w' := by
  refine ⟨fun u hu => h.frame.2 u (hw.known u hu), ?_, ?_, ?_⟩
  · refine hw.new.change h (fun q f hf => hf) (fun q u hu => absurd hu List.not_mem_nil)
      fun i c q f f' o he hnext hmay heff hf u hu hold => ?_
    rcases heff.drawn with ⟨hd, -⟩ | ⟨v, hv, hd, -⟩
    · exact hf u (hd ▸ hu) hold
    · rw [hd] at hu
      rcases List.mem_cons.mp hu with rfl | hu
      · exact hv (hw.known u hold)
      · exact hf u hu hold
  · refine hw.inserted.change h (fun q f hf => hf)
      (fun q user huser => absurd huser List.not_mem_nil)
      fun i c q f f' o he hnext hmay heff hf user huser => ?_
    have hdrawn : ∀ u ∈ f.drawn, u ∈ f'.drawn := by
      intro u hu
      rcases heff.drawn with ⟨hd, -⟩ | ⟨v, -, hd, -⟩
      · rwa [hd]
      · rw [hd]
        exact List.mem_cons_of_mem _ hu
    have hold : .insertUser user ∈ f.wrote ++ f.committed →
        user.id ∈ f'.drawn ∧ q.signsUp user.email = true := by
      intro hmem
      exact ⟨hdrawn _ (hf user hmem).1, (hf user hmem).2⟩
    rcases heff.wrote with ⟨hwr, hc, -⟩ | ⟨ws, db, rfl, -, rfl, -⟩ | ⟨-, rfl, -⟩ | ⟨-, rfl, -⟩
    · rw [hwr, hc] at huser
      exact hold huser
    · rcases List.mem_append.mp huser with hmem | hmem
      · rcases List.mem_append.mp hmem with hmem | hmem
        · exact hold (List.mem_append_left _ hmem)
        · obtain ⟨-, email, password, name, phone, agreed, salt, rfl, hemail, -, -, -, hid, -⟩ :=
            hmay.2 _ hmem
          exact ⟨by rw [hid]; exact List.mem_singleton_self _, by simp [Request.signsUp, hemail]⟩
      · exact hold (List.mem_append_right _ hmem)
    · rw [Progress.commit, List.nil_append, List.mem_append] at huser
      exact hold (List.mem_append.mpr huser.symm)
    · exact hold (List.mem_append_right _ huser)
  · refine hw.unclaimed.change h (fun q f hf => hf) (fun q s ws hs => by cases hs)
      fun i c q f f' o he hnext hmay heff hf s ws hs user huser => ?_
    rcases heff.refused with hsame | ⟨ws', rfl, rfl, -⟩
    · exact hf s ws (hsame ▸ hs) user huser
    · cases hs
      obtain ⟨-, _, _, _, _, _, _, -, -, -, -, -, hid, -⟩ := hmay.2 _ huser
      refine hw.free hinv hent hids hnext.serving hmay.1 ?_
      rw [hid]
      exact List.mem_singleton_self _

theorem Registered.reach {C : World T K → Event (Request K) (Choice T) → Prop} {now : T}
    (hids : IdsDrawn drawn₀ db₀)
    (h : Reach (server x) C (Pool.initial (Stores.initial now db₀ drawn₀)) w) :
    Registered drawn₀ w := by
  have hall := h.induct (I := fun v => Invariant x v ∧ Entered db₀ v ∧ Registered drawn₀ v)
    ⟨invariant_initial x now db₀ drawn₀, entered_initial now db₀ drawn₀, fun u hu => hu,
      ⟨fun i q f hi => by simp [serving_initial] at hi, fun y hy => absurd hy List.not_mem_nil⟩,
      ⟨fun i q f hi => by simp [serving_initial] at hi, fun y hy => absurd hy List.not_mem_nil⟩,
      ⟨fun i q f hi => by simp [serving_initial] at hi, fun y hy => absurd hy List.not_mem_nil⟩⟩
    fun v e v' _ hv _ he => by
      have hc := hv.1.sound.change he
      exact ⟨hv.1.exec he, hv.2.1.change hv.1.sound hc, hv.2.2.change hv.1 hv.2.1 hids hc⟩
  exact hall.2.2

end Ids

/-! ## The race -/

/-- What is known of a signup for `email` that has arrived since the race began: the database has
answered it, and its password has passed the schema. -/
def Entrant (email : String) (q : Request K) (f : Progress T) : Prop :=
  q.signsUp email = true → f.failed = false ∧
    ∀ password name phone agreed, q = .signup email password name phone agreed →
      checkPassword password = .ok password

/-- How a signup for `email` ends, and what the database `db` shows of it. -/
def Settled (email : String) (db : Database T) (y : Reply T K) : Prop :=
  (∃ user : User T, y.result = .ok (.signup ⟨user.id, email, user.name, user.createdAt⟩) ∧
    (progress y.performed).Commits (.account user.id email) ∧
    (progress y.performed).Commits (.email email)) ∨
  (y.result = .error .emailAlreadyExists ∧ (progress y.performed).committed = [] ∧
    db.Has (.email email))

/-- One of these answered signups has succeeded, and its row is the only one with the email; every
other one has ended with `EmailAlreadyExistsError` and has committed nothing. -/
def OneSucceeds (email : String) (db : Database T) (ys : List (Reply T K)) : Prop :=
  ∃ l y l' user, ys = l ++ y :: l' ∧
    (∃ name created, y.result = .ok (.signup ⟨user.id, email, name, created⟩)) ∧
    (db.users.filter fun r => decide (r.email = email)) = [user] ∧
    ∀ z ∈ l ++ l', z.result = .error .emailAlreadyExists ∧ (progress z.performed).committed = []

section Race

variable [DecidableEq K] {x : Externals K} {w₀ w w' : World T K}
  {e : Event (Request K) (Choice T)} {db₀ : Database T} {drawn₀ : List Uuid} {email : String}

lemma entrants_change (hw : Since w₀ (Entrant email) w) (hK : Registering email w e)
    (h : Change x w e w') : Since w₀ (Entrant email) w' := by
  refine hw.change h (fun _ _ hf => hf)
    (fun q he hsign => ⟨rfl, fun password name phone agreed hq => ?_⟩)
    fun i c q f f' o he hnext hmay heff hf hsign => ?_
  · subst he hq
    exact hK rfl
  · refine ⟨?_, (hf hsign).2⟩
    have hc : c ≠ .fail := by
      rintro rfl
      subst he
      have hno := hK q f hnext.serving
      rw [hsign] at hno
      cases hno
    rw [heff.failed hc]
    exact (hf hsign).1

lemma entrants_reach (hsound : Sound x w₀) (hbegin : NoSignup email w₀)
    (hrun : Reach (server x) (Registering email) w₀ w) : Since w₀ (Entrant email) w := by
  have hstart : Since w₀ (Entrant email) w₀ := by
    refine ⟨fun i q f hi hsign => ?_, [], (List.append_nil _).symm,
      fun y hy => absurd hy List.not_mem_nil⟩
    rw [hbegin i q f hi] at hsign
    cases hsign
  have hall := hrun.induct (I := fun v => Sound x v ∧ Since w₀ (Entrant email) v) ⟨hsound, hstart⟩
    fun v e v' _ hv hK he => ⟨hv.1.exec he, entrants_change hv.2 hK (hv.1.change he)⟩
  exact hall.2

omit [DecidableEq K] in
/-- A signup for `email` has let its row in, or a row with the email is there, unless it has found
the email free and has a password that `bcrypt` refuses. -/
lemma settled_of_ends (hb : Bcrypt x.pwdContext) (hent : Entered db₀ w) (hreg : Registered drawn₀ w)
    (hsound : Sound x w) {y : Reply T K} (hy : y ∈ w.log)
    (hentrant : Entrant email y.request (progress y.performed))
    (hsign : y.request.signsUp email = true)
    (htaken : y.request.Nul → FindsTaken email (progress y.performed)) :
    Settled email w.shared.db.committed y := by
  obtain ⟨password, name, phone, agreed, hq⟩ := eq_signup hsign
  obtain ⟨hfailed, hpassword⟩ := hentrant hsign
  have hends := hsound.ends hy
  rw [hq] at hends
  cases hres : y.result with
  | ok resp =>
    rw [hres] at hends
    obtain ⟨-, -, user, ⟨_, _, _, _, _, _, heq, hemail, -⟩, hcommitted, rfl⟩ := hends
    cases heq
    refine .inl ⟨user, by rw [hres, hemail], ⟨.insertUser user, ?_, ?_⟩, ⟨.insertUser user, ?_, ?_⟩⟩
    · rw [hcommitted]
      exact List.mem_cons_self
    · simp [Write.entries, User.entries, hemail]
    · rw [hcommitted]
      exact List.mem_cons_self
    · simp [Write.entries, User.entries, hemail]
  | error err =>
    rw [hres] at hends
    obtain ⟨-, -, hnone, hrej⟩ := hends
    rcases hrej with hfail | ⟨rfl, hwhy⟩ | ⟨s, salt, hacc, -, herr⟩
    · rw [hfailed] at hfail
      cases hfail
    · refine .inr ⟨hres, hnone, ?_⟩
      rcases hwhy with ⟨s, user, hacc, hsel⟩ | ⟨s, s', user, -, -, hregisters, href, hinsert⟩
      · obtain ⟨hmem, hemail, -⟩ := Database.select_userByEmail hsel
        exact hent.recalled.logged y hy s (.inl ⟨some user, hacc⟩) _
          (Database.has_email.mpr ⟨user, hmem, hemail⟩)
      · obtain ⟨r, hr, hid | hemail⟩ := Database.insertUser_eq_none.mp hinsert
        · exact absurd (Database.has_id.mpr ⟨r, hr, hid⟩) (hreg.unclaimed.logged y hy s' _ href user
            List.mem_cons_self)
        · obtain ⟨_, _, _, _, _, _, heq, huser, -⟩ := hregisters
          cases heq
          exact hent.recalled.logged y hy s' (.inr (.inr ⟨_, href⟩)) _
            (Database.has_email.mpr ⟨r, hr, hemail.trans huser⟩)
    · -- the hash has failed, so the password has the character and the email was found free
      have hnul : HasNul password := by
        by_contra hno
        have hlen := (checkPassword_eq_ok.mp (hpassword password name phone agreed hq)).2.maxLength
        obtain ⟨hash, hok⟩ := hb.hashes salt password hno (by omega)
        rw [hok] at herr
        cases herr
      obtain ⟨s', row, hacc', -⟩ := htaken ⟨email, password, name, phone, agreed, hq, hnul⟩
      rw [hacc] at hacc'
      cases hacc'

omit [DecidableEq K] in
/-- A signup with a password that `bcrypt` refuses is only rejected as the claim says when it has
found the email taken. -/
lemma findsTaken_of_ends (hb : Bcrypt x.pwdContext) (hsound : Sound x w) {y : Reply T K}
    (hy : y ∈ w.log) (hentrant : Entrant email y.request (progress y.performed))
    (hsign : y.request.signsUp email = true) (hnul : y.request.Nul)
    (hres : y.result.isOk = true ∨ y.result = .error .emailAlreadyExists) :
    FindsTaken email (progress y.performed) := by
  obtain ⟨password, name, phone, agreed, hq⟩ := eq_signup hsign
  obtain ⟨_, _, _, _, _, heq, hnul⟩ := hnul
  rw [hq] at heq
  cases heq
  have hrefuses : ∀ salt hash, x.pwdContext.hash salt password ≠ .ok hash := by
    intro salt hash hok
    rw [hb.nul salt password hnul] at hok
    cases hok
  have hunregistered : ∀ user, ¬ Registers x (.signup email password name phone agreed)
      (progress y.performed) user := by
    rintro user ⟨_, _, _, _, _, salt, heq, -, -, -, hhash, -⟩
    cases heq
    exact hrefuses salt _ hhash
  have hends := hsound.ends hy
  rw [hq] at hends
  cases hok : y.result with
  | ok resp =>
    rw [hok] at hends
    obtain ⟨-, -, user, hregisters, -⟩ := hends
    exact absurd hregisters (hunregistered user)
  | error err =>
    rw [hok] at hends hres
    obtain ⟨-, -, -, hrej⟩ := hends
    have hexists : err = .emailAlreadyExists := by
      rcases hres with hres | hres
      · cases hres
      · exact Except.error.inj hres
    rcases hrej with hfail | ⟨-, ⟨s, user, hacc, hsel⟩ | ⟨_, _, user, -, -, hregisters, -⟩⟩ |
      ⟨s, salt, -, -, herr⟩
    · rw [(hentrant hsign).1] at hfail
      cases hfail
    · exact ⟨s, user, hacc, hsel⟩
    · exact absurd hregisters (hunregistered user)
    · rw [hb.nul salt password hnul, hexists] at herr
      cases herr

omit [Instant T] [DecidableEq K] in
/-- A row with the email that was not there when the race began has been inserted by a signup of the
race. -/
lemma exists_inserting (hent₀ : Entered db₀ w₀) (hent : Entered db₀ w) (hreg : Registered drawn₀ w)
    (hfree : ¬ w₀.shared.db.committed.Has (.email email)) (hend : NoSignup email w)
    {ys : List (Reply T K)} (hlog : w.log = w₀.log ++ ys)
    (hrow : w.shared.db.committed.Has (.email email)) :
    ∃ y ∈ ys.filter (fun y => y.request.signsUp email),
      (progress y.performed).Commits (.email email) := by
  rcases hent.origin _ hrow with hold | ⟨i, q, f, hi, hcommits⟩ | ⟨y, hy, hcommits⟩
  · exact absurd (hent₀.grown _ hold) hfree
  · have hsign := (Registered.commits (hreg.inserted.served i q f hi)).2 email hcommits
    rw [hend i q f hi] at hsign
    cases hsign
  · have hsign := (Registered.commits (hreg.inserted.logged y hy)).2 email hcommits
    rw [hlog] at hy
    rcases List.mem_append.mp hy with hy | hy
    · exact absurd (hent₀.kept.logged y hy _ hcommits) hfree
    · exact ⟨y, List.mem_filter.mpr ⟨hy, hsign⟩, hcommits⟩

/-- Of any number of concurrent signups for an email that no row has, one succeeds, its row is the
only one with the email, and every other one ends with `EmailAlreadyExistsError` and has committed
nothing, exactly when every signup with a password that `bcrypt` refuses has found the email
taken. -/
theorem one_signup_succeeds_iff {C : World T K → Event (Request K) (Choice T) → Prop} {now : T}
    (hb : Bcrypt x.pwdContext) (hids : IdsDrawn drawn₀ db₀)
    (hreach : Reach (server x) C (Pool.initial (Stores.initial now db₀ drawn₀)) w₀)
    (hfree : ∀ r ∈ w₀.shared.db.committed.users, r.email ≠ email) (hbegin : NoSignup email w₀)
    (hrun : Reach (server x) (Registering email) w₀ w) (hend : NoSignup email w) :
    ∃ ys, w.log = w₀.log ++ ys ∧
      ((ys.filter fun y => y.request.signsUp email) ≠ [] →
        (OneSucceeds email w.shared.db.committed (ys.filter fun y => y.request.signsUp email) ↔
          ∀ y ∈ ys.filter (fun y => y.request.signsUp email), y.request.Nul →
            FindsTaken email (progress y.performed))) := by
  have hwhole : Reach (server x) AnyEvent (Pool.initial (Stores.initial now db₀ drawn₀)) w :=
    (hreach.mono fun _ _ _ => trivial).trans (hrun.mono fun _ _ _ => trivial)
  have hsound : Sound x w := ((invariant_initial x now db₀ drawn₀).reach hwhole).sound
  have hent₀ : Entered db₀ w₀ := Entered.reach hreach
  have hent : Entered db₀ w := Entered.reach hwhole
  have hreg : Registered drawn₀ w := Registered.reach hids hwhole
  have hsound₀ : Sound x w₀ := ((invariant_initial x now db₀ drawn₀).reach hreach).sound
  obtain ⟨-, ys, hlog, hys⟩ := entrants_reach hsound₀ hbegin hrun
  refine ⟨ys, hlog, fun hsome => ?_⟩
  have hmem : ∀ z ∈ ys, z ∈ w.log := fun z hz => by
    rw [hlog]
    exact List.mem_append_right _ hz
  constructor
  · rintro ⟨l, y, l', user, hsplit, ⟨name, created, hres⟩, -, hothers⟩ z hz hnul
    have hends : z.result.isOk = true ∨ z.result = .error .emailAlreadyExists := by
      rw [hsplit, List.mem_append, List.mem_cons] at hz
      rcases hz with hz | rfl | hz
      · exact .inr (hothers z (List.mem_append_left _ hz)).1
      · exact .inl (by rw [hres]; rfl)
      · exact .inr (hothers z (List.mem_append_right _ hz)).1
    obtain ⟨hz, hsign⟩ := List.mem_filter.mp hz
    exact findsTaken_of_ends hb hsound (hmem z hz) (hys z hz) hsign hnul hends
  intro htaken
  have hsettled : ∀ z ∈ ys.filter (fun y => y.request.signsUp email),
      Settled email w.shared.db.committed z := by
    intro z hz
    have hnul := htaken z hz
    obtain ⟨hz, hsign⟩ := List.mem_filter.mp hz
    exact settled_of_ends hb hent hreg hsound (hmem z hz) (hys z hz) hsign hnul
  have hnobody : ¬ w₀.shared.db.committed.Has (.email email) := by
    rw [Database.has_email]
    rintro ⟨r, hr, heq⟩
    exact hfree r hr heq
  -- a row with the email is there in the end, whether a signup has succeeded or was rejected
  have hrow : w.shared.db.committed.Has (.email email) := by
    obtain ⟨z, hz⟩ := List.exists_mem_of_ne_nil _ hsome
    rcases hsettled z hz with ⟨user, -, -, hcommits⟩ | ⟨-, -, hhas⟩
    · exact hent.kept.logged z (hmem z (List.mem_filter.mp hz).1) _ hcommits
    · exact hhas
  obtain ⟨y, hy, hcommits⟩ := exists_inserting hent₀ hent hreg hnobody hend hlog hrow
  obtain ⟨l, l', hsplit⟩ := List.append_of_mem hy
  have hapart : (l ++ y :: l').Pairwise fun z z' : Reply T K => ∀ k,
      (progress z.performed).Commits k → ¬ (progress z'.performed).Commits k := by
    have hlogged := hent.apart.logged
    rw [hlog] at hlogged
    rw [← hsplit]
    exact (List.pairwise_append.mp hlogged).2.1.filter _
  obtain ⟨-, hright, hleft⟩ := List.pairwise_append.mp hapart
  rcases hsettled y hy with ⟨user, hres, haccount, -⟩ | ⟨-, hnone, -⟩
  · obtain ⟨r, hr, hid, hemail⟩ := Database.has_account.mp
      (hent.kept.logged y (hmem y (List.mem_filter.mp hy).1) _ haccount)
    refine ⟨l, y, l', r, hsplit, ⟨user.name, user.createdAt, by rw [hres, hid]⟩, ?_, fun z hz => ?_⟩
    · rw [← hemail]
      exact Database.filter_email hr
    · have hzmem : z ∈ ys.filter (fun y => y.request.signsUp email) := by
        rw [hsplit]
        rcases List.mem_append.mp hz with hz | hz
        · exact List.mem_append_left _ hz
        · exact List.mem_append_right _ (List.mem_cons_of_mem _ hz)
      have hother : ¬ (progress z.performed).Commits (.email email) := by
        intro hzc
        rcases List.mem_append.mp hz with hz | hz
        · exact hleft z hz y List.mem_cons_self _ hzc hcommits
        · exact (List.pairwise_cons.mp hright).1 z hz _ hcommits hzc
      rcases hsettled z hzmem with ⟨-, -, -, hzc⟩ | ⟨hzres, hznone, -⟩
      · exact absurd hzc hother
      · exact ⟨hzres, hznone⟩
  · obtain ⟨wr, hwr, -⟩ := hcommits
    rw [hnone] at hwr
    cases hwr

end Race

/-! ## Two passwords -/

/-- `Registering`, as a check. -/
def registering (w : World T K) (e : Event (Request K) (Choice T)) : Bool :=
  smooth w e && match e with
    | .start (.signup _ password _ _ _) => decide (checkPassword password = .ok password)
    | _ => true

omit [Instant T] in
lemma registering_of_check (email : String) (w : World T K) (e : Event (Request K) (Choice T))
    (h : registering w e = true) : Registering email w e := by
  obtain ⟨hsmooth, hmatch⟩ := Bool.and_eq_true_iff.mp h
  have hreliable := (smooth_of_check w e hsmooth).1
  cases e with
  | start q =>
    cases q with
    | signup email' password name phone agreed => exact fun _ => of_decide_eq_true hmatch
    | _ => trivial
  | step i c => cases c <;> trivial
  | _ => trivial

omit [Instant T] in
lemma noSignup_of_quiescent {w : World T K} (h : w.Quiescent) (email : String) :
    NoSignup email w := by
  intro i q f hi
  obtain ⟨p, tr, hslot, -⟩ := serving_eq_some.mp hi
  rw [h i] at hslot
  cases hslot

/-- Bob signs up. -/
def bobSignsUp (password : String) : Request Claims :=
  .signup "bob@example.com" password "Bob" none false

/-- The request is a signup of Bob with a password that `bcrypt` takes. -/
def joins : Request K → Bool
  | .signup email password _ _ _ => email == "bob@example.com" && decide (¬ HasNul password)
  | _ => false

omit [Instant T] in
lemma joins_iff {y : Reply T K} (h : joins y.request = true) :
    y.request.signsUp "bob@example.com" = true ∧ ¬ y.request.Nul := by
  cases hq : y.request with
  | signup email password name phone agreed =>
    rw [hq] at h
    obtain ⟨hemail, hclean⟩ := Bool.and_eq_true_iff.mp h
    refine ⟨hemail, ?_⟩
    rintro ⟨_, _, _, _, _, heq, hnul⟩
    cases heq
    exact of_decide_eq_true hclean hnul
  | _ => rw [hq] at h; cases h

/-- Two concurrent signups that have both found the email free. -/
theorem one_signup_succeeds_replay : ∃ w : World ℚ Claims, w.log.length = 2 ∧
    OneSucceeds "bob@example.com" w.shared.db.committed
      (w.log.filter fun y => y.request.signsUp "bob@example.com") := by
  obtain ⟨w, hrun, hgood⟩ := reach_of_replay (S := server Plain.hashing)
    (registering_of_check "bob@example.com")
    ([.start (bobSignsUp "Passw0rd!"), .start (bobSignsUp "Passw0rd?")] ++ goes 0 2 ++ goes 1 2 ++
      draws 0 Plain.a₁ ++ draws 1 Plain.a₂ ++ [.step 0 (.salt ""), .step 1 (.salt "")] ++
      goes 0 2 ++ goes 1 2 ++ [.respond 1, .respond 0])
    (w := Plain.deserted)
    (g := fun w => quiescent w && (w.log.length == 2) && w.log.all fun y => joins y.request)
    (v := true) (by decide +kernel)
  simp only [Bool.and_eq_true, beq_iff_eq, List.all_eq_true] at hgood
  obtain ⟨⟨hquiet, hlength⟩, hall⟩ := hgood
  obtain ⟨ys, hlog, hone⟩ := one_signup_succeeds_iff Plain.bcrypt_lawful
    (fun user huser => by cases huser)
    (Reach.refl (K := AnyEvent) Plain.deserted) (fun r hr => by cases hr)
    (noSignup_of_quiescent (fun i => by simp [Plain.deserted]) _) hrun
    (noSignup_of_quiescent (quiescent_of_check hquiet) _)
  have hys : ys = w.log := by rw [hlog]; rfl
  subst hys
  have hsome : (w.log.filter fun y => y.request.signsUp "bob@example.com") ≠ [] := by
    rw [List.filter_eq_self.mpr fun y hy => (joins_iff (hall y hy)).1]
    intro hnil
    rw [hnil] at hlength
    cases hlength
  refine ⟨w, hlength, (hone hsome).mpr fun y hy hnul => ?_⟩
  exact absurd hnul (joins_iff (hall y (List.mem_filter.mp hy).1)).2

/-- A single signup with a password that the schema accepts and `bcrypt` refuses: it ends with an
exception that nobody handles, and there is no row. -/
theorem nul_signup_unhandled : ¬ ∀ w : World ℚ Claims,
    Reach (server Plain.hashing) (Registering "bob@example.com") Plain.deserted w →
    NoSignup "bob@example.com" w →
    (w.log.filter fun y => y.request.signsUp "bob@example.com") ≠ [] →
      OneSucceeds "bob@example.com" w.shared.db.committed
        (w.log.filter fun y => y.request.signsUp "bob@example.com") := by
  intro hclaim
  obtain ⟨w, hrun, hgood⟩ := reach_of_replay (S := server Plain.hashing)
    (registering_of_check "bob@example.com")
    ([.start (bobSignsUp "Passw0rd!\x00")] ++ goes 0 2 ++ draws 0 Plain.a₁ ++
      [.step 0 (.salt "")] ++ goes 0 1 ++ [.respond 0])
    (w := Plain.deserted)
    (g := fun w => quiescent w && (w.log.any fun y => y.request.signsUp "bob@example.com") &&
      w.log.all fun y => answeredBy .passwordValue y) (v := true) (by decide +kernel)
  simp only [Bool.and_eq_true, List.all_eq_true, List.any_eq_true] at hgood
  obtain ⟨⟨hquiet, z, hz, hsign⟩, hall⟩ := hgood
  have hsome : (w.log.filter fun y => y.request.signsUp "bob@example.com") ≠ [] :=
    List.ne_nil_of_mem (List.mem_filter.mpr ⟨hz, hsign⟩)
  obtain ⟨l, y, l', user, hsplit, ⟨name, created, hres⟩, -⟩ :=
    hclaim w hrun (noSignup_of_quiescent (quiescent_of_check hquiet) _) hsome
  have hmem : y ∈ w.log.filter fun y => y.request.signsUp "bob@example.com" := by
    rw [hsplit]
    simp
  rw [answeredBy_iff (hall y (List.mem_filter.mp hmem).1)] at hres
  cases hres

end SampleAuthApi
