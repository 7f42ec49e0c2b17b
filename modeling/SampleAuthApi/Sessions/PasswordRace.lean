import SampleAuthApi.Model.Scripts
import SampleAuthApi.Sessions.Indexes
import SampleAuthApi.Sessions.Rotation
import SampleAuthApi.Sessions.Rows

/-!
# Concurrent changes of a password

A change of the password verifies the current password against the hash that it has loaded, and
later replaces the hash that is stored by then.  `password_changes_once`: of any number of changes
that present the same current password at most one succeeds, in every run in which the `UPDATE` of a
change is only carried out while the hash that the change has loaded is still the committed one.
`both_changes_succeed` is a run without that condition.

The invariant is that a change whose `UPDATE` is uncommitted holds the lock of the row, which still
has a hash that the current password verifies against; a committed change leaves one that it does
not verify against.
-/

namespace SampleAuthApi

open Transactions Pool

variable {T K : Type}

/-! ## Stored hashes -/

/-- What the documentation of a password context promises: a password verifies against its own hash,
and no hash tells two passwords apart of which one verifies against a hash of the other. -/
structure Discerning (ctx : CryptContext) : Prop where
  accepts : ∀ salt p h, ctx.hash salt p = .ok h → ctx.verify p h = .ok true
  alike : ∀ salt p h q, ctx.hash salt p = .ok h → ctx.verify q h = .ok true →
    ∀ g, ctx.verify q g = .ok true → ctx.verify p g ≠ .ok false

/-- The user `u` has a row, with the password hash `g`. -/
def Database.HasHash (db : Database T) (u : Uuid) (g : String) : Prop :=
  ∃ r ∈ db.users, r.id = u ∧ r.hashedPassword = g

/-- The password hash that a statement gives to the user `u`. -/
def Write.setsHash (u : Uuid) : Write T → Option String
  | .updateUser id changes => if id = u then changes.hashedPassword else none
  | _ => none

section Hashes

variable {ctx : CryptContext} {u : Uuid} {db db' : Database T} {wr : Write T} {ws : List (Write T)}

/-- A password no longer verifies when another, which the old hash tells apart from it, has been
hashed. -/
lemma Discerning.replaced (h : Discerning ctx) {current new salt g g' : String}
    (hcurrent : ctx.verify current g = .ok true) (hnew : ctx.verify new g = .ok false)
    (hhash : ctx.hash salt new = .ok g') : ctx.verify current g' ≠ .ok true ∧ g' ≠ g := by
  constructor
  · intro hverify
    exact h.alike salt new g' current hhash hverify g hcurrent hnew
  · rintro rfl
    rw [h.accepts salt new g' hhash] at hnew
    cases hnew

lemma Database.HasHash.unique {g g' : String} (h : db.HasHash u g) (h' : db.HasHash u g') :
    g = g' := by
  obtain ⟨r, hr, hid, rfl⟩ := h
  obtain ⟨r', hr', hid', rfl⟩ := h'
  rw [Database.id_unique hr hr' (hid.trans hid'.symm)]

lemma Database.HasHash.apply {g : String} (h : db.HasHash u g)
    (happ : Database.apply wr db = some db') : db'.HasHash u ((wr.setsHash u).getD g) := by
  obtain ⟨r, hr, rfl, rfl⟩ := h
  cases wr with
  | insertUser user =>
    simp only [Database.apply, Database.insertUser] at happ
    split at happ
    · cases happ
      exact ⟨r, List.mem_append_left _ hr, rfl, rfl⟩
    · cases happ
  | updateUser id changes =>
    cases happ
    refine ⟨_, List.mem_map_of_mem hr, ?_, ?_⟩
    · split <;> rfl
    · by_cases hid : r.id = id
      · simp only [hid, if_true, Write.setsHash]
        rfl
      · simp only [hid, if_false, Write.setsHash, Ne.symm hid]
        rfl
  | insertDevice device =>
    simp only [Database.apply, Database.insertDevice] at happ
    split at happ
    · cases happ
      exact ⟨r, hr, rfl, rfl⟩
    · cases happ
  | updateDevice u' d' changes => cases happ; exact ⟨r, hr, rfl, rfl⟩
  | insertHistory row => cases happ; exact ⟨r, hr, rfl, rfl⟩

/-- Statements that set no hash of `u` keep it. -/
lemma Database.HasHash.applyAll {g : String} (h : db.HasHash u g)
    (hws : ∀ wr ∈ ws, wr.setsHash u = none) :
    (Ledger.applyAll Database.apply ws db).HasHash u g := by
  induction ws generalizing db with
  | nil => exact h
  | cons wr ws ih =>
    rw [Ledger.applyAll_cons]
    refine ih ?_ fun w hw => hws w (List.mem_cons_of_mem _ hw)
    cases happ : Database.apply wr db with
    | none => exact h
    | some db' =>
      have hset := h.apply happ
      rw [hws wr List.mem_cons_self] at hset
      exact hset

lemma Write.conflicts_comm (wr wr' : Write T) : wr.conflicts wr' = wr'.conflicts wr := by
  cases wr <;> cases wr' <;> simp [Write.conflicts, Bool.beq_comm]

/-- Two transactions that both set the hash of a user are in conflict. -/
lemma conflicts_of_setsHash {wr wr' : Write T} (h : (wr.setsHash u).isSome)
    (h' : (wr'.setsHash u).isSome) : wr.conflicts wr' = true := by
  have hupdate : ∀ wr : Write T, (wr.setsHash u).isSome →
      ∃ changes, wr = .updateUser u changes := by
    intro wr hsome
    cases wr with
    | updateUser id changes =>
      by_cases hid : id = u
      · exact ⟨changes, by rw [hid]⟩
      · simp [Write.setsHash, hid] at hsome
    | _ => cases hsome
  obtain ⟨changes, rfl⟩ := hupdate wr h
  obtain ⟨changes', rfl⟩ := hupdate wr' h'
  exact beq_self_eq_true u

end Hashes

/-! ## The race -/

/-- The request is a `change_password` of the user `u`. -/
def ChangesPassword (x : Externals K) (u : Uuid) (q : Request K) : Prop :=
  ∃ tok dev current new c, q = .changePassword tok dev current new ∧ x.jwt.verify tok = some c ∧
    c.sub = u

/-- Every `change_password` of the user `u` that arrives presents the current password `p`. -/
def Racing (x : Externals K) (u : Uuid) (p : String) (_ : World T K)
    (e : Event (Request K) (Choice T)) : Prop :=
  ∀ tok dev current new c, e = .start (.changePassword tok dev current new) →
    x.jwt.verify tok = some c → c.sub = u → current = p

/-- The `UPDATE` of a `change_password` of `u` is only carried out while the hash that the request
has loaded is still the committed one. -/
def UpdatesFresh (x : Externals K) (u : Uuid) (w : World T K)
    (e : Event (Request K) (Choice T)) : Prop :=
  ∀ i q f ws, e = .step i .go → NextCall w i q f (.flush ws) → ChangesPassword x u q →
    (∃ wr ∈ ws, wr.table = .users) → ∀ s user, f.account = some (s, some user) →
    w.shared.db.committed.HasHash u user.hashedPassword

/-- The answered request is a successful `change_password` of `u`. -/
def changedPassword (x : Externals K) (u : Uuid) (y : Reply T K) : Bool :=
  match y.request, y.result with
  | .changePassword tok _ _ _, .ok _ => (x.jwt.verify tok).any fun c => c.sub == u
  | _, _ => false

/-- The request is a `change_password` of `u` that has committed. -/
def HasChanged (x : Externals K) (u : Uuid) (q : Request K) (f : Progress T) : Prop :=
  ChangesPassword x u q ∧ f.committed ≠ []

/-- What is known of an uncommitted statement of the request `q` that sets the hash of `u`, while
the committed rows are those of `db`. -/
def Arms (x : Externals K) (u : Uuid) (p : String) (db : Database T) (q : Request K)
    (wr : Write T) : Prop :=
  ∀ g, wr.setsHash u = some g → ChangesPassword x u q ∧ x.pwdContext.verify p g ≠ .ok true ∧
    ∃ g₀, db.HasHash u g₀ ∧ x.pwdContext.verify p g₀ = .ok true

/-- What is known of a request that is being served or has been answered since the race began. -/
structure Rival (x : Externals K) (u : Uuid) (p : String) (q : Request K) (f : Progress T) :
    Prop where
  /-- A change presents the password `p`. -/
  presents : ∀ tok dev current new c, q = .changePassword tok dev current new →
    x.jwt.verify tok = some c → c.sub = u → current = p
  /-- A request commits once. -/
  once : f.wrote ≠ [] → f.committed = []

/-- What holds during the race. -/
structure Rivalry (x : Externals K) (u : Uuid) (p : String) (w₀ w : World T K) : Prop where
  rivals : Since w₀ (Rival x u p) w
  armed : ∀ i q f, serving w i = some (q, f) → ∀ wr ∈ f.wrote,
    Arms x u p w.shared.db.committed q wr
  /-- A change that has committed leaves a hash that `p` does not verify against. -/
  spent : ∀ q f, Party (since w₀.log.length w) q f → HasChanged x u q f →
    ∃ g, w.shared.db.committed.HasHash u g ∧ x.pwdContext.verify p g ≠ .ok true
  /-- No two changes commit. -/
  sole : Everypair (fun q f q' f' => HasChanged x u q f → ¬ HasChanged x u q' f')
    (since w₀.log.length w)

section Race

variable [Instant T] {x : Externals K} {u : Uuid} {p : String} {w₀ w w' : World T K}
  {e : Event (Request K) (Choice T)} {q : Request K} {f f' : Progress T}

variable [DecidableEq K]

/-- What has been flushed stays locked until it is committed or rolled back. -/
lemma Change.locked (h : Change x w e w') (hl : Ledger.Locked Write.conflicts w.shared.db) :
    Ledger.Locked Write.conflicts w'.shared.db := by
  cases h with
  | start q _ hadm hshared => rw [hshared]; exact hl
  | step i c q f f' o _ hnext hmay heff =>
    rcases heff.wrote with ⟨-, -, hdb⟩ | ⟨ws, db, -, hflush, -, hs'⟩ | ⟨-, -, hs'⟩ | ⟨-, -, hs'⟩
    · rw [hdb]
      exact hl
    · rw [hs']
      exact hl.flush Write.conflicts_comm hflush
    · rw [hs']
      exact hl.commit i
    · rw [hs']
      exact hl.rollback i
  | respond i y _ hserved hends hshared => rw [hshared]; exact hl
  | env c _ hdrift =>
    rcases drift_db hdrift with ⟨-, hdb⟩ | ⟨id, status, -, hdb⟩
    · rw [hdb]
      exact hl
    · rw [hdb]
      exact hl

/-- The request in slot `i` commits statements of which one sets the hash of `u`. -/
def CommitsHash (u : Uuid) (w : World T K) (i : ℕ) (w' : World T K) : Prop :=
  ∃ q f, NextCall w i q f .commit ∧ (∃ wr ∈ f.wrote, (wr.setsHash u).isSome) ∧
    w'.shared.db = w.shared.db.commit Database.apply i

/-- The hash of a user is kept, unless a request commits another one. -/
lemma Change.hasHash (h : Change x w e w') (hsound : Sound x w) {g : String}
    (hg : w.shared.db.committed.HasHash u g) :
    w'.shared.db.committed.HasHash u g ∨ ∃ i c, e = .step i c ∧ CommitsHash u w i w' := by
  rcases h.committed_cases hsound with hsame |
    ⟨i, c, q, f, resp, rfl, hnext, -, -, hdb, hcommitted⟩ | ⟨id, status, -, happ⟩
  · exact .inl (by rwa [hsame])
  · by_cases hset : ∃ wr ∈ f.wrote, (wr.setsHash u).isSome
    · exact .inr ⟨i, c, rfl, q, f, hnext, hset, hdb⟩
    · refine .inl ?_
      rw [hcommitted]
      refine hg.applyAll fun wr hwr => ?_
      by_contra hne
      exact hset ⟨wr, hwr, Option.isSome_iff_ne_none.mpr hne⟩
  · have hset := hg.apply happ
    have hnone : (Write.updateUser (T := T) id { status := some status }).setsHash u = none := by
      simp [Write.setsHash]
    rw [hnone] at hset
    exact .inl hset

omit [Instant T] [DecidableEq K] in
lemma not_hasChanged_start : ¬ HasChanged x u q ({} : Progress T) := fun h => h.2 rfl

omit [Instant T] [DecidableEq K] in
/-- What a change that commits has flushed. -/
lemma updates_of_recorded (hlaw : Discerning x.pwdContext) {resp : Response T K}
    (hq : ChangesPassword x u q) (hrec : Recorded x q resp f.commit) (hnone : f.committed = []) :
    ∃ changes rest g, f.wrote = .updateUser u changes :: rest ∧
      changes.hashedPassword = some g ∧ ∀ wr ∈ rest, wr.setsHash u = none := by
  obtain ⟨tok, dev, current, new, c, rfl, hver, rfl⟩ := hq
  obtain ⟨c', changes, hbears, hedits, s, t', -, hcommitted⟩ := hrec
  obtain ⟨user, salt, g, t, hchanging, hhash, hchanges⟩ := hedits
  have hc : c' = c := hbears.unique ⟨tok, dev, rfl, hver⟩
  subst hc
  rw [Progress.commit, hnone, List.nil_append] at hcommitted
  obtain ⟨_, _, _, _, s', hq', -, -, hcurrent, hnew⟩ := hchanging
  cases hq'
  have hne := (hlaw.replaced hcurrent hnew hhash).2
  refine ⟨changes, _, g, hcommitted, ?_, fun wr hwr => ?_⟩
  · rw [hchanges]
    exact if_neg hne
  · obtain ⟨row, -, rfl⟩ := List.mem_map.mp hwr
    rfl

/-- A flush is carried out, or leaves everything but its own digest as it was. -/
lemma go_of_flush {i : ℕ} {c : Choice T} {ws : List (Write T)}
    (he : Pool.exec (server x) (.step i c) w = some w') (hnext : NextCall w i q f (.flush ws)) :
    c = .go ∨ serving w' i = some (q, { f with failed := true }) := by
  rcases exec_cases he with ⟨_, he', -⟩ | ⟨j, c', q', o, k, tr, r, s, he', hslot, hp, rfl⟩ |
    ⟨_, _, _, he', -⟩ | ⟨_, _, he', -⟩
  · cases he'
  · cases he'
    obtain ⟨k', tr', hslot', rfl⟩ := hnext
    rw [hslot] at hslot'
    cases hslot'
    cases c with
    | go => exact .inl rfl
    | fail =>
      have hfail : perform i .fail (.flush ws) w.shared = some (r, s) := hp
      obtain ⟨-, hnote⟩ := perform_fail (f := progress tr) hfail
      refine .inr ?_
      rw [serving, slot_set (slot_lt hslot), if_pos rfl, Option.map_some, progress_cons, hnote]
    | _ => cases hp
  · cases he'
  · cases he'

omit [DecidableEq K] in
/-- A statement that sets the hash of a user is that of a change which has verified both passwords
against the hash that it has loaded. -/
lemma changing_of_setsHash {wr : Write T} (hmay : MayWrite x q f wr) {g : String}
    (hset : wr.setsHash u = some g) : ∃ tok dev current new c s user salt,
      q = .changePassword tok dev current new ∧ x.jwt.verify tok = some c ∧ c.sub = u ∧
      wr.table = .users ∧ f.account = some (s, some user) ∧
      x.pwdContext.verify current user.hashedPassword = .ok true ∧
      x.pwdContext.verify new user.hashedPassword = .ok false ∧
      x.pwdContext.hash salt new = .ok g := by
  cases wr with
  | updateUser id changes =>
    by_cases hid : id = u
    · subst hid
      have hhash : changes.hashedPassword = some g := by simpa [Write.setsHash] using hset
      rcases hmay with ⟨d, t, -, rfl⟩ | ⟨c, hauth, rfl, hedits⟩
      · cases hhash
      · cases q with
        | changePassword tok dev current new =>
          obtain ⟨user, salt, g', t, hchanging, hmade, rfl⟩ := hedits
          obtain ⟨_, _, _, _, s, hq, hacc, -, hcurrent, hnew⟩ := hchanging
          cases hq
          rw [changed_eq_some hhash]
          obtain ⟨_, _, hb, hver, -⟩ := hauth
          cases hb
          exact ⟨tok, dev, current, new, c, s, user, salt, rfl, hver, rfl, rfl, hacc, hcurrent,
            hnew, hmade⟩
        | updateMe tok dev name phone =>
          obtain ⟨t, hnone, -⟩ := hedits
          rw [hnone] at hhash
          cases hhash
        | deleteAccount tok dev password =>
          obtain ⟨s, user, t, -, -, -, rfl⟩ := hedits
          cases hhash
        | _ => exact hedits.elim
    · simp [Write.setsHash, hid] at hset
  | _ => cases hset

omit [DecidableEq K] in
/-- The statements that a request flushes during the race are known. -/
lemma Rivalry.arms (hw : Rivalry x u p w₀ w) (hlaw : Discerning x.pwdContext)
    (hU : UpdatesFresh x u w e) {i : ℕ} (he : e = .step i .go) {ws : List (Write T)}
    (hnext : NextCall w i q f (.flush ws)) {wr : Write T} (hwr : wr ∈ ws)
    (hmay : MayWrite x q f wr) : Arms x u p w.shared.db.committed q wr := by
  intro g hset
  obtain ⟨tok, dev, current, new, c, s, user, salt, rfl, hver, hc, htable, hacc, hcurrent, hnew,
    hmade⟩ := changing_of_setsHash hmay hset
  have hq : ChangesPassword x u (.changePassword tok dev current new) :=
    ⟨tok, dev, current, new, c, rfl, hver, hc⟩
  have hp : current = p :=
    (hw.rivals.served i _ f hnext.serving).presents tok dev current new c rfl hver hc
  subst hp
  exact ⟨hq, (hlaw.replaced hcurrent hnew hmade).1, user.hashedPassword,
    hU i _ f ws he hnext hq ⟨wr, hwr, htable⟩ s user hacc, hcurrent⟩

omit [DecidableEq K] in
/-- Only a commit spends a change. -/
lemma Effect.hasChanged {i : ℕ} {c : Choice T} {o : Op T} {s s' : Stores T}
    (heff : Effect i c s f o f' s') (h : HasChanged x u q f') : HasChanged x u q f ∨
    (o = .commit ∧ f' = f.commit ∧ s' = { s with db := s.db.commit Database.apply i }) := by
  rcases heff.wrote with ⟨-, hc, -⟩ | ⟨ws, db, -, -, rfl, -⟩ | hcommit | ⟨-, rfl, -⟩
  · exact .inl ⟨h.1, hc ▸ h.2⟩
  · exact .inl h
  · exact .inr hcommit
  · exact .inl h

omit [DecidableEq K] in
/-- A change that commits is the first, and leaves a hash that the old password does not verify
against. -/
lemma Rivalry.committing (hw : Rivalry x u p w₀ w) (hlaw : Discerning x.pwdContext)
    (hsound : Sound x w) {i : ℕ} (hnext : NextCall w i q f .commit) (hmay : MayCall x q f .commit)
    (hspent : HasChanged x u q f.commit) (hnot : ¬ HasChanged x u q f) :
    (∀ q' f', Party (since w₀.log.length w) q' f' → ¬ HasChanged x u q' f') ∧
    ∃ g, (w.shared.db.commit Database.apply i).committed.HasHash u g ∧
      x.pwdContext.verify p g ≠ .ok true := by
  have hnone : f.committed = [] := by
    by_contra hne
    exact hnot ⟨hspent.1, hne⟩
  obtain ⟨resp, -, hrec⟩ := hmay
  obtain ⟨changes, rest, g, hwrote, hset, hrest⟩ := updates_of_recorded hlaw hspent.1 hrec hnone
  have hself : (Write.updateUser u changes).setsHash u = some g := by
    simpa [Write.setsHash] using hset
  obtain ⟨-, hg, g₀, hhas, hg₀⟩ := hw.armed i q f hnext.serving (.updateUser u changes)
    (by rw [hwrote]; exact List.mem_cons_self) g hself
  refine ⟨fun q' f' hp hs => ?_, g, ?_, hg⟩
  · obtain ⟨g₁, hhas₁, hg₁⟩ := hw.spent q' f' hp hs
    rw [hhas.unique hhas₁] at hg₀
    exact hg₁ hg₀
  · have hown : w.shared.db.own i = f.wrote := by rw [hsound.own, hnext.serving]; rfl
    rw [Ledger.committed_commit, Ledger.view, hown, hwrote, Ledger.applyAll_cons]
    have happ : Database.apply (.updateUser u changes) w.shared.db.committed =
        some (w.shared.db.committed.updateUser u changes) := rfl
    have hupdated := hhas.apply happ
    rw [hself] at hupdated
    exact hupdated.applyAll hrest

/-- The uncommitted statements are known after an event. -/
lemma Rivalry.armed_change (hw : Rivalry x u p w₀ w) (hlaw : Discerning x.pwdContext)
    (hsound : Sound x w) (hlock : Ledger.Locked Write.conflicts w.shared.db)
    (hU : UpdatesFresh x u w e) (he : Pool.exec (server x) e w = some w') :
    ∀ i q f, serving w' i = some (q, f) → ∀ wr ∈ f.wrote,
      Arms x u p w'.shared.db.committed q wr := by
  have h := hsound.change he
  -- another request that commits a hash of the user would hold the lock of the same row
  have hkeep : ∀ j q g, serving w j = some (q, g) → (∀ c, e ≠ .step j c) → ∀ wr ∈ g.wrote,
      Arms x u p w'.shared.db.committed q wr := by
    intro j q g hj hne wr hwr g' hset
    obtain ⟨hq, hver, g₀, hhas, hg₀⟩ := hw.armed j q g hj wr hwr g' hset
    refine ⟨hq, hver, g₀, ?_, hg₀⟩
    rcases h.hasHash hsound hhas with hkept | ⟨i, c, rfl, q', f', hnext, ⟨wr', hwr', hset'⟩, -⟩
    · exact hkept
    · have hij : i ≠ j := by
        rintro rfl
        exact hne c rfl
      have hown : w.shared.db.own i = f'.wrote := by rw [hsound.own, hnext.serving]; rfl
      have hown' : w.shared.db.own j = g.wrote := by rw [hsound.own, hj]; rfl
      have hfree := hlock i j hij wr' (hown ▸ hwr') wr (hown' ▸ hwr)
      rw [conflicts_of_setsHash hset' (by rw [hset]; rfl)] at hfree
      cases hfree
  have hexec := he
  cases h with
  | start q _ hadm hshared hlog hslots hserve =>
    intro j q' g hj wr hwr
    rw [hserve] at hj
    split at hj
    · cases hj
      cases hwr
    · exact hkeep j q' g hj (fun c hc => by cases hc) wr hwr
  | step i c q f f' o _ hnext hmay heff hlog hslots hserve =>
    intro j q' g hj wr hwr
    rw [hserve] at hj
    split at hj
    · cases hj
      have hold := hw.armed i q f hnext.serving wr
      rcases heff.wrote with ⟨hsame, -, hdb⟩ | ⟨ws, db, rfl, hflush, rfl, hs'⟩ | ⟨-, rfl, -⟩ |
        ⟨-, rfl, -⟩
      · rw [hdb]
        exact hold (hsame ▸ hwr)
      · rw [hs', Ledger.committed_flush hflush]
        rcases List.mem_append.mp hwr with hwr' | hnew
        · exact hold hwr'
        · rcases go_of_flush hexec hnext with rfl | hfail
          · exact hw.arms hlaw hU rfl hnext hnew (hmay.2 wr hnew)
          · rw [hserve, if_pos rfl, Option.some.injEq, Prod.mk.injEq] at hfail
            have hsame := congrArg Progress.wrote hfail.2
            change f.wrote ++ ws = f.wrote at hsame
            rw [List.append_right_eq_self.mp hsame] at hnew
            cases hnew
      · cases hwr
      · cases hwr
    · rename_i hji
      refine hkeep j q' g hj (fun c' hc => ?_) wr hwr
      cases hc
      exact hji rfl
  | respond i y _ hserved hends hshared hlog hslots hserve =>
    intro j q' g hj wr hwr
    rw [hserve] at hj
    split at hj
    · cases hj
    · exact hkeep j q' g hj (fun c hc => by cases hc) wr hwr
  | env c _ hdrift hlog hslots hserve =>
    intro j q' g hj wr hwr
    rw [hserve] at hj
    exact hkeep j q' g hj (fun c' hc => by cases hc) wr hwr

/-- The invariant is kept by every event of the race. -/
theorem Rivalry.change (hw : Rivalry x u p w₀ w) (hlaw : Discerning x.pwdContext)
    (hsound : Sound x w) (hlock : Ledger.Locked Write.conflicts w.shared.db)
    (hR : Racing x u p w e) (hU : UpdatesFresh x u w e)
    (he : Pool.exec (server x) e w = some w') : Rivalry x u p w₀ w' := by
  have h := hsound.change he
  have hlength : w₀.log.length ≤ w.log.length := by
    obtain ⟨-, ys, hys, -⟩ := hw.rivals
    rw [hys, List.length_append]
    omega
  have hsince := h.since hlength
  refine ⟨?_, hw.armed_change hlaw hsound hlock hU he, ?_, ?_⟩
  · refine hw.rivals.change h (fun q f hf => hf) (fun q hq => ?_)
      fun i c q f f' o _ hnext hmay heff hf => ⟨hf.presents, fun hne => ?_⟩
    · refine ⟨fun tok dev current new c hq' => ?_, fun hne => absurd rfl hne⟩
      subst hq'
      exact hR tok dev current new c hq
    · rcases heff.wrote with ⟨hwr, hc, -⟩ | ⟨ws, db, rfl, -, rfl, -⟩ | ⟨-, rfl, -⟩ | ⟨-, rfl, -⟩
      · rw [hc]
        exact hf.once (hwr ▸ hne)
      · exact hmay.1
      · exact absurd rfl hne
      · exact absurd rfl hne
  · -- a hash that the password does not verify against is only replaced by another such hash
    have hold : ∀ q f, Party (since w₀.log.length w) q f → HasChanged x u q f →
        ∃ g, w'.shared.db.committed.HasHash u g ∧ x.pwdContext.verify p g ≠ .ok true := by
      intro q f hp hs
      obtain ⟨g, hhas, hg⟩ := hw.spent q f hp hs
      rcases h.hasHash hsound hhas with hkept | ⟨i, c, -, q', f', hnext, ⟨wr, hwr, hset⟩, -⟩
      · exact ⟨g, hkept, hg⟩
      · obtain ⟨g', hset'⟩ := Option.isSome_iff_exists.mp hset
        obtain ⟨-, -, g₀, hhas₀, hg₀⟩ := hw.armed i q' f' hnext.serving wr hwr g' hset'
        rw [hhas₀.unique hhas] at hg₀
        exact absurd hg₀ hg
    intro q f' hp hs
    rcases hsince.party hp with ⟨hp, -⟩ | ⟨-, rfl⟩ | ⟨i, c, f, o, -, hnext, hmay, heff⟩
    · exact hold q f' hp hs
    · exact absurd hs not_hasChanged_start
    · by_cases hbefore : HasChanged x u q f
      · exact hold q f (.inl ⟨i, hnext.serving⟩) hbefore
      · rcases heff.hasChanged hs with hbefore' | ⟨rfl, rfl, hs'⟩
        · exact absurd hbefore' hbefore
        · obtain ⟨-, g, hhas, hg⟩ := hw.committing hlaw hsound hnext hmay hs hbefore
          refine ⟨g, ?_, hg⟩
          change w'.shared = _ at hs'
          rw [hs']
          exact hhas
  · refine hw.sole.change hsince (fun q f q' f' hR hs' hs => hR hs hs')
      (fun q _ q' f' _ hs => absurd hs not_hasChanged_start)
      fun i c q f f' o q' g _ hnext hmay heff hother hR hs hs' => ?_
    by_cases hbefore : HasChanged x u q f
    · exact hR hbefore hs'
    · rcases heff.hasChanged hs with hbefore' | ⟨rfl, rfl, -⟩
      · exact hbefore hbefore'
      · exact (hw.committing hlaw hsound hnext hmay hs hbefore).1 q' g hother.party hs'

/-! ## The outcome -/

omit [Instant T] [DecidableEq K] in
/-- A successful change of the password is a change of the user `u`. -/
lemma changesPassword_of_changed {y : Reply T K} (h : changedPassword x u y = true) :
    ChangesPassword x u y.request ∧ ∃ resp, y.result = .ok resp := by
  unfold changedPassword at h
  split at h
  · rename_i tok dev current new resp hq hres
    rw [Option.any_eq_true] at h
    obtain ⟨c, hver, hc⟩ := h
    exact ⟨⟨tok, dev, current, new, c, hq, hver, beq_iff_eq.mp hc⟩, resp, hres⟩
  · cases h

omit [DecidableEq K] in
/-- A successful change of the password has committed. -/
lemma hasChanged_of_changed {y : Reply T K}
    (hends : Ends x y.request y.result (progress y.performed)) (h : changedPassword x u y = true) :
    HasChanged x u y.request (progress y.performed) := by
  obtain ⟨hchange, resp, hres⟩ := changesPassword_of_changed h
  refine ⟨hchange, ?_⟩
  obtain ⟨tok, dev, current, new, c, hq, -⟩ := hchange
  rw [hres, hq] at hends
  obtain ⟨-, -, c', changes, -, -, s, t, -, hcommitted⟩ := hends
  rw [hcommitted]
  exact List.cons_ne_nil _ _

/-- What holds of the uncommitted statements in every reachable state. -/
lemma locked_of_reach {C : World T K → Event (Request K) (Choice T) → Prop} {now : T}
    {db : Database T} {drawn : List Uuid}
    (h : Reach (server x) C (Pool.initial (Stores.initial now db drawn)) w) :
    Sound x w ∧ Ledger.Locked Write.conflicts w.shared.db ∧
      Everyone (fun q f => (f.wrote ≠ [] → f.committed = []) ∧
        ∀ wr ∈ f.wrote, (wr.setsHash u).isSome → ChangesPassword x u q) w := by
  refine h.induct (I := fun v => Sound x v ∧ Ledger.Locked Write.conflicts v.shared.db ∧
    Everyone (fun q f => (f.wrote ≠ [] → f.committed = []) ∧
      ∀ wr ∈ f.wrote, (wr.setsHash u).isSome → ChangesPassword x u q) v)
    ⟨sound_initial now db drawn, Ledger.locked_of_pending rfl,
      fun i q f hi => by simp [serving_initial] at hi, fun y hy => absurd hy List.not_mem_nil⟩
    fun v e v' _ ⟨hsound, hlock, hall⟩ _ he => ?_
  have hc := hsound.change he
  refine ⟨hsound.exec he, hc.locked hlock, hall.change hc (fun q f hf => hf)
    (fun q => ⟨fun hne => absurd rfl hne, fun wr hwr => absurd hwr List.not_mem_nil⟩)
    fun i c q f f' o _ hnext hmay heff hf => ?_⟩
  rcases heff.wrote with ⟨hwr, hcom, -⟩ | ⟨ws, db', rfl, -, rfl, -⟩ | ⟨-, rfl, -⟩ | ⟨-, rfl, -⟩
  · rw [hwr, hcom]
    exact hf
  · refine ⟨fun _ => hmay.1, fun wr hwr hset => ?_⟩
    rcases List.mem_append.mp hwr with hwr | hwr
    · exact hf.2 wr hwr hset
    · obtain ⟨g, hg⟩ := Option.isSome_iff_exists.mp hset
      obtain ⟨tok, dev, current, new, c', -, -, -, hq, hver, hsub, -⟩ :=
        changing_of_setsHash (hmay.2 wr hwr) hg
      exact ⟨tok, dev, current, new, c', hq, hver, hsub⟩
  · exact ⟨fun hne => absurd rfl hne, fun wr hwr => absurd hwr List.not_mem_nil⟩
  · exact ⟨fun hne => absurd rfl hne, fun wr hwr => absurd hwr List.not_mem_nil⟩

/-- Of any number of concurrent changes of the password of one user that present the same current
password, whatever the other requests do, at most one succeeds, if the `UPDATE` of a change is only
carried out while the hash that the change has loaded is still the committed one. -/
theorem password_changes_once {C : World T K → Event (Request K) (Choice T) → Prop} {now : T}
    {db : Database T} {drawn : List Uuid} (hlaw : Discerning x.pwdContext)
    (hreach : Reach (server x) C (Pool.initial (Stores.initial now db drawn)) w₀)
    (hbegin : ∀ i q f, serving w₀ i = some (q, f) → ¬ ChangesPassword x u q)
    (hrun : Reach (server x) (fun v e => Racing x u p v e ∧ UpdatesFresh x u v e) w₀ w) :
    ∃ ys, w.log = w₀.log ++ ys ∧ ys.countP (changedPassword x u) ≤ 1 := by
  obtain ⟨hsound₀, hlock₀, hall⟩ := locked_of_reach (u := u) hreach
  have hnobody : ∀ q f, Party (since w₀.log.length w₀) q f → ¬ ChangesPassword x u q := by
    rintro q f (⟨i, hi⟩ | ⟨y, hy, -⟩)
    · exact hbegin i q f hi
    · change y ∈ w₀.log.drop w₀.log.length at hy
      rw [List.drop_length] at hy
      cases hy
  have hstart : Rivalry x u p w₀ w₀ := by
    refine ⟨⟨fun i q f hi => ⟨?_, (hall.served i q f hi).1⟩, [], (List.append_nil _).symm,
      fun y hy => absurd hy List.not_mem_nil⟩, ?_, ?_, ?_⟩
    · intro tok dev current new c hq hver hsub
      exact absurd ⟨tok, dev, current, new, c, hq, hver, hsub⟩ (hbegin i q f hi)
    · intro i q f hi wr hwr g hset
      exact absurd ((hall.served i q f hi).2 wr hwr (by rw [hset]; rfl)) (hbegin i q f hi)
    · exact fun q f hp hs => absurd hs.1 (hnobody q f hp)
    · refine ⟨fun i j q f q' f' _ hi _ hs => absurd hs.1 (hbegin i q f hi),
        fun i q f hi y hy hs => absurd hs.1 (hbegin i q f hi), ?_⟩
      change (w₀.log.drop w₀.log.length).Pairwise _
      rw [List.drop_length]
      exact .nil
  obtain ⟨hsound, -, hrace⟩ := hrun.induct (I := fun v => Sound x v ∧
      Ledger.Locked Write.conflicts v.shared.db ∧ Rivalry x u p w₀ v) ⟨hsound₀, hlock₀, hstart⟩
    fun v e v' _ ⟨hsound, hlock, hv⟩ hK he => ⟨hsound.exec he, (hsound.change he).locked hlock,
      hv.change hlaw hsound hlock hK.1 hK.2 he⟩
  obtain ⟨-, ys, hys, -⟩ := hrace.rivals
  refine ⟨ys, hys, countP_le_one ?_⟩
  have hlogged := hrace.sole.logged
  change (w.log.drop w₀.log.length).Pairwise _ at hlogged
  rw [hys, List.drop_left] at hlogged
  have hmem : ∀ y ∈ ys, y ∈ w.log := by
    intro y hy
    rw [hys]
    exact List.mem_append_right _ hy
  refine hlogged.imp_of_mem fun {y z} hy hz hne hchanged hchanged' => ?_
  exact hne (hasChanged_of_changed (hsound.ends (hmem y hy)) hchanged)
    (hasChanged_of_changed (hsound.ends (hmem z hz)) hchanged')

end Race

/-! ## Runs of the race -/

/-- `Database.HasHash`, as a check. -/
def hasHash (u : Uuid) (g : String) (w : World T K) : Bool :=
  w.shared.db.committed.users.any fun r => r.id == u && r.hashedPassword == g

lemma hasHash_of_check {u : Uuid} {g : String} {w : World T K} (h : hasHash u g w = true) :
    w.shared.db.committed.HasHash u g := by
  simpa [hasHash, Database.HasHash] using h

/-- `Racing`, as a check. -/
def racing (x : Externals K) (u : Uuid) (p : String) : Event (Request K) (Choice T) → Bool
  | .start (.changePassword tok _ current _) =>
    (x.jwt.verify tok).all fun c => c.sub != u || current == p
  | _ => true

lemma racing_of_check {x : Externals K} {u : Uuid} {p : String} {w : World T K}
    {e : Event (Request K) (Choice T)} (h : racing x u p e = true) : Racing x u p w e := by
  rintro tok dev current new c rfl hver hsub
  simpa [racing, hver, hsub] using h

/-- `UpdatesFresh`, as a check. -/
def updatesFresh (u : Uuid) (w : World T K) : Event (Request K) (Choice T) → Bool
  | .step i .go => match w.slot i with
    | some ⟨_, .call (.flush ws) _, tr⟩ =>
      !(ws.any fun wr => decide (wr.table = .users)) || match (progress tr).account with
        | some (_, some user) => hasHash u user.hashedPassword w
        | _ => true
    | _ => true
  | _ => true

lemma updatesFresh_of_check {x : Externals K} {u : Uuid} {w : World T K}
    {e : Event (Request K) (Choice T)} (h : updatesFresh u w e = true) : UpdatesFresh x u w e := by
  rintro i q f ws rfl ⟨k, tr, hslot, rfl⟩ - ⟨wr, hwr, htable⟩ s user haccount
  have hupdates : (ws.any fun wr => decide (wr.table = .users)) = true :=
    List.any_eq_true.mpr ⟨wr, hwr, decide_eq_true htable⟩
  simp only [updatesFresh, hslot, haccount, hupdates, Bool.not_true, Bool.false_or] at h
  exact hasHash_of_check h

/-- The plain password context tells passwords apart. -/
lemma Plain.discerning : Discerning Plain.pwdContext where
  accepts := by
    rintro salt p h hhash
    cases hhash
    exact congrArg Except.ok (beq_self_eq_true p)
  alike := by
    rintro salt p h q hhash hq g hg hfalse
    cases hhash
    have hqp : q = p := by simpa [Plain.pwdContext] using hq
    rw [hqp, hfalse] at hg
    cases hg

/-- Alice asks for the password `new`. -/
def Plain.changes (new : String) : Request Claims :=
  .changePassword (Plain.access 0 Plain.a₁) "phone" "old" new

/-- The answered request is the change to `new`, and it has succeeded. -/
def Plain.changedTo (new : String) (y : Reply ℚ Claims) : Bool :=
  match y.request, y.result with
  | .changePassword _ _ current new', .ok _ => current == "old" && new' == new
  | _, _ => false

/-- Both changes have succeeded, one after the other, as a check. -/
def Plain.bothChanged : List (Reply ℚ Claims) → Bool
  | [y, z] => Plain.changedTo "new1" y && Plain.changedTo "new2" z
  | _ => false

lemma Plain.bothChanged_of_check {ys : List (Reply ℚ Claims)} (h : Plain.bothChanged ys = true) :
    ∃ y z, ys = [y, z] ∧ Plain.changedTo "new1" y = true ∧ Plain.changedTo "new2" z = true := by
  unfold Plain.bothChanged at h
  split at h
  · rename_i y z
    rw [Bool.and_eq_true] at h
    exact ⟨y, z, rfl, h⟩
  · cases h

/-- Alice asks twice for a new password. -/
def Plain.twoChanges : List (ServiceEvent ℚ Claims) :=
  [.start (Plain.changes "new1"), .start (Plain.changes "new2")]

/-- Two changes, of which the second reads the row when the first has flushed: it waits for the
lock, and fails. -/
theorem password_changes_once_replay : ∃ (w₀ w : World ℚ Claims) (ys : List (Reply ℚ Claims)),
    w.log = w₀.log ++ ys ∧ ys.length = 2 ∧
    ys.countP (changedPassword Plain.externals Plain.aliceId) = 1 := by
  obtain ⟨w₀, hreach, hgood⟩ := reach_of_replay (S := server Plain.externals) anyEvent_of_check
    (loginScript 0 "alice@example.com" "old" Plain.phone Plain.a₁ Plain.r₁) (w := Plain.start)
    (g := fun w₀ => quiescent w₀ && (runWith (server Plain.externals) (fun v e =>
        racing Plain.externals Plain.aliceId "old" e && updatesFresh Plain.aliceId v e)
      (Plain.twoChanges ++ goes 2 2 ++ goes 1 5 ++ [.step 1 (.salt "")] ++ goes 1 8 ++ goes 2 3 ++
        [.respond 1, .respond 2]) w₀).any fun w =>
      (w.log.length == w₀.log.length + 2) &&
        ((w.log.drop w₀.log.length).countP (changedPassword Plain.externals Plain.aliceId) == 1))
    (v := true) (by decide +kernel)
  rw [Bool.and_eq_true, Option.any_eq_true] at hgood
  obtain ⟨hquiet, w, hrun, hcount⟩ := hgood
  rw [Bool.and_eq_true, beq_iff_eq, beq_iff_eq] at hcount
  obtain ⟨hlength, hcount⟩ := hcount
  have hnobody : ∀ i q f, serving w₀ i = some (q, f) →
      ¬ ChangesPassword Plain.externals Plain.aliceId q := by
    intro i q f hi
    exact absurd hi (not_serving_of_quiescent (quiescent_of_check hquiet) i)
  have hrun : Reach (server Plain.externals) (fun v e =>
      Racing Plain.externals Plain.aliceId "old" v e ∧
        UpdatesFresh Plain.externals Plain.aliceId v e) w₀ w := by
    refine reach_of_runWith (fun v e h => ?_) hrun
    rw [Bool.and_eq_true] at h
    exact ⟨racing_of_check h.1, updatesFresh_of_check h.2⟩
  obtain ⟨ys, hlog, honce⟩ := password_changes_once Plain.discerning hreach hnobody hrun
  rw [hlog, List.length_append] at hlength
  rw [hlog, List.drop_left] at hcount
  exact ⟨w₀, w, ys, hlog, by omega, hcount⟩

/-- Two changes that have both verified the current password before either commits both succeed, and
the password that the first one has set is no longer there. -/
theorem both_changes_succeed : ∃ (w₀ w : World ℚ Claims) (y z : Reply ℚ Claims),
    Reach (server Plain.externals) AnyEvent Plain.start w₀ ∧ w₀.Quiescent ∧
    w₀.shared.db.committed.HasHash Plain.aliceId "old" ∧
    Reach (server Plain.externals) (Racing Plain.externals Plain.aliceId "old") w₀ w ∧
    w.Quiescent ∧ w.log.drop w₀.log.length = [y, z] ∧
    Plain.changedTo "new1" y = true ∧ Plain.changedTo "new2" z = true ∧
    w.shared.db.committed.HasHash Plain.aliceId "new2" := by
  obtain ⟨w₀, hreach, hgood⟩ := reach_of_replay (S := server Plain.externals) anyEvent_of_check
    (loginScript 0 "alice@example.com" "old" Plain.phone Plain.a₁ Plain.r₁) (w := Plain.start)
    (g := fun w₀ => quiescent w₀ && (hasHash Plain.aliceId "old" w₀ &&
      (runWith (server Plain.externals) (fun _ e =>
        racing Plain.externals Plain.aliceId "old" e)
      (Plain.twoChanges ++ goes 1 3 ++ goes 2 3 ++ goes 1 2 ++ [.step 1 (.salt "")] ++ goes 1 8 ++
        goes 2 2 ++ [.step 2 (.salt "")] ++ goes 2 8 ++ [.respond 1, .respond 2]) w₀).any fun w =>
      quiescent w && (hasHash Plain.aliceId "new2" w &&
        Plain.bothChanged (w.log.drop w₀.log.length))))
    (v := true) (by decide +kernel)
  rw [Bool.and_eq_true, Bool.and_eq_true, Option.any_eq_true] at hgood
  obtain ⟨hquiet, hold, w, hrun, hend⟩ := hgood
  rw [Bool.and_eq_true, Bool.and_eq_true] at hend
  obtain ⟨hquiet', hnew, hlogged⟩ := hend
  obtain ⟨y, z, hlog, hfirst, hsecond⟩ := Plain.bothChanged_of_check hlogged
  exact ⟨w₀, w, y, z, hreach, quiescent_of_check hquiet, hasHash_of_check hold,
    reach_of_runWith (fun v e h => racing_of_check h) hrun, quiescent_of_check hquiet', hlog,
    hfirst, hsecond, hasHash_of_check hnew⟩

end SampleAuthApi
