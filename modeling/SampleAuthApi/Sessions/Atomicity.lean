import SampleAuthApi.Sessions.Indexes
import SampleAuthApi.Sessions.Rows

/-!
# The database in commit order

In any interleaving, and whatever fails, the committed database is the first one with the writes of
some requests replayed in the order of their commits, each request's writes together and every one
accepted by the unique indexes, with the changes of administrators in between
(`commits_in_order`).  The requests whose writes are replayed are exactly those that succeeded: what
a failed request has flushed is not among them.  The changes in between are exactly those that
administrators have made during the run, in the same order.
-/

namespace SampleAuthApi

open Transactions Pool

variable {T K : Type}

/-- One change of the committed database. -/
inductive Commit (T : Type) : Type
  /-- A request publishes its writes. -/
  | request (ws : List (Write T))
  /-- An administrator sets the status of a user. -/
  | admin (id : Uuid) (status : UserStatus)

namespace Commit

/-- The writes of a change. -/
def writes : Commit T → List (Write T)
  | request ws => ws
  | admin id status => [.updateUser id { status := some status }]

/-- The writes of a request. -/
def request? : Commit T → Option (List (Write T))
  | request ws => some ws
  | admin _ _ => none

/-- The change of an administrator. -/
def admin? : Commit T → Option (Uuid × UserStatus)
  | request _ => none
  | admin id status => some (id, status)

/-- All writes of some changes can be applied in order, and lead from `db` to `db'`. -/
structure Leads (cs : List (Commit T)) (db db' : Database T) : Prop where
  /-- No unique index refuses a write. -/
  accepted : Ledger.accepts Database.apply (cs.flatMap writes) db = true
  result : db' = Ledger.applyAll Database.apply (cs.flatMap writes) db

/-- No change leads back to the same database. -/
theorem Leads.nil (db : Database T) : Leads [] db db := ⟨rfl, rfl⟩

/-- One change leads to its result. -/
theorem Leads.single {c : Commit T} {db db' : Database T}
    (hacc : Ledger.accepts Database.apply c.writes db = true)
    (hres : db' = Ledger.applyAll Database.apply c.writes db) : Leads [c] db db' := by
  refine ⟨?_, ?_⟩
  · simpa using hacc
  · simpa using hres

/-- Changes in sequence. -/
theorem Leads.append {cs cs' : List (Commit T)} {db db' db'' : Database T} (h : Leads cs db db')
    (h' : Leads cs' db' db'') : Leads (cs ++ cs') db db'' := by
  have hres := h.result
  subst hres
  refine ⟨?_, ?_⟩
  · rw [List.flatMap_append]
    exact (Ledger.accepts_append _ _ _).mpr ⟨h.accepted, h'.accepted⟩
  · rw [List.flatMap_append, Ledger.applyAll_append]
    exact h'.result

end Commit

/-! ## What has been published -/

/-- What a request has published, if it has published anything. -/
def Progress.share (f : Progress T) : Multiset (List (Write T)) :=
  if f.committed.isEmpty then 0 else {f.committed}

/-- A request that has committed no writes has published nothing. -/
lemma Progress.share_eq_zero {f : Progress T} : f.share = 0 ↔ f.committed = [] := by
  unfold Progress.share
  cases hc : f.committed with
  | nil => simp
  | cons wr ws => simp

lemma Progress.share_congr {f f' : Progress T} (h : f'.committed = f.committed) :
    f'.share = f.share := by
  rw [Progress.share, Progress.share, h]

/-- What the request in slot `i` has published. -/
def slotShare (w : World T K) (i : ℕ) : Multiset (List (Write T)) :=
  ((serving w i).map fun p => p.2.share).getD 0

/-- What the answered requests have published. -/
def logShare (w : World T K) : Multiset (List (Write T)) :=
  (w.log.map fun y => (progress y.performed).share).sum

/-- What has been published by the requests that are being served or have been answered. -/
def published (w : World T K) : Multiset (List (Write T)) :=
  logShare w + ∑ i ∈ Finset.range w.slots.length, slotShare w i

/-- While no request is being served, what is published is that of the log. -/
lemma published_of_quiescent {w : World T K} (h : w.Quiescent) : published w = logShare w := by
  have hslots : ∀ i ∈ Finset.range w.slots.length, slotShare w i = 0 := by
    intro i _
    simp [slotShare, serving, h i]
  rw [published, Finset.sum_eq_zero hslots, add_zero]

/-- A request publishes `m` more. -/
lemma published_add {w w' : World T K} {i : ℕ} {q : Request K} {f f' : Progress T}
    {m : Multiset (List (Write T))} (hi : serving w i = some (q, f)) (hlog : w'.log = w.log)
    (hslots : w'.slots.length = w.slots.length)
    (hserve : ∀ j, serving w' j = if j = i then some (q, f') else serving w j)
    (hm : f'.share = f.share + m) : published w' = published w + m := by
  have hlt : i ∈ Finset.range w.slots.length := by
    obtain ⟨p, tr, hslot, -⟩ := serving_eq_some.mp hi
    exact Finset.mem_range.mpr (slot_lt hslot)
  have hshare : ∀ j, slotShare w' j = slotShare w j + if j = i then m else 0 := by
    intro j
    rw [slotShare, slotShare, hserve]
    by_cases hj : j = i
    · subst hj
      simp [hi, hm]
    · simp [hj]
  unfold published logShare
  rw [hlog, hslots, Finset.sum_congr rfl fun j _ => hshare j, Finset.sum_add_distrib,
    Finset.sum_ite_eq' _ i fun _ => m, if_pos hlt, add_assoc]

/-- What a request has published stays published when it is answered. -/
lemma published_respond {w w' : World T K} {i : ℕ} {y : Reply T K}
    (hi : serving w i = some (y.request, progress y.performed)) (hlog : w'.log = w.log ++ [y])
    (hslots : w'.slots.length = w.slots.length)
    (hserve : ∀ j, serving w' j = if j = i then none else serving w j) :
    published w' = published w := by
  have hlt : i ∈ Finset.range w.slots.length := by
    obtain ⟨p, tr, hslot, -⟩ := serving_eq_some.mp hi
    exact Finset.mem_range.mpr (slot_lt hslot)
  have hshare : ∀ j, slotShare w j =
      slotShare w' j + if j = i then (progress y.performed).share else 0 := by
    intro j
    rw [slotShare, slotShare, hserve]
    by_cases hj : j = i
    · subst hj
      simp [hi]
    · simp [hj]
  unfold published logShare
  rw [hlog, hslots, Finset.sum_congr rfl fun j _ => hshare j, Finset.sum_add_distrib,
    Finset.sum_ite_eq' _ i fun _ => (progress y.performed).share, if_pos hlt, List.map_append,
    List.sum_append]
  simp only [List.map_cons, List.map_nil, List.sum_cons, List.sum_nil, add_zero]
  abel

/-- A request that arrives has published nothing. -/
lemma published_start {w w' : World T K} {q : Request K} (hlog : w'.log = w.log)
    (hslots : w'.slots.length = w.slots.length + 1)
    (hserve : ∀ j, serving w' j = if j = w.slots.length then some (q, {}) else serving w j) :
    published w' = published w := by
  have hshare : ∀ j ∈ Finset.range w.slots.length, slotShare w' j = slotShare w j := by
    intro j hj
    rw [slotShare, slotShare, hserve, if_neg (Finset.mem_range.mp hj).ne]
  have hnew : slotShare w' w.slots.length = 0 := by
    rw [slotShare, hserve, if_pos rfl]
    rfl
  unfold published logShare
  rw [hlog, hslots, Finset.sum_range_succ, Finset.sum_congr rfl hshare, hnew, add_zero]

/-! ## One event -/

/-- What an administrator does. -/
def statusChange? : ServiceEvent T K → Option (Uuid × UserStatus)
  | .env (.setStatus id status) => some (id, status)
  | _ => none

variable [Instant T] [DecidableEq K] {x : Externals K} {w w' : World T K}
  {e : Event (Request K) (Choice T)} {db₀ : Database T}

/-- A session that holds uncommitted writes has committed nothing. -/
def CommitsOnce (w : World T K) : Prop :=
  Everyone (fun _ f => f.wrote = [] ∨ f.committed = []) w

/-- Every event keeps it. -/
theorem CommitsOnce.change (hw : CommitsOnce w) (h : Change x w e w') : CommitsOnce w' := by
  refine Everyone.change hw h (fun _ _ hf => hf) (fun _ => .inl rfl)
    fun i c q f f' o he hnext hmay heff hf => ?_
  rcases heff.wrote with ⟨hw, hc, -⟩ | ⟨ws, db, rfl, -, rfl, -⟩ | ⟨-, rfl, -⟩ | ⟨-, rfl, -⟩
  · rwa [hw, hc]
  · exact .inr hmay.1
  · exact .inl rfl
  · exact .inl rfl

omit [Instant T] [DecidableEq K] in
/-- A commit publishes the writes of its session. -/
lemma Progress.share_commit {f : Progress T} (h : f.committed = []) (hw : f.wrote ≠ []) :
    f.commit.share = f.share + {f.wrote} := by
  rw [Progress.share_eq_zero.mpr h, zero_add, Progress.share]
  simp [Progress.commit, h, hw]

/-- The changes `cs` lead from the committed database of `w` to the one of `w'`: those of requests
are what has been published in between, and those of administrators are `as`. -/
structure Commits (cs : List (Commit T)) (as : List (Uuid × UserStatus)) (w w' : World T K) :
    Prop where
  leads : Commit.Leads cs w.shared.db.committed w'.shared.db.committed
  requests : published w' = published w + ↑(cs.filterMap Commit.request?)
  admins : cs.filterMap Commit.admin? = as

omit [Instant T] [DecidableEq K] in
/-- Two stretches of a run. -/
theorem Commits.append {w'' : World T K} {cs cs' : List (Commit T)}
    {as as' : List (Uuid × UserStatus)} (h : Commits cs as w w') (h' : Commits cs' as' w' w'') :
    Commits (cs ++ cs') (as ++ as') w w'' := by
  refine ⟨h.leads.append h'.leads, ?_, ?_⟩
  · rw [h'.requests, h.requests, List.filterMap_append, ← Multiset.coe_add, add_assoc]
  · rw [List.filterMap_append, h.admins, h'.admins]

omit [Instant T] [DecidableEq K] in
/-- Nothing is published, and the committed database stays as it is. -/
theorem Commits.nil (hdb : w'.shared.db.committed = w.shared.db.committed)
    (hpub : published w' = published w) : Commits [] [] w w' :=
  ⟨by rw [hdb]; exact .nil _, by rw [hpub]; simp, rfl⟩

/-- What one event does to the committed database and to what has been published. -/
theorem Change.commits (h : Change x w e w') (hsound : Sound x w) (hent : Entered db₀ w)
    (honce : CommitsOnce w) : ∃ cs, Commits cs (statusChange? e).toList w w' := by
  cases h with
  | start q _ hadm hshared hlog hslots hserve =>
    exact ⟨[], .nil (by rw [hshared]) (published_start hlog hslots hserve)⟩
  | step i c q f f' o _ hnext hmay heff hlog hslots hserve =>
    have hi := hnext.serving
    have hsame : f'.committed = f.committed → w'.shared.db.committed = w.shared.db.committed →
        ∃ cs, Commits cs [] w w' := by
      intro hc hdb
      refine ⟨[], .nil hdb ?_⟩
      rw [published_add hi hlog hslots hserve (m := 0)
        (by rw [Progress.share_congr hc, add_zero]), add_zero]
    rcases heff.wrote with ⟨-, hc, hdb⟩ | ⟨ws, db, -, hflush, rfl, hs'⟩ | ⟨-, rfl, hs'⟩ |
      ⟨-, rfl, hs'⟩
    · exact hsame hc (by rw [hdb])
    · refine hsame rfl ?_
      rw [hs']
      exact Ledger.committed_flush hflush
    · have hown : w.shared.db.own i = f.wrote := by
        rw [hsound.own, hi]
        rfl
      have hdb : w'.shared.db.committed =
          Ledger.applyAll Database.apply f.wrote w.shared.db.committed := by
        rw [hs', Ledger.committed_commit, Ledger.view, hown]
      by_cases hnil : f.wrote = []
      · exact hsame (by simp [Progress.commit, hnil]) (by rw [hdb, hnil, Ledger.applyAll_nil])
      · have hnone : f.committed = [] := (honce.served i q f hi).resolve_left hnil
        refine ⟨[.request f.wrote], .single ?_ hdb, ?_, rfl⟩
        · have hacc := hent.exclusive.accepted index i
          rwa [hown] at hacc
        · exact published_add hi hlog hslots hserve (Progress.share_commit hnone hnil)
    · refine hsame rfl ?_
      rw [hs']
      exact Ledger.committed_rollback
  | respond i y _ hserved hends hshared hlog hslots hserve =>
    exact ⟨[], .nil (by rw [hshared]) (published_respond hserved hlog hslots hserve)⟩
  | env c _ hdrift hlog hslots hserve =>
    have hpub : published w' = published w := by
      unfold published logShare
      rw [hlog, hslots]
      exact congrArg _ (Finset.sum_congr rfl fun j _ => by rw [slotShare, slotShare, hserve])
    rcases drift_db hdrift with ⟨⟨t, rfl⟩, hdb⟩ | ⟨id, status, rfl, hdb⟩
    · exact ⟨[], .nil (by rw [hdb]) hpub⟩
    · refine ⟨[.admin id status], .single rfl (by rw [hdb]; rfl), ?_, rfl⟩
      simp [hpub, Commit.request?]

/-! ## Runs -/

/-- The database of a run in commit order: from any reachable state on, the committed database is
the one before with changes applied one after the other, all of them accepted by the unique indexes.
The changes of requests are those that were published in the meantime, in one piece each, and the
changes of administrators are theirs among the events. -/
theorem published_in_order {now : T} {drawn : List Uuid} {es : List (ServiceEvent T K)}
    (h : Reach (server x) AnyEvent (Pool.initial (Stores.initial now db₀ drawn)) w)
    (hrun : runWith (server x) anyEvent es w = some w') :
    ∃ cs, Commits cs (es.filterMap statusChange?) w w' := by
  induction es generalizing w with
  | nil =>
    cases hrun
    exact ⟨[], .nil rfl rfl⟩
  | cons e es ih =>
    obtain ⟨v, he, hrest⟩ := Option.bind_eq_some_iff.mp hrun
    have hstart : Sound x w ∧ CommitsOnce w :=
      h.induct (I := fun v => Sound x v ∧ CommitsOnce v)
        ⟨sound_initial now db₀ drawn, fun i q f hi => by simp [serving_initial] at hi,
          fun y hy => absurd hy List.not_mem_nil⟩
        fun _ _ _ _ hv _ he => ⟨hv.1.exec he, hv.2.change (hv.1.change he)⟩
    obtain ⟨cs, hfirst⟩ := (hstart.1.change he).commits hstart.1 (Entered.reach h) hstart.2
    obtain ⟨cs', hrest⟩ := ih (h.tail trivial he) hrest
    have hevents : (e :: es).filterMap statusChange? =
        (statusChange? e).toList ++ es.filterMap statusChange? := by
      rw [List.filterMap_cons]
      cases statusChange? e <;> rfl
    rw [hevents]
    exact ⟨cs ++ cs', hfirst.append hrest⟩

/-- What the answered request has published. -/
def Reply.published? (y : Reply T K) : Option (List (Write T)) :=
  if (progress y.performed).committed.isEmpty then none else some (progress y.performed).committed

omit [Instant T] [DecidableEq K] in
/-- What answered requests have published, one after the other. -/
lemma sum_share (ys : List (Reply T K)) :
    (ys.map fun y => (progress y.performed).share).sum = ↑(ys.filterMap Reply.published?) := by
  induction ys with
  | nil => rfl
  | cons y ys ih =>
    rw [List.map_cons, List.sum_cons, ih]
    cases hc : (progress y.performed).committed with
    | nil => simp [Progress.share, Reply.published?, hc]
    | cons wr ws => simp [Progress.share, Reply.published?, hc]

/-- Between two states in which nothing is being served, in any interleaving and whatever failed,
the committed database has changed by the writes of the requests that succeeded in between, applied
one request after the other, each as a whole and all accepted by the unique indexes, and by what
administrators did, in the order in which they did it.  A request that failed has left nothing in
it. -/
theorem commits_in_order {now : T} {drawn : List Uuid} {es : List (ServiceEvent T K)}
    (h : Reach (server x) AnyEvent (Pool.initial (Stores.initial now db₀ drawn)) w)
    (hq : w.Quiescent) (hrun : runWith (server x) anyEvent es w = some w') (hq' : w'.Quiescent) :
    ∃ cs ys, w'.log = w.log ++ ys ∧
      Commit.Leads cs w.shared.db.committed w'.shared.db.committed ∧
      (cs.filterMap Commit.request?).Perm (ys.filterMap Reply.published?) ∧
      cs.filterMap Commit.admin? = es.filterMap statusChange? ∧
      ∀ y ∈ ys, ∀ err, y.result = .error err → Reply.published? y = none := by
  obtain ⟨cs, hleads, hpub, hadmins⟩ := published_in_order h hrun
  have hreach : Reach (server x) AnyEvent w w' := reach_of_runWith anyEvent_of_check hrun
  have hsound : Sound x w' := (h.trans hreach).induct (I := fun v => Sound x v)
    (sound_initial now db₀ drawn) fun _ _ _ _ hv _ he => hv.exec he
  obtain ⟨ys, hlog⟩ : ∃ ys, w'.log = w.log ++ ys :=
    hreach.induct (I := fun v => ∃ ys, v.log = w.log ++ ys) ⟨[], by simp⟩ fun v e v' _ hv _ he => by
      obtain ⟨ys, hys⟩ := hv
      rcases exec_cases he with ⟨_, -, -, rfl⟩ | ⟨_, _, _, _, _, _, _, _, -, -, -, rfl⟩ |
        ⟨i, th, r, -, -, -, rfl⟩ | ⟨_, _, -, -, rfl⟩
      · exact ⟨ys, hys⟩
      · exact ⟨ys, hys⟩
      · exact ⟨ys ++ [⟨th.request, r, th.performed⟩], by simp [hys]⟩
      · exact ⟨ys, hys⟩
  refine ⟨cs, ys, hlog, hleads, ?_, hadmins, fun y hy err hres => ?_⟩
  · rw [published_of_quiescent hq, published_of_quiescent hq', logShare, logShare, hlog,
      List.map_append, List.sum_append, sum_share ys] at hpub
    exact (Multiset.coe_eq_coe.mp (add_left_cancel hpub)).symm
  · have hends := hsound.ends (hlog ▸ List.mem_append_right _ hy)
    rw [hres] at hends
    simp [Reply.published?, hends.2.2.1]

/-- A signup and a login are interleaved, and the login fails after it has written its device row;
then an administrator deactivates the user of the login. -/
def signupAndFailure : List (ServiceEvent ℚ Claims) :=
  [.start (.signup "bob@example.com" "pw" "Bob" none false),
    .start (.login "alice@example.com" "old" Plain.phone)] ++
    goes 0 2 ++ [.step 0 (.uuid Plain.a₃), .step 0 (.salt "")] ++ goes 0 1 ++ goes 1 5 ++
    goes 0 1 ++ [.respond 0, .step 1 .fail] ++ goes 1 1 ++
    [.respond 1, .env (.setStatus Plain.aliceId .inactive)]

/-- Afterwards there are the row of the signup and the new status, and no row of the login. -/
theorem commits_in_order_replay : ∃ (w' : World ℚ Claims) (cs : List (Commit ℚ))
    (ys : List (Reply ℚ Claims)), w'.log = ys ∧ ys.length = 2 ∧
    w'.shared.db.committed.users.length = 2 ∧ w'.shared.db.committed.devices.length = 0 ∧
    Commit.Leads cs Plain.start.shared.db.committed w'.shared.db.committed ∧
    (cs.filterMap Commit.request?).Perm (ys.filterMap Reply.published?) ∧
    cs.filterMap Commit.admin? = [(Plain.aliceId, .inactive)] := by
  have hreplay : (runWith (server Plain.externals) anyEvent signupAndFailure Plain.start).map
      (fun w' => quiescent w' && (w'.log.length == 2) &&
        (w'.shared.db.committed.users.length == 2) &&
        (w'.shared.db.committed.devices.length == 0)) = some true := by
    decide +kernel
  obtain ⟨w', hrun, hgood⟩ := Option.map_eq_some_iff.mp hreplay
  simp only [Bool.and_eq_true, beq_iff_eq] at hgood
  obtain ⟨⟨⟨hquiet, hlength⟩, husers⟩, hdevices⟩ := hgood
  have hstart : Plain.start.Quiescent := slot_initial _
  obtain ⟨cs, ys, hlog, hleads, hperm, hadmins, -⟩ :=
    commits_in_order (Reach.refl _) hstart hrun (quiescent_of_check hquiet)
  have hys : w'.log = ys := hlog
  exact ⟨w', cs, ys, hys, hys ▸ hlength, husers, hdevices, hleads, hperm, hadmins⟩

end SampleAuthApi
