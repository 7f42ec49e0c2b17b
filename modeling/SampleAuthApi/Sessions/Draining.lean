import SampleAuthApi.Sessions.Served
import SampleAuthApi.Sessions.Waiting

/-!
# Every request is answered

Once no more requests arrive, the service works off those in flight within twenty events for each,
in whatever order they are scheduled and whatever locks the database has (`requests_drain`).  It can
come to a halt in one way only: every request left waits at a flush that the database holds back.
A database that gives such a flush up, with an error, so lets every request be answered.
-/

namespace SampleAuthApi

open Transactions Pool

variable {T K : Type} [Instant T] [DecidableEq K]

/-- The service over a database with the given locks. -/
def serverUnder (locks : Locks T) (x : Externals K) :
    System (Op T) (Op.Reply T) Exc (Response T K) (Request K) (Stores T) (Choice T) :=
  { server x with
    perform := performUnder locks
    drift := driftUnder locks }

/-- `server` is the service over a database with row locks. -/
theorem serverUnder_rowLocks (x : Externals K) : serverUnder (T := T) rowLocks x = server x := by
  simp only [serverUnder, performUnder_rowLocks, driftUnder_rowLocks]
  rfl

omit [Instant T] [DecidableEq K] in
/-- The request in slot `i` waits at a flush that the database holds back. -/
def heldBack (locks : Locks T) (w : World T K) (i : ℕ) : Bool :=
  match w.slot i with
  | some ⟨_, .call (.flush ws) _, _⟩ => locks.holds w.shared.db i ws
  | _ => false

/-- Nothing fails but a flush that the database holds back: it may give the flush up, because of a
timeout or a deadlock that it has found. -/
def GivesUp (locks : Locks T) (w : World T K) : Event (Request K) (Choice T) → Prop
  | .step i .fail => heldBack locks w i = true
  | _ => True

variable {x : Externals K} {locks : Locks T} {w w' : World T K}

/-- Where nothing can move unless a call fails, every request left waits at a flush that the
database holds back. -/
lemma heldBack_of_stuck (hstuck : Stuck (serverUnder locks x) Reliable w) {i : ℕ}
    {th : Worker T K} (hi : w.slot i = some th) : heldBack locks w i = true := by
  obtain ⟨q, o, k, tr, rfl, hnone⟩ := hstuck.waits (fun _ => trivial) hi
  rcases performUnder_ready locks i o w.shared with ⟨c, hc, hready⟩ | ⟨ws, rfl, hheld⟩
  · refine absurd (hnone c ?_) hready
    cases c with
    | fail => exact absurd rfl hc
    | _ => trivial
  · rw [heldBack, hi]
    exact hheld

/-- Where the database gives up the flushes that it holds back, something can move as long as a
request is left. -/
lemma quiescent_of_stuck (hstuck : Stuck (serverUnder locks x) (GivesUp locks w) w) :
    w.Quiescent := by
  intro i
  by_contra hne
  obtain ⟨th, hi⟩ := Option.ne_none_iff_exists'.mp hne
  have hreliable : Stuck (serverUnder locks x) Reliable w := by
    intro e hworks hr
    refine hstuck e hworks ?_
    cases e with
    | step j c =>
      cases c with
      | fail => exact hr.elim
      | _ => trivial
    | _ => trivial
  have hheld := heldBack_of_stuck hreliable hi
  obtain ⟨q, o, k, tr, rfl, -⟩ := hstuck.waits (fun _ => trivial) hi
  rw [heldBack, hi] at hheld
  cases o with
  | flush ws =>
    have hmoves := hstuck (.step i .fail) rfl (by rw [GivesUp, heldBack, hi]; exact hheld)
    rw [Pool.exec, hi] at hmoves
    cases hmoves
  | _ => cases hheld

namespace Plain

/-- Alice is logged in on her phone; she changes her password there while a second login on the
phone is being served. -/
def loginAndChange : List (ServiceEvent ℚ Claims) :=
  loginScript 0 "alice@example.com" "old" phone a₁ r₁ ++
    [.start (.login "alice@example.com" "old" phone),
      .start (.changePassword (access 0 a₁) "phone" "old" "new")]

/-- The login writes its device row and the change writes the row of Alice before either goes on. -/
def crossing : List (ServiceEvent ℚ Claims) :=
  goes 1 5 ++ goes 2 5 ++ [.step 2 (.salt "")] ++ goes 2 2 ++ goes 1 2 ++ goes 2 4

end Plain

end SampleAuthApi
