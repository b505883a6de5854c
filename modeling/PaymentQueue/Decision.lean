import PaymentQueue.Environment

/-!
# PaymentQueue.Decision

How often does one `process` call decide its payment?

COMPLETED is reported in three places and FAILED in two, behind nested error handling. A
call comes through at most one of them: as long as reports and the dead-letter queue work
and the lock can be released, it reports one verdict or none, a failure exactly with a dead
letter, and nothing at all if it throws (`one_decision`).
-/

namespace PaymentQueue

open Async Stage

/-- A terminal `payment.status_changed`. -/
def isDecision (ev : ProcEvent) : Bool := isCompletedReport ev || isFailedReport ev

/-- A report of the payment or of its dead letter, the dead-letter queue or the release of
the lock fails. -/
def isOutage : ProcEvent → Bool
  | ⟨.emit (.statusChanged _ _ _ _), .error _⟩ | ⟨.emit (.deadLetter _ _), .error _⟩
  | ⟨.deadLetterAdd _ _, .error _⟩ | ⟨.releaseLock _, .error _⟩ => true
  | _ => false

/-- What the operation says, it says of the payment `p`. -/
def Op.IsAbout (p : Payment) : Op → Prop
  | emit (.statusChanged id _ _ _) => id = p.id
  | deadLetterAdd q _ => q = { p with failureReason := q.failureReason }
  | _ => True

/-- How often a trace reports COMPLETED, how often FAILED, and how often it dead-letters. -/
structure Tally where
  completed : Nat := 0
  failed : Nat := 0
  deadLettered : Nat := 0

/-- The tally of a trace. -/
def tallyOf (tr : List ProcEvent) : Tally where
  completed := tr.countP isCompletedReport
  failed := tr.countP isFailedReport
  deadLettered := tr.countP isDeadLettered

namespace Tally

/-- The tally after one more event. -/
def add (t : Tally) (ev : ProcEvent) : Tally where
  completed := t.completed + if isCompletedReport ev then 1 else 0
  failed := t.failed + if isFailedReport ev then 1 else 0
  deadLettered := t.deadLettered + if isDeadLettered ev then 1 else 0

/-- The tally of a call at a stage, when nothing has failed that it relies on. -/
def At (t : Tally) : Stage → Prop
  | .reported | .succeeded | .recorded => t = { completed := 1 }
  | .burying _ _ => t = { failed := 1 }
  | .buried _ _ | .announced _ _ => t = { failed := 1, deadLettered := 1 }
  | .done => t = { completed := 1 } ∨ t = { failed := 1, deadLettered := 1 }
  | _ => t = {}

variable {job : Job} {g g' : Stage} {o : Op} {r : o.Ret} {t : Tally}

theorem At.step (h : t.At g) (hT : Edge job g o r g') (hup : isOutage ⟨o, r⟩ = false) :
    (t.add ⟨o, r⟩).At g' := by
  cases hT
  case reportSettled r => cases r <;> simp_all [At, add, isOutage, isCompletedReport,
    isFailedReport, isDeadLettered]
  all_goals simp_all [At, add, isOutage, isCompletedReport, isFailedReport, isDeadLettered]

end Tally

theorem tallyOf_snoc (tr : List ProcEvent) (ev : ProcEvent) :
    tallyOf (tr ++ [ev]) = (tallyOf tr).add ev := by
  simp [tallyOf, Tally.add, List.countP_append, List.countP_cons]

/-- A verdict is COMPLETED or FAILED, and not both. -/
theorem countP_isDecision (tr : List ProcEvent) :
    tr.countP isDecision = (tallyOf tr).completed + (tallyOf tr).failed := by
  have hexcl : ∀ ev : ProcEvent, isCompletedReport ev = true → isFailedReport ev = false := by
    intro ev hev
    unfold isCompletedReport at hev
    split at hev
    · rfl
    · exact absurd hev (by decide)
  induction tr with
  | nil => rfl
  | cons ev tr ih =>
      simp only [tallyOf, List.countP_cons, isDecision] at ih ⊢
      by_cases hc : isCompletedReport ev = true
      · simp only [hc, hexcl ev hc, Bool.or_false, ↓reduceIte, Bool.false_eq_true]
        omega
      · simp only [Bool.not_eq_true] at hc
        simp only [hc, Bool.false_or, Bool.false_eq_true, ↓reduceIte]
        omega

/-- The tally at the end of a call: at a stage that allows that end. -/
theorem tallyOf_exec {job : Job} {tr : List ProcEvent} {res : Except Thrown Unit}
    (h : Exec (process job) tr res) (hup : tr.any isOutage = false) :
    ∃ g, Ends job g res ∧ (tallyOf tr).At g := by
  obtain ⟨g, hpath, hend⟩ := (process_follows job).path h
  refine ⟨g, hend, hpath.induct_without (P := fun g (pre : List ProcEvent) =>
    (tallyOf pre).At g) ?_ hup rfl⟩
  intro g o r g' pre hpre hT hout
  rw [tallyOf_snoc]
  exact hpre.step hT hout

/-- A call speaks of no payment but its own. -/
theorem isAbout_of_exec {job : Job} {tr : List ProcEvent} {res : Except Thrown Unit}
    (h : Exec (process job) tr res) : ∀ ev ∈ tr, ev.op.IsAbout job.data := by
  obtain ⟨g, hpath, -⟩ := (process_follows job).path h
  refine hpath.forall_mem (P := fun ev : ProcEvent => ev.op.IsAbout job.data) ?_
  intro g o r g' hT
  cases hT <;> first | rfl | trivial

/-- **One decision.** Whatever a call is answered, as long as its reports, the dead-letter
queue and the release of its lock do not fail: it reports at most one verdict; it reports
FAILED as often as it dead-letters the payment; if it throws it has done neither; and all
this is about its own payment. -/
theorem one_decision {job : Job} {tr : List ProcEvent} {res : Except Thrown Unit}
    (h : Exec (process job) tr res) (hup : tr.any isOutage = false) :
    tr.countP isDecision ≤ 1 ∧
    tr.countP isFailedReport = tr.countP isDeadLettered ∧
    (∀ e, res = .error e → tr.countP isDecision = 0 ∧ tr.countP isDeadLettered = 0) ∧
    ∀ ev ∈ tr, isDecision ev = true ∨ isDeadLettered ev = true → ev.op.IsAbout job.data := by
  obtain ⟨g, hend, htally⟩ := tallyOf_exec h hup
  have hcases : (tallyOf tr = {} ∨ tallyOf tr = { completed := 1 } ∨
      tallyOf tr = { failed := 1, deadLettered := 1 }) ∧
      (∀ e, res = .error e → tallyOf tr = {}) := by
    cases res with
    | ok _ =>
        refine ⟨?_, by simp⟩
        cases g with
        | done => exact Or.inr htally
        | dropped => exact Or.inl htally
        | announced permanent kept => exact Or.inr (Or.inr htally)
        | _ => exact hend.elim
    | error e =>
        have hnone : tallyOf tr = {} := by
          cases g with
          | refused | turnedAway | aborted _ | unlocked _ => exact htally
          | _ => exact hend.elim
        exact ⟨Or.inl hnone, fun _ _ => hnone⟩
  obtain ⟨hsome, hthrew⟩ := hcases
  have hfailed : tr.countP isFailedReport = (tallyOf tr).failed := rfl
  have hdead : tr.countP isDeadLettered = (tallyOf tr).deadLettered := rfl
  rw [countP_isDecision, hfailed, hdead]
  refine ⟨?_, ?_, fun e he => ?_, fun ev hev _ => isAbout_of_exec h ev hev⟩
  · rcases hsome with ht | ht | ht <;> simp [ht]
  · rcases hsome with ht | ht | ht <;> simp [ht]
  · simp [hthrew e he]

/-- A declined card: its call reports FAILED, and so has dead-lettered the payment once. -/
theorem one_decision_declined :
    ∃ tr w', Exec (process (cardJob 0)) tr (.ok ()) ∧ system.Answers startedUp tr w' ∧
      (tr.countP isFailedReport = 1 ∧ tr.countP isDeadLettered = 1) := by
  have hsolo : ∃ tr res w', Exec (process (cardJob 0)) tr res ∧ system.Answers startedUp tr w' ∧
      (res.isOk = true ∧ tr.any isOutage = false ∧ tr.countP isFailedReport = 1) :=
    Machine.exists_of_solo (List.replicate 9 .resolve ++
      [.response ⟨false, "", "stripe", none, some "card declined"⟩] ++
      List.replicate 6 .resolve) (by decide +kernel)
  obtain ⟨tr, res, w', hexec, hans, hres, hup, hfailed⟩ := hsolo
  obtain ⟨u, rfl⟩ := exists_of_isOk hres
  exact ⟨tr, w', hexec, hans, hfailed, (one_decision hexec hup).2.1 ▸ hfailed⟩

end PaymentQueue
