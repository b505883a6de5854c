import PaymentQueue.Running

/-!
# PaymentQueue.Verdicts

What the stages of the calls say about the verdict on their payment.

A payment is decided once something says that it has succeeded: a cached result, a
completed record, or a contender that has been told so and is about to cache a result
(`Decided`). From there every way leads to COMPLETED. A call whose saga has thrown is on
its way to FAILED (`Stage.losing`).
-/

namespace PaymentQueue

open Async

/-- The operation reports that the payment failed. -/
def Op.reportsFailure : Op → Bool
  | emit (.statusChanged _ .failed _ _) => true
  | _ => false

namespace Stage

/-! ### What a stage says -/

/-- A result has been cached. -/
def knowing : Stage → Bool
  | .reporting | .reconciled | .stored | .notifying | .notified => true
  | _ => false

/-- The record says COMPLETED, and no result has been cached for it. -/
def posted : Stage → Bool
  | .backfilling | .written => true
  | _ => false

/-- Told that the charge is settled, about to cache a result. -/
def isSettled : Stage → Bool
  | .settled => true
  | _ => false

/-- A running saga with its last step still to come. -/
def midway : Stage → Bool
  | .notified => false
  | g => g.running

/-- The saga has thrown. -/
def losing : Stage → Bool
  | .unwinding _ _ _ | .failed _ _ | .unlocked _ | .burying _ _ | .buried _ _
  | .announced _ _ => true
  | _ => false

/-- Reported failed. -/
def doomed : Stage → Bool
  | .burying _ _ | .buried _ _ | .announced _ _ => true
  | _ => false

/-- The saga has thrown after it cached its result. -/
def botched : Stage → Bool
  | .unwinding todo _ kept => !kept || todo.contains .reverseLedger
  | .failed _ kept => !kept
  | .burying permanent kept | .buried permanent kept | .announced permanent kept =>
      permanent && !kept
  | _ => false

theorem running_of_midway {g : Stage} (h : g.midway = true) : g.running = true := by
  cases g <;> simp_all [midway, running]

theorem working_of_running {g : Stage} (h : g.running = true) : g.working = true := by
  cases g <;> simp_all [running, working]

/-- A running saga either holds the lock or has cached its result. -/
theorem holds_or_knowing {g : Stage} (h : g.running = true) :
    g.holds = true ∨ g.knowing = true := by
  cases g <;> simp_all [running, holds, knowing]

/-- A running saga is not midway only when it has cached its result. -/
theorem midway_or_knowing {g : Stage} (h : g.running = true) :
    g.midway = true ∨ g.knowing = true := by
  cases g <;> simp_all [running, midway, knowing]

/-- A call whose saga has thrown holds the lock, or has reported the failure, or has
released the lock and not yet reported it; or it had cached its result. -/
theorem losing_cases {g : Stage} (h : g.losing = true) :
    g.holds = true ∨ g.doomed = true ∨ g.botched = true ∨ ∃ err, g = .unlocked err := by
  cases g with
  | unwinding todo err kept => cases kept <;> simp [holds, botched]
  | failed err kept => cases kept <;> simp [holds, botched]
  | unlocked err => simp
  | burying _ _ | buried _ _ | announced _ _ => simp [doomed]
  | _ => simp [losing] at h

/-! ### What an edge says -/

variable {job : Job} {g g' : Stage} {o : Op} {r : o.Ret}

theorem Edge.knowing_of (h : Edge job g o r g') (hg' : g'.knowing = true) :
    g.knowing = true ∨ isStored ⟨o, r⟩ = true ∨
      ∃ v, (⟨o, r⟩ : ProcEvent) = ⟨.getResult job.data.idempotencyKey, .ok (some v)⟩ := by
  cases h
  case hit v => exact Or.inr (Or.inr ⟨v, rfl⟩)
  all_goals simp_all [knowing, isStored]

theorem Edge.posted_of (h : Edge job g o r g') (hg' : g'.posted = true) :
    (∃ v : Option PaymentRecord, v.map (·.status) = some .completed ∧
      (⟨o, r⟩ : ProcEvent) = ⟨.getStatus job.data.id, .ok v⟩) ∨
    ∃ txn, (⟨o, r⟩ : ProcEvent) = ⟨.upsertStatus job.data.id ⟨.completed, txn⟩, .ok ()⟩ := by
  cases h
  case dbHit v hv => exact Or.inl ⟨v, hv, rfl⟩
  case write txn => exact Or.inr ⟨txn, rfl⟩
  all_goals simp_all [posted]

/-- A result is stored for a completed record, or by a contender told that the charge is
settled. -/
theorem Edge.of_isStored (h : Edge job g o r g') (hst : isStored ⟨o, r⟩ = true) :
    g.posted = true ∨ g.isSettled = true := by
  cases h
  all_goals simp_all [isStored, posted, isSettled]

/-- A record is written as completed, or set back by a saga that had cached its result. -/
theorem Edge.of_upsertStatus {id : String} {record : PaymentRecord}
    {r : Except Thrown Unit} (h : Edge job g (.upsertStatus id record) r g') :
    (g = .posting ∧ record.status = .completed ∧ (r = .ok () → g' = .written)) ∨
      (g.botched = true ∧ record.status ≠ .completed) := by
  cases h
  case write => simp
  case writeErr => simp
  case reverseLedger => simp [botched]

theorem Edge.isSettled_eq (h : Edge job g o r g') :
    g'.isSettled = (isToldSettled ⟨o, r⟩ || (!isStoreAnswer ⟨o, r⟩ && g.isSettled)) := by
  cases h
  all_goals simp_all [isSettled, isToldSettled, isStoreAnswer]

theorem Edge.of_isToldSettled (h : Edge job g o r g')
    (htold : isToldSettled ⟨o, r⟩ = true) : g = .asking ∧ g' = .settled := by
  cases h
  all_goals simp_all [isToldSettled]

/-- The completion is reported by a call that knows of a cached result. -/
theorem Edge.of_isCompletedReport (h : Edge job g o r g')
    (hrep : isCompletedReport ⟨o, r⟩ = true) : g.knowing = true := by
  cases h
  all_goals simp_all [isCompletedReport, knowing]

theorem Edge.of_isFailedReport (h : Edge job g o r g')
    (hrep : isFailedReport ⟨o, r⟩ = true) : g.losing = true := by
  cases h
  all_goals simp_all [isFailedReport, losing]

theorem Edge.of_isSagaFailed (h : Edge job g o r g') (hf : isSagaFailed ⟨o, r⟩ = true) :
    g.losing = true ∧ g'.losing = true := by
  cases h
  all_goals simp_all [isSagaFailed, losing]

theorem Edge.doomed_of (h : Edge job g o r g') (hg' : g'.doomed = true) :
    g.doomed = true ∨ isFailedReport ⟨o, r⟩ = true := by
  cases h
  all_goals simp_all [doomed, isFailedReport]

/-- A call comes to lose by its running saga coming to no good end. -/
theorem Edge.losing_of (h : Edge job g o r g') (hg' : g'.losing = true) :
    g.losing = true ∨
      (g.running = true ∧ g'.running = false ∧ endsSaga ⟨o, r⟩ = false) := by
  cases h
  all_goals simp_all [losing, running, endsSaga]

/-- A saga is botched by throwing when its result is cached. -/
theorem Edge.botched_of (h : Edge job g o r g') (hg' : g'.botched = true) :
    g.botched = true ∨ (g.losing = false ∧ g'.losing = true ∧ g.knowing = true) := by
  cases h
  all_goals simp_all [botched, losing, knowing]

/-- A saga comes to its last step by notifying the customer. -/
theorem Edge.midway_step (h : Edge job g o r g') (hg : g.midway = true) :
    g'.midway = true ∨ isNotified ⟨o, r⟩ = true ∨ g'.losing = true := by
  cases h
  all_goals simp_all [midway, running, isNotified, losing]

/-- What a call awaits that has released the lock after its saga failed. -/
theorem Edge.of_unlocked {err : Thrown} (h : Edge job (.unlocked err) o r g') :
    o.reportsFailure = true := by
  cases h <;> rfl

end Stage

/-! ### What the stores say -/

namespace Standing

variable {t t' : Standing} {o : Op} {r : o.Ret}

/-- A result is cached by storing it. -/
theorem Step.result_new (h : t.Step o r t') (ht : t.result = none) (ht' : t'.result ≠ none) :
    isStored ⟨o, r⟩ = true := by
  unfold Step at h
  split at h <;> simp_all [isStored]

theorem Step.of_isStored (h : t.Step o r t') (hst : isStored ⟨o, r⟩ = true) :
    t'.result ≠ none := by
  unfold isStored at hst
  split at hst
  · next heq =>
    cases heq
    simp [h.of_storeResult]
  · exact absurd hst (by simp)

/-- The record says COMPLETED if it has said so, or is written so. -/
theorem Step.recorded_of (h : t.Step o r t') (ht' : t'.recordedCompleted) :
    t.recordedCompleted ∨ ∃ id txn,
      (⟨o, r⟩ : ProcEvent) = ⟨.upsertStatus id ⟨.completed, txn⟩, .ok ()⟩ := by
  unfold Step at h
  split at h
  case h_7 _ id record _ =>
    obtain ⟨status, txn⟩ := record
    obtain rfl := h
    obtain rfl : status = .completed := by simpa [recordedCompleted] using ht'
    exact Or.inr ⟨id, txn, rfl⟩
  all_goals exact Or.inl (by simp_all [recordedCompleted])

/-- A completed record stays, unless it is overwritten. -/
theorem Step.recorded_kept (h : t.Step o r t') (ht : t.recordedCompleted) :
    t'.recordedCompleted ∨ ∃ id record u, record.status ≠ .completed ∧
      (⟨o, r⟩ : ProcEvent) = ⟨.upsertStatus id record, .ok u⟩ := by
  unfold Step at h
  split at h
  case h_7 _ id record u =>
    obtain rfl := h
    by_cases hrec : record.status = .completed
    · exact Or.inl (by simp [recordedCompleted, hrec])
    · exact Or.inr ⟨id, record, u, hrec, rfl⟩
  all_goals exact Or.inl (by simp_all [recordedCompleted])

end Standing

variable {ι : Type} [DecidableEq ι]

/-- Call `c` was told that the charge is settled, and its result is still to be stored. -/
abbrev ToldSettled (c : ι) (log : List (LogEntry ι)) : Prop :=
  Pending (answered c isToldSettled) (answered c isStoreAnswer) log

/-- Something says that the payment has succeeded. -/
def Decided (t : Standing) (log : List (LogEntry ι)) : Prop :=
  t.result ≠ none ∨ t.recordedCompleted ∨ ∃ c, ToldSettled c log

instance (t : Standing) : Decidable t.recordedCompleted :=
  inferInstanceAs (Decidable (_ = _))

instance [Fintype ι] (t : Standing) (log : List (LogEntry ι)) : Decidable (Decided t log) :=
  inferInstanceAs (Decidable (_ ∨ _ ∨ _))

end PaymentQueue
