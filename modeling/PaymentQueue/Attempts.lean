import Mathlib.Data.List.TakeWhile
import PaymentQueue.Conformance
import PaymentQueue.Events
import PaymentQueue.QueueManager

/-!
# PaymentQueue.Attempts

What one attempt of a job comes to, read off the answers it received.

`sagaOutcome` replays the saga of an attempt on its events. An attempt is *stuck* when
it throws and leaves the payment as it is: turned away on its way to the saga, or after
a failed saga which the `catch` of `process` does not bring to an end (`Stuck`). Whatever
an attempt is answered, it is stuck, or returns, or has the payment dead-lettered
(`process_outcome`).
-/

namespace PaymentQueue

open Async Stage

/-! ### The events that decide an attempt -/

/-- A registry, a gate or a lookup turns the call away. -/
def isRefusal : ProcEvent → Bool
  | ⟨.lookupGateway _, b⟩ | ⟨.lookupRateLimiter _, b⟩ | ⟨.canAttempt _, b⟩
  | ⟨.tryConsume _, b⟩ => !b
  | ⟨.emit (.started _ _), .error _⟩ | ⟨.getResult _, .error _⟩ | ⟨.getStatus _, .error _⟩
  | ⟨.acquireLock _, .error _⟩ | ⟨.hasLock _, .error _⟩ => true
  | _ => false

/-- The result cannot be stored, or the completion not be announced. -/
def isCompletionReject : ProcEvent → Bool
  | ⟨.storeResult _ _, .error _⟩ | ⟨.emit (.statusChanged _ .completed _ _), .error _⟩ =>
      true
  | _ => false

/-- The lock is asked for. -/
def isLockRequest : ProcEvent → Bool
  | ⟨.acquireLock _, _⟩ => true
  | _ => false

/-- The gateway is asked to charge, which is how a saga begins. -/
def isChargeRequest : ProcEvent → Bool
  | ⟨.gatewayProcess _, _⟩ => true
  | _ => false

/-- `releaseLock` rejects. -/
def isReleaseReject : ProcEvent → Bool
  | ⟨.releaseLock _, .error _⟩ => true
  | _ => false

/-- The failure cannot be announced, or the payment not be dead-lettered. -/
def isBurialReject : ProcEvent → Bool
  | ⟨.emit (.statusChanged _ .failed _ _), .error _⟩ | ⟨.deadLetterAdd _ _, .error _⟩ => true
  | _ => false

/-- The attempt is turned away: by a gate or a lookup, or by a payment known to be
completed for which it cannot say so. -/
def turnedAway (tr : List ProcEvent) : Bool :=
  tr.any isRefusal || (!tr.any isLockRequest && tr.any isCompletionReject)

/-- How the saga of an attempt ended, if it ran one. -/
def sagaOutcome (p : Payment) (tr : List ProcEvent) : Option (Except Thrown Unit) :=
  (runSaga p).replay (tr.dropWhile fun ev => !isChargeRequest ev)

/-- The handling of the saga's error `e` does not get as far as the dead-letter queue:
attempts seem to be left, the lock cannot be released, the error has no message to
report, or the failure cannot be reported. -/
def LeftOpen (job : Job) (tr : List ProcEvent) (e : Thrown) : Prop :=
  (classifyFailure e ≠ .permanent ∧
    (¬ Exhausted job ∨ e.nullish = true ∨ tr.any isReleaseReject = true)) ∨
  tr.any isBurialReject = true

/-- The attempt throws and leaves the payment as it is. -/
def Stuck (job : Job) (tr : List ProcEvent) : Prop :=
  turnedAway tr = true ∨
    ∃ e, sagaOutcome job.data tr = some (.error e) ∧ LeftOpen job tr e

/-! ### The events of a saga -/

/-- The operations between the lock and the end of the saga. -/
def Op.ofSaga : Op → Bool
  | gatewayProcess _ | sagaFailStep | upsertStatus _ _ | storeResult _ _ | emit (.notify _)
  | emit (.statusChanged _ .completed _ _) | voidAuthorization _ | refund _
  | semaphoreAcquire _ | semaphoreGranted _ _ | semaphoreRelease _ => true
  | _ => false

/-- The saga is over, as far as the stage can tell. -/
def Stage.pastSaga : Stage → Bool
  | .recorded | .done | .failed _ _ | .unlocked _ | .burying _ _ | .buried _ _
  | .announced _ _ | .aborted _ => true
  | _ => false

/-- The saga is under way. -/
def Stage.inSaga : Stage → Bool
  | .locked | .authorized | .captured | .posting | .written | .stored | .notifying
  | .notified | .succeeded | .unwinding _ _ _ => true
  | _ => false

section

variable {job : Job} {g g' : Stage} {o : Op} {r : o.Ret} {p : Payment}
variable {tr pre post : List ProcEvent} {res : Except Thrown Unit}

theorem Stage.Edge.pastSaga (h : Edge job g o r g') (hg : g.pastSaga = true) :
    g'.pastSaga = true := by
  cases h <;> simp_all [Stage.pastSaga]

theorem Stage.Edge.inSaga (h : Edge job g o r g') (hg : g.inSaga = true) :
    g'.pastSaga = true ∨ (g'.inSaga = true ∧ o.ofSaga = true) := by
  cases h <;> simp_all [Stage.pastSaga, Stage.inSaga, Op.ofSaga]

/-- A saga awaits nothing but its own operations. -/
theorem runSaga_ofSaga (h : Exec (runSaga p) tr res) : ∀ ev ∈ tr, ev.op.ofSaga = true := by
  obtain ⟨g, hpath, hend⟩ := runSaga_path h
  have hP : g.pastSaga = true ∨ (g.inSaga = true ∧ ∀ ev ∈ tr, ev.op.ofSaga = true) := by
    refine Path.induct (P := fun g (pre : List ProcEvent) => g.pastSaga = true ∨
      (g.inSaga = true ∧ ∀ ev ∈ pre, ev.op.ofSaga = true)) ?_ hpath (Or.inr ⟨rfl, by simp⟩)
    intro g o r g' pre hin hT
    rcases hin with hpast | ⟨hin, hpre⟩
    · exact Or.inl (hT.pastSaga hpast)
    · refine (hT.inSaga hin).imp id fun h => ⟨h.1, ?_⟩
      simpa [or_imp, forall_and] using ⟨hpre, h.2⟩
  have hin : g.pastSaga = false := by
    cases res with
    | ok _ =>
        obtain rfl := hend
        rfl
    | error e =>
        obtain ⟨kept, rfl⟩ := hend
        rfl
  simp only [hin, Bool.false_eq_true, false_or] at hP
  exact hP.2

/-- A saga neither refuses its call nor says what becomes of the payment. -/
theorem runSaga_silent (h : Exec (runSaga p) tr res) :
    tr.any isRefusal = false ∧ tr.any isReleaseReject = false ∧
      tr.any isBurialReject = false ∧ tr.any isDeadLettered = false := by
  have hof := runSaga_ofSaga h
  have hsilent : ∀ ev : ProcEvent, ev.op.ofSaga = true → isRefusal ev = false ∧
      isReleaseReject ev = false ∧ isBurialReject ev = false ∧ isDeadLettered ev = false := by
    intro ev ho
    obtain ⟨o, r⟩ := ev
    simp only [isRefusal, isReleaseReject, isBurialReject, isDeadLettered]
    refine ⟨?_, ?_, ?_, ?_⟩
    all_goals split <;> simp_all [Op.ofSaga]
  have hall : ∀ ev ∈ tr, isRefusal ev = false ∧ isReleaseReject ev = false ∧
      isBurialReject ev = false ∧ isDeadLettered ev = false :=
    fun ev hev => hsilent ev (hof ev hev)
  simp only [List.any_eq_false, Bool.not_eq_true]
  exact ⟨fun ev hev => (hall ev hev).1, fun ev hev => (hall ev hev).2.1,
    fun ev hev => (hall ev hev).2.2.1, fun ev hev => (hall ev hev).2.2.2⟩

/-- A saga begins with its charge. -/
theorem runSaga_begins (h : Exec (runSaga p) tr res) :
    ∃ r tr', tr = ⟨.gatewayProcess p, r⟩ :: tr' := by
  have hp : ∃ k, runSaga p = .await (.gatewayProcess p) k := ⟨_, rfl⟩
  obtain ⟨k, hk⟩ := hp
  rw [hk] at h
  obtain ⟨r, tr', rfl, -⟩ := Exec.await_iff.mp h
  exact ⟨r, tr', rfl⟩

theorem sagaOutcome_of_exec (hpre : pre.any isChargeRequest = false)
    (h : Exec (runSaga p) tr res) (post : List ProcEvent) :
    sagaOutcome p (pre ++ (tr ++ post)) = some res := by
  have hdrop : (pre ++ (tr ++ post)).dropWhile (fun ev => !isChargeRequest ev) =
      tr ++ post := by
    rw [List.dropWhile_append_of_pos]
    · obtain ⟨r, tr', rfl⟩ := runSaga_begins h
      simp [isChargeRequest]
    · simpa using hpre
  rw [sagaOutcome, hdrop]
  exact h.replay

theorem sagaOutcome_none (h : tr.any isChargeRequest = false) : sagaOutcome p tr = none := by
  have hdrop : tr.dropWhile (fun ev => !isChargeRequest ev) = [] := by
    rw [List.dropWhile_eq_nil_iff]
    simpa using h
  rw [sagaOutcome, hdrop]
  rfl

end

/-! ### What an attempt comes to -/

/-- What an attempt comes to, and on which answers. -/
inductive Outcome (job : Job) (tr : List ProcEvent) : Except Thrown Unit → Prop
  /-- Turned away on the way to the saga. -/
  | refused {e : Thrown} (hturned : turnedAway tr = true)
      (hsaga : sagaOutcome job.data tr = none) (hdead : tr.any isDeadLettered = false) :
      Outcome job tr (.error e)
  /-- Returned without a failed saga. -/
  | returned (hturned : turnedAway tr = false)
      (hsaga : ∀ e, sagaOutcome job.data tr ≠ some (.error e)) : Outcome job tr (.ok ())
  /-- The saga failed, and the payment is left to another attempt. -/
  | left {err e : Thrown} (hturned : turnedAway tr = false)
      (hsaga : sagaOutcome job.data tr = some (.error err)) (hopen : LeftOpen job tr err)
      (hdead : tr.any isDeadLettered = false) : Outcome job tr (.error e)
  /-- The saga failed, and the payment is in the dead-letter queue. -/
  | buried {err : Thrown} {res : Except Thrown Unit} (hturned : turnedAway tr = false)
      (hsaga : sagaOutcome job.data tr = some (.error err)) (hopen : ¬ LeftOpen job tr err)
      (hfailed : tr.any isFailedReport = true) (hdead : tr.any isDeadLettered = true) :
      Outcome job tr res

/-- The events up to the end of the slot of a saga that failed with `err`. -/
structure SagaFailed (p : Payment) (err : Thrown) (pre : List ProcEvent) : Prop where
  saga : ∀ post, sagaOutcome p (pre ++ post) = some (.error err)
  refusal : pre.any isRefusal = false
  lock : pre.any isLockRequest = true
  release : pre.any isReleaseReject = false
  burial : pre.any isBurialReject = false
  dead : pre.any isDeadLettered = false

variable {job : Job} {err : Thrown} {pre post : List ProcEvent}

theorem SagaFailed.left {e : Thrown} (h : SagaFailed job.data err pre)
    (hr : post.any isRefusal = false) (hd : post.any isDeadLettered = false)
    (ho : LeftOpen job post err) : Outcome job (pre ++ post) (.error e) := by
  refine .left ?_ (h.saga post) ?_ ?_
  · simp [turnedAway, h.refusal, h.lock, hr]
  · simpa [LeftOpen, h.release, h.burial] using ho
  · simp [h.dead, hd]

theorem SagaFailed.buried {res : Except Thrown Unit} (h : SagaFailed job.data err pre)
    (hr : post.any isRefusal = false) (hd : post.any isDeadLettered = true)
    (hf : post.any isFailedReport = true) (ho : ¬ LeftOpen job post err) :
    Outcome job (pre ++ post) res := by
  refine .buried ?_ (h.saga post) ?_ ?_ ?_
  · simp [turnedAway, h.refusal, h.lock, hr]
  · simpa [LeftOpen, h.release, h.burial] using ho
  · simp [hf]
  · simp [hd]

theorem onSagaFailure_outcome (h : SagaFailed job.data err pre) :
    Follows Grows (onSagaFailure job err) (Outcome job) pre := by
  refine Follows.set_aside (Follows.perform_bind fun _ => ⟨_, rfl, ?_⟩)
  by_cases herr : classifyFailure err = .permanent
  · simp only [herr, ↓reduceIte]
    have hn : err.nullish = false := by
      by_contra h
      exact nullish_not_permanent (by simpa using h) herr
    refine PaymentSaga.follows_readMessage (fun _ m => ?_) (by simp [hn])
    refine follows_awaited (Follows.perform ?_)
    intro res
    rcases res with e | _
    · exact ⟨_, rfl, h.left rfl rfl (Or.inr rfl)⟩
    refine ⟨_, rfl, PaymentSaga.follows_readMessage (fun _ m => ?_) (by simp [hn])⟩
    refine Follows.bind (follows_awaited (Follows.perform ?_))
    intro res
    rcases res with e | _
    · exact ⟨_, rfl, h.left rfl rfl (Or.inr rfl)⟩
    refine ⟨_, rfl, follows_awaited_end (Follows.perform ?_)⟩
    intro res
    rcases res with e | _
    · exact ⟨_, rfl, h.buried rfl rfl rfl (by simp [LeftOpen, herr, isBurialReject])⟩
    refine ⟨_, rfl, follows_awaited_end (Follows.perform ?_)⟩
    intro res
    rcases res with e | _
    all_goals exact ⟨_, rfl, h.buried rfl rfl rfl (by simp [LeftOpen, herr, isBurialReject])⟩
  · simp only [herr, ↓reduceIte]
    refine follows_awaited (Follows.perform ?_)
    intro res
    rcases res with e | _
    · exact ⟨_, rfl, h.left rfl rfl (Or.inl ⟨herr, Or.inr (Or.inr rfl)⟩)⟩
    refine ⟨_, rfl, ?_⟩
    by_cases hex : Exhausted job
    · have hused : (job.attemptsMade : Int) + 1 ≥ job.data.maxRetries := hex
      simp only [hused, ↓reduceIte]
      refine PaymentSaga.follows_readMessage (fun hn m => ?_) (fun hn =>
        h.left rfl rfl (Or.inl ⟨herr, Or.inr (Or.inl hn)⟩))
      refine follows_awaited (Follows.perform ?_)
      intro res
      rcases res with e | _
      · exact ⟨_, rfl, h.left rfl rfl (Or.inr rfl)⟩
      refine ⟨_, rfl, PaymentSaga.follows_readMessage (fun _ m => ?_) (by simp [hn])⟩
      refine follows_awaited (Follows.perform ?_)
      intro res
      rcases res with e | _
      · exact ⟨_, rfl, h.left rfl rfl (Or.inr rfl)⟩
      have hburied : ∀ (post : List ProcEvent), post.any isReleaseReject = false →
          post.any isBurialReject = false → ¬ LeftOpen job post err := by
        intro post hrel hb
        simp [LeftOpen, hex, hn, hrel, hb]
      refine ⟨_, rfl, follows_awaited_end (Follows.perform ?_)⟩
      intro res
      rcases res with e | _
      all_goals exact ⟨_, rfl, h.buried rfl rfl rfl (hburied _ rfl rfl)⟩
    · have hleft : ¬ (job.attemptsMade : Int) + 1 ≥ job.data.maxRetries := hex
      simp only [hleft, ↓reduceIte]
      exact h.left rfl rfl (Or.inl ⟨herr, Or.inl hex⟩)

/-- An attempt that does not come to the saga. -/
theorem Outcome.of_refused {tr : List ProcEvent} {e : Thrown} (hturned : turnedAway tr = true)
    (hcharge : tr.any isChargeRequest = false) (hdead : tr.any isDeadLettered = false) :
    Outcome job tr (.error e) :=
  .refused hturned (sagaOutcome_none hcharge) hdead

theorem Outcome.of_returned {tr : List ProcEvent} (hturned : turnedAway tr = false)
    (hcharge : tr.any isChargeRequest = false) : Outcome job tr (.ok ()) :=
  .returned hturned (by simp [sagaOutcome_none hcharge])

/-- The events up to the lock, when the lock is acquired. -/
structure Approached (pre : List ProcEvent) : Prop where
  refusal : pre.any isRefusal = false
  lock : pre.any isLockRequest = true
  charge : pre.any isChargeRequest = false
  release : pre.any isReleaseReject = false
  burial : pre.any isBurialReject = false
  dead : pre.any isDeadLettered = false

theorem Approached.append (h : Approached pre) (hr : post.any isRefusal = false)
    (hc : post.any isChargeRequest = false) (hrel : post.any isReleaseReject = false)
    (hb : post.any isBurialReject = false) (hd : post.any isDeadLettered = false) :
    Approached (pre ++ post) := by
  refine ⟨?_, ?_, ?_, ?_, ?_, ?_⟩
  all_goals simp [h.refusal, h.lock, h.charge, h.release, h.burial, h.dead, *]

theorem Approached.returned (h : Approached pre) (hr : post.any isRefusal = false)
    (hc : post.any isChargeRequest = false) : Outcome job (pre ++ post) (.ok ()) := by
  refine .of_returned ?_ ?_
  · simp [turnedAway, h.refusal, h.lock, hr]
  · simp [h.charge, hc]

theorem Approached.refused {e : Thrown} (h : Approached pre) (hr : post.any isRefusal = true)
    (hc : post.any isChargeRequest = false) (hd : post.any isDeadLettered = false) :
    Outcome job (pre ++ post) (.error e) := by
  refine .of_refused ?_ ?_ ?_
  · simp [turnedAway, hr]
  · simp [h.charge, hc]
  · simp [h.dead, hd]

/-- An attempt that finds the lock taken returns, unless it cannot even look at the lock. -/
theorem reconcile_outcome (h : Approached pre) :
    Follows Grows (reconcile job.data) (Outcome job) pre := by
  refine follows_awaited (Follows.perform ?_)
  rintro (e | _ | _)
  · exact ⟨_, rfl, h.refused rfl rfl rfl⟩
  · exact ⟨_, rfl, h.returned rfl rfl⟩
  have hheld : Approached (pre ++ [⟨.hasLock job.data.idempotencyKey, .ok true⟩]) :=
    h.append rfl rfl rfl rfl rfl
  -- nothing that goes wrong from here on is thrown
  refine ⟨_, rfl, Follows.tryCatch (follows_awaited (Follows.perform ?_))⟩
  rintro (e | s)
  · exact ⟨_, rfl, hheld.returned rfl rfl⟩
  by_cases hs : s.status = .settled
  · have hsettled : Approached (pre ++ [⟨.hasLock job.data.idempotencyKey, .ok true⟩] ++
        [⟨.gatewayGetStatus job.data.gatewayId job.data.idempotencyKey, .ok s⟩]) :=
      hheld.append rfl rfl rfl rfl rfl
    refine ⟨_, rfl, ?_⟩
    simp only [hs, ↓reduceIte]
    refine follows_awaited (Follows.perform ?_)
    rintro (e | _)
    · exact ⟨_, rfl, hsettled.returned rfl rfl⟩
    · refine ⟨_, rfl, follows_awaited_end (Follows.perform ?_)⟩
      rintro (e | _) <;> exact ⟨_, rfl, (hsettled.append rfl rfl rfl rfl rfl).returned rfl rfl⟩
  · refine ⟨_, rfl, ?_⟩
    simp only [hs, ↓reduceIte]
    exact hheld.returned rfl rfl

/-- The events of a saga, and what follows it without a word about the payment. -/
theorem SagaFailed.of_exec {saga : List ProcEvent} (h : Approached pre)
    (hex : Exec (runSaga job.data) saga (.error err)) (hr : post.any isRefusal = false)
    (hrel : post.any isReleaseReject = false) (hb : post.any isBurialReject = false)
    (hd : post.any isDeadLettered = false) :
    SagaFailed job.data err (pre ++ saga ++ post) := by
  obtain ⟨hr', hrel', hb', hd'⟩ := runSaga_silent hex
  refine ⟨fun rest => ?_, ?_, ?_, ?_, ?_, ?_⟩
  · simpa using sagaOutcome_of_exec h.charge hex (post ++ rest)
  · simp [h.refusal, hr', hr]
  · simp [h.lock]
  · simp [h.release, hrel', hrel]
  · simp [h.burial, hb', hb]
  · simp [h.dead, hd', hd]

/-- The saga in its slot: it succeeds, or hands its error on. -/
theorem sagaInSlot_outcome (h : Approached pre) :
    Follows Grows (sagaInSlot job.data) (fun tr res => match res with
      | .ok _ => Outcome job tr (.ok ())
      | .error e => SagaFailed job.data e tr) pre := by
  have hslot : Follows Grows (acquireSlot job.data.gatewayId)
      (fun tr res => Approached tr ∧ res = .ok ()) pre := by
    refine Follows.perform_bind ?_
    intro res
    rcases res with _ | ticket
    · exact ⟨_, rfl, h.append rfl rfl rfl rfl rfl, rfl⟩
    · refine ⟨_, rfl, Follows.perform fun _ => ⟨_, rfl, ?_, rfl⟩⟩
      exact (h.append rfl rfl rfl rfl rfl).append rfl rfl rfl rfl rfl
  refine Follows.bind (hslot.mono ?_)
  intro pre' res hslot
  obtain ⟨h', hr⟩ := hslot
  rcases res with e | _
  · exact absurd hr (by simp)
  refine Follows.tryFinally (Follows.bind (Follows.of_exec fun saga res hex => ?_))
  cases res with
  | error e =>
      exact Follows.perform fun _ => ⟨_, rfl, SagaFailed.of_exec h' hex rfl rfl rfl rfl⟩
  | ok _ =>
      refine Follows.perform fun _ => ⟨_, rfl, Follows.perform fun _ => ⟨_, rfl, ?_⟩⟩
      have hsaga := sagaOutcome_of_exec h'.charge hex
        [⟨.recordSuccess job.data.gatewayId, ()⟩, ⟨.semaphoreRelease job.data.gatewayId, ()⟩]
      have hr := (runSaga_silent hex).1
      refine .returned ?_ ?_
      · simp [turnedAway, h'.refusal, h'.lock, hr, isRefusal]
      · simp only [List.append_assoc, List.cons_append, List.nil_append, hsaga]
        simp

/-- **One attempt.** Whatever it is answered, an attempt is turned away, returns, leaves
its failed payment open, or has it dead-lettered. -/
theorem process_outcome {tr : List ProcEvent} {res : Except Thrown Unit}
    (h : Exec (process job) tr res) : Outcome job tr res := by
  refine Follows.exec (Q := Outcome job) ?_ h
  refine Follows.perform_bind fun registered => ⟨_, rfl, ?_⟩
  refine Follows.perform_bind fun limited => ⟨_, rfl, ?_⟩
  cases limited with
  | false => exact .of_refused (by cases registered <;> rfl) rfl rfl
  | true =>
  cases registered with
  | false => exact .of_refused rfl rfl rfl
  | true =>
  refine Follows.perform_bind fun admitted => ⟨_, rfl, ?_⟩
  cases admitted with
  | false => exact .of_refused rfl rfl rfl
  | true =>
  refine Follows.perform_bind fun allowed => ⟨_, rfl, ?_⟩
  cases allowed with
  | false => exact Follows.perform_bind fun _ => ⟨_, rfl, .of_refused rfl rfl rfl⟩
  | true =>
  refine follows_awaited (Follows.perform ?_)
  intro res
  rcases res with e | _
  · exact ⟨_, rfl, .of_refused rfl rfl rfl⟩
  refine ⟨_, rfl, follows_awaited (Follows.perform ?_)⟩
  intro res
  rcases res with e | _ | v
  · exact ⟨_, rfl, .of_refused rfl rfl rfl⟩
  · refine ⟨_, rfl, follows_awaited (Follows.perform ?_)⟩
    intro res
    rcases res with e | v
    · exact ⟨_, rfl, .of_refused rfl rfl rfl⟩
    by_cases hv : v.map (·.status) = some .completed
    · refine ⟨_, rfl, ?_⟩
      simp only [hv, ↓reduceIte]
      refine follows_awaited (Follows.perform ?_)
      intro res
      rcases res with e | _
      · exact ⟨_, rfl, .of_refused rfl rfl rfl⟩
      refine ⟨_, rfl, follows_awaited (Follows.perform ?_)⟩
      intro res
      rcases res with e | _
      · exact ⟨_, rfl, .of_refused rfl rfl rfl⟩
      exact ⟨_, rfl, Follows.perform fun _ => ⟨_, rfl, .of_returned rfl rfl⟩⟩
    · refine ⟨_, rfl, ?_⟩
      simp only [hv, ↓reduceIte]
      refine follows_awaited (Follows.perform ?_)
      intro res
      rcases res with e | _ | _
      · exact ⟨_, rfl, .of_refused rfl rfl rfl⟩
      · exact ⟨_, rfl, reconcile_outcome ⟨rfl, rfl, rfl, rfl, rfl, rfl⟩⟩
      · refine ⟨_, rfl, Follows.tryCatch ((sagaInSlot_outcome ?_).mono ?_)⟩
        · exact ⟨rfl, rfl, rfl, rfl, rfl, rfl⟩
        intro pre res hpre
        rcases res with e | _
        · exact onSagaFailure_outcome hpre
        · exact hpre
  · refine ⟨_, rfl, follows_awaited (Follows.perform ?_)⟩
    intro res
    rcases res with e | _
    · exact ⟨_, rfl, .of_refused rfl rfl rfl⟩
    exact ⟨_, rfl, Follows.perform fun _ => ⟨_, rfl, .of_returned rfl rfl⟩⟩

namespace Outcome

variable {tr : List ProcEvent} {res : Except Thrown Unit}

/-- An attempt is stuck exactly if it throws without dead-lettering the payment. -/
theorem stuck_iff (h : Outcome job tr res) :
    Stuck job tr ↔ Attempt.threw ⟨tr, res⟩ = true ∧ tr.any isDeadLettered = false := by
  cases h with
  | refused hturned hsaga hdead => simp [Stuck, Attempt.threw, hturned, hdead]
  | returned hturned hsaga => simp [Stuck, Attempt.threw, hturned, hsaga]
  | left hturned hsaga hopen hdead => simp [Stuck, Attempt.threw, hturned, hsaga, hopen, hdead]
  | buried hturned hsaga hopen hfailed hdead => simp [Stuck, hturned, hsaga, hopen, hdead]

/-- A payment is dead-lettered only after its failure was reported. -/
theorem reported (h : Outcome job tr res) (hdead : tr.any isDeadLettered = true)
    (hthrew : Attempt.threw ⟨tr, res⟩ = true) : tr.any isFailedReport = true := by
  cases h with
  | refused _ _ hdead' => simp [hdead] at hdead'
  | returned => simp [Attempt.threw] at hthrew
  | left _ _ _ hdead' => simp [hdead] at hdead'
  | buried _ _ _ hfailed _ => exact hfailed

/-- After a failed saga the payment is dead-lettered, or left open by a throw. -/
theorem of_failed {e : Thrown} (h : Outcome job tr res)
    (hsaga : sagaOutcome job.data tr = some (.error e)) :
    (tr.any isDeadLettered = true ↔ ¬ LeftOpen job tr e) ∧
      (LeftOpen job tr e → Attempt.threw ⟨tr, res⟩ = true) := by
  cases h with
  | refused _ hsaga' => simp [hsaga] at hsaga'
  | returned _ hsaga' => exact absurd hsaga (hsaga' e)
  | left _ hsaga' hopen hdead =>
      obtain rfl : _ = e := by simpa [hsaga'] using hsaga
      simp [Attempt.threw, hopen, hdead]
  | buried _ hsaga' hopen _ hdead =>
      obtain rfl : _ = e := by simpa [hsaga'] using hsaga
      simp [hopen, hdead]

end Outcome

end PaymentQueue
