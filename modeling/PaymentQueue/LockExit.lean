import PaymentQueue.Attempts
import PaymentQueue.Ownership

/-!
# PaymentQueue.LockExit

Is the idempotency lock gone when the call that acquired it is over?

The lock is given up with the stored result, before a retryable failure is handed on, and
after a permanent failure was reported and dead-lettered. In the last case the release comes
behind awaits that can reject: then the call throws with its lock in place
(`lock_exit_stranded`). That is the only way a lock outlives its call (`lock_exit`).
-/

namespace PaymentQueue

open Async Stage

/-- The saga is stopped before its result is stored, by a failure that is not to be
retried. -/
def isPermanentStop : ProcEvent → Bool
  | ⟨.gatewayProcess _, .ok v⟩ =>
      !v.success && decide (classifyFailure (authorizationFailure v) = .permanent)
  | ⟨.gatewayProcess _, .error e⟩ | ⟨.upsertStatus _ ⟨.completed, _⟩, .error e⟩
  | ⟨.storeResult _ _, .error e⟩ => decide (classifyFailure e = .permanent)
  | _ => false

/-- The failure cannot be reported, or the payment not be moved to the dead-letter
queue. -/
def isHandoverReject : ProcEvent → Bool
  | ⟨.emit (.statusChanged _ .failed _ _), .error _⟩ | ⟨.deadLetterAdd _ _, .error _⟩
  | ⟨.emit (.deadLetter _ _), .error _⟩ => true
  | _ => false

/-- Whether the payment's lock is there after an event. -/
def lockAfter (held : Bool) (ev : ProcEvent) : Bool :=
  isLockAcquired ev || (!deletesLock ev && held)

/-! ### The lock, event by event -/

section

variable {job : Job} {g g' : Stage} {o : Op} {r : o.Ret} {tr : List ProcEvent}

/-- Once it is acquired, it does not matter whether the lock was there before. -/
theorem foldl_lockAfter (h : tr.any isLockAcquired = true) (held held' : Bool) :
    tr.foldl lockAfter held = tr.foldl lockAfter held' := by
  induction tr generalizing held held' with
  | nil => exact absurd h (by simp)
  | cons ev tr ih =>
      rw [List.foldl_cons, List.foldl_cons]
      cases hacq : isLockAcquired ev with
      | true => simp [lockAfter, hacq]
      | false => exact ih (by simpa [hacq] using h) _ _

/-- A call holds the lock as its events have it. -/
theorem Stage.Edge.holds_eq (h : Edge job g o r g') :
    g'.holds = lockAfter g.holds ⟨o, r⟩ := by
  cases h <;> simp [holds, lockAfter, isLockAcquired, deletesLock, isReleased, isStored]

theorem holds_of_path (h : Path (Edge job) .entering tr g) :
    g.holds = tr.foldl lockAfter false := by
  refine Path.induct (P := fun g (pre : List ProcEvent) =>
    g.holds = pre.foldl lockAfter false) ?_ h rfl
  intro g o r g' pre hpre hT
  rw [List.foldl_append, ← hpre]
  exact hT.holds_eq

/-- Nothing but the call touches the lock of the key. -/
def KeepsLock (key : String) (w w' : World) : Prop :=
  IdempotencyService.hasLock w'.redis key = IdempotencyService.hasLock w.redis key

/-- The lock in the world is the lock of the events. -/
theorem hasLock_of_exec {res : Except Thrown Unit} {w w' : World}
    (h : Exec (process job) tr res)
    (hans : system.AnswersAmid (KeepsLock job.data.idempotencyKey) w tr w') :
    IdempotencyService.hasLock w'.redis job.data.idempotencyKey =
      tr.foldl lockAfter (IdempotencyService.hasLock w.redis job.data.idempotencyKey) := by
  obtain ⟨g, hpath, -⟩ := (process_follows job).path h
  have hall := hpath.forall_mem (P := fun ev : ProcEvent => ev.op.Concerns job.data) Edge.concerns
  have hstep : ∀ {w w' : World} {ev : ProcEvent} {a : Answer}, ev ∈ tr →
      w.perform ev.op a = some (ev.ret, w') →
      (w'.standing job.data).locked = lockAfter (w.standing job.data).locked ev :=
    fun hmem hw => (World.standing_perform (hall _ hmem) hw).locked_eq.1
  have hkeep : ∀ {w w' : World}, KeepsLock job.data.idempotencyKey w w' →
      (w'.standing job.data).locked = (w.standing job.data).locked := id
  exact hans.view (fun w : World => (w.standing job.data).locked) hkeep hstep

end

/-! ### What keeps the lock -/

/-- Has the saga been stopped for good, and has its handover rejected since? By the stage of
the call. -/
def StopAt (stopped rejected : Bool) : Stage → Prop
  | .unwinding todo err kept =>
      (kept = true → .reverseLedger ∉ todo) ∧
        stopped = (kept && decide (classifyFailure err = .permanent)) ∧ rejected = false
  | .failed err kept =>
      stopped = (kept && decide (classifyFailure err = .permanent)) ∧ rejected = false
  | .burying permanent kept | .buried permanent kept | .announced permanent kept =>
      stopped = (permanent && kept) ∧ rejected = false
  | .aborted kept => stopped = kept ∧ rejected = true
  -- over without a saga, or with the lock released
  | .refused | .turnedAway | .dropped | .done => (stopped && rejected) = false
  | _ => stopped = false ∧ rejected = false

section

variable {job : Job} {g g' : Stage} {o : Op} {r : o.Ret} {stopped rejected : Bool}
variable {err : Thrown} {todo : List Undo} {kept : Bool}

/-- A step of the saga has thrown. -/
theorem stopAt_unwind (htodo : kept = true → .reverseLedger ∉ todo)
    (hstop : stopped = (kept && decide (classifyFailure err = .permanent)))
    (hrejected : rejected = false) : StopAt stopped rejected (unwind err todo kept) := by
  cases he : err.nullish with
  | true =>
      rw [unwind, undone_of_nullish he]
      refine ⟨by simp, ?_, hrejected⟩
      simpa [nullish_not_permanent he, typeError_not_permanent] using hstop
  | false =>
      rw [unwind, undone_of_message he]
      exact ⟨htodo, hstop, hrejected⟩

theorem StopAt.step (h : StopAt stopped rejected g) (hT : Edge job g o r g')
    (hrel : isReleaseReject ⟨o, r⟩ = false) :
    StopAt (stopped || isPermanentStop ⟨o, r⟩) (rejected || isHandoverReject ⟨o, r⟩) g' := by
  cases hT
  case decline hv =>
    obtain ⟨rfl, rfl⟩ := h
    exact stopAt_unwind (by simp) (by simp [isPermanentStop, hv]) rfl
  case chargeErr | writeErr | storeErr =>
    obtain ⟨rfl, rfl⟩ := h
    exact stopAt_unwind (by simp) rfl rfl
  case captureErr | postErr =>
    obtain ⟨rfl, rfl⟩ := h
    exact stopAt_unwind (by simp) rfl rfl
  case notifyInjected | notifyEmitErr =>
    obtain ⟨rfl, rfl⟩ := h
    exact stopAt_unwind (by simp) rfl rfl
  case reverseLedger todo err kept r =>
    obtain ⟨htodo, rfl, rfl⟩ := h
    obtain rfl : kept = false := by simpa using htodo
    cases r <;> exact ⟨by simp, rfl, rfl⟩
  all_goals simp_all [StopAt, isPermanentStop, isHandoverReject, isReleaseReject]

/-- At the end of a call: it still holds the lock exactly if its saga was stopped for good
and the handover rejected. -/
theorem Stage.Ends.holds_iff {res : Except Thrown Unit} (h : Ends job g res)
    (hstop : StopAt stopped rejected g) :
    g.holds = true ↔ stopped = true ∧ rejected = true := by
  cases g with
  | done | dropped | refused | turnedAway => simpa [holds, StopAt] using hstop
  | aborted kept =>
      obtain ⟨rfl, rfl⟩ := hstop
      simp [holds]
  | announced permanent kept =>
      obtain ⟨rfl, rfl⟩ := hstop
      cases res with
      | ok _ =>
          obtain rfl : permanent = false := h
          simp [holds]
      | error e => exact h.elim
  | unlocked err =>
      obtain ⟨rfl, rfl⟩ := hstop
      simp [holds]
  | _ => exact h.elim

end

theorem stopAt_of_path {job : Job} {tr : List ProcEvent} {g : Stage}
    (h : Path (Edge job) .entering tr g) (hrel : tr.any isReleaseReject = false) :
    StopAt (tr.any isPermanentStop) (tr.any isHandoverReject) g := by
  refine h.induct_without (P := fun g (pre : List ProcEvent) =>
    StopAt (pre.any isPermanentStop) (pre.any isHandoverReject) g) ?_ hrel ⟨rfl, rfl⟩
  intro g o r g' pre hpre hT hrel
  simpa using hpre.step hT hrel

/-- **The lock at the end.** A call that acquired the lock, and could release it, is over
with the lock gone, unless its saga was stopped for good before the result was stored and
the failure could then not be reported or the payment not be moved to the dead-letter
queue. -/
theorem lock_exit {job : Job} {tr : List ProcEvent} {res : Except Thrown Unit} {w w' : World}
    (hexec : Exec (process job) tr res)
    (hans : system.AnswersAmid (KeepsLock job.data.idempotencyKey) w tr w')
    (hacq : tr.any isLockAcquired = true) (hrel : tr.any isReleaseReject = false) :
    IdempotencyService.hasLock w'.redis job.data.idempotencyKey = false ↔
      ¬ (tr.any isPermanentStop = true ∧ tr.any isHandoverReject = true) := by
  obtain ⟨g, hpath, hend⟩ := (process_follows job).path hexec
  have hlock := calc
    IdempotencyService.hasLock w'.redis job.data.idempotencyKey
    _ = tr.foldl lockAfter (IdempotencyService.hasLock w.redis job.data.idempotencyKey) :=
        hasLock_of_exec hexec hans
    _ = tr.foldl lockAfter false := foldl_lockAfter hacq _ _
    _ = g.holds := (holds_of_path hpath).symm
  rw [hlock, ← hend.holds_iff (stopAt_of_path hpath hrel), Bool.not_eq_true]

/-- A declined card on its last way: reported, dead-lettered, and unlocked. -/
theorem lock_exit_declined :
    ∃ tr w', Exec (process (cardJob 0)) tr (.ok ()) ∧ system.Answers startedUp tr w' ∧
      tr.any isLockAcquired = true ∧
      IdempotencyService.hasLock w'.redis cardPayment.idempotencyKey = false := by
  have hsolo : ∃ tr res w', Exec (process (cardJob 0)) tr res ∧
      system.Answers startedUp tr w' ∧
      (res.isOk = true ∧ tr.any isLockAcquired = true ∧ tr.any isReleaseReject = false ∧
        tr.any isPermanentStop = true ∧ tr.any isHandoverReject = false) :=
    Machine.exists_of_solo (List.replicate 9 .resolve ++
      [.response ⟨false, "", "stripe", none, some "card declined"⟩] ++
      List.replicate 6 .resolve) (by decide +kernel)
  obtain ⟨tr, res, w', hexec, hans, hres, hacq, hrel, -, hover⟩ := hsolo
  obtain ⟨u, rfl⟩ := exists_of_isOk hres
  refine ⟨tr, w', hexec, hans, hacq, ?_⟩
  have hamid := hans.amid (R := KeepsLock cardPayment.idempotencyKey) fun _ => rfl
  exact (lock_exit hexec hamid hacq hrel).mpr (by simp [hover])

/-- The same card when the dead-letter queue rejects: the call throws, and its lock stays. -/
theorem lock_exit_stranded :
    ∃ tr res w', Exec (process (cardJob 0)) tr res ∧ system.Answers startedUp tr w' ∧
      (res.isOk = false ∧ tr.any isLockAcquired = true ∧ tr.any isReleaseReject = false ∧
        IdempotencyService.hasLock w'.redis cardPayment.idempotencyKey = true) :=
  Machine.exists_of_solo (List.replicate 9 .resolve ++
    [.response ⟨false, "", "stripe", none, some "card declined"⟩] ++
    List.replicate 3 .resolve ++ [.reject (.error "ECONNRESET")]) (by decide +kernel)

end PaymentQueue
