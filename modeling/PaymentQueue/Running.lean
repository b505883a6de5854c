import PaymentQueue.UnderWay

/-!
# PaymentQueue.Running

When is a saga of the payment running, and when does it throw?

A saga runs from the successful `acquireLock` of its call until the completion is reported
or something throws: a step, or the report itself (`sagaThrows`). Which read of the
environment variable makes a step throw depends on how many there have been; so the
events of the call so far go into the definition (`failurePoint`), and the stage knows
their number (`Stage.reads`). From the stages, a saga runs exactly while its call is at
one of `Stage.running`.
-/

namespace PaymentQueue

open Async

/-- The injected failure that a saga looks for after `reads` reads. -/
def failurePoint (reads : Nat) : Option String := ["capture", "ledger", "notify"][reads]?

/-- The event makes the saga of a call throw, that has `acquired` the lock and read its
injected failure `reads` times. -/
def throwsAfter (acquired : Bool) (reads : Nat) : ProcEvent → Bool
  | ⟨.gatewayProcess _, .ok v⟩ => !v.success
  | ⟨.gatewayProcess _, .error _⟩ => true
  | ⟨.sagaFailStep, v⟩ => decide (v = failurePoint reads)
  | ⟨.upsertStatus _ ⟨.completed, _⟩, .error _⟩ => true
  | ⟨.storeResult _ _, .error _⟩ | ⟨.emit (.notify _), .error _⟩
  | ⟨.emit (.statusChanged _ .completed _ _), .error _⟩ => acquired
  | _ => false

/-- After the events `evs` of its call, the event makes the saga throw. -/
def sagaThrows (evs : List ProcEvent) (ev : ProcEvent) : Bool :=
  throwsAfter (evs.any isLockAcquired) (evs.countP isFailureRead) ev

variable {ι : Type} [DecidableEq ι]

/-- The saga of call `c` is running: it has neither thrown nor reported the completion. -/
def sagaRunning (c : ι) : List (LogEntry ι) → Bool
  | [] => false
  | .reply d ev :: log =>
      if d = c then
        isLockAcquired ev ||
          (!endsSaga ev && !sagaThrows (eventsOf c log) ev && sagaRunning c log)
      else sagaRunning c log
  | _ :: log => sagaRunning c log

namespace Stage

/-- The stages of a running saga. -/
def running : Stage → Bool
  | .locked | .authorized | .captured | .posting | .written | .stored | .notifying
  | .notified => true
  | _ => false

/-- Without ever having had the lock, and with more to do. -/
def outside : Stage → Bool
  | .reporting | .reconciled => true
  | g => g.lockless

/-- How often the saga has read its injected failure. -/
def reads : Stage → Nat
  | .captured => 1
  | .posting | .written | .stored => 2
  | .notifying | .notified => 3
  | _ => 0

variable {job : Job} {g g' : Stage} {o : Op} {r : o.Ret}

/-- What a call has gone through before the lock, and in its running saga. -/
structure SagaHistory (g : Stage) (evs : List ProcEvent) : Prop where
  outside : g.outside = true →
    evs.any isLockAcquired = false ∧ evs.countP isFailureRead = 0
  running : g.running = true →
    evs.any isLockAcquired = true ∧ evs.countP isFailureRead = g.reads

theorem Edge.outside_of (h : Edge job g o r g') (hg' : g'.outside = true) :
    g.outside = true ∧ isLockAcquired ⟨o, r⟩ = false ∧ isFailureRead ⟨o, r⟩ = false := by
  cases h
  all_goals simp_all [outside, lockless, isLockAcquired, isFailureRead]

/-- A saga starts running with the lock, and counts its reads. -/
theorem Edge.running_of (h : Edge job g o r g') (hg' : g'.running = true) :
    (g = .clear ∧ g'.reads = 0 ∧ isLockAcquired ⟨o, r⟩ = true ∧
      isFailureRead ⟨o, r⟩ = false) ∨
    (g.running = true ∧ g'.reads = g.reads + if isFailureRead ⟨o, r⟩ then 1 else 0) := by
  cases h
  all_goals simp_all [running, reads, isLockAcquired, isFailureRead]

theorem SagaHistory.step {evs : List ProcEvent} (h : g.SagaHistory evs)
    (hT : Edge job g o r g') : g'.SagaHistory (evs ++ [⟨o, r⟩]) := by
  refine ⟨fun hg' => ?_, fun hg' => ?_⟩
  · obtain ⟨hg, hacq, hread⟩ := hT.outside_of hg'
    simp [h.outside hg, hacq, hread]
  · rcases hT.running_of hg' with ⟨rfl, hreads, hacq, hread⟩ | ⟨hg, hreads⟩
    · simp [h.outside rfl, hreads, hacq, hread]
    · simp [h.running hg, hreads, List.countP_cons]

/-- A saga that throws was running, and leaves its call unwinding. -/
theorem Edge.of_throwsAfter {acquired : Bool} {reads : Nat} (h : Edge job g o r g')
    (hout : g.outside = true → acquired = false)
    (hrun : g.running = true → acquired = true ∧ reads = g.reads)
    (hthrows : throwsAfter acquired reads ⟨o, r⟩ = true) :
    g.running = true ∧ g'.running = false := by
  cases h
  case reportSettled r => cases r <;> simp_all [throwsAfter, outside]
  all_goals
    simp_all [throwsAfter, failurePoint, outside, lockless, running, Stage.reads]

/-- A running saga goes on unless it throws or reports the completion. -/
theorem Edge.running_or {acquired : Bool} {reads : Nat} (h : Edge job g o r g')
    (hrun : g.running = true → acquired = true ∧ reads = g.reads)
    (hg : g.running = true) :
    g'.running = true ∨ endsSaga ⟨o, r⟩ = true ∨ throwsAfter acquired reads ⟨o, r⟩ = true := by
  cases h
  all_goals
    simp_all [throwsAfter, failurePoint, running, Stage.reads, endsSaga]

theorem Edge.running_of_acquired (h : Edge job g o r g')
    (hacq : isLockAcquired ⟨o, r⟩ = true) : g'.running = true := by
  cases h
  all_goals simp_all [isLockAcquired, running]

theorem Edge.not_running_of_ends (h : Edge job g o r g') (hends : endsSaga ⟨o, r⟩ = true) :
    g'.running = false := by
  cases h
  all_goals simp_all [endsSaga, running]

variable {evs : List ProcEvent}

theorem Edge.of_sagaThrows (h : Edge job g o r g') (hist : g.SagaHistory evs)
    (hthrows : sagaThrows evs ⟨o, r⟩ = true) : g.running = true ∧ g'.running = false :=
  h.of_throwsAfter (fun hg => (hist.outside hg).1) hist.running hthrows

/-- A saga runs from the lock on, until it throws or reports the completion. -/
theorem Edge.running_eq (h : Edge job g o r g') (hist : g.SagaHistory evs) :
    g'.running = (isLockAcquired ⟨o, r⟩ ||
      (!endsSaga ⟨o, r⟩ && !sagaThrows evs ⟨o, r⟩ && g.running)) := by
  rw [Bool.eq_iff_iff]
  simp only [Bool.or_eq_true, Bool.and_eq_true, Bool.not_eq_true']
  constructor
  · intro hg'
    rcases h.running_of hg' with ⟨-, -, hacq, -⟩ | ⟨hg, -⟩
    · exact Or.inl hacq
    · refine Or.inr ⟨⟨?_, ?_⟩, hg⟩
      · by_contra hends
        simp [h.not_running_of_ends (by simpa using hends)] at hg'
      · by_contra hthrows
        simp [(h.of_sagaThrows hist (by simpa using hthrows)).2] at hg'
  · intro hgoes
    rcases hgoes with hacq | ⟨⟨hends, hthrows⟩, hg⟩
    · exact h.running_of_acquired hacq
    · rcases h.running_or hist.running hg with hg' | hends' | hthrows'
      · exact hg'
      · simp [hends'] at hends
      · simp [sagaThrows, hthrows'] at hthrows

end Stage

section

variable {σ : ι → Stage} {c : ι} {g : Stage} {ev : ProcEvent} {log : List (LogEntry ι)}

/-- The log and the stages agree on which sagas are running. -/
structure RunsAt (σ : ι → Stage) (log : List (LogEntry ι)) : Prop where
  history : ∀ c, (σ c).SagaHistory (eventsOf c log)
  runs : ∀ c, sagaRunning c log = (σ c).running

theorem RunsAt.start : RunsAt (fun _ : ι => .entering) [] := by
  refine ⟨fun _ => ⟨by simp, by simp [Stage.running]⟩, fun _ => rfl⟩

theorem RunsAt.reply {job : Job} (h : RunsAt σ log)
    (hT : Stage.Edge job (σ c) ev.op ev.ret g) :
    RunsAt (Function.update σ c g) (.reply c ev :: log) := by
  refine ⟨?_, fun d => ?_⟩
  · exact forall_update_events (P := fun _ (g : Stage) evs => g.SagaHistory evs)
      ((h.history c).step hT) fun d _ => h.history d
  · by_cases hd : d = c
    · subst hd
      simp [sagaRunning, hT.running_eq (h.history d), h.runs d]
    · simpa [sagaRunning, hd, Ne.symm hd] using h.runs d

theorem RunsAt.quiet (h : RunsAt σ log) {e : LogEntry ι} (he : quiet e = true) :
    RunsAt σ (e :: log) := by
  rcases quiet_iff.mp he with ⟨c, rfl⟩ | ⟨ms, rfl⟩
  · exact ⟨by simpa using h.history, h.runs⟩
  · exact ⟨by simpa using h.history, h.runs⟩

end

end PaymentQueue
