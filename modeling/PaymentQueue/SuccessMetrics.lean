import Mathlib.Data.Finset.Card
import PaymentQueue.DelayedQueue
import PaymentQueue.GivingUp
import PaymentQueue.MetricsCollector

/-!
# PaymentQueue.SuccessMetrics

Do the metrics count as a success what was completed?

A worker announces `completed` when `process` returns and `failed` when it throws, and the
collector counts what is announced. A call that has reported COMPLETED does return
(`completedOk_iff`). But `process` also returns when it has reported a payment failed and moved it
to the dead-letter queue, and when its reconciliation came to nothing: a call without any of
these is counted right (`successes_eq_completed_iff`).
-/

namespace PaymentQueue

open Async Stage

/-! ### What one call comes to -/

/-- COMPLETED is reported. -/
def isCompletedOk : ProcEvent → Bool
  | ⟨.emit (.statusChanged _ .completed _ _), .ok _⟩ => true
  | _ => false

/-- The dead letter is announced. -/
def isDeathAnnounced : ProcEvent → Bool
  | ⟨.emit (.deadLetter _ _), .ok _⟩ => true
  | _ => false

/-- The call finalized its payment COMPLETED. -/
def completedOk (tr : List ProcEvent) : Bool := tr.any isCompletedOk

/-- The call is answered so that it returns without a completion: the lock it found taken is
gone or the gateway does not call the charge settled; the settled charge cannot be cached or
reported; or the payment went to the dead-letter queue, and the lock was released. -/
def swallowed (tr : List ProcEvent) : Bool :=
  tr.any isInconclusive || (tr.any isContended && tr.any isCompletionReject) ||
    (tr.any isDeathAnnounced && !tr.any isReleaseReject)

/-- What a trace says of its completion. -/
structure Closing where
  completed : Bool
  inconclusive : Bool
  contended : Bool
  rejected : Bool
  announced : Bool
  kept : Bool

/-- The closing of a trace. -/
def closingOf (tr : List ProcEvent) : Closing where
  completed := completedOk tr
  inconclusive := tr.any isInconclusive
  contended := tr.any isContended
  rejected := tr.any isCompletionReject
  announced := tr.any isDeathAnnounced
  kept := tr.any isReleaseReject

namespace Closing

/-- The closing after one more event. -/
def add (t : Closing) (ev : ProcEvent) : Closing where
  completed := t.completed || isCompletedOk ev
  inconclusive := t.inconclusive || isInconclusive ev
  contended := t.contended || isContended ev
  rejected := t.rejected || isCompletionReject ev
  announced := t.announced || isDeathAnnounced ev
  kept := t.kept || isReleaseReject ev

def swallowed (t : Closing) : Bool :=
  t.inconclusive || (t.contended && t.rejected) || (t.announced && !t.kept)

/-- What the closing is at a stage. -/
def At (t : Closing) : Stage → Prop
  | .contending | .asking | .settled | .reconciled =>
      t.completed = false ∧ t.inconclusive = false ∧ t.contended = true ∧
        t.rejected = false ∧ t.announced = false
  | .reported | .succeeded | .recorded => t.completed = true ∧ t.swallowed = false
  | .announced _ _ => t.completed = false ∧ t.inconclusive = false ∧ t.contended = false ∧
      t.announced = true ∧ t.kept = false
  | .dropped => t.completed = false ∧ t.swallowed = true
  | .done => t.completed = true ∧ t.swallowed = false ∨ t.completed = false ∧ t.swallowed = true
  -- about to throw
  | .refused | .turnedAway | .aborted _ => t.completed = false ∧ t.swallowed = false
  | .entering | .lookedUp _ | .gated | .admitted | .allowed | .checking | .missed | .clear
  | .backfilling | .reporting => t = ⟨false, false, false, false, false, false⟩
  | _ => t.completed = false ∧ t.inconclusive = false ∧ t.contended = false ∧
      t.announced = false ∧ t.kept = false

variable {job : Job} {g g' : Stage} {o : Op} {r : o.Ret} {t : Closing}

theorem At.step (h : t.At g) (hT : Edge job g o r g') : (t.add ⟨o, r⟩).At g' := by
  cases hT
  case reportSettled r => cases r <;> simp_all [At, add, isInconclusive, isContended,
    isCompletionReject, isCompletedOk, isDeathAnnounced, isReleaseReject, Closing.swallowed]
  all_goals simp_all [At, add, isInconclusive, isContended, isCompletionReject,
    isCompletedOk, isDeathAnnounced, isReleaseReject, Closing.swallowed]

end Closing

theorem closingOf_snoc (tr : List ProcEvent) (ev : ProcEvent) :
    closingOf (tr ++ [ev]) = (closingOf tr).add ev := by
  simp [closingOf, completedOk, Closing.add]

/-- A call that throws has not completed its payment; one that returns has, unless it was
answered so that it returns without. -/
theorem completedOk_iff {job : Job} {tr : List ProcEvent} {res : Except Thrown Unit}
    (h : Exec (process job) tr res) :
    (completedOk tr = true ↔ res = .ok () ∧ swallowed tr = false) ∧
      (swallowed tr = true → res = .ok ()) := by
  have hstep : ∀ {g o r g'} pre, (closingOf pre).At g → Edge job g o r g' →
      (closingOf (pre ++ [⟨o, r⟩])).At g' := by
    intro g o r g' pre hpre hT
    rw [closingOf_snoc]
    exact hpre.step hT
  obtain ⟨g, hend, hclosing⟩ := process_induct (P := fun g pre => (closingOf pre).At g)
    rfl hstep h
  have hc : completedOk tr = (closingOf tr).completed := rfl
  have hs : swallowed tr = (closingOf tr).swallowed := rfl
  rw [hc, hs]
  cases res with
  | ok _ =>
      have hcases : (closingOf tr).completed = true ∧ (closingOf tr).swallowed = false ∨
          (closingOf tr).completed = false ∧ (closingOf tr).swallowed = true := by
        cases g with
        | done => exact hclosing
        | dropped => exact Or.inr hclosing
        | announced permanent kept =>
            obtain ⟨hcompleted, -, -, hann, hkept⟩ := hclosing
            exact Or.inr ⟨hcompleted, by simp [Closing.swallowed, hann, hkept]⟩
        | _ => exact hend.elim
      rcases hcases with ⟨h₁, h₂⟩ | ⟨h₁, h₂⟩ <;> simp [h₁, h₂]
  | error e =>
      have hnone : (closingOf tr).completed = false ∧ (closingOf tr).swallowed = false := by
        cases g with
        | refused | turnedAway | aborted kept => exact hclosing
        | unlocked err =>
            obtain ⟨hcompleted, hinc, hcont, hann, -⟩ := hclosing
            exact ⟨hcompleted, by simp [Closing.swallowed, hinc, hcont, hann]⟩
        | _ => exact hend.elim
      simp [hnone]

/-! ### The monitored system -/

/-- An attempt at a job that a worker of the deployment has taken from its queue. -/
structure Taken (d : Deployment) where
  worker : Worker
  queued : QueuedJob
  attemptsMade : Nat
  worker_mem : worker ∈ d.service.workers
  queued_mem : queued ∈ d.jobs
  queue_eq : queued.queue = worker.queue

namespace Taken

variable {d : Deployment} (t : Taken d)

/-- What the worker hands to `process`. -/
def job : Job := t.queued.attempt t.attemptsMade

/-- The gateway that the attempt is for. -/
def gatewayId : String := t.job.data.gatewayId

/-- A worker takes jobs of the gateway only that it was attached for. -/
theorem gatewayId_worker {refusal : String → Option Thrown} {cs : List ServiceCall}
    (t : Taken ((deployment refusal).after {} cs)) : t.worker.gatewayId = t.gatewayId := by
  have horder : ((deployment refusal).after {} cs).service.InOrder :=
    inOrder_after QueueService.inOrder_empty
  have hname := (horder.worker t.worker t.worker_mem).1
  rcases placed_after t.queued t.queued_mem with hspecial | ⟨hown, -⟩
  · rw [t.queue_eq, hname] at hspecial
    exact absurd hspecial (queueName_not_special _ _)
  · exact (queueName_inj (hname.symm.trans (t.queue_eq.symm.trans hown))).1

end Taken

/-- The calls, the metrics collector, and the calls whose end a worker has announced to it. -/
structure Monitored (ι : Type) where
  calls : State ι
  collector : MetricsCollector := {}
  announced : Finset ι := ∅

namespace Monitored

/-- How a thread has ended, as BullMQ sees it: did `process` resolve? -/
def outcome : Thread effects Thrown Unit → Option Bool
  | .running (.ret _) => some true
  | .running (.throw _) => some false
  | _ => none

variable {ι : Type} [DecidableEq ι] {d : Deployment}

/-- The event that a call goes through in an action. -/
def eventOf (s : State ι) : Action system ι → Option ProcEvent
  | .answer c a | .crash c (some a) => s.received c a
  | _ => none

/-- The collector has heard an event, if it is `payment.started` and comes to be heard. -/
def hear (m : MetricsCollector) (now : Int) : Option ProcEvent → MetricsCollector
  | some ⟨.emit (.started jobId _), .ok _⟩ => m.markStart jobId now
  | _ => m

theorem getOrCreate_hear {m : MetricsCollector} {now : Int} {ev : Option ProcEvent}
    {g : String} : (hear m now ev).getOrCreate g = m.getOrCreate g := by
  unfold hear
  split <;> rfl

/-- What `attachWorker` has a worker do when a call has ended: `payment.completed` and
`payment.failed` reach the collector. -/
def announce (m : MetricsCollector) (t : Taken d) (success : Bool) (stopped now : Int) :
    MetricsCollector :=
  if success then m.onCompleted t.job.id t.worker.gatewayId stopped now
  else m.onFailed t.job.id t.worker.gatewayId stopped now

theorem succeeded_announce {m : MetricsCollector} {t : Taken d} {success : Bool}
    {stopped now : Int} {g : String} :
    ((announce m t success stopped now).getOrCreate g).succeeded =
      (m.getOrCreate g).succeeded +
        if g = t.worker.gatewayId ∧ success = true then 1 else 0 := by
  unfold announce
  split
  · next hs =>
    rw [hs]
    exact MetricsCollector.counts_recordOutcome.1
  · next hs =>
    rw [Bool.not_eq_true] at hs
    rw [hs]
    exact MetricsCollector.counts_recordOutcome.1

/-- What can happen in the monitored system. -/
inductive Step (taken : ι → Taken d) : Monitored ι → Monitored ι → Prop
  /-- A step of the calls. -/
  | act {m : Monitored ι} {a : Action system ι} {s : State ι} (now : Int)
      (h : m.calls.step a = some s) :
      Step taken m { m with calls := s, collector := hear m.collector now (eventOf m.calls a) }
  /-- The worker of a call announces that it has ended. -/
  | announce {m : Monitored ι} {c : ι} {success : Bool} (stopped now : Int)
      (h : outcome (m.calls.thread c) = some success) (hc : c ∉ m.announced) :
      Step taken m { m with
        collector := announce m.collector (taken c) success stopped now
        announced := insert c m.announced }

/-- What is reached from a start with the world `w`. -/
inductive Reached (taken : ι → Taken d) (w : World) : Monitored ι → Prop
  | start : Reached taken w { calls := processes (fun c => (taken c).job) w }
  | step {m m' : Monitored ι} : Reached taken w m → Step taken m m' → Reached taken w m'

variable (m : Monitored ι)

/-- The successes counted for a gateway. -/
def succeeded (gatewayId : String) : Nat := (m.collector.getOrCreate gatewayId).succeeded

/-- The announced calls for a gateway that finalized their payment COMPLETED. -/
def completed (taken : ι → Taken d) (gatewayId : String) : Finset ι :=
  m.announced.filter fun c =>
    (taken c).gatewayId = gatewayId ∧ completedOk (eventsOf c m.calls.log) = true

/-- The announced calls that the collector counts as successes. -/
def credited : Finset ι :=
  m.announced.filter fun c => outcome (m.calls.thread c) = some true

/-! ### What is counted -/

section

variable {m : Monitored ι} {taken : ι → Taken d} {w : World}

theorem run_of_reached (h : Reached taken w m) :
    Run (fun _ _ => True) (processes (fun c => (taken c).job) w) m.calls := by
  induction h with
  | start => exact .start
  | step _ hs ih =>
      cases hs with
      | act now hact => exact .step ih trivial hact
      | announce => exact ih

/-- A call that has ended has been executed. -/
theorem exec_of_outcome (h : Reached taken w m) {c : ι} {success : Bool}
    (hc : outcome (m.calls.thread c) = some success) :
    ∃ res, Exec (process (taken c).job) (eventsOf c m.calls.log) res ∧
      (success = true ↔ res = .ok ()) := by
  have hthrough := (run_of_reached h).through c
  unfold outcome at hc
  split at hc
  · next u hrun =>
    rw [hrun] at hthrough
    exact ⟨.ok u, hthrough.exec_ret, by simpa using hc.symm⟩
  · next e hrun =>
    rw [hrun] at hthrough
    exact ⟨.error e, hthrough.exec_throw, by simpa using hc.symm⟩
  · exact absurd hc (by simp)

theorem outcome_step {s s' : State ι} {a : Action system ι} {c : ι} {success : Bool}
    (hs : s.step a = some s') (h : outcome (s.thread c) = some success) :
    outcome (s'.thread c) = some success := by
  have hover : ∃ p, s.thread c = .running p ∧ (s.thread c).awaiting = none := by
    unfold outcome at h
    split at h
    · next u hrun => exact ⟨_, hrun, by rw [hrun]; rfl⟩
    · next e hrun => exact ⟨_, hrun, by rw [hrun]; rfl⟩
    · exact absurd h (by simp)
  obtain ⟨p, hrun, hawait⟩ := hover
  rw [Config.thread_of_over hs hrun hawait, ← hrun]
  exact h

/-- The collector counts the calls that returned, by the gateway their worker serves. -/
structure Counted (taken : ι → Taken d) (m : Monitored ι) : Prop where
  ended : ∀ c ∈ m.announced, (outcome (m.calls.thread c)).isSome = true
  counts : ∀ g, m.succeeded g =
    (m.credited.filter fun c => (taken c).worker.gatewayId = g).card

theorem counted_step {m' : Monitored ι} (h : Counted taken m) (hs : Step taken m m') :
    Counted taken m' := by
  cases hs with
  | @act a s now hact =>
      have hsame : ∀ c ∈ m.announced, outcome (s.thread c) = outcome (m.calls.thread c) := by
        intro c hc
        obtain ⟨success, hsuccess⟩ := Option.isSome_iff_exists.mp (h.ended c hc)
        rw [hsuccess, outcome_step hact hsuccess]
      refine ⟨fun c hc => ?_, fun g => ?_⟩
      · rw [hsame c hc]
        exact h.ended c hc
      · have hcredited : (m.announced.filter fun c => outcome (s.thread c) = some true) =
            m.credited := Finset.filter_congr fun c hc => by rw [hsame c hc]
        show ((hear m.collector now (eventOf m.calls a)).getOrCreate g).succeeded =
          ((m.announced.filter fun c => outcome (s.thread c) = some true).filter fun c =>
            (taken c).worker.gatewayId = g).card
        rw [getOrCreate_hear, hcredited]
        exact h.counts g
  | @announce c success stopped now hend hc =>
      refine ⟨fun c' hc' => ?_, fun g => ?_⟩
      · rcases Finset.mem_insert.mp hc' with rfl | hc'
        · exact Option.isSome_iff_exists.mpr ⟨_, hend⟩
        · exact h.ended c' hc'
      · have hnew : c ∉ m.credited.filter fun c => (taken c).worker.gatewayId = g := fun hmem =>
          hc (Finset.mem_filter.mp (Finset.mem_filter.mp hmem).1).1
        have hcredited : ((insert c m.announced).filter fun c =>
            outcome (m.calls.thread c) = some true) =
            if success = true then insert c m.credited else m.credited := by
          rw [Finset.filter_insert, hend]
          simp only [Option.some.injEq]
          rfl
        show ((announce m.collector (taken c) success stopped now).getOrCreate g).succeeded =
          (((insert c m.announced).filter fun c => outcome (m.calls.thread c) = some true).filter
            fun c => (taken c).worker.gatewayId = g).card
        rw [succeeded_announce, hcredited, show (m.collector.getOrCreate g).succeeded =
          (m.credited.filter fun c => (taken c).worker.gatewayId = g).card from h.counts g]
        by_cases hsuccess : success = true
        · rw [if_pos hsuccess, Finset.filter_insert]
          by_cases hg : (taken c).worker.gatewayId = g
          · rw [if_pos ⟨hg.symm, hsuccess⟩, if_pos hg, Finset.card_insert_of_notMem hnew]
          · rw [if_neg fun heq => hg heq.1.symm, if_neg hg, add_zero]
        · rw [if_neg hsuccess, if_neg fun heq => hsuccess heq.2, add_zero]

theorem counted_of_reached (h : Reached taken w m) : Counted taken m := by
  induction h with
  | start => exact ⟨by simp, fun g => rfl⟩
  | step _ hs ih => exact counted_step ih hs

end

/-- **Success metrics.** In every run, of any calls of any gateways, whatever happens in it:
the successes counted for each gateway are the announced calls for it that finalized their
payment COMPLETED, and no other call is counted as a success, if and only if no announced
call was answered so that it returns without a completion. -/
theorem successes_eq_completed_iff {refusal : String → Option Thrown} {cs : List ServiceCall}
    {taken : ι → Taken ((deployment refusal).after {} cs)} {w : World} {m : Monitored ι}
    (h : Reached taken w m) :
    ((∀ g, m.succeeded g = (m.completed taken g).card) ∧
        ∀ c ∈ m.credited, completedOk (eventsOf c m.calls.log) = true) ↔
      ∀ c ∈ m.announced, swallowed (eventsOf c m.calls.log) = false := by
  have hcounted := counted_of_reached h
  constructor
  · rintro ⟨-, hcredited⟩ c hc
    obtain ⟨success, hsuccess⟩ := Option.isSome_iff_exists.mp (hcounted.ended c hc)
    obtain ⟨res, hexec, hres⟩ := exec_of_outcome h hsuccess
    obtain ⟨hiff, hreturned⟩ := completedOk_iff hexec
    by_contra hsw
    rw [Bool.not_eq_false] at hsw
    rw [hres.mpr (hreturned hsw)] at hsuccess
    have hdone := (hiff.mp (hcredited c (Finset.mem_filter.mpr ⟨hc, hsuccess⟩))).2
    exact absurd (hsw.symm.trans hdone) (by decide)
  · intro hnone
    have hiff : ∀ c ∈ m.announced, outcome (m.calls.thread c) = some true ↔
        completedOk (eventsOf c m.calls.log) = true := by
      intro c hc
      obtain ⟨success, hsuccess⟩ := Option.isSome_iff_exists.mp (hcounted.ended c hc)
      obtain ⟨res, hexec, hres⟩ := exec_of_outcome h hsuccess
      rw [(completedOk_iff hexec).1, hsuccess, Option.some_inj, hres]
      simp [hnone c hc]
    refine ⟨fun g => ?_, fun c hc => ?_⟩
    · rw [hcounted.counts g, credited, completed, Finset.filter_filter]
      refine congrArg Finset.card (Finset.filter_congr fun c hc => ?_)
      rw [hiff c hc, (taken c).gatewayId_worker, and_comm]
    · obtain ⟨hann, hreturned⟩ := Finset.mem_filter.mp hc
      exact (hiff c hann).mp hreturned

/-! ### One payment -/

/-- A call of a run that has ended may be the only one that is announced. -/
theorem exists_announced {d : Deployment} (taken : ι → Taken d) {w : World}
    {G : Guard system ι Thrown Unit} {s : State ι}
    (h : Run G (processes (fun c => (taken c).job) w) s) {c : ι} {success : Bool}
    (hend : outcome (s.thread c) = some success) :
    ∃ m, Reached taken w m ∧ m.calls = s ∧ m.announced = {c} := by
  have hcalls : ∃ collector, Reached taken w ⟨s, collector, ∅⟩ := by
    clear hend
    induction h with
    | start => exact ⟨_, .start⟩
    | step _ _ hs ih =>
        obtain ⟨collector, hreached⟩ := ih
        exact ⟨_, hreached.step (.act 0 hs)⟩
  obtain ⟨collector, hreached⟩ := hcalls
  exact ⟨_, hreached.step (.announce 0 0 hend (Finset.notMem_empty c)), rfl, rfl⟩

/-- The card payment, taken by a worker of its gateway. -/
def cardTaken : Taken ((deployment fun _ => none).after {}
    (stripeWired ++ [.enqueue cardPayment none])) where
  worker := ⟨"payments-stripe-normal", "stripe", .normal, 13⟩
  queued := cardQueued 3
  attemptsMade := 0
  worker_mem := by decide +kernel
  queued_mem := by decide +kernel
  queue_eq := rfl

/-- A payment that is charged and recorded is the one success of its gateway. -/
theorem success_charged :
    ∃ m, Reached (fun _ : Unit => cardTaken) startedUp m ∧ m.announced = {()} ∧
      m.succeeded "stripe" = (m.completed (fun _ => cardTaken) "stripe").card ∧
      completedOk (eventsOf () m.calls.log) = true := by
  have hrun : ∃ s, Run (fun _ _ => True)
      (processes (fun _ : Unit => cardTaken.job) startedUp) s ∧
      (outcome (s.thread ()) = some true ∧ swallowed (eventsOf () s.log) = false ∧
        completedOk (eventsOf () s.log) = true) :=
    Run.exists_of_exec (approach () ++ takeAndCharge () ++ captureAndPost () ++
      .answer () (.env none) :: List.replicate 4 (.answer () .resolve)) (by decide +kernel)
  obtain ⟨s, hrun, hend, hsw, hcompleted⟩ := hrun
  obtain ⟨m, hm, rfl, hann⟩ := exists_announced (fun _ : Unit => cardTaken) hrun hend
  refine ⟨m, hm, hann, ?_, hcompleted⟩
  exact ((successes_eq_completed_iff hm).mpr fun c _ => hsw).1 "stripe"

/-- A worker dies with the lock of the payment, and the lock runs out between two questions of
the call that has the job next: it returns, and is a success of the gateway, although nobody has
charged the payment. -/
theorem success_unsettled :
    ∃ m, Reached (fun _ : Fin 2 => cardTaken) startedUp m ∧ m.succeeded "stripe" = 1 ∧
      m.completed (fun _ => cardTaken) "stripe" = ∅ ∧
      m.calls.log.any (heard isChargeRequest) = false := by
  have hrun : ∃ s, Run (fun _ _ => True)
      (processes (fun _ : Fin 2 => cardTaken.job) startedUp) s ∧
      (outcome (s.thread 1) = some true ∧ completedOk (eventsOf 1 s.log) = false ∧
        s.log.any (heard isChargeRequest) = false) :=
    Run.exists_of_exec (approach 0 ++ [.answer 0 .resolve, .crash 0 none, .move (.tick 119999)] ++
      approach 1 ++ [.answer 1 .resolve, .move (.tick 1), .move (.expire "idem:lock:idem_1"),
        .answer 1 .resolve]) (by decide +kernel)
  obtain ⟨s, hrun, hend, hcompleted, hcharges⟩ := hrun
  obtain ⟨m, hm, rfl, hann⟩ := exists_announced (fun _ : Fin 2 => cardTaken) hrun hend
  refine ⟨m, hm, ?_, ?_, hcharges⟩
  · rw [(counted_of_reached hm).counts, credited, hann, Finset.filter_singleton, if_pos hend]
    decide
  · rw [completed, hann, Finset.filter_singleton, if_neg]
    rintro ⟨-, htrue⟩
    exact absurd (hcompleted.symm.trans htrue) (by decide)

end Monitored

end PaymentQueue
