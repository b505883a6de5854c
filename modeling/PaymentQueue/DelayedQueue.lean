import PaymentQueue.Bulkhead
import PaymentQueue.Environment

/-!
# PaymentQueue.DelayedQueue

Who takes a delayed payment?

`enqueue` adds a payment with a delay to `payments-scheduled`, and without the options that
an immediate payment gets. Workers are attached by gateway and priority only, and no gateway
and priority has that queue for its name: a delayed payment waits for a worker that cannot
be attached, and would be tried once if there was one (`consumable_iff`).
-/

namespace PaymentQueue

open Async

/-- A worker attached for the payment takes its jobs from the queue of the job, and the job
is tried once more than the payment's retries. -/
def TakenWithRetries (s : QueueService) (payment : Payment) (concurrency : Int)
    (job : QueuedJob) : Prop :=
  (∃ w, (s.attachWorker payment.gatewayId payment.priority concurrency).1 = .ok w ∧
    w.queue = job.queue) ∧
  job.opts.attempts = some (payment.maxRetries + 1)

/-- **Delayed payments.** After any calls of the service, a payment that `enqueue` accepts is
added where a worker of its gateway and priority takes it, with its retries, exactly if it
has no delay; and the queue of a delayed payment never has a worker. -/
theorem consumable_iff {refusal : String → Option Thrown} {cs : List ServiceCall}
    {payment : Payment} {delayMs : Option Int} {job : QueuedJob} (concurrency : Int)
    (h : ((deployment refusal).after {} cs).service.manager.enqueue payment delayMs = .ok job) :
    (TakenWithRetries ((deployment refusal).after {} cs).service payment concurrency job ↔
      QueueManager.delayed delayMs = false) ∧
    (QueueManager.delayed delayMs = true → ∀ cs' : List ServiceCall,
      ∀ w ∈ ((deployment refusal).after {} (cs ++ cs')).service.workers, w.queue ≠ job.queue) := by
  obtain ⟨-, -, hhas, ⟨hd, hqueue, hattempts⟩ | ⟨hd, hqueue, hattempts⟩⟩ :=
    QueueManager.enqueue_spec h
  · refine ⟨iff_of_false (fun htaken => ?_) (by simp [hd]), fun _ cs' w hw => ?_⟩
    · exact absurd (hattempts.symm.trans htaken.2) (by simp)
    · have horder : ((deployment refusal).after {} (cs ++ cs')).service.InOrder :=
        inOrder_after QueueService.inOrder_empty
      rw [(horder.worker w hw).1, hqueue]
      exact fun hname => queueName_not_special w.gatewayId w.priority (by simp [hname])
  · rw [hqueue] at hhas
    have hworker := QueueService.exists_attachWorker hhas concurrency
    rw [← hqueue] at hworker
    exact ⟨iff_of_true ⟨hworker, hattempts⟩ hd, by simp [hd]⟩

/-- The calls of a module that wires one gateway. -/
def stripeWired : List ServiceCall :=
  [.registerGateway 0 "stripe" none, .attachWorker "stripe" .high 25,
    .attachWorker "stripe" .normal 13, .attachWorker "stripe" .low 13]

/-- A payment that is not delayed: its worker takes it, with its retries. -/
theorem consumable_iff_now :
    ∃ job, ((deployment fun _ => none).after {} stripeWired).service.manager.enqueue
        cardPayment none = .ok job ∧
      TakenWithRetries ((deployment fun _ => none).after {} stripeWired).service cardPayment 13
        job := by
  have hadd : (((deployment fun _ => none).after {} stripeWired).service.manager.enqueue
      cardPayment none).isOk = true := by decide +kernel
  obtain ⟨job, hjob⟩ := exists_of_isOk hadd
  exact ⟨job, hjob, (consumable_iff 13 hjob).1.mpr rfl⟩

/-- The same payment in a minute: it is accepted, to be tried once, and no worker can be
attached to its queue. -/
theorem delayed_unconsumed :
    ∃ job, ((deployment fun _ => none).after {} stripeWired).service.manager.enqueue
        cardPayment (some 60000) = .ok job ∧ job.opts.attempts = none ∧
      ∀ g p concurrency w, (((deployment fun _ => none).after {} stripeWired).service.attachWorker
        g p concurrency).1 = .ok w → w.queue ≠ job.queue := by
  have hadd : (((deployment fun _ => none).after {} stripeWired).service.manager.enqueue
      cardPayment (some 60000)).isOk = true := by decide +kernel
  obtain ⟨job, hjob⟩ := exists_of_isOk hadd
  obtain ⟨-, -, -, ⟨-, hqueue, hattempts⟩ | ⟨hd, -⟩⟩ := QueueManager.enqueue_spec hjob
  · refine ⟨job, hjob, hattempts, fun g p concurrency w hw hname => ?_⟩
    obtain ⟨-, rfl⟩ := QueueService.attachWorker_eq_ok.mp hw
    have hspecial : queueName g p = "payments-scheduled" := hname.trans hqueue
    exact queueName_not_special g p (by simp [hspecial])
  · exact absurd hd (by decide)

end PaymentQueue
