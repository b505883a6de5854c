import PaymentQueue.Attempts
import PaymentQueue.Environment

/-!
# PaymentQueue.GivingUp

What has become of a payment when BullMQ gives its job up?

The test for exhausted retries stands in the `catch` around the saga. The gates and the
lookups before it throw past that test, and each of their throws uses up an attempt, so a
job can be given up with its payment neither reported failed nor dead-lettered
(`given_up_dropped`). It is so exactly if every attempt was stuck
(`given_up_settled_iff`).
-/

namespace PaymentQueue

open Async

/-- Some attempt reported the payment failed. -/
def reportedFailed (runs : List Tried) : Bool :=
  runs.any fun out => out.events.any isFailedReport

/-- Some attempt put the payment into the dead-letter queue. -/
def deadLettered (runs : List Tried) : Bool :=
  runs.any fun out => out.events.any isDeadLettered

/-- All attempts that `payment` is entitled to were made, and all threw. -/
def GivenUp (payment : Payment) (runs : List Tried) : Prop :=
  (runs.length : Int) = payment.maxRetries + 1 ∧ ∀ out ∈ runs, out.threw = true

/-- **Giving up.** Whatever the attempts of an enqueued job are answered: that its payment
is reported failed and dead-lettered by the time the job is given up means exactly that
some attempt was not stuck. -/
theorem given_up_settled_iff {q : QueueManager} {payment : Payment} {delayMs : Option Int}
    {job : QueuedJob} {runs : List Tried} (hretries : 0 ≤ payment.maxRetries)
    (hdelay : QueueManager.delayed delayMs = false)
    (hadd : q.enqueue payment delayMs = .ok job) (h : job.Runs runs) :
    (GivenUp payment runs → reportedFailed runs = true ∧ deadLettered runs = true) ↔
      ∃ k out, runs[k]? = some out ∧ ¬ Stuck (job.attempt k) out.events := by
  obtain ⟨-, hattempts⟩ := QueueManager.enqueue_now hdelay hadd
  have hout : ∀ {k out}, runs[k]? = some out →
      Outcome (job.attempt k) out.events out.result := by
    intro k out hk
    have := h.executed hk
    rw [Nat.zero_add] at this
    exact process_outcome this
  constructor
  · intro hsettled
    by_contra hcon
    have hstuck : ∀ {k : ℕ} {out : Tried}, runs[k]? = some out →
        out.threw = true ∧ out.events.any isDeadLettered = false := by
      intro k out hk
      refine (hout hk).stuck_iff.mp ?_
      by_contra hs
      exact hcon ⟨k, out, hk, hs⟩
    have hmem : ∀ out ∈ runs, out.threw = true ∧ out.events.any isDeadLettered = false := by
      intro out hout
      obtain ⟨k, hk⟩ := List.mem_iff_getElem?.mp hout
      exact hstuck hk
    have hlength : runs.length = job.attempts :=
      h.length_eq fun i out hi _ => (hstuck hi).1
    have hdead := (hsettled ⟨by omega, fun out hout => (hmem out hout).1⟩).2
    obtain ⟨out, hout, hdead⟩ := List.any_eq_true.mp hdead
    simp [(hmem out hout).2] at hdead
  · intro hnot hall
    obtain ⟨k, out, hk, hstuck⟩ := hnot
    obtain ⟨-, hthrew⟩ := hall
    have hmem := List.mem_of_getElem? hk
    have hdead : out.events.any isDeadLettered = true := by
      by_contra hd
      exact hstuck ((hout hk).stuck_iff.mpr ⟨hthrew out hmem, by simpa using hd⟩)
    exact ⟨List.any_eq_true.mpr ⟨out, hmem, (hout hk).reported hdead (hthrew out hmem)⟩,
      List.any_eq_true.mpr ⟨out, hmem, hdead⟩⟩

/-! ### Concrete jobs -/

/-- The queue manager with the gateway `stripe`. -/
def stripeQueues : QueueManager := QueueManager.registerGateway {} "stripe"

/-- The card payment with another number of retries. -/
abbrev cardPaymentWith (maxRetries : Int) : Payment :=
  { cardPayment with maxRetries := maxRetries }

/-- Its job. -/
def cardQueued (maxRetries : Int) : QueuedJob where
  queue := "payments-stripe-normal"
  name := "process-payment"
  data := cardPaymentWith maxRetries
  opts :=
    { jobId := "idem_1"
      priority := some 5
      attempts := some (maxRetries + 1)
      backoff := some ("exponentialWithJitter", 500)
      removeOnComplete := some (3600, 10000)
      removeOnFail := some false }

theorem enqueue_cardPayment (maxRetries : Int) :
    stripeQueues.enqueue (cardPaymentWith maxRetries) none = .ok (cardQueued maxRetries) := by
  have hname : queueName "stripe" .normal = "payments-stripe-normal" := by decide +kernel
  have hhas : stripeQueues.has "payments-stripe-normal" = true := by decide +kernel
  simp [QueueManager.enqueue, QueueManager.delayed, hname, hhas, cardQueued, priorityWeight,
    cardPayment]

/-- The answers that take an attempt to its lookups, where Redis is down. -/
def redisDown : List Answer :=
  List.replicate 5 .resolve ++ [.reject (.error "ECONNREFUSED")]

/-- The answers that take an attempt to its charge, which fails, and to the release of
its lock. -/
def chargeFails : List Answer :=
  List.replicate 9 .resolve ++ .reject (.error "ETIMEDOUT") :: List.replicate 3 .resolve

instance (payment : Payment) (runs : List Tried) : Decidable (GivenUp payment runs) :=
  inferInstanceAs (Decidable (_ ∧ _))

/-- Redis is down for two attempts; the charge of the third fails, and the payment is
dead-lettered, but a listener of that event throws; in the fourth Redis is down again. -/
theorem given_up_settled_unannounced :
    ∃ runs, GivenUp cardPayment runs ∧
      ((GivenUp cardPayment runs → reportedFailed runs = true ∧ deadLettered runs = true) ↔
        ∃ k out, runs[k]? = some out ∧ ¬ Stuck ((cardQueued 3).attempt k) out.events) := by
  have hrun : ∃ runs w', JobRun (fun k => process ((cardQueued 3).attempt k)) 0 4 runs ∧
      system.Answers startedUp (runs.flatMap (·.events)) w' ∧ GivenUp cardPayment runs :=
    Machine.exists_of_soloJob [redisDown, redisDown,
      chargeFails ++ [.resolve, .resolve, .reject (.error "listener")], redisDown]
      (by decide +kernel)
  obtain ⟨runs, -, h, -, hgiven⟩ := hrun
  exact ⟨runs, hgiven, given_up_settled_iff (by decide) rfl (enqueue_cardPayment 3) h⟩

/-- Redis is down for all four attempts: the job is given up, and its payment neither
reported failed nor dead-lettered. -/
theorem given_up_dropped :
    ∃ runs w', (cardQueued 3).Runs runs ∧
      system.Answers startedUp (runs.flatMap (·.events)) w' ∧
      (GivenUp cardPayment runs ∧ reportedFailed runs = false ∧ deadLettered runs = false) :=
  Machine.exists_of_soloJob (List.replicate 4 redisDown) (by decide +kernel)

end PaymentQueue
