import PaymentQueue.Async.Retry
import PaymentQueue.Processor

/-!
# PaymentQueue.QueueManager

`QueueManagerService` of `queue/queue-manager.service.ts`: the registry of queues and
`enqueue`.

Adding a job to a queue is BullMQ's part; `enqueue` returns the job as it would be
added. `QueuedJob.Runs` is what BullMQ then does with it: it runs `process` until an
attempt returns or the job's attempts have thrown, and counts those in `attemptsMade`.
-/

namespace PaymentQueue

open Async

/-- `Priority | 'scheduled' | 'dlq'`. -/
inductive QueueKind
  | priority (p : Priority)
  | scheduled
  | dlq
  deriving DecidableEq, Repr

/-- `ManagedQueue`, less its clients. -/
structure ManagedQueue where
  gatewayId : String
  priority : QueueKind
  deriving DecidableEq, Repr

/-- The state of `QueueManagerService` that `enqueue` reads: `queues`, by name. -/
structure QueueManager where
  queues : List (String × ManagedQueue) := []
  deriving Repr

/-- `PRIORITY_WEIGHT`: the lower the number, the higher the priority. -/
def priorityWeight : Priority → Nat
  | .high => 1
  | .normal => 5
  | .low => 10

/-- A priority as the strings of the source have it. -/
def Priority.text : Priority → String
  | .high => "high"
  | .normal => "normal"
  | .low => "low"

/-- `queueName`. -/
def queueName (gatewayId : String) (priority : Priority) : String :=
  s!"payments-{gatewayId}-{priority.text}"

/-- `JobsOptions`, as far as the service sets them. -/
structure JobsOptions where
  jobId : String
  delay : Option Int := none
  priority : Option Nat := none
  attempts : Option Int := none
  /-- The type and delay of `backoff`. -/
  backoff : Option (String × Int) := none
  /-- The age and count of `removeOnComplete`. -/
  removeOnComplete : Option (Int × Int) := none
  removeOnFail : Option Bool := none
  deriving DecidableEq, Repr

/-- A job in a queue. -/
structure QueuedJob where
  queue : String
  name : String
  data : Payment
  opts : JobsOptions
  deriving DecidableEq, Repr

namespace QueueManager

variable (q : QueueManager)

/-- `queues.has`. -/
def has (name : String) : Bool := q.queues.any fun entry => entry.1 == name

/-- `queues.set` under a name that is not there. -/
def set (name : String) (queue : ManagedQueue) : QueueManager :=
  { q with queues := q.queues ++ [(name, queue)] }

/-- `ensureSpecialQueues`. -/
def ensureSpecialQueues : QueueManager :=
  ["payments-dlq", "payments-scheduled"].foldl
    (fun q name =>
      if q.has name then q
      else q.set name ⟨"*", if name = "payments:dlq" then .dlq else .scheduled⟩) q

/-- `registerGateway`, less the rate limiter (`World.registerGateway`). -/
def registerGateway (gatewayId : String) : QueueManager :=
  ([.high, .normal, .low].foldl
    (fun q priority =>
      let name := queueName gatewayId priority
      if q.has name then q else q.set name ⟨gatewayId, .priority priority⟩)
    q).ensureSpecialQueues

/-- `opts.delayMs && opts.delayMs > 0`. -/
def delayed (delayMs : Option Int) : Bool := delayMs.any (· > 0)

/-- `enqueue`: the job that is added. -/
def enqueue (payment : Payment) (delayMs : Option Int) : Except Thrown QueuedJob :=
  if delayed delayMs then
    if q.has "payments-scheduled" then .ok
      { queue := "payments-scheduled"
        name := "scheduled-payment"
        data := payment
        opts := { delay := delayMs, jobId := payment.idempotencyKey } }
    else .error (.error "Cannot read properties of undefined (reading 'queue')")
  else
    let name := queueName payment.gatewayId payment.priority
    if !q.has name then .error (.error
      s!"No queue registered for gateway \"{payment.gatewayId}\" — call registerGateway first")
    else .ok
      { queue := name
        name := "process-payment"
        data := payment
        opts :=
          { jobId := payment.idempotencyKey
            priority := some (priorityWeight payment.priority)
            attempts := some (payment.maxRetries + 1)
            backoff := some ("exponentialWithJitter", 500)
            removeOnComplete := some (3600, 10000)
            removeOnFail := some false } }

end QueueManager

/-! ### The attempts of a job -/

/-- An attempt that was made. -/
abbrev Tried := Attempt effects Thrown Unit

namespace QueuedJob

variable (job : QueuedJob)

/-- The job as a worker hands it to `process` after `k` attempts that threw. -/
def attempt (k : Nat) : Job where
  id := job.opts.jobId
  data := job.data
  attemptsMade := k

/-- How often BullMQ tries the job: once, unless its options say otherwise. -/
def attempts : Nat := (job.opts.attempts.getD 1).toNat

/-- The attempts of a job took place as `runs`. -/
def Runs (runs : List Tried) : Prop :=
  JobRun (fun k => process (job.attempt k)) 0 job.attempts runs

end QueuedJob

/-- What `enqueue` adds, and where. -/
theorem QueueManager.enqueue_spec {q : QueueManager} {payment : Payment}
    {delayMs : Option Int} {job : QueuedJob} (h : q.enqueue payment delayMs = .ok job) :
    job.data = payment ∧ job.opts.jobId = payment.idempotencyKey ∧ q.has job.queue = true ∧
      ((delayed delayMs = true ∧ job.queue = "payments-scheduled" ∧
          job.opts.attempts = none) ∨
        (delayed delayMs = false ∧
          job.queue = queueName payment.gatewayId payment.priority ∧
          job.opts.attempts = some (payment.maxRetries + 1))) := by
  unfold enqueue at h
  split at h
  · next hd =>
    split at h
    · next hhas =>
      obtain rfl := Except.ok.inj h
      exact ⟨rfl, rfl, hhas, Or.inl ⟨hd, rfl, rfl⟩⟩
    · exact absurd h (by simp)
  · next hd =>
    simp only [Bool.not_eq_true] at hd
    simp only [Bool.not_eq_eq_eq_not, Bool.not_true] at h
    split at h
    · exact absurd h (by simp)
    · next hhas =>
      obtain rfl := Except.ok.inj h
      exact ⟨rfl, rfl, by simpa using hhas, Or.inr ⟨hd, rfl, rfl⟩⟩

/-- What a job enqueued without delay is tried on, and how often. -/
theorem QueueManager.enqueue_now {q : QueueManager} {payment : Payment}
    {delayMs : Option Int} {job : QueuedJob} (hd : delayed delayMs = false)
    (h : q.enqueue payment delayMs = .ok job) :
    job.data = payment ∧ job.attempts = (payment.maxRetries + 1).toNat := by
  obtain ⟨hdata, -, -, ⟨hd', -⟩ | ⟨-, -, hattempts⟩⟩ := enqueue_spec h
  · exact absurd (hd.symm.trans hd') (by decide)
  · exact ⟨hdata, by rw [QueuedJob.attempts, hattempts, Option.getD_some]⟩

end PaymentQueue
