import Mathlib.Data.List.Nodup
import PaymentQueue.Async.Object
import PaymentQueue.QueueManager
import PaymentQueue.World

/-!
# PaymentQueue.QueueService

The rest of `QueueManagerService` of `queue/queue-manager.service.ts`, around the registry
of `PaymentQueue.QueueManager`: the clients and rate limiters that `registerGateway` makes,
`attachWorker`, `shutdown`, and a `Deployment` of the service with the jobs it has added.

BullMQ is a third party. Its `Queue` constructor may refuse a name: `refusal` says with
what error, if it does. Its `add` creates nothing under a job id that is already in that
queue; whether it takes the id at all is not asked here. A `Worker` takes the jobs of the
queue it was made for, and the calls of a `Deployment` are those whose concurrency BullMQ
takes: one that it refuses attaches nothing.
-/

namespace PaymentQueue

open Async

/-- A BullMQ `Worker`, with the gateway and priority it was attached for. -/
structure Worker where
  /-- The queue it takes its jobs from. -/
  queue : String
  gatewayId : String
  priority : Priority
  concurrency : Int
  deriving DecidableEq, Repr

/-- The state of `QueueManagerService`. A `TokenBucket` object is known by its number. -/
structure QueueService where
  manager : QueueManager := {}
  /-- The names that `new Queue` was called with, in order. -/
  created : List String := []
  rateLimiters : String → Option Nat := fun _ => none
  /-- The `TokenBucket` objects made so far, as they were made. -/
  buckets : List TokenBucket := []
  /-- The workers of all queues. -/
  workers : List Worker := []
  shuttingDown : Bool := false

/-- `queues.get`. -/
def QueueManager.get (q : QueueManager) (name : String) : Option ManagedQueue :=
  (q.queues.find? fun entry => entry.1 == name).map (·.2)

namespace QueueService

variable (refusal : String → Option Thrown) (s : QueueService)

/-- Make a queue and keep it under its name. -/
def addQueue (name : String) (queue : ManagedQueue) : QueueService :=
  { s with manager := s.manager.set name queue, created := s.created ++ [name] }

/-- The body of the loops over queues: make one, unless it is there. -/
def ensureQueue (name : String) (queue : ManagedQueue) : Except Thrown Unit × QueueService :=
  if s.manager.has name then (.ok (), s)
  else
    match refusal name with
    | some e => (.error e, s)
    | none => (.ok (), s.addQueue name queue)

/-- Such a loop; an error ends it. -/
def ensureQueues : QueueService → List (String × ManagedQueue) →
    Except Thrown Unit × QueueService
  | s, [] => (.ok (), s)
  | s, (name, queue) :: rest =>
      match s.ensureQueue refusal name queue with
      | (.ok _, s) => ensureQueues s rest
      | (.error e, s) => (.error e, s)

/-- `ensureSpecialQueues`. -/
def ensureSpecialQueues : Except Thrown Unit × QueueService :=
  s.ensureQueues refusal (["payments-dlq", "payments-scheduled"].map fun name =>
    (name, ⟨"*", if name = "payments:dlq" then .dlq else .scheduled⟩))

/-- Make a rate limiter for a gateway that has none. -/
def ensureRateLimiter (now : Int) (gatewayId : String) (rateLimit : Option (ℚ × ℚ)) :
    QueueService :=
  if (s.rateLimiters gatewayId).isSome then s
  else
    let rl := rateLimit.getD (50, 20)
    { s with
      rateLimiters := Function.update s.rateLimiters gatewayId (some s.buckets.length)
      buckets := s.buckets ++ [.new now rl.1 rl.2] }

/-- `registerGateway`. The `rateLimit` of its options is a capacity and a rate; it does not
read their `concurrency`. -/
def registerGateway (now : Int) (gatewayId : String) (rateLimit : Option (ℚ × ℚ)) :
    Except Thrown Unit × QueueService :=
  let registered := s.ensureQueues refusal ([.high, .normal, .low].map fun priority =>
    (queueName gatewayId priority, ⟨gatewayId, .priority priority⟩))
  match registered with
  | (.ok _, s) => (s.ensureRateLimiter now gatewayId rateLimit).ensureSpecialQueues refusal
  | (.error e, s) => (.error e, s)

/-- `attachWorker`, with the process function of the processor. `refused` is what `new Worker`
throws, if it does: BullMQ refuses a concurrency below 1. -/
def attachWorker (gatewayId : String) (priority : Priority) (concurrency : Int := 10)
    (refused : Option Thrown := none) : Except Thrown Worker × QueueService :=
  let name := queueName gatewayId priority
  if !s.manager.has name then
    (.error (.error s!"Queue {name} not registered — call registerGateway first"), s)
  else
    match refused with
    | some e => (.error e, s)
    | none =>
        let worker : Worker := ⟨name, gatewayId, priority, concurrency⟩
        (.ok worker, { s with workers := s.workers ++ [worker] })

/-- What `moveToDeadLetter` adds. -/
def deadLetter (payment : Payment) (reason : Option String) : Except Thrown QueuedJob :=
  if s.manager.has "payments-dlq" then .ok
    { queue := "payments-dlq"
      name := "dead-letter"
      data := { payment with failureReason := reason }
      opts := { jobId := "dlq:" ++ payment.idempotencyKey } }
  else .error (.error "Cannot read properties of undefined (reading 'queue')")

/-- The start of `shutdown`: the queues it tells to pause. -/
def shutdown : List String × QueueService :=
  if s.shuttingDown then ([], s)
  else (s.manager.queues.map (·.1), { s with shuttingDown := true })

end QueueService

/-! ### A deployment of the service -/

/-- `Queue.add`: a job id that is already in the queue is not added again. -/
def addJob (jobs : List QueuedJob) (job : QueuedJob) : List QueuedJob :=
  if jobs.any fun j => j.queue == job.queue && j.opts.jobId == job.opts.jobId then jobs
  else jobs ++ [job]

/-- The service and the jobs in Redis. -/
structure Deployment where
  service : QueueService := {}
  jobs : List QueuedJob := []

/-- A call of the service. -/
inductive ServiceCall
  | registerGateway (now : Int) (gatewayId : String) (rateLimit : Option (ℚ × ℚ))
  | attachWorker (gatewayId : String) (priority : Priority) (concurrency : Int)
  | enqueue (payment : Payment) (delayMs : Option Int)
  | moveToDeadLetter (payment : Payment) (reason : Option String)

namespace ServiceCall

/-- What a call answers. -/
@[reducible] def Ret : ServiceCall → Type
  | registerGateway _ _ _ | moveToDeadLetter _ _ => Except Thrown Unit
  | attachWorker _ _ _ => Except Thrown Worker
  | enqueue _ _ => Except Thrown QueuedJob

end ServiceCall

/-- The jobs after an attempt to add one. -/
def Deployment.adding (d : Deployment) : Except Thrown QueuedJob → Deployment
  | .ok job => { d with jobs := addJob d.jobs job }
  | .error _ => d

/-- The service as an object. -/
def deployment (refusal : String → Option Thrown) :
    Object Deployment ServiceCall ServiceCall.Ret where
  run d
    | .registerGateway now gatewayId rateLimit =>
        let res := d.service.registerGateway refusal now gatewayId rateLimit
        (res.1, { d with service := res.2 })
    | .attachWorker gatewayId priority concurrency =>
        let res := d.service.attachWorker gatewayId priority concurrency
        (res.1, { d with service := res.2 })
    | .enqueue payment delayMs =>
        let res := d.service.manager.enqueue payment delayMs
        (res, d.adding res)
    | .moveToDeadLetter payment reason =>
        let res := d.service.deadLetter payment reason
        (res.map fun _ => (), d.adding res)

/-! ### What a registration does -/

namespace QueueService

variable {refusal : String → Option Thrown} {s s' s'' : QueueService} {name : String}
variable {queue : ManagedQueue} {queues : List (String × ManagedQueue)}

/-- What every new queue preserves is preserved by a loop over queues. -/
theorem ensureQueues_induct {P : QueueService → Prop}
    (hadd : ∀ s name queue, (name, queue) ∈ queues → s.manager.has name = false → P s →
      P (s.addQueue name queue))
    (h : P s) : P (s.ensureQueues refusal queues).2 := by
  induction queues generalizing s with
  | nil => exact h
  | cons entry rest ih =>
      obtain ⟨name, queue⟩ := entry
      have hrest : ∀ s, P s → P (s.ensureQueues refusal rest).2 := fun s hs =>
        ih (fun s name queue hmem => hadd s name queue (List.mem_cons_of_mem _ hmem)) hs
      rw [ensureQueues, ensureQueue]
      cases hhas : s.manager.has name with
      | true => exact hrest s h
      | false =>
          cases hrefuse : refusal name with
          | some e => exact h
          | none => exact hrest _ (hadd s name queue List.mem_cons_self hhas h)

/-- A queue as its name says: of a gateway and a priority, or special. -/
inductive Named : String × ManagedQueue → Prop
  | gateway (gatewayId : String) (p : Priority) :
      Named (queueName gatewayId p, ⟨gatewayId, .priority p⟩)
  | special {name : String} (h : name ∈ ["payments-dlq", "payments-scheduled"]) :
      Named (name, ⟨"*", .scheduled⟩)

/-- What a new queue and a new rate limiter preserve is preserved by a registration. -/
theorem registerGateway_induct {P : QueueService → Prop} {now : Int} {gatewayId : String}
    {rateLimit : Option (ℚ × ℚ)}
    (hadd : ∀ s name queue, Named (name, queue) → s.manager.has name = false → P s →
      P (s.addQueue name queue))
    (hlimit : ∀ s, P s → P (s.ensureRateLimiter now gatewayId rateLimit))
    (h : P s) : P (s.registerGateway refusal now gatewayId rateLimit).2 := by
  have hgateway : P (s.ensureQueues refusal ([.high, .normal, .low].map fun priority =>
      (queueName gatewayId priority, ⟨gatewayId, .priority priority⟩))).2 := by
    refine ensureQueues_induct (fun s name queue hmem => hadd s name queue ?_) h
    obtain ⟨p, -, hp⟩ := List.mem_map.mp hmem
    exact hp ▸ .gateway gatewayId p
  rw [registerGateway]
  split
  · next s' hs =>
    rw [hs] at hgateway
    refine ensureQueues_induct (fun s name queue hmem => hadd s name queue ?_)
      (hlimit s' hgateway)
    obtain ⟨name', hname, hq⟩ := List.mem_map.mp hmem
    have hkind : (if name' = "payments:dlq" then QueueKind.dlq else .scheduled) = .scheduled := by
      refine if_neg fun heq => ?_
      rw [heq] at hname
      exact absurd hname (by decide)
    rw [hkind] at hq
    exact hq ▸ .special hname
  · next e s' hs =>
    rw [hs] at hgateway
    exact hgateway

/-- Nothing that was there is gone or replaced. -/
structure Extends (s s' : QueueService) : Prop where
  created : s.created <+: s'.created
  queues : s.manager.queues <+: s'.manager.queues
  rateLimiters : ∀ {g i}, s.rateLimiters g = some i → s'.rateLimiters g = some i
  buckets : s.buckets <+: s'.buckets
  workers : s.workers <+: s'.workers

theorem Extends.refl (s : QueueService) : s.Extends s :=
  ⟨List.prefix_rfl, List.prefix_rfl, id, List.prefix_rfl, List.prefix_rfl⟩

theorem Extends.trans (h : s.Extends s') (h' : s'.Extends s'') : s.Extends s'' where
  created := h.created.trans h'.created
  queues := h.queues.trans h'.queues
  rateLimiters hg := h'.rateLimiters (h.rateLimiters hg)
  buckets := h.buckets.trans h'.buckets
  workers := h.workers.trans h'.workers

theorem extends_addQueue : s.Extends (s.addQueue name queue) where
  created := List.prefix_append _ _
  queues := List.prefix_append _ _
  rateLimiters := id
  buckets := List.prefix_rfl
  workers := List.prefix_rfl

theorem extends_ensureRateLimiter {now : Int} {gatewayId : String}
    {rateLimit : Option (ℚ × ℚ)} :
    s.Extends (s.ensureRateLimiter now gatewayId rateLimit) := by
  unfold ensureRateLimiter
  split
  · exact .refl s
  · next hnone =>
    refine ⟨List.prefix_rfl, List.prefix_rfl, fun {g i} hg => ?_, List.prefix_append _ _,
      List.prefix_rfl⟩
    have hne : g ≠ gatewayId := by
      intro heq
      subst heq
      simp [hg] at hnone
    simpa [hne] using hg

theorem extends_registerGateway {now : Int} {gatewayId : String}
    {rateLimit : Option (ℚ × ℚ)} :
    s.Extends (s.registerGateway refusal now gatewayId rateLimit).2 :=
  registerGateway_induct (P := s.Extends) (fun _ _ _ _ _ h => h.trans extends_addQueue)
    (fun _ h => h.trans extends_ensureRateLimiter) (.refl s)

/-- A registration attaches no worker, and shuts nothing down. -/
theorem workers_registerGateway {now : Int} {gatewayId : String}
    {rateLimit : Option (ℚ × ℚ)} :
    (s.registerGateway refusal now gatewayId rateLimit).2.workers = s.workers ∧
      (s.registerGateway refusal now gatewayId rateLimit).2.shuttingDown = s.shuttingDown := by
  refine registerGateway_induct
    (P := fun s' => s'.workers = s.workers ∧ s'.shuttingDown = s.shuttingDown)
    (fun s' name queue _ _ h => h) (fun s' h => ?_) ⟨rfl, rfl⟩
  unfold ensureRateLimiter
  split
  · exact h
  · exact h

theorem extends_attachWorker {gatewayId : String} {p : Priority} {concurrency : Int} :
    s.Extends (s.attachWorker gatewayId p concurrency).2 := by
  unfold attachWorker
  simp only
  split
  · exact .refl s
  · exact ⟨List.prefix_rfl, List.prefix_rfl, id, List.prefix_rfl, List.prefix_append _ _⟩

/-- A worker can be attached to every registered queue, by the name of its gateway and
priority. -/
theorem attachWorker_eq_ok {gatewayId : String} {p : Priority} {concurrency : Int}
    {worker : Worker} :
    (s.attachWorker gatewayId p concurrency).1 = .ok worker ↔
      s.manager.has (queueName gatewayId p) = true ∧
        worker = ⟨queueName gatewayId p, gatewayId, p, concurrency⟩ := by
  unfold attachWorker
  cases hhas : s.manager.has (queueName gatewayId p) with
  | true =>
      simp only [hhas, Bool.not_true, Bool.false_eq_true, ↓reduceIte, Except.ok.injEq, true_and]
      exact eq_comm
  | false => simp [hhas]

theorem exists_attachWorker {gatewayId : String} {p : Priority}
    (h : s.manager.has (queueName gatewayId p) = true) (concurrency : Int) :
    ∃ worker, (s.attachWorker gatewayId p concurrency).1 = .ok worker ∧
      worker.queue = queueName gatewayId p :=
  ⟨_, attachWorker_eq_ok.mpr ⟨h, rfl⟩, rfl⟩

/-- The registry is in order: one queue was made for every name, and is what its name says;
every rate limiter is an object; and workers were attached to queues that are there. -/
structure InOrder (s : QueueService) : Prop where
  nodup : s.created.Nodup
  keys : s.manager.queues.map (·.1) = s.created
  named : ∀ entry ∈ s.manager.queues, Named entry
  limiter : ∀ {g i}, s.rateLimiters g = some i → i < s.buckets.length
  worker : ∀ w ∈ s.workers,
    w.queue = queueName w.gatewayId w.priority ∧ s.manager.has w.queue = true

theorem inOrder_empty : InOrder {} where
  nodup := .nil
  keys := rfl
  named := by simp
  limiter := by simp
  worker := by simp

theorem has_iff : s.manager.has name = true ↔ name ∈ s.manager.queues.map (·.1) := by
  simp [QueueManager.has]

theorem InOrder.has_iff (h : s.InOrder) : s.manager.has name = true ↔ name ∈ s.created := by
  rw [QueueService.has_iff, h.keys]

theorem Extends.has (h : s.Extends s') (hname : s.manager.has name = true) :
    s'.manager.has name = true := by
  rw [QueueService.has_iff] at hname ⊢
  exact (h.queues.map _).subset hname

theorem InOrder.addQueue (h : s.InOrder) (hn : Named (name, queue))
    (hhas : s.manager.has name = false) : (s.addQueue name queue).InOrder where
  nodup := by
    have hnew : name ∉ s.created := by
      rw [← h.has_iff, hhas]
      decide
    refine List.nodup_append'.mpr ⟨h.nodup, List.nodup_singleton _, ?_⟩
    simpa using hnew
  keys := by simp [QueueService.addQueue, QueueManager.set, h.keys]
  named := by
    simp only [QueueService.addQueue, QueueManager.set, List.mem_append, List.mem_singleton]
    rintro entry (hmem | rfl)
    · exact h.named entry hmem
    · exact hn
  limiter := h.limiter
  worker w hw := ⟨(h.worker w hw).1, extends_addQueue.has (h.worker w hw).2⟩

theorem InOrder.ensureRateLimiter {now : Int} {gatewayId : String}
    {rateLimit : Option (ℚ × ℚ)} (h : s.InOrder) :
    (s.ensureRateLimiter now gatewayId rateLimit).InOrder := by
  unfold QueueService.ensureRateLimiter
  split
  · exact h
  · refine ⟨h.nodup, h.keys, h.named, fun {g i} hg => ?_, h.worker⟩
    by_cases hgw : g = gatewayId
    · subst hgw
      obtain rfl : s.buckets.length = i := by simpa using hg
      simp
    · have := h.limiter (i := i) (by simpa [hgw] using hg)
      simp only [List.length_append]
      omega

theorem InOrder.registerGateway {now : Int} {gatewayId : String}
    {rateLimit : Option (ℚ × ℚ)} (h : s.InOrder) :
    (s.registerGateway refusal now gatewayId rateLimit).2.InOrder :=
  registerGateway_induct (fun _ _ _ hn hhas h => h.addQueue hn hhas)
    (fun _ h => h.ensureRateLimiter) h

theorem InOrder.attachWorker {gatewayId : String} {p : Priority} {concurrency : Int}
    (h : s.InOrder) : (s.attachWorker gatewayId p concurrency).2.InOrder := by
  unfold QueueService.attachWorker
  simp only
  split
  · exact h
  · next hhas =>
    refine ⟨h.nodup, h.keys, h.named, h.limiter, ?_⟩
    simp only [List.mem_append, List.mem_singleton]
    rintro w (hw | rfl)
    · exact h.worker w hw
    · exact ⟨rfl, by simpa using hhas⟩

/-! ### The smaller models of a registration -/

theorem ensureQueues_manager (s : QueueService) (queues : List (String × ManagedQueue)) :
    (s.ensureQueues (fun _ => none) queues).1 = .ok () ∧
      (s.ensureQueues (fun _ => none) queues).2.manager =
        queues.foldl (fun q entry => if q.has entry.1 then q else q.set entry.1 entry.2)
          s.manager := by
  induction queues generalizing s with
  | nil => exact ⟨rfl, rfl⟩
  | cons entry rest ih =>
      obtain ⟨name, queue⟩ := entry
      rw [ensureQueues, ensureQueue, List.foldl_cons]
      cases hhas : s.manager.has name with
      | true => simpa [hhas] using ih s
      | false => simpa [hhas, addQueue] using ih (s.addQueue name queue)

/-- When BullMQ refuses no name, the registry is that of `QueueManager.registerGateway`. -/
theorem registerGateway_manager (s : QueueService) (now : Int) (gatewayId : String)
    (rateLimit : Option (ℚ × ℚ)) :
    (s.registerGateway (fun _ => none) now gatewayId rateLimit).1 = .ok () ∧
      (s.registerGateway (fun _ => none) now gatewayId rateLimit).2.manager =
        s.manager.registerGateway gatewayId := by
  have hlimit : ∀ s : QueueService,
      (s.ensureRateLimiter now gatewayId rateLimit).manager = s.manager := by
    intro s
    unfold ensureRateLimiter
    split <;> rfl
  obtain ⟨hok, hmanager⟩ := ensureQueues_manager s ([.high, .normal, .low].map fun priority =>
    (queueName gatewayId priority, ⟨gatewayId, .priority priority⟩))
  rw [registerGateway]
  split
  · next s' hs =>
    obtain ⟨hok', hmanager'⟩ := ensureQueues_manager
      (s'.ensureRateLimiter now gatewayId rateLimit) (["payments-dlq", "payments-scheduled"].map
        fun name => (name, ⟨"*", if name = "payments:dlq" then .dlq else .scheduled⟩))
    rw [hs] at hmanager
    refine ⟨hok', hmanager'.trans ?_⟩
    rw [hlimit, hmanager, List.foldl_map, List.foldl_map]
    rfl
  · next e s' hs =>
    rw [hs] at hok
    exact absurd hok (by simp)

/-- The rate limiters are those that `World.registerGateway` keeps, each as its object was
when it was made. -/
theorem ensureRateLimiter_world {w : World} {now : Int} {gatewayId : String}
    {capacity perSecond : ℚ} {concurrency : Int} (hs : s.InOrder) (hnow : w.now = now)
    (hw : ∀ g, w.rateLimiters g = (s.rateLimiters g).bind (s.buckets[·]?)) (g : String) :
    (w.registerGateway gatewayId concurrency capacity perSecond).rateLimiters g =
      ((s.ensureRateLimiter now gatewayId (some (capacity, perSecond))).rateLimiters g).bind
        ((s.ensureRateLimiter now gatewayId (some (capacity, perSecond))).buckets[·]?) := by
  subst hnow
  have hlookup : ∀ {g i}, s.rateLimiters g = some i → ∃ b, s.buckets[i]? = some b :=
    fun hg => ⟨_, List.getElem?_eq_getElem (hs.limiter hg)⟩
  unfold ensureRateLimiter
  cases hgw : s.rateLimiters gatewayId with
  | some i =>
      obtain ⟨b, hb⟩ := hlookup hgw
      by_cases hg : g = gatewayId
      · subst hg
        simp [World.registerGateway, hw, hgw, hb]
      · simp [World.registerGateway, hw, hg]
  | none =>
      by_cases hg : g = gatewayId
      · subst hg
        simp [World.registerGateway, hw, hgw]
      · cases hother : s.rateLimiters g with
        | none => simp [World.registerGateway, hw, hg, hother]
        | some i =>
            have hi := hs.limiter hother
            simp [World.registerGateway, hw, hg, hother, List.getElem?_append_left hi]

end QueueService

end PaymentQueue
