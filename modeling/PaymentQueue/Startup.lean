import Mathlib.Algebra.Order.Floor.Semiring
import PaymentQueue.Async.Pools
import PaymentQueue.DelayedQueue
import PaymentQueue.Drain
import PaymentQueue.LockCover
import PaymentQueue.QueueRegistry

/-!
# PaymentQueue.Startup

`PaymentModule` of `payment.module.ts`: what `onModuleInit` makes of a table of gateways.

For every entry of the table the queues, the rate limiter, the breaker and the semaphore of
the gateway are made and one worker for each priority is attached; `onModuleInit` awaits
nothing, so the clock stands still meanwhile. The gateways of the table are those that are
served: what `enqueue` accepts finds workers (`startup_wires`).

The workers of a gateway take at most `concurrency + 2 ⌈concurrency / 2⌉` payments at once,
over a semaphore of `concurrency` slots. So no more than `2 ⌈concurrency / 2⌉` wait for a
slot (`waiting_at_startup`), which is short enough for the locks to outlive the wait if
`concurrency` is even (`lock_covers_at_startup`). If it is odd the bound is one more than the
locks are known to outlive, and with one slot a lock does expire in the queue (`odd_outwaited`).
-/

namespace PaymentQueue

open Async

/-- An entry of `gatewayConfigs`. -/
structure GatewayConfig where
  id : String
  concurrency : Int
  /-- The capacity and the rate per second. -/
  rateLimit : ℚ × ℚ
  deriving DecidableEq, Repr

/-- The table in `onModuleInit`. -/
def gatewayConfigs : List GatewayConfig :=
  [⟨"stripe", 25, (100, 50)⟩, ⟨"adyen", 20, (80, 40)⟩, ⟨"razorpay", 15, (60, 30)⟩]

example : ∀ cfg ∈ gatewayConfigs,
    (gatewayConfigs.map (·.id)).count cfg.id = 1 ∧ 1 ≤ cfg.concurrency := by
  decide

/-- What `PaymentModule` holds: the queue manager, and what the processor keeps for every
gateway. -/
structure PaymentModule where
  queueManager : QueueService := {}
  gateways : String → Option RegisteredGateway := fun _ => none

/-- The priorities, in the order of `onModuleInit`. -/
def priorities : List Priority := [.high, .normal, .low]

/-- The concurrency of the worker that `onModuleInit` attaches for a priority. -/
def workerConcurrency (concurrency : Int) : Priority → Int
  | .high => concurrency
  | .normal | .low => ⌈(concurrency : ℚ) / 2⌉

/-- The worker that is attached for a gateway of the table and a priority. -/
def GatewayConfig.worker (cfg : GatewayConfig) (p : Priority) : Worker :=
  ⟨queueName cfg.id p, cfg.id, p, workerConcurrency cfg.concurrency p⟩

/-- What the processor keeps for a gateway it has just registered. -/
def GatewayConfig.registered (cfg : GatewayConfig) : RegisteredGateway where
  breaker := {}
  semaphore := { max := cfg.concurrency }

/-- The rate limiter of a gateway that was first registered so. -/
def GatewayConfig.bucket (cfg : GatewayConfig) (now : Int) : TokenBucket :=
  .new now cfg.rateLimit.1 cfg.rateLimit.2

/-- The names of the queues a gateway needs. -/
def queuesOf (gatewayId : String) : List String :=
  priorities.map (queueName gatewayId) ++ ["payments-dlq", "payments-scheduled"]

/-- The rate limiter of a gateway. -/
def QueueService.limiter (s : QueueService) (gatewayId : String) : Option TokenBucket :=
  (s.rateLimiters gatewayId).bind (s.buckets[·]?)

/-- What the constructors of BullMQ refuse, and with what error: a queue for its name, a worker
for its concurrency. -/
structure Refusals where
  queue : String → Option Thrown := fun _ => none
  worker : Int → Option Thrown := fun _ => none

/-- The loop over the priorities. -/
def attachWorkers (refusals : Refusals) (cfg : GatewayConfig) : QueueService → List Priority →
    Except Thrown Unit × QueueService
  | s, [] => (.ok (), s)
  | s, p :: rest =>
      let concurrency := workerConcurrency cfg.concurrency p
      match s.attachWorker cfg.id p concurrency (refusals.worker concurrency) with
      | (.ok _, s) => attachWorkers refusals cfg s rest
      | (.error e, s) => (.error e, s)

namespace PaymentModule

variable (refusals : Refusals) (now : Int) (m : PaymentModule)

/-- The body of the loop over the table. -/
def wireGateway (cfg : GatewayConfig) : Except Thrown Unit × PaymentModule :=
  match m.queueManager.registerGateway refusals.queue now cfg.id (some cfg.rateLimit) with
  | (.error e, s) => (.error e, { m with queueManager := s })
  | (.ok _, s) =>
      let res := attachWorkers refusals cfg s priorities
      (res.1, ⟨res.2, Function.update m.gateways cfg.id (some cfg.registered)⟩)

/-- `onModuleInit`, with the table as a parameter. -/
def onModuleInit : PaymentModule → List GatewayConfig → Except Thrown Unit × PaymentModule
  | m, [] => (.ok (), m)
  | m, cfg :: configs =>
      match m.wireGateway refusals now cfg with
      | (.ok _, m) => onModuleInit m configs
      | (.error e, m) => (.error e, m)

/-- The world of the `process` calls when the module has started over a Redis. -/
def world (redis : Redis) : World where
  now := now
  redis := redis
  records := fun _ => none
  gateways := m.gateways
  rateLimiters := m.queueManager.limiter
  deadLetters := []

end PaymentModule

/-! ### A registration -/

namespace QueueService

variable {refusal : String → Option Thrown} {s s' : QueueService} {name : String}
variable {queues : List (String × ManagedQueue)} {e : Thrown}

/-- A loop over queues leaves all of them in the registry. -/
theorem has_ensureQueues (h : (s.ensureQueues refusal queues).1 = .ok ()) :
    (s.ensureQueues refusal queues).2.manager.has name = true ↔
      s.manager.has name = true ∨ name ∈ queues.map (·.1) := by
  induction queues generalizing s with
  | nil => simp [ensureQueues]
  | cons entry rest ih =>
      obtain ⟨name', queue⟩ := entry
      simp only [ensureQueues, ensureQueue] at h ⊢
      cases hhas : s.manager.has name' with
      | true =>
          simp only [hhas, if_true] at h ⊢
          rw [ih h, List.map_cons, List.mem_cons]
          constructor
          · exact fun hn => hn.imp id Or.inr
          · rintro (hn | rfl | hn)
            · exact Or.inl hn
            · exact Or.inl hhas
            · exact Or.inr hn
      | false =>
          cases hrefuse : refusal name' with
          | some e => simp [hhas, hrefuse] at h
          | none =>
              simp only [hhas, hrefuse, Bool.false_eq_true, if_false] at h ⊢
              rw [ih h, has_iff, has_iff, List.map_cons, List.mem_cons]
              simp [addQueue, QueueManager.set, or_assoc]

/-- A loop over queues fails on the first name that BullMQ refuses. -/
theorem ensureQueues_error (h : (s.ensureQueues refusal queues).1 = .error e) :
    ∃ name ∈ queues.map (·.1), refusal name = some e := by
  induction queues generalizing s with
  | nil => simp [ensureQueues] at h
  | cons entry rest ih =>
      obtain ⟨name, queue⟩ := entry
      simp only [ensureQueues, ensureQueue] at h
      have hrest : ∀ {s : QueueService}, (s.ensureQueues refusal rest).1 = .error e →
          ∃ name' ∈ ((name, queue) :: rest).map (·.1), refusal name' = some e := by
        intro s hs
        obtain ⟨name', hmem, hname'⟩ := ih hs
        exact ⟨name', List.mem_cons_of_mem _ hmem, hname'⟩
      cases hhas : s.manager.has name with
      | true => exact hrest (by simpa [hhas] using h)
      | false =>
          cases hrefuse : refusal name with
          | none => exact hrest (by simpa [hhas, hrefuse] using h)
          | some e' =>
              obtain rfl : e' = e := by simpa [hhas, hrefuse] using h
              exact ⟨name, List.mem_cons_self, hrefuse⟩

theorem ensureQueues_limiters :
    (s.ensureQueues refusal queues).2.rateLimiters = s.rateLimiters ∧
      (s.ensureQueues refusal queues).2.buckets = s.buckets :=
  ensureQueues_induct (P := fun s' => s'.rateLimiters = s.rateLimiters ∧ s'.buckets = s.buckets)
    (fun _ _ _ _ _ h => h) ⟨rfl, rfl⟩

variable {now : Int} {gatewayId : String} {capacity perSecond : ℚ}

/-- A rate limiter is made for a gateway that has none. -/
theorem limiter_ensureRateLimiter (hs : s.InOrder) (g : String) :
    (s.ensureRateLimiter now gatewayId (some (capacity, perSecond))).limiter g =
      if g = gatewayId then (s.limiter g).or (some (.new now capacity perSecond))
      else s.limiter g := by
  let w : World := { World.empty now with rateLimiters := s.limiter }
  have hworld : (w.registerGateway gatewayId 0 capacity perSecond).rateLimiters g =
      (s.ensureRateLimiter now gatewayId (some (capacity, perSecond))).limiter g :=
    ensureRateLimiter_world hs rfl (fun _ => rfl) g
  rw [← hworld]
  by_cases hg : g = gatewayId
  · simp [w, World.registerGateway, World.empty, hg]
  · simp [w, World.registerGateway, hg]

theorem InOrder.ensureQueues_gateway (h : s.InOrder) :
    (s.ensureQueues refusal (gatewayQueues gatewayId)).2.InOrder := by
  refine ensureQueues_induct (fun s name queue hmem hhas hs => hs.addQueue ?_ hhas) h
  obtain ⟨p, -, hp⟩ := List.mem_map.mp hmem
  exact hp ▸ .gateway gatewayId p

/-- A registration that succeeds leaves in the registry what was there and the queues of the
gateway. -/
theorem has_registerGateway {rateLimit : Option (ℚ × ℚ)}
    (h : (s.registerGateway refusal now gatewayId rateLimit).1 = .ok ()) (name : String) :
    (s.registerGateway refusal now gatewayId rateLimit).2.manager.has name = true ↔
      s.manager.has name = true ∨ name ∈ queuesOf gatewayId := by
  rw [registerGateway] at h ⊢
  split at h
  · next s' hs =>
    have hfirst := @has_ensureQueues _ _ name _ (congrArg Prod.fst hs)
    rw [hs] at hfirst
    rw [ensureSpecialQueues] at h ⊢
    rw [has_ensureQueues h, manager_ensureRateLimiter, hfirst, or_assoc, queuesOf, List.mem_append]
    simp [priorities]
  · exact absurd h (by simp)

/-- A registration fails on a name that BullMQ refuses. -/
theorem registerGateway_error {rateLimit : Option (ℚ × ℚ)}
    (h : (s.registerGateway refusal now gatewayId rateLimit).1 = .error e) :
    ∃ name ∈ queuesOf gatewayId, refusal name = some e := by
  rw [registerGateway] at h
  split at h
  · next s' hs =>
    obtain ⟨name, hmem, hname⟩ := ensureQueues_error h
    exact ⟨name, List.mem_append_right _ (by simpa using hmem), hname⟩
  · next e' s' hs =>
    obtain rfl : e' = e := by simpa using h
    obtain ⟨name, hmem, hname⟩ := ensureQueues_error (congrArg Prod.fst hs)
    exact ⟨name, List.mem_append_left _ (by simpa [priorities] using hmem), hname⟩

/-- A registration makes a rate limiter for a gateway that has none. -/
theorem limiter_registerGateway (hs : s.InOrder)
    (h : (s.registerGateway refusal now gatewayId (some (capacity, perSecond))).1 = .ok ())
    (g : String) :
    (s.registerGateway refusal now gatewayId (some (capacity, perSecond))).2.limiter g =
      if g = gatewayId then (s.limiter g).or (some (.new now capacity perSecond))
      else s.limiter g := by
  have hqueues : ∀ (s : QueueService) queues,
      (s.ensureQueues refusal queues).2.limiter = s.limiter := by
    intro s queues
    obtain ⟨hlimiters, hbuckets⟩ := @ensureQueues_limiters refusal s queues
    funext g
    rw [limiter, limiter, hlimiters, hbuckets]
  rw [registerGateway] at h ⊢
  split at h
  · next s' hs' =>
    have horder := @InOrder.ensureQueues_gateway refusal s gatewayId hs
    have hsame := hqueues s (gatewayQueues gatewayId)
    rw [hs'] at horder hsame
    simp only [ensureSpecialQueues, hqueues]
    rw [limiter_ensureRateLimiter horder, hsame]
  · exact absurd h (by simp)

end QueueService

/-! ### The table -/

/-- BullMQ takes the names and the concurrencies that an entry of the table needs. -/
structure GatewayConfig.Accepted (refusals : Refusals) (cfg : GatewayConfig) : Prop where
  queues : ∀ name ∈ queuesOf cfg.id, refusals.queue name = none
  workers : ∀ p, refusals.worker (workerConcurrency cfg.concurrency p) = none

/-- `e` is BullMQ's error for a name or a concurrency that an entry of the table needs. -/
def GatewayConfig.RefusedWith (refusals : Refusals) (cfg : GatewayConfig) (e : Thrown) : Prop :=
  (∃ name ∈ queuesOf cfg.id, refusals.queue name = some e) ∨
    ∃ p, refusals.worker (workerConcurrency cfg.concurrency p) = some e

theorem GatewayConfig.RefusedWith.not_accepted {refusals : Refusals} {cfg : GatewayConfig}
    {e : Thrown} (h : cfg.RefusedWith refusals e) : ¬ cfg.Accepted refusals := by
  intro haccepted
  rcases h with ⟨name, hmem, hname⟩ | ⟨p, hp⟩
  · rw [haccepted.queues name hmem] at hname
    cases hname
  · rw [haccepted.workers p] at hp
    cases hp

/-- The module with the gateways of a table: there are the queues and the workers of every
entry; of several entries for one gateway the first makes the rate limiter, and the last the
breaker and the semaphore. -/
structure Wired (now : Int) (configs : List GatewayConfig) (m : PaymentModule) : Prop where
  order : m.queueManager.InOrder
  has : ∀ name, m.queueManager.manager.has name = true ↔
    ∃ cfg ∈ configs, name ∈ queuesOf cfg.id
  workers : m.queueManager.workers = configs.flatMap fun cfg => priorities.map cfg.worker
  limiters : ∀ g, m.queueManager.limiter g =
    (configs.find? (·.id = g)).map (·.bucket now)
  gateways : ∀ g, m.gateways g = (configs.reverse.find? (·.id = g)).map (·.registered)

section

variable {refusals : Refusals} {now : Int} {configs done : List GatewayConfig}
variable {cfg : GatewayConfig} {m m' : PaymentModule} {s : QueueService} {e : Thrown}

/-- Workers are attached to queues that are there, until BullMQ refuses one. -/
theorem attachWorkers_cases {ps : List Priority}
    (h : ∀ p ∈ ps, s.manager.has (queueName cfg.id p) = true) :
    (attachWorkers refusals cfg s ps =
        (.ok (), { s with workers := s.workers ++ ps.map cfg.worker }) ∧
      ∀ p ∈ ps, refusals.worker (workerConcurrency cfg.concurrency p) = none) ∨
    ∃ e s', attachWorkers refusals cfg s ps = (.error e, s') ∧
      ∃ p ∈ ps, refusals.worker (workerConcurrency cfg.concurrency p) = some e := by
  induction ps generalizing s with
  | nil => simp [attachWorkers]
  | cons p ps ih =>
      obtain ⟨hp, hps⟩ := List.forall_mem_cons.mp h
      cases hr : refusals.worker (workerConcurrency cfg.concurrency p) with
      | some e =>
          right
          refine ⟨e, s, ?_, p, List.mem_cons_self, hr⟩
          simp [attachWorkers, QueueService.attachWorker, hp, hr]
      | none =>
          have hattach : attachWorkers refusals cfg s (p :: ps) =
              attachWorkers refusals cfg { s with workers := s.workers ++ [cfg.worker p] } ps := by
            simp [attachWorkers, QueueService.attachWorker, hp, hr, GatewayConfig.worker]
          rw [hattach]
          rcases ih (s := { s with workers := s.workers ++ [cfg.worker p] }) hps with
            ⟨hok, htaken⟩ | ⟨e, s', herr, p', hp', hrefused⟩
          · left
            exact ⟨by simp [hok], List.forall_mem_cons.mpr ⟨hr, htaken⟩⟩
          · right
            exact ⟨e, s', herr, p', List.mem_cons_of_mem p hp', hrefused⟩

theorem wired_nil : Wired now [] {} where
  order := QueueService.inOrder_empty
  has name := by simp [QueueManager.has]
  workers := rfl
  limiters g := rfl
  gateways g := rfl

/-- The module in which the gateway has been registered with its workers. -/
def PaymentModule.withGateway (m : PaymentModule) (cfg : GatewayConfig) (s : QueueService) :
    PaymentModule :=
  ⟨{ s with workers := s.workers ++ priorities.map cfg.worker },
    Function.update m.gateways cfg.id (some cfg.registered)⟩

theorem has_queueName_of_registered
    (hr : m.queueManager.registerGateway refusals.queue now cfg.id (some cfg.rateLimit) =
      (.ok (), s)) (p : Priority) : s.manager.has (queueName cfg.id p) = true := by
  have hhas := QueueService.has_registerGateway (congrArg Prod.fst hr)
  rw [hr] at hhas
  refine (hhas _).mpr (Or.inr (List.mem_append_left _ (List.mem_map_of_mem ?_)))
  cases p <;> simp [priorities]

/-- After the registration the workers are attached, or BullMQ refuses one. -/
theorem wireGateway_cases
    (hr : m.queueManager.registerGateway refusals.queue now cfg.id (some cfg.rateLimit) =
      (.ok (), s)) :
    (m.wireGateway refusals now cfg = (.ok (), m.withGateway cfg s) ∧
      ∀ p, refusals.worker (workerConcurrency cfg.concurrency p) = none) ∨
    ∃ e m', m.wireGateway refusals now cfg = (.error e, m') ∧
      ∃ p, refusals.worker (workerConcurrency cfg.concurrency p) = some e := by
  have hwire : m.wireGateway refusals now cfg =
      ((attachWorkers refusals cfg s priorities).1,
        ⟨(attachWorkers refusals cfg s priorities).2,
          Function.update m.gateways cfg.id (some cfg.registered)⟩) := by
    rw [PaymentModule.wireGateway, hr]
  rw [hwire]
  rcases @attachWorkers_cases refusals cfg s priorities fun p _ => has_queueName_of_registered hr p
    with ⟨hattach, htaken⟩ | ⟨e, s', hattach, p, -, hrefused⟩
  · left
    rw [hattach]
    exact ⟨rfl, fun p => htaken p (by cases p <;> simp [priorities])⟩
  · right
    rw [hattach]
    exact ⟨e, _, rfl, p, hrefused⟩

/-- What one entry of the table adds. -/
theorem Wired.snoc (h : Wired now done m)
    (hr : m.queueManager.registerGateway refusals.queue now cfg.id (some cfg.rateLimit) =
      (.ok (), s)) : Wired now (done ++ [cfg]) (m.withGateway cfg s) := by
  have hok := congrArg Prod.fst hr
  have hhas := QueueService.has_registerGateway hok
  have hlimiter := QueueService.limiter_registerGateway h.order hok
  have hworkers : s.workers = m.queueManager.workers := by
    have hsame := (@QueueService.workers_registerGateway refusals.queue m.queueManager now cfg.id
      (some cfg.rateLimit)).1
    rwa [hr] at hsame
  have horder : s.InOrder := by
    have horder := @QueueService.InOrder.registerGateway refusals.queue _ now cfg.id
      (some cfg.rateLimit) h.order
    rwa [hr] at horder
  rw [hr] at hhas hlimiter
  refine ⟨⟨horder.nodup, horder.keys, horder.named, horder.limiter, ?_⟩, ?_, ?_, ?_, ?_⟩
  · intro w hw
    rcases List.mem_append.mp hw with hw | hw
    · exact horder.worker w hw
    · obtain ⟨p, -, rfl⟩ := List.mem_map.mp hw
      exact ⟨rfl, has_queueName_of_registered hr p⟩
  · intro name
    apply (hhas name).trans
    rw [h.has]
    simp [or_and_right, exists_or]
  · simp [PaymentModule.withGateway, hworkers, h.workers]
  · intro g
    apply (hlimiter g).trans
    rw [h.limiters, List.find?_append]
    by_cases hg : g = cfg.id
    · subst hg
      cases (done.find? fun cfg' => cfg'.id = cfg.id) <;> simp [GatewayConfig.bucket]
    · have hne : ¬ cfg.id = g := fun heq => hg heq.symm
      simp [hg, hne]
  · intro g
    by_cases hg : g = cfg.id
    · subst hg
      simp [PaymentModule.withGateway]
    · have hne : ¬ cfg.id = g := fun heq => hg heq.symm
      simp [PaymentModule.withGateway, hg, hne, h.gateways]

/-- BullMQ has taken the names of the queues that are there, and takes those of an entry that
is registered after them. -/
theorem Wired.taken (h : Wired now done m) (hdone : ∀ cfg ∈ done, cfg.Accepted refusals)
    (hok : (m.queueManager.registerGateway refusals.queue now cfg.id (some cfg.rateLimit)).1 =
      .ok ()) : ∀ name ∈ queuesOf cfg.id, refusals.queue name = none := by
  have htaken : m.queueManager.Taken refusals.queue := by
    intro name hname
    obtain ⟨cfg', hcfg', hmem⟩ := (h.has name).mp hname
    exact (hdone cfg' hcfg').queues name hmem
  intro name hname
  exact (QueueService.registerGateway_spec htaken).1 name
    ((QueueService.has_registerGateway hok name).mpr (Or.inr hname))

/-- The loop over the table ends with all of it wired, or at something that BullMQ refuses. -/
theorem Wired.onModuleInit (h : Wired now done m) (hdone : ∀ cfg ∈ done, cfg.Accepted refusals) :
    (∃ m', m.onModuleInit refusals now configs = (.ok (), m') ∧ Wired now (done ++ configs) m' ∧
      ∀ cfg ∈ done ++ configs, cfg.Accepted refusals) ∨
    ∃ e m', m.onModuleInit refusals now configs = (.error e, m') ∧
      ∃ cfg ∈ configs, cfg.RefusedWith refusals e := by
  induction configs generalizing done m with
  | nil => exact Or.inl ⟨m, rfl, by simpa using h, by simpa using hdone⟩
  | cons cfg configs ih =>
      rcases hr : m.queueManager.registerGateway refusals.queue now cfg.id (some cfg.rateLimit)
        with ⟨⟨e⟩ | ⟨⟨⟩⟩, s⟩
      · right
        have hname := QueueService.registerGateway_error (congrArg Prod.fst hr)
        refine ⟨e, { m with queueManager := s }, ?_, cfg, List.mem_cons_self, Or.inl hname⟩
        rw [PaymentModule.onModuleInit, PaymentModule.wireGateway, hr]
      · have hqueues := h.taken hdone (congrArg Prod.fst hr)
        rcases wireGateway_cases hr with ⟨hwire, hworkers⟩ | ⟨e, m', hwire, hrefused⟩
        · have hdone' : ∀ cfg' ∈ done ++ [cfg], cfg'.Accepted refusals := by
            simpa [or_imp, forall_and] using ⟨hdone, ⟨hqueues, hworkers⟩⟩
          rw [PaymentModule.onModuleInit, hwire]
          rcases ih (h.snoc hr) hdone' with
            ⟨m'', hok, h'', hall⟩ | ⟨e, m'', herr, cfg', hcfg', hrefused⟩
          · exact Or.inl ⟨m'', hok, by simpa using h'', by simpa using hall⟩
          · exact Or.inr ⟨e, m'', herr, cfg', List.mem_cons_of_mem _ hcfg', hrefused⟩
        · right
          refine ⟨e, m', ?_, cfg, List.mem_cons_self, Or.inr hrefused⟩
          rw [PaymentModule.onModuleInit, hwire]

/-- `onModuleInit` wires the whole table, or ends at something that BullMQ refuses. -/
theorem onModuleInit_cases (refusals : Refusals) (now : Int) (configs : List GatewayConfig) :
    (∃ m, PaymentModule.onModuleInit refusals now {} configs = (.ok (), m) ∧
      Wired now configs m ∧ ∀ cfg ∈ configs, cfg.Accepted refusals) ∨
    ∃ e m, PaymentModule.onModuleInit refusals now {} configs = (.error e, m) ∧
      ∃ cfg ∈ configs, cfg.RefusedWith refusals e :=
  wired_nil.onModuleInit (by simp)

theorem wired_of_ok (h : PaymentModule.onModuleInit refusals now {} configs = (.ok (), m)) :
    Wired now configs m := by
  rcases onModuleInit_cases refusals now configs with ⟨m', hm', hwired, -⟩ | ⟨e, m', hm', -⟩
  · obtain rfl : m' = m := by simpa using hm'.symm.trans h
    exact hwired
  · exact absurd (hm'.symm.trans h) (by simp)

/-- When BullMQ refuses nothing, `onModuleInit` succeeds. -/
theorem onModuleInit_ok (now : Int) (configs : List GatewayConfig) :
    PaymentModule.onModuleInit {} now {} configs =
      (.ok (), (PaymentModule.onModuleInit {} now {} configs).2) := by
  rcases onModuleInit_cases {} now configs with ⟨m, hm, -⟩ | ⟨e, m, -, cfg, -, hrefused⟩
  · rw [hm]
  · rcases hrefused with ⟨name, -, hname⟩ | ⟨p, hp⟩
    · cases hname
    · cases hp

/-! ### Who is served -/

theorem queueName_mem_queuesOf {g g' : String} {p : Priority} :
    queueName g p ∈ queuesOf g' ↔ g = g' := by
  rw [queuesOf, List.mem_append, or_iff_left (queueName_not_special g p), List.mem_map]
  constructor
  · rintro ⟨p', -, hname⟩
    exact (queueName_inj hname).1.symm
  · rintro rfl
    exact ⟨p, by cases p <;> simp [priorities], rfl⟩

/-- The gateways of the table are the ones with queues. -/
theorem Wired.has_queueName (h : Wired now configs m) {g : String} {p : Priority} :
    m.queueManager.manager.has (queueName g p) = true ↔ ∃ cfg ∈ configs, cfg.id = g := by
  rw [h.has]
  simp only [queueName_mem_queuesOf, eq_comm]

theorem Wired.enqueue_iff (h : Wired now configs m) {payment : Payment} {delayMs : Option Int}
    (hd : QueueManager.delayed delayMs = false) :
    (∃ job, m.queueManager.manager.enqueue payment delayMs = .ok job) ↔
      ∃ cfg ∈ configs, cfg.id = payment.gatewayId := by
  rw [← h.has_queueName (p := payment.priority), QueueManager.enqueue, hd]
  cases hhas : m.queueManager.manager.has (queueName payment.gatewayId payment.priority) <;>
    simp [hhas]

/-- What the module keeps for a gateway of the table. -/
theorem Wired.isSome (h : Wired now configs m) (hcfg : cfg ∈ configs) :
    (m.gateways cfg.id).isSome = true ∧ (m.queueManager.limiter cfg.id).isSome = true := by
  rw [h.gateways, h.limiters, Option.isSome_map, Option.isSome_map, List.find?_isSome,
    List.find?_isSome]
  exact ⟨⟨cfg, List.mem_reverse.mpr hcfg, by simp⟩, ⟨cfg, hcfg, by simp⟩⟩

theorem Wired.worker_mem (h : Wired now configs m) (hcfg : cfg ∈ configs) (p : Priority) :
    cfg.worker p ∈ m.queueManager.workers := by
  rw [h.workers]
  refine List.mem_flatMap.mpr ⟨cfg, hcfg, List.mem_map_of_mem ?_⟩
  cases p <;> simp [priorities]

end

/-- **Start-up.** For every table of gateways, whatever names and concurrencies BullMQ refuses:
`onModuleInit` succeeds exactly if BullMQ takes the names of all queues and the concurrencies of
all workers that the table needs, and otherwise fails with the error of one of them. When it has
succeeded the table is wired; `enqueue` hands a payment without delay to BullMQ's `add` exactly
if its gateway is in the table; and what it hands over goes to a queue with a worker for the
priority, and finds the gateway and the rate limiter that `process` looks up. -/
theorem startup_wires (refusals : Refusals) (now : Int) (configs : List GatewayConfig) :
    let started := PaymentModule.onModuleInit refusals now {} configs
    (started.1 = .ok () ↔ ∀ cfg ∈ configs, cfg.Accepted refusals) ∧
    (∀ e, started.1 = .error e → ∃ cfg ∈ configs, cfg.RefusedWith refusals e) ∧
    (started.1 = .ok () → Wired now configs started.2 ∧
      ∀ payment delayMs, QueueManager.delayed delayMs = false →
        ((∃ job, started.2.queueManager.manager.enqueue payment delayMs = .ok job) ↔
          ∃ cfg ∈ configs, cfg.id = payment.gatewayId) ∧
        ∀ job, started.2.queueManager.manager.enqueue payment delayMs = .ok job →
          (∃ cfg ∈ configs, cfg.id = payment.gatewayId ∧
            cfg.worker payment.priority ∈ started.2.queueManager.workers ∧
            (cfg.worker payment.priority).queue = job.queue) ∧
          (started.2.gateways payment.gatewayId).isSome = true ∧
          (started.2.queueManager.limiter payment.gatewayId).isSome = true) := by
  intro started
  rcases onModuleInit_cases refusals now configs with
    ⟨m, hm, hwired, haccepted⟩ | ⟨e, m, hm, cfg, hcfg, hrefused⟩
  · have hstarted : started = (.ok (), m) := hm
    rw [hstarted]
    refine ⟨by simpa using haccepted, by simp, fun _ => ⟨hwired, fun payment delayMs hd => ?_⟩⟩
    refine ⟨hwired.enqueue_iff hd, fun job hjob => ?_⟩
    obtain ⟨cfg, hcfg, hid⟩ := (hwired.enqueue_iff hd).mp ⟨job, hjob⟩
    obtain ⟨-, -, -, ⟨hd', -⟩ | ⟨-, hqueue, -⟩⟩ := QueueManager.enqueue_spec hjob
    · exact absurd (hd.symm.trans hd') (by decide)
    · refine ⟨⟨cfg, hcfg, hid, hwired.worker_mem hcfg _, ?_⟩, hid ▸ hwired.isSome hcfg⟩
      rw [hqueue, ← hid]
      rfl
  · have hstarted : started = (.error e, m) := hm
    rw [hstarted]
    refine ⟨iff_of_false (by simp) fun hall => hrefused.not_accepted (hall cfg hcfg), ?_, by simp⟩
    rintro e' ⟨⟩
    exact ⟨cfg, hcfg, hrefused⟩

/-! ### The payments of one instance -/

/-- The queue from which a worker takes the job of a call. -/
def queueOf {ι : Type} (jobs : ι → Job) (c : ι) : String :=
  queueName (jobs c).data.gatewayId (jobs c).data.priority

/-- How many jobs of a queue its workers process at once. -/
def QueueService.places (s : QueueService) (name : String) : Nat :=
  ((s.workers.filter (·.queue = name)).map (·.concurrency.toNat)).sum

section

variable {configs : List GatewayConfig} {cfg : GatewayConfig} {now : Int} {m : PaymentModule}

/-- The workers on the queue of a gateway and priority. -/
theorem filter_workers (g : String) (p : Priority) :
    (configs.flatMap fun cfg => priorities.map cfg.worker).filter (·.queue = queueName g p) =
      (configs.filter (·.id = g)).map (·.worker p) := by
  have hqueue : ∀ (cfg : GatewayConfig) p', (cfg.worker p').queue = queueName g p ↔
      cfg.id = g ∧ p' = p := by
    intro cfg p'
    refine ⟨queueName_inj, ?_⟩
    rintro ⟨rfl, rfl⟩
    rfl
  induction configs with
  | nil => rfl
  | cons cfg configs ih =>
      rw [List.flatMap_cons, List.filter_append, ih, List.filter_cons]
      by_cases hg : cfg.id = g
      · cases p <;> simp [priorities, hqueue, hg]
      · simp [priorities, hqueue, hg]

/-- An id that is in the table once is that of one entry. -/
theorem filter_id (hid : (configs.map (·.id)).count cfg.id = 1) (hcfg : cfg ∈ configs) :
    configs.filter (·.id = cfg.id) = [cfg] := by
  have hlength : (configs.filter (·.id = cfg.id)).length = 1 := by
    rw [← List.countP_eq_length_filter, ← hid, List.count, List.countP_map]
    apply List.countP_congr
    intro cfg' _
    simp
  have hmem : cfg ∈ configs.filter (·.id = cfg.id) := List.mem_filter.mpr ⟨hcfg, by simp⟩
  obtain ⟨cfg', hcfg'⟩ := List.length_eq_one_iff.mp hlength
  rw [hcfg'] at hmem ⊢
  rw [List.mem_singleton.mp hmem]

/-- The places of a gateway whose id is in the table once. -/
theorem Wired.places (h : Wired now configs m) (hid : (configs.map (·.id)).count cfg.id = 1)
    (hcfg : cfg ∈ configs) (p : Priority) :
    m.queueManager.places (queueName cfg.id p) =
      (workerConcurrency cfg.concurrency p).toNat := by
  rw [QueueService.places, h.workers, filter_workers, filter_id hid hcfg]
  simp [GatewayConfig.worker]

/-- The semaphore of a gateway whose id is in the table once. -/
theorem Wired.semaphore (h : Wired now configs m) (hid : (configs.map (·.id)).count cfg.id = 1)
    (hcfg : cfg ∈ configs) (redis : Redis) :
    (m.world now redis).semaphore cfg.id = some { max := cfg.concurrency } := by
  have hfind : configs.reverse.find? (·.id = cfg.id) = some cfg := by
    rw [← List.head?_filter, List.filter_reverse, filter_id hid hcfg]
    rfl
  have hgateway := h.gateways cfg.id
  rw [hfind] at hgateway
  simp [World.semaphore, PaymentModule.world, hgateway, GatewayConfig.registered]

end

section

variable {ι : Type} [DecidableEq ι] {jobs : ι → Job} {s : State ι} {σ : ι → SlotStage}
variable {g : String} {m n : Nat} {sem : GatewaySemaphore} {q : Slots ι}

/-- The calls that have a slot and those that wait for one are on the gateway and in flight,
so with others that are there they are no more than the gateway has calls in flight. -/
theorem SlotInv.card_add_le (h : SlotInv jobs g m s σ sem q) (hat : AtSlots jobs s σ)
    (halive : ∀ c, s.thread c ≠ .crashed)
    (hn : ∀ cs : Finset ι, (∀ c ∈ cs, OnGateway jobs g c ∧ (s.thread c).inFlight = true) →
      cs.card ≤ n) {cs : Finset ι}
    (hcs : ∀ c ∈ cs, OnGateway jobs g c ∧ (s.thread c).inFlight = true)
    (hout : ∀ c ∈ cs, c ∉ q.inside ∧ c ∉ q.queue) :
    q.inside.card + q.queue.length + cs.card ≤ n := by
  have hsound := h.refines.sound
  have hqueue : q.queue.toFinset.card = q.queue.length := List.toFinset_card_of_nodup hsound.nodup
  have hdisjoint : Disjoint q.inside q.queue.toFinset :=
    Finset.disjoint_left.mpr fun c hin hq => hsound.outside c (List.mem_toFinset.mp hq) hin
  have hdisjoint' : Disjoint (q.inside ∪ q.queue.toFinset) cs := by
    refine Finset.disjoint_left.mpr fun c hc hmem => ?_
    rcases Finset.mem_union.mp hc with hc | hc
    · exact (hout c hmem).1 hc
    · exact (hout c hmem).2 (List.mem_toFinset.mp hc)
  rw [← hqueue, ← Finset.card_union_of_disjoint hdisjoint,
    ← Finset.card_union_of_disjoint hdisjoint']
  refine hn _ fun c hc => ?_
  rcases Finset.mem_union.mp hc with hc | hc
  · rcases Finset.mem_union.mp hc with hin | hq
    · exact ⟨((h.refines.inside c).mp hin).1, (h.inside_goes_on hat (halive c) hin).1⟩
    · obtain ⟨hon, t, -, ht⟩ := h.refines.mem_queue.mp (List.mem_toFinset.mp hq)
      exact ⟨hon, by simp [Thread.inFlight, awaiting_of_ticket hat (halive c) ht]⟩
  · exact hcs c hc

/-- Whoever asks for a slot is neither inside nor in the queue. -/
theorem SlotInv.asker_out (h : SlotInv jobs g m s σ sem q) (hat : AtSlots jobs s σ) {c : ι}
    (hc : (s.thread c).awaiting = some (.semaphoreAcquire g)) :
    OnGateway jobs g c ∧ c ∉ q.inside ∧ c ∉ q.queue := by
  obtain ⟨x, hT⟩ := hat.edge hc none
  have hlocked := hT.of_semaphoreAcquire
  rw [hlocked] at hT
  have hg : g = (jobs c).data.gatewayId := by simpa using hT.of_locked
  exact ⟨hg.symm, h.refines.outside (by rw [hlocked]; rfl) (by rw [hlocked]; rfl)⟩

end

section

variable {ι : Type} [DecidableEq ι] [Fintype ι] {jobs : ι → Job} {s : State ι}
variable {configs : List GatewayConfig} {cfg : GatewayConfig} {now : Int} {m : PaymentModule}
variable {refusals : Refusals} {redis : Redis}

/-- The runs of one instance whose workers do not die: they take no more jobs than they have
places. -/
abbrev staffedRuns (m : PaymentModule) (jobs : ι → Job) : Guard system ι Thrown Unit :=
  fun s a => NoCrash s a ∧ Pooled (queueOf jobs) m.queueManager.places s a

/-- What the workers of a gateway take at once. -/
def GatewayConfig.load (cfg : GatewayConfig) : Int :=
  cfg.concurrency + 2 * ⌈(cfg.concurrency : ℚ) / 2⌉

theorem GatewayConfig.half_nonneg (cfg : GatewayConfig) (hpos : 1 ≤ cfg.concurrency) :
    0 ≤ ⌈(cfg.concurrency : ℚ) / 2⌉ := by
  have hc : (0 : ℚ) ≤ cfg.concurrency := by exact_mod_cast (by omega : 0 ≤ cfg.concurrency)
  exact Int.ceil_nonneg (by positivity)

/-- A gateway has no more calls in flight than its workers take. -/
theorem Wired.card_le_load (h : Wired now configs m) (hid : (configs.map (·.id)).count cfg.id = 1)
    (hcfg : cfg ∈ configs) (hpos : 1 ≤ cfg.concurrency) {G : Guard system ι Thrown Unit}
    (hG : ∀ {s a}, G s a → Pooled (queueOf jobs) m.queueManager.places s a) {w : World}
    (hrun : Run G (processes jobs w) s) {cs : Finset ι}
    (hcs : ∀ c ∈ cs, OnGateway jobs cfg.id c ∧ (s.thread c).inFlight = true) :
    cs.card ≤ cfg.load.toNat := by
  have hpools : ∀ c ∈ cs, queueOf jobs c ∈ priorities.map (queueName cfg.id) ∧
      (s.thread c).inFlight = true := by
    intro c hc
    obtain ⟨hon, hflight⟩ := hcs c hc
    rw [queueOf, show (jobs c).data.gatewayId = cfg.id from hon]
    refine ⟨List.mem_map_of_mem ?_, hflight⟩
    cases (jobs c).data.priority <;> simp [priorities]
  have hle := hrun.card_busy_le hG hpools
  have hhalf := cfg.half_nonneg hpos
  simp only [priorities, List.map_cons, List.map_nil, List.sum_cons, List.sum_nil,
    h.places hid hcfg, workerConcurrency] at hle
  rw [GatewayConfig.load]
  omega

/-- **The queue for a slot.** In every run of the payments of an instance that has started
with a table: of a gateway with slots whose id stands in the table once, no more calls than
slots are inside, and no more than `2 ⌈concurrency / 2⌉` wait. -/
theorem waiting_at_startup
    (hm : PaymentModule.onModuleInit refusals now {} configs = (.ok (), m))
    (hid : (configs.map (·.id)).count cfg.id = 1) (hcfg : cfg ∈ configs)
    (hpos : 1 ≤ cfg.concurrency)
    (h : Run (staffedRuns m jobs) (processes jobs (m.world now redis)) s) :
    ∃ sem, s.world.semaphore cfg.id = some sem ∧ sem.inFlight ≤ cfg.concurrency ∧
      sem.waiters.length ≤ 2 * ⌈(cfg.concurrency : ℚ) / 2⌉ := by
  have hwired := wired_of_ok hm
  obtain ⟨n, hn⟩ := Int.eq_ofNat_of_zero_le (by omega : 0 ≤ cfg.concurrency)
  have hsem := hwired.semaphore hid hcfg redis
  rw [hn] at hsem
  have hrun : Run NoCrash (processes jobs (m.world now redis)) s := h.mono fun _ _ hG => hG.1
  obtain ⟨σ, hat, sem, q, hI⟩ := slotInv_of_run hsem hrun
  have hle : q.inside.card + q.queue.length + (∅ : Finset ι).card ≤ cfg.load.toNat :=
    hI.card_add_le hat (alive_of_run id hrun)
      (fun cs hcs => hwired.card_le_load hid hcfg hpos (fun hG => hG.2) h hcs) (by simp) (by simp)
  have hqueue : sem.waiters.length = q.queue.length := by
    have hlength := congrArg List.length hI.refines.queue
    simpa using hlength.symm
  have hinside := hI.refines.sound.card_le
  refine ⟨sem, hI.semaphore, by rw [hI.refines.inFlight]; omega, ?_⟩
  rw [Finset.card_empty, GatewayConfig.load] at hle
  rw [hqueue]
  by_cases hnil : q.queue = []
  · rw [hnil]
    have hhalf := cfg.half_nonneg hpos
    simpa using hhalf
  · have hfull := hI.refines.sound.full hnil
    omega

/-- The module that has started with `stripe` alone. -/
def withStripe (concurrency : Int) : PaymentModule :=
  (PaymentModule.onModuleInit {} 0 {} [⟨"stripe", concurrency, (100, 50)⟩]).2

/-- The world of its payments, over an empty Redis. -/
def stripeWorld (concurrency : Int) : World := (withStripe concurrency).world 0 fun _ => none

/-- Payment number `n`, with a priority. -/
def inPriority (n : Nat) (p : Priority) : Job := ⟨"job", { numbered n with priority := p }, 0⟩

/-- Payments 0 to 2 in the three priorities, and payment 2 in another priority again. -/
def mixedPriorities (c : Fin 4) : Job :=
  if c = 0 then inPriority 0 .high
  else if c = 1 then inPriority 1 .normal
  else if c = 2 then inPriority 2 .low
  else inPriority 2 .high

/-- On one slot two payments can wait. -/
theorem waiting_at_startup_two : ∃ s,
    Run (staffedRuns (withStripe 1) mixedPriorities) (processes mixedPriorities (stripeWorld 1)) s ∧
    (s.world.semaphore "stripe").map (·.waiters.length) = some 2 ∧
    ∃ sem, s.world.semaphore "stripe" = some sem ∧ sem.inFlight ≤ 1 ∧
      sem.waiters.length ≤ 2 * ⌈((1 : Int) : ℚ) / 2⌉ := by
  have hrun : ∃ s, Run (staffedRuns (withStripe 1) mixedPriorities)
      (processes mixedPriorities (stripeWorld 1)) s ∧
      (s.world.semaphore "stripe").map (·.waiters.length) = some 2 :=
    Run.exists_of_exec (approach 0 ++ [.answer 0 .resolve, .answer 0 .resolve] ++ approach 1 ++
      [.answer 1 .resolve, .answer 1 .resolve] ++ approach 2 ++
      [.answer 2 .resolve, .answer 2 .resolve]) (by decide +kernel)
  obtain ⟨s, h, hwaiters⟩ := hrun
  exact ⟨s, h, hwaiters, waiting_at_startup (onModuleInit_ok 0 [⟨"stripe", 1, (100, 50)⟩])
    (by decide) List.mem_cons_self (by decide) h⟩

/-- With an even number of slots the queue that a call joins is shorter than that. -/
theorem Wired.shortQueue (hwired : Wired now configs m)
    (hid : (configs.map (·.id)).count cfg.id = 1) (hcfg : cfg ∈ configs)
    (hpos : 1 ≤ cfg.concurrency) (heven : Even cfg.concurrency)
    {G : Guard system ι Thrown Unit}
    (hG : ∀ {s a}, G s a → NoCrash s a ∧ Pooled (queueOf jobs) m.queueManager.places s a)
    {w : World} (h : Run G (processes jobs w) s) {σ : ι → SlotStage} (hat : AtSlots jobs s σ)
    {n : Nat} (hn : cfg.concurrency = n) {sem : GatewaySemaphore} {q : Slots ι}
    (hI : SlotInv jobs cfg.id n s σ sem q) (a : Action system ι) : ShortQueue cfg.id s a := by
  match a with
  | .begin _ | .crash _ _ | .move _ => trivial
  | .answer c a =>
      intro hc sem' hsem'
      obtain rfl : sem = sem' := by simpa [hI.semaphore] using hsem'
      obtain ⟨hon, hout⟩ := hI.asker_out hat hc
      have hflight : (s.thread c).inFlight = true := by simp [Thread.inFlight, hc]
      have hle : q.inside.card + q.queue.length + ({c} : Finset ι).card ≤ cfg.load.toNat :=
        hI.card_add_le hat (alive_of_run (fun ha => (hG ha).1) h)
          (fun cs hcs => hwired.card_le_load hid hcfg hpos (fun ha => (hG ha).2) h hcs)
          (by simpa using ⟨hon, hflight⟩) (by simpa using hout)
      have hqueue : sem.waiters.length = q.queue.length := by
        have hlength := congrArg List.length hI.refines.queue
        simpa using hlength.symm
      have hhalf : 2 * ⌈(cfg.concurrency : ℚ) / 2⌉ = cfg.concurrency := by
        obtain ⟨k, hk⟩ := heven
        have hdiv : (cfg.concurrency : ℚ) / 2 = k := by
          rw [hk]
          push_cast
          ring
        rw [hdiv, Int.ceil_intCast]
        omega
      rw [Finset.card_singleton, GatewayConfig.load, hhalf] at hle
      rw [hqueue, hI.refines.max]
      by_cases hnil : q.queue = []
      · rw [hnil]
        simp only [List.length_nil]
        omega
      · have hfull := hI.refines.sound.full hnil
        omega

/-- **Even tables.** If `concurrency` is even, then in every such run in which every saga ends
in less than 120 s and no call is late in going on: at the moment a call through the gateway
invokes `gateway.process`, its lock has not expired. Unless some call has deleted it meanwhile
(`releaseLock` or `storeResult` of the key), it is still in place and no second call has
acquired it. -/
theorem lock_covers_at_startup
    (hm : PaymentModule.onModuleInit refusals now {} configs = (.ok (), m))
    (hid : (configs.map (·.id)).count cfg.id = 1) (hcfg : cfg ∈ configs)
    (hpos : 1 ≤ cfg.concurrency)
    (heven : Even cfg.concurrency)
    (h : Run (fun s a => staffedRuns m jobs s a ∧ Prompt s a ∧ SagasEnd s a)
      (processes jobs (m.world now redis)) s) :
    LockCovers jobs cfg.id s := by
  have hwired := wired_of_ok hm
  obtain ⟨n, hn⟩ := Int.eq_ofNat_of_zero_le (by omega : 0 ≤ cfg.concurrency)
  have hsem := hwired.semaphore hid hcfg redis
  rw [hn] at hsem
  let I (s : State ι) (σ : ι → SlotStage) : Prop :=
    (∃ sem q, CoverInv jobs cfg.id n s σ sem q) ∧ LockCovers jobs cfg.id s
  have hstart : I (processes jobs (m.world now redis)) fun _ => .away :=
    ⟨⟨_, _, .start hsem⟩, fun c _ hc => by simp [processes, Config.start, justCharges] at hc⟩
  obtain ⟨σ, -, -, hcovers⟩ := Run.staged (I := I) (fun c => process_slotted (jobs c)) hstart
    (fun hrun hat hI hG hT hat' => by
      obtain ⟨⟨sem, q, hcover⟩, -⟩ := hI
      have halive := alive_of_run (fun ha => ha.1.1) hrun
      have hshort := hwired.shortQueue hid hcfg hpos heven (fun ha => ha.1) hrun hat hn
        hcover.slots
      exact CoverInv.step halive hat ⟨sem, q, hcover⟩ ⟨hG.1.1, hG.2.1, hG.2.2, hshort _⟩ hT hat')
    h
  exact hcovers

end

/-- On two slots, a third payment waits for 119 s and is charged under its lock. -/
theorem lock_covers_at_startup_second : ∃ s,
    Run (fun s a => staffedRuns (withStripe 2) mixedPriorities s a ∧ Prompt s a ∧ SagasEnd s a)
      (processes mixedPriorities (stripeWorld 2)) s ∧
    justCharges s 2 = true ∧ lockAge 2 s.log = 119000 ∧
    LockCovers mixedPriorities "stripe" s := by
  have hrun : ∃ s,
      Run (fun s a => staffedRuns (withStripe 2) mixedPriorities s a ∧ Prompt s a ∧ SagasEnd s a)
        (processes mixedPriorities (stripeWorld 2)) s ∧
      justCharges s 2 = true ∧ lockAge 2 s.log = 119000 :=
    Run.exists_of_exec (approach 0 ++ [.answer 0 .resolve, .answer 0 .resolve] ++ approach 1 ++
      [.answer 1 .resolve, .answer 1 .resolve] ++ approach 2 ++
      [.answer 2 .resolve, .answer 2 .resolve, .move (.tick 119000)] ++ finishSaga 0 ++
      [.answer 2 .resolve]) (by decide +kernel)
  obtain ⟨s, h, hcharges, hage⟩ := hrun
  exact ⟨s, h, hcharges, hage, lock_covers_at_startup
    (onModuleInit_ok 0 [⟨"stripe", 2, (100, 50)⟩]) (by decide) List.mem_cons_self (by decide)
    (by decide) h⟩

/-- With a single slot, an odd number, one call more can wait: the lock of the second in the
queue has expired when it is its turn, and a call for the same payment has acquired it. -/
theorem odd_outwaited : ∃ s,
    Run (fun s a => staffedRuns (withStripe 1) mixedPriorities s a ∧ Prompt s a ∧ SagasEnd s a)
      (processes mixedPriorities (stripeWorld 1)) s ∧
    justCharges s 2 = true ∧ lockTtlMs ≤ lockAge 2 s.log ∧
    ¬ LockCovers mixedPriorities "stripe" s :=
  Run.exists_of_exec (approach 0 ++ [.answer 0 .resolve, .answer 0 .resolve] ++ approach 1 ++
    [.answer 1 .resolve, .answer 1 .resolve] ++ approach 2 ++
    [.answer 2 .resolve, .answer 2 .resolve, .move (.tick 119000)] ++ finishSaga 0 ++
    [.answer 1 .resolve, .move (.tick 1000), .move (.expire "idem:lock:idem_2")] ++
    approach 3 ++ [.answer 3 .resolve, .answer 3 .resolve, .move (.tick 118000)] ++
    finishSaga 1 ++ [.answer 2 .resolve]) (by decide +kernel)

end PaymentQueue
