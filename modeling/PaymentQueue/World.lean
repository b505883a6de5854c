import PaymentQueue.Async.History
import PaymentQueue.CircuitBreaker
import PaymentQueue.Idempotency
import PaymentQueue.Processor
import PaymentQueue.TokenBucket

/-!
# PaymentQueue.World

The world the `process` calls share, and what their operations do in it.

`World` puts together the state the operations reach: the clock, Redis, the
in-memory payment repository, for every registered gateway its circuit breaker and
semaphore, the token buckets, and the dead-letter queue. `World.perform` answers an
operation from that state. What lies outside (the gateway, listeners of events, the
environment variable, a store that is down) is decided by the `Answer`; a rejected
call has no effect.

`Standing` is the abstract view of one payment: is its lock held, which result is
cached, which record does the repository hold. `World.standing_perform` says once
what any operation does to it.
-/

namespace PaymentQueue

open Async

/-- `GatewaySemaphore`. A waiter is known by its ticket. -/
structure GatewaySemaphore where
  max : Int
  inFlight : Int := 0
  waiters : List Nat := []
  nextTicket : Nat := 0

namespace GatewaySemaphore

variable (s : GatewaySemaphore)

/-- `acquire`: a slot at once (`none`), or a ticket in the queue. -/
def acquire : Option Nat × GatewaySemaphore :=
  if s.inFlight < s.max then (none, { s with inFlight := s.inFlight + 1 })
  else
    (some s.nextTicket,
      { s with waiters := s.waiters ++ [s.nextTicket], nextTicket := s.nextTicket + 1 })

/-- `release`: give the slot up and hand it to the first waiter. -/
def release : GatewaySemaphore :=
  let s := { s with inFlight := s.inFlight - 1 }
  match s.waiters with
  | [] => s
  | _ :: rest => { s with waiters := rest, inFlight := s.inFlight + 1 }

end GatewaySemaphore

/-- What `registerGateway` of the processor keeps for a gateway. -/
structure RegisteredGateway where
  breaker : CircuitBreaker
  semaphore : GatewaySemaphore

/-- Everything the calls share. -/
structure World where
  /-- `Date.now()`, in milliseconds. -/
  now : Int
  redis : Redis
  /-- `InMemoryPaymentRepository.store`. -/
  records : String → Option PaymentRecord
  gateways : String → Option RegisteredGateway
  rateLimiters : String → Option TokenBucket
  /-- The jobs of the dead-letter queue by job id, latest first. -/
  deadLetters : List (String × Payment)

/-- What the environment decides about an operation. -/
inductive Answer
  /-- It takes effect and answers from the state of the world. -/
  | resolve
  /-- It rejects, without effect. -/
  | reject (e : Thrown)
  /-- `gateway.process` resolves. -/
  | response (r : GatewayResponse)
  /-- `gateway.getStatus` resolves. -/
  | status (s : GatewayStatus)
  /-- The value of the environment variable. -/
  | env (v : Option String)
  deriving DecidableEq, Repr

/-- What the world does on its own. -/
inductive Move
  /-- Time passes. -/
  | tick (ms : Nat)
  /-- Redis drops a key whose TTL has run out. -/
  | expire (key : String)
  deriving DecidableEq, Repr

namespace World

variable (w : World)

/-- The callback `registerGateway` gives a breaker: a trip shrinks the gateway's
token bucket, recovery resets it. It first emits `circuit_breaker.state_change`, which is
left out: no listener of that event is taken to throw. -/
def onStateChange (gatewayId : String) (target : CircuitState) : World :=
  match target with
  | .open =>
      { w with rateLimiters := Function.update w.rateLimiters gatewayId
                 ((w.rateLimiters gatewayId).map (·.adapt 1)) }
  | .closed =>
      { w with rateLimiters := Function.update w.rateLimiters gatewayId
                 ((w.rateLimiters gatewayId).map (·.reset)) }
  | .halfOpen => w

/-- Replace a gateway's breaker, with the callback if its state has changed. -/
def setBreaker (gatewayId : String) (gw : RegisteredGateway) (b : CircuitBreaker) :
    World :=
  let w := { w with gateways :=
               Function.update w.gateways gatewayId (some { gw with breaker := b }) }
  if gw.breaker.state = b.state then w else w.onStateChange gatewayId b.state

/-- Replace a gateway's semaphore. -/
def setSemaphore (gatewayId : String) (gw : RegisteredGateway) (s : GatewaySemaphore) :
    World :=
  { w with gateways :=
      Function.update w.gateways gatewayId (some { gw with semaphore := s }) }

/-- Replace a gateway's token bucket. -/
def setBucket (gatewayId : String) (t : TokenBucket) : World :=
  { w with rateLimiters := Function.update w.rateLimiters gatewayId (some t) }

open IdempotencyService in
/-- Answer one operation, if the environment's decision is one it can take. -/
def perform : (o : Op) → Answer → Option (o.Ret × World)
  | .lookupGateway g, .resolve => some ((w.gateways g).isSome, w)
  | .lookupRateLimiter g, .resolve => some ((w.rateLimiters g).isSome, w)
  | .canAttempt g, .resolve =>
      (w.gateways g).map fun gw =>
        let res := gw.breaker.canAttempt w.now
        (res.1, w.setBreaker g gw res.2)
  | .recordSuccess g, .resolve =>
      (w.gateways g).map fun gw => ((), w.setBreaker g gw gw.breaker.recordSuccess)
  | .recordFailure g, .resolve =>
      (w.gateways g).map fun gw =>
        ((), w.setBreaker g gw (gw.breaker.recordFailure w.now))
  | .tryConsume g, .resolve =>
      (w.rateLimiters g).map fun t =>
        let res := t.tryConsume w.now
        (res.1, w.setBucket g res.2)
  | .msUntilAvailable g, .resolve =>
      (w.rateLimiters g).map fun t =>
        let res := t.msUntilAvailable w.now
        (res.1, w.setBucket g res.2)
  | .emit _, .resolve => some (.ok (), w)
  | .emit _, .reject e => some (.error e, w)
  | .getResult key, .resolve => some (.ok (getResult w.redis key), w)
  | .getResult _, .reject e => some (.error e, w)
  | .acquireLock key, .resolve =>
      let res := acquireLock w.redis w.now key
      some (.ok res.1, { w with redis := res.2 })
  | .acquireLock _, .reject e => some (.error e, w)
  | .releaseLock key, .resolve =>
      some (.ok (), { w with redis := releaseLock w.redis key })
  | .releaseLock _, .reject e => some (.error e, w)
  | .hasLock key, .resolve => some (.ok (hasLock w.redis key), w)
  | .hasLock _, .reject e => some (.error e, w)
  | .storeResult key v, .resolve =>
      some (.ok (), { w with redis := storeResult w.redis w.now key v })
  | .storeResult _ _, .reject e => some (.error e, w)
  | .getStatus id, .resolve => some (.ok (w.records id), w)
  | .getStatus _, .reject e => some (.error e, w)
  | .upsertStatus id record, .resolve =>
      some (.ok (), { w with records := Function.update w.records id (some record) })
  | .upsertStatus _ _, .reject e => some (.error e, w)
  | .semaphoreAcquire g, .resolve =>
      (w.gateways g).map fun gw =>
        let res := gw.semaphore.acquire
        (res.1, w.setSemaphore g gw res.2)
  | .semaphoreGranted g ticket, .resolve =>
      -- the promise is pending as long as the ticket waits
      (w.gateways g).bind fun gw =>
        if ticket ∈ gw.semaphore.waiters then none else some ((), w)
  | .semaphoreRelease g, .resolve =>
      (w.gateways g).map fun gw => ((), w.setSemaphore g gw gw.semaphore.release)
  | .gatewayProcess _, .response r => some (.ok r, w)
  | .gatewayProcess _, .reject e => some (.error e, w)
  | .gatewayGetStatus _ _, .status s => some (.ok s, w)
  | .gatewayGetStatus _ _, .reject e => some (.error e, w)
  | .voidAuthorization _, .resolve => some ((), w)
  | .refund _, .resolve => some ((), w)
  | .sagaFailStep, .env v => some (v, w)
  | .deadLetterAdd payment jobId, .resolve =>
      some (.ok (), { w with deadLetters := (jobId, payment) :: w.deadLetters })
  | .deadLetterAdd _ _, .reject e => some (.error e, w)
  | _, _ => none

/-- What the world does on its own, if it can. -/
def move : Move → Option World
  | .tick ms => some { w with now := w.now + ms }
  | .expire key => (w.redis.expire w.now key).map fun r => { w with redis := r }

/-- Before any gateway is registered, with empty stores. -/
def empty (now : Int) : World where
  now := now
  redis := fun _ => none
  records := fun _ => none
  gateways := fun _ => none
  rateLimiters := fun _ => none
  deadLetters := []

/-- `registerGateway` of the queue manager and of the processor, one after the other as
the module wires a gateway. The rate limiter of a known gateway is kept. -/
def registerGateway (gatewayId : String) (concurrency : Int)
    (capacity perSecond : ℚ) : World :=
  { w with
    rateLimiters := Function.update w.rateLimiters gatewayId
      ((w.rateLimiters gatewayId).or (some (.new w.now capacity perSecond)))
    gateways := Function.update w.gateways gatewayId
      (some { breaker := {}, semaphore := { max := concurrency } }) }

end World

/-- The operations of a `process` call, answered by the world. -/
abbrev system : Machine effects where
  World := World
  Answer := Answer
  Move := Move
  perform := World.perform
  move := World.move

/-! ### The standing of one payment -/

/-- Where a payment stands in the shared stores. -/
structure Standing where
  /-- Its idempotency lock is held. -/
  locked : Bool
  /-- The result cached for its idempotency key. -/
  result : Option GatewayResponse
  /-- Its record in the repository. -/
  record : Option PaymentRecord

/-- The repository says the payment is completed. -/
def Standing.recordedCompleted (t : Standing) : Prop :=
  t.record.map (·.status) = some .completed

/-- The standing of `p` in a world. -/
def World.standing (w : World) (p : Payment) : Standing where
  locked := IdempotencyService.hasLock w.redis p.idempotencyKey
  result := IdempotencyService.getResult w.redis p.idempotencyKey
  record := w.records p.id

/-- The operation concerns no other payment than `p`. -/
def Op.Concerns (p : Payment) : Op → Prop
  | getResult key | acquireLock key | releaseLock key | hasLock key
  | storeResult key _ => key = p.idempotencyKey
  | getStatus id | upsertStatus id _ => id = p.id
  | _ => True

/-- What an operation on a payment, with the answer it received, does to the
payment's standing. -/
def Standing.Step (t : Standing) : (o : Op) → o.Ret → Standing → Prop
  | .getResult _, .ok v, t' => v = t.result ∧ t' = t
  | .acquireLock _, .ok b, t' => b = (!t.locked) ∧ t' = { t with locked := true }
  | .releaseLock _, .ok _, t' => t' = { t with locked := false }
  | .hasLock _, .ok b, t' => b = t.locked ∧ t' = t
  | .storeResult _ v, .ok _, t' => t' = { t with locked := false, result := some v }
  | .getStatus _, .ok v, t' => v = t.record ∧ t' = t
  | .upsertStatus _ record, .ok _, t' => t' = { t with record := some record }
  | _, _, t' => t' = t

/-- The operation may change what Redis holds. -/
def Op.writesRedis : Op → Bool
  | acquireLock _ | releaseLock _ | storeResult _ _ => true
  | _ => false

/-- The operation may change what the repository holds. -/
def Op.writesRecords : Op → Bool
  | upsertStatus _ _ => true
  | _ => false

/-- The operation may change the breaker or the semaphore of a gateway. -/
def Op.onGateway : Op → Bool
  | canAttempt _ | recordSuccess _ | recordFailure _ | semaphoreAcquire _
  | semaphoreRelease _ => true
  | _ => false

namespace World

variable {w w' : World} {p : Payment}

@[simp] theorem now_setBreaker {g : String} {gw : RegisteredGateway}
    {b : CircuitBreaker} : (w.setBreaker g gw b).now = w.now := by
  unfold setBreaker onStateChange
  split
  · rfl
  · split <;> rfl

@[simp] theorem redis_setBreaker {g : String} {gw : RegisteredGateway}
    {b : CircuitBreaker} : (w.setBreaker g gw b).redis = w.redis := by
  unfold setBreaker onStateChange
  split
  · rfl
  · split <;> rfl

@[simp] theorem records_setBreaker {g : String} {gw : RegisteredGateway}
    {b : CircuitBreaker} : (w.setBreaker g gw b).records = w.records := by
  unfold setBreaker onStateChange
  split
  · rfl
  · split <;> rfl

@[simp] theorem standing_setBreaker {g : String} {gw : RegisteredGateway}
    {b : CircuitBreaker} : (w.setBreaker g gw b).standing p = w.standing p := by
  simp [standing]

@[simp] theorem standing_setSemaphore {g : String} {gw : RegisteredGateway}
    {s : GatewaySemaphore} : (w.setSemaphore g gw s).standing p = w.standing p := rfl

@[simp] theorem standing_setBucket {g : String} {t : TokenBucket} :
    (w.setBucket g t).standing p = w.standing p := rfl

/-- What expires under other keys does not concern the payment. -/
theorem standing_expire {key : String} (h : w.move (.expire key) = some w')
    (hl : key ≠ IdempotencyService.lockKey p.idempotencyKey)
    (hr : key ≠ IdempotencyService.resultKey p.idempotencyKey) :
    w'.standing p = w.standing p := by
  simp only [move, Option.map_eq_some_iff, Redis.expire] at h
  obtain ⟨redis, hredis, rfl⟩ := h
  split at hredis
  · split at hredis
    · obtain rfl := Option.some.inj hredis
      simp [standing, IdempotencyService.hasLock, IdempotencyService.getResult, Redis.del,
        hl.symm, hr.symm]
    · exact absurd hredis (by simp)
  · exact absurd hredis (by simp)

/-- What an operation leaves as it is. -/
structure Frame (o : Op) (w w' : World) : Prop where
  now : w'.now = w.now
  redis : o.writesRedis = false → w'.redis = w.redis
  records : o.writesRecords = false → w'.records = w.records
  gateways : o.onGateway = false → w'.gateways = w.gateways

theorem perform_frame {o : Op} {a : Answer} {r : o.Ret}
    (h : w.perform o a = some (r, w')) : Frame o w w' := by
  cases o with
  | canAttempt g | recordSuccess g | recordFailure g =>
      cases a <;> simp only [perform, reduceCtorEq, Option.map_eq_some_iff,
        Prod.mk.injEq] at h
      obtain ⟨gw, -, -, rfl⟩ := h
      exact ⟨now_setBreaker, fun _ => redis_setBreaker, fun _ => records_setBreaker,
        fun hg => absurd hg (by simp [Op.onGateway])⟩
  | semaphoreAcquire g | semaphoreRelease g =>
      cases a <;> simp only [perform, reduceCtorEq, Option.map_eq_some_iff,
        Prod.mk.injEq] at h
      obtain ⟨gw, -, -, rfl⟩ := h
      exact ⟨rfl, fun _ => rfl, fun _ => rfl, fun hg => absurd hg (by simp [Op.onGateway])⟩
  | tryConsume g | msUntilAvailable g =>
      cases a <;> simp only [perform, reduceCtorEq, Option.map_eq_some_iff,
        Prod.mk.injEq] at h
      obtain ⟨t, -, -, rfl⟩ := h
      exact ⟨rfl, fun _ => rfl, fun _ => rfl, fun _ => rfl⟩
  | semaphoreGranted g ticket =>
      cases a <;> simp only [perform, reduceCtorEq, Option.bind_eq_some_iff] at h
      obtain ⟨gw, -, h⟩ := h
      split at h
      · exact absurd h (by simp)
      · obtain ⟨-, rfl⟩ : () = r ∧ w = w' := by simpa using h
        exact ⟨rfl, fun _ => rfl, fun _ => rfl, fun _ => rfl⟩
  | acquireLock key | releaseLock key | storeResult key v | upsertStatus id record =>
      cases a <;> simp only [perform, reduceCtorEq, Option.some.injEq, Prod.mk.injEq] at h
      all_goals
        obtain ⟨-, rfl⟩ := h
        exact ⟨rfl, by simp [Op.writesRedis], by simp [Op.writesRecords], fun _ => rfl⟩
  | _ =>
      cases a <;> simp only [perform, reduceCtorEq, Option.some.injEq, Prod.mk.injEq] at h
      all_goals
        obtain ⟨-, rfl⟩ := h
        exact ⟨rfl, fun _ => rfl, fun _ => rfl, fun _ => rfl⟩

/-- Of its own the world changes no more than its time and what Redis holds. -/
theorem move_frame {m : Move} (h : w.move m = some w') :
    ∃ now redis, w.now ≤ now ∧ w' = { w with now := now, redis := redis } := by
  cases m with
  | tick ms =>
      obtain rfl := Option.some.inj h
      exact ⟨_, _, by simp, rfl⟩
  | expire key =>
      obtain ⟨redis, -, rfl⟩ := Option.map_eq_some_iff.mp h
      exact ⟨_, redis, le_rfl, rfl⟩

/-- The world refines the standing of a payment: whatever an operation on it
answers, its standing moves accordingly. -/
theorem standing_perform {o : Op} {a : Answer} {r : o.Ret}
    (hp : o.Concerns p) (h : w.perform o a = some (r, w')) :
    (w.standing p).Step o r (w'.standing p) := by
  cases o with
  | getResult key | acquireLock key | releaseLock key | hasLock key | storeResult key v
  | getStatus id | upsertStatus id record =>
      subst hp
      cases a <;> simp only [perform, reduceCtorEq, Option.some.injEq, Prod.mk.injEq] at h
      all_goals
        obtain ⟨rfl, rfl⟩ := h
        simp [Standing.Step, standing]
  | _ =>
      -- Redis and the repository are left alone
      have hframe := perform_frame h
      have hsame : w'.standing p = w.standing p := by
        simp [standing, hframe.redis rfl, hframe.records rfl]
      exact hsame

end World

end PaymentQueue
