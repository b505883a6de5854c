import PaymentQueue.Saga

/-!
# PaymentQueue.Processor

`PaymentProcessorService` of `payment/payment-processor.service.ts`, with the
`QueueManagerService.moveToDeadLetter` it calls, as asynchronous programs.

`Op` lists everything a `process` call does outside its own control flow: reading
the registries, the gateway's breaker, token bucket and semaphore, Redis, the
payment repository, the gateway, the event emitter, the dead-letter queue and the
environment. `Op.Ret` is what each answers with; what can reject answers with an
`Except`. The programs below are the source's methods line by line, and say nothing
about how the operations answer.

Log lines are left out, and so is the tracing of `withSpan`, which runs its body and
passes on its outcome, unless that is a thrown `null` or `undefined`
(`PaymentQueue.Tracing` puts it back).
-/

namespace PaymentQueue

open Async

/-- The domain events of the `EventEmitter2` bus. -/
inductive DomainEvent
  /-- `payment.started`. -/
  | started (jobId gatewayId : String)
  /-- `payment.status_changed`. -/
  | statusChanged (paymentId : String) (status : PaymentStatus)
      (failureReason : Option String) (correlationId : String)
  /-- `payment.notify`. -/
  | notify (paymentId : String)
  /-- `payment.dead_letter`. -/
  | deadLetter (paymentId : String) (reason : Option String)
  deriving DecidableEq, Repr

/-- What a `process` call asks of everything around it. -/
inductive Op
  /-- `breakers.get`, `semaphores.get` and `gateways.get`: are all there? -/
  | lookupGateway (gatewayId : String)
  /-- `rateLimiters.get`: is there one? -/
  | lookupRateLimiter (gatewayId : String)
  | canAttempt (gatewayId : String)
  | recordSuccess (gatewayId : String)
  | recordFailure (gatewayId : String)
  | tryConsume (gatewayId : String)
  | msUntilAvailable (gatewayId : String)
  | emit (e : DomainEvent)
  | getResult (key : String)
  | acquireLock (key : String)
  | releaseLock (key : String)
  | hasLock (key : String)
  | storeResult (key : String) (result : GatewayResponse)
  | getStatus (paymentId : String)
  | upsertStatus (paymentId : String) (record : PaymentRecord)
  /-- `GatewaySemaphore.acquire`: a slot at once, or a place in the queue. -/
  | semaphoreAcquire (gatewayId : String)
  /-- The promise `acquire` returned to a waiter. -/
  | semaphoreGranted (gatewayId : String) (ticket : Nat)
  | semaphoreRelease (gatewayId : String)
  /-- `gateway.process`. -/
  | gatewayProcess (payment : Payment)
  /-- `gateway.getStatus`. -/
  | gatewayGetStatus (gatewayId : String) (transactionId : String)
  /-- The gateway call that `voidAuthorization` stands for. -/
  | voidAuthorization (transactionId : Option String)
  /-- The gateway call that `refund` stands for. -/
  | refund (transactionId : Option String)
  /-- `process.env.SAGA_FAIL_STEP`. -/
  | sagaFailStep
  /-- `add` on the dead-letter queue. -/
  | deadLetterAdd (payment : Payment) (jobId : String)
  deriving DecidableEq, Repr

/-- What each operation answers with. -/
@[reducible] def Op.Ret : Op → Type
  | lookupGateway _ | lookupRateLimiter _ | canAttempt _ | tryConsume _ => Bool
  | recordSuccess _ | recordFailure _ => Unit
  | msUntilAvailable _ => Int
  | emit _ => Except Thrown Unit
  | getResult _ => Except Thrown (Option GatewayResponse)
  | acquireLock _ | hasLock _ => Except Thrown Bool
  | releaseLock _ | storeResult _ _ => Except Thrown Unit
  | getStatus _ => Except Thrown (Option PaymentRecord)
  | upsertStatus _ _ => Except Thrown Unit
  | semaphoreAcquire _ => Option Nat
  | semaphoreGranted _ _ | semaphoreRelease _ => Unit
  | gatewayProcess _ => Except Thrown GatewayResponse
  | gatewayGetStatus _ _ => Except Thrown GatewayStatus
  | voidAuthorization _ | refund _ => Unit
  | sagaFailStep => Option String
  | deadLetterAdd _ _ => Except Thrown Unit

/-- The operations of a `process` call, as a signature. -/
abbrev effects : Signature := ⟨Op, Op.Ret⟩

/-- A program of the service. -/
abbrev Proc := Program effects Thrown

/-- Perform one operation. -/
abbrev perform (o : Op) : Proc o.Ret := Program.perform (S := effects) o

/-- `await` of a promise: go on with its value, or throw what it rejected with. -/
def awaited {α : Type} (p : Proc (Except Thrown α)) : Proc α := p >>= .ofExcept

/-- `Job<Payment>`, as far as the processor reads it. -/
structure Job where
  id : String
  data : Payment
  /-- The number of earlier attempts of the job. -/
  attemptsMade : Nat

/-- `finalize`. -/
def finalize (payment : Payment) (status : PaymentStatus)
    (failureReason : Option String) : Proc Unit :=
  awaited (perform (.emit
    (.statusChanged payment.id status failureReason payment.correlationId)))

/-- `QueueManagerService.moveToDeadLetter`. -/
def moveToDeadLetter (payment : Payment) (reason : Option String) : Proc Unit := do
  awaited (perform (.deadLetterAdd { payment with failureReason := reason }
    ("dlq:" ++ payment.idempotencyKey)))
  awaited (perform (.emit (.deadLetter payment.id reason)))

/-- The error `throwInjectedSagaFailure` throws. -/
def injectedSagaFailure (step : String) : Thrown :=
  .classified s!"Injected saga failure at {step} step" .transient none

/-- `throwInjectedSagaFailure`. -/
def throwInjectedSagaFailure (step : String) : Proc Unit := do
  let failStep ← perform .sagaFailStep
  if failStep ≠ some step then pure () else .throw (injectedSagaFailure step)

/-- The error for a gateway response without success. `classifyFailure` is given the
message string itself, or `undefined`. -/
def authorizationFailure (res : GatewayResponse) : Thrown :=
  let reason : Thrown := match res.message with
    | some m => .other m none
    | none => .undefined
  .classified (res.message.getD "authorization failed") (classifyFailure reason) none

/-- The `authorize` dependency of `runSaga`. -/
def authorize (payment : Payment) : Proc String := do
  let res ← awaited (perform (.gatewayProcess payment))
  if res.success then pure res.transactionId else .throw (authorizationFailure res)

/-- The `writeLedgerEntry` dependency of `runSaga`: the record, then, the moment
money movement is durable, the result and with it the release of the lock. -/
def writeLedgerEntry (payment : Payment) (ctx : PaymentSagaContext) : Proc String := do
  throwInjectedSagaFailure "ledger"
  awaited (perform (.upsertStatus payment.id
    { status := .completed, gatewayTransactionId := ctx.gatewayTransactionId }))
  awaited (perform (.storeResult payment.idempotencyKey
    { success := true
      transactionId := ctx.gatewayTransactionId.getD ""
      gatewayId := payment.gatewayId }))
  pure s!"ledger_{ctx.paymentId}"

/-- The dependencies `runSaga` hands to `buildPaymentSagaSteps`. -/
def sagaDeps (payment : Payment) : PaymentSagaDeps effects where
  authorize _ := authorize payment
  voidAuthorization ctx := perform (.voidAuthorization ctx.gatewayTransactionId)
  capture _ := throwInjectedSagaFailure "capture"
  refund ctx := perform (.refund ctx.gatewayTransactionId)
  writeLedgerEntry ctx := writeLedgerEntry payment ctx
  reverseLedgerEntry _ :=
    awaited (perform (.upsertStatus payment.id { status := .compensated }))
  notifyCustomer ctx := do
    throwInjectedSagaFailure "notify"
    awaited (perform (.emit (.notify ctx.paymentId)))

/-- `runSaga`. -/
def runSaga (payment : Payment) : Proc Unit := do
  let _ ← PaymentSaga.run (buildPaymentSagaSteps (sagaDeps payment))
    { paymentId := payment.id, correlationId := payment.correlationId }
  finalize payment .completed none

/-- `reconcile`. -/
def reconcile (payment : Payment) : Proc Unit := do
  let stillLocked ← awaited (perform (.hasLock payment.idempotencyKey))
  if !stillLocked then pure ()
  else
    Program.tryCatch
      (do
        let status ← awaited (perform
          (.gatewayGetStatus payment.gatewayId payment.idempotencyKey))
        if status.status = .settled then do
          awaited (perform (.storeResult payment.idempotencyKey
            { success := true
              transactionId := status.transactionId
              gatewayId := payment.gatewayId }))
          finalize payment .completed none
        else pure ())
      -- gateway lookup failed: let this attempt retry later rather than guess
      (fun _ => pure ())

/-- `semaphore.acquire`. -/
def acquireSlot (gatewayId : String) : Proc Unit := do
  match ← perform (.semaphoreAcquire gatewayId) with
  | none => pure ()
  | some ticket => perform (.semaphoreGranted gatewayId ticket)

/-- The body of the `try` of `process`: the saga, in a slot of the gateway. -/
def sagaInSlot (payment : Payment) : Proc Unit := do
  acquireSlot payment.gatewayId
  Program.tryFinally
    (do
      runSaga payment
      perform (.recordSuccess payment.gatewayId))
    (perform (.semaphoreRelease payment.gatewayId))

/-- The `catch` of `process`. -/
def onSagaFailure (job : Job) (err : Thrown) : Proc Unit := do
  let payment := job.data
  perform (.recordFailure payment.gatewayId)
  if classifyFailure err = .permanent then do
    finalize payment .failed (← readMessage err)
    moveToDeadLetter payment (← readMessage err)
    awaited (perform (.releaseLock payment.idempotencyKey))
  else do
    awaited (perform (.releaseLock payment.idempotencyKey))
    if (job.attemptsMade : Int) + 1 ≥ payment.maxRetries then do
      finalize payment .failed (← readMessage err)
      let message := (← readMessage err).getD "undefined"
      moveToDeadLetter payment (some s!"exhausted retries: {message}")
    else .throw err

/-- `process` behind its two gates: the idempotency checks, the lock, the saga. -/
def processAdmitted (job : Job) : Proc Unit := do
  let payment := job.data
  awaited (perform (.emit (.started job.id payment.gatewayId)))
  let cached ← awaited (perform (.getResult payment.idempotencyKey))
  if cached.isSome then do
    finalize payment .completed none
    perform (.recordSuccess payment.gatewayId)
  else
    let dbRecord ← awaited (perform (.getStatus payment.id))
    if dbRecord.map (·.status) = some .completed then do
      awaited (perform (.storeResult payment.idempotencyKey
        { success := true
          transactionId := (dbRecord.bind (·.gatewayTransactionId)).getD "unknown"
          gatewayId := payment.gatewayId }))
      finalize payment .completed none
      perform (.recordSuccess payment.gatewayId)
    else
      let locked ← awaited (perform (.acquireLock payment.idempotencyKey))
      if !locked then reconcile payment
      else Program.tryCatch (sagaInSlot payment) (onSagaFailure job)

/-- `process`. -/
def process (job : Job) : Proc Unit := do
  let payment := job.data
  let registered ← perform (.lookupGateway payment.gatewayId)
  let limited ← perform (.lookupRateLimiter payment.gatewayId)
  if !limited then .throw (.error s!"No rate limiter for gateway \"{payment.gatewayId}\"")
  else if !registered then
    .throw (.error s!"Gateway \"{payment.gatewayId}\" is not registered")
  else
    let admitted ← perform (.canAttempt payment.gatewayId)
    if !admitted then
      .throw (.classified s!"Circuit open for gateway {payment.gatewayId}" .transient none)
    else
      let allowed ← perform (.tryConsume payment.gatewayId)
      if !allowed then do
        let waitMs ← perform (.msUntilAvailable payment.gatewayId)
        .throw (.classified
          s!"Rate limited on gateway {payment.gatewayId}, retry in {waitMs}ms"
          .rateLimited none)
      else processAdmitted job

end PaymentQueue
