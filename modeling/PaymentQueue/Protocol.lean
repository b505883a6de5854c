import PaymentQueue.World

/-!
# PaymentQueue.Protocol

The **control automaton of a `process` call**: at which stage a call can be, which
operation it awaits there, and where each answer takes it.

`Stage.Edge` is the abstract model of one call, with one constructor per edge; it
forgets contexts, messages and error handling blocks and keeps what other calls and
the payment's stores can notice. `process_follows` connects it to the code: every
`process` call follows it, whatever the answers. Properties of all interleavings are
then proved about stages (`Run.staged`), properties of one call about paths
(`Follows.path`).
-/

namespace PaymentQueue

open Async

/-- A compensation that is still to be run. -/
inductive Undo
  | reverseLedger
  | refund
  | voidAuthorization
  deriving DecidableEq, Repr

/-- Where a `process` call stands. -/
inductive Stage
  /-- Before the registries are read. -/
  | entering
  /-- The processor's registries have been read. -/
  | lookedUp (registered : Bool)
  /-- Before the breaker gate. -/
  | gated
  /-- Turned away at the registries or by the breaker: about to throw. -/
  | refused
  /-- Admitted by the breaker. -/
  | admitted
  /-- Through the rate-limit gate. -/
  | allowed
  /-- About to look for a cached result. -/
  | checking
  /-- No cached result. -/
  | missed
  /-- Neither a cached result nor a completed record. -/
  | clear
  /-- A completed record, about to be written back to Redis. -/
  | backfilling
  /-- Known to be completed, about to say so. -/
  | reporting
  /-- Reported completed without a saga. -/
  | reported
  /-- Admitted, but turned away by a gate or a lookup: about to throw. -/
  | turnedAway
  /-- The lock is another's. -/
  | contending
  /-- The lock is still another's: about to ask the gateway. -/
  | asking
  /-- The gateway says the charge is settled. -/
  | settled
  /-- The settled charge is cached, about to be reported. -/
  | reconciled
  /-- The reconciliation came to nothing: about to return. -/
  | dropped
  /-- Lock acquired, the gateway not yet asked. -/
  | locked
  /-- The gateway has accepted the charge. -/
  | authorized
  | captured
  /-- About to write the record. -/
  | posting
  /-- The record is written. -/
  | written
  /-- The result is cached and the lock released with it. -/
  | stored
  /-- About to notify the customer. -/
  | notifying
  /-- The saga is complete. -/
  | notified
  /-- Reported completed by the saga's own call. -/
  | succeeded
  /-- Success recorded, the slot still taken. -/
  | recorded
  /-- The saga failed with `err`; `todo` is still to be compensated. `kept` tells
  whether the lock is still the one this call acquired. -/
  | unwinding (todo : List Undo) (err : Thrown) (kept : Bool)
  /-- The failure is recorded. -/
  | failed (err : Thrown) (kept : Bool)
  /-- A retryable failure after which the lock has been released. -/
  | unlocked (err : Thrown)
  /-- Reported failed, about to go to the dead-letter queue. -/
  | burying (permanent kept : Bool)
  /-- In the dead-letter queue. -/
  | buried (permanent kept : Bool)
  /-- The dead letter is announced. -/
  | announced (permanent kept : Bool)
  /-- The handling of the failure has itself failed: about to throw. -/
  | aborted (kept : Bool)
  /-- About to return, with nothing left to do. -/
  | done
  deriving DecidableEq, Repr

namespace Stage

/-- What is left of `todo` when a step or a compensation has ended: reading the message of
a nullish error throws in turn, before any further compensation. -/
def remaining (todo : List Undo) : Except Thrown Unit → List Undo
  | .ok _ => todo
  | .error e => if e.nullish then [] else todo

/-- The error that the saga goes on to throw. -/
def raised (err : Thrown) : Except Thrown Unit → Thrown
  | .ok _ => err
  | .error e => if e.nullish then e.typeError else err

/-- A compensation has ended: its error is swallowed, unless it is nullish. -/
abbrev undone (todo : List Undo) (err : Thrown) (kept : Bool) (r : Except Thrown Unit) :
    Stage :=
  .unwinding (remaining todo r) (raised err r) kept

/-- A saga step threw `err` while `todo` had been done. -/
abbrev unwind (err : Thrown) (todo : List Undo) (kept : Bool) : Stage :=
  undone todo err kept (.error err)

section

variable {todo : List Undo} {err e : Thrown} {kept : Bool} {u : Unit}

@[simp] theorem remaining_ok : remaining todo (.ok u) = todo := rfl

@[simp] theorem raised_ok : raised err (.ok u) = err := rfl

@[simp] theorem remaining_nil {r : Except Thrown Unit} : remaining [] r = [] := by
  cases r <;> simp [remaining]

/-- Nothing comes to be compensated that was not to be. -/
@[simp] theorem not_mem_remaining {x : Undo} {r : Except Thrown Unit} (h : x ∉ todo) :
    x ∉ remaining todo r := by
  cases r with
  | ok _ => exact h
  | error e => cases he : e.nullish <;> simp [remaining, he, h]

/-- A nullish error cuts the compensations short. -/
theorem undone_of_nullish (h : e.nullish = true) :
    undone todo err kept (.error e) = .unwinding [] e.typeError kept := by
  simp [undone, remaining, raised, h]

/-- Any other error is swallowed. -/
theorem undone_of_message (h : e.nullish = false) :
    undone todo err kept (.error e) = .unwinding todo err kept := by
  simp [undone, remaining, raised, h]

end

/-- The job has no attempts left, in the reckoning of `process`. -/
def Exhausted (job : Job) : Prop := (job.attemptsMade : Int) + 1 ≥ job.data.maxRetries

/-- One step of a `process` call: at a stage, an awaited operation, its answer, and
the stage after it. -/
inductive Edge (job : Job) : Stage → (o : Op) → o.Ret → Stage → Prop
  -- registries and gates
  | lookupGateway (b : Bool) :
      Edge job .entering (.lookupGateway job.data.gatewayId) b (.lookedUp b)
  | registered :
      Edge job (.lookedUp true) (.lookupRateLimiter job.data.gatewayId) true .gated
  | unregistered {b b' : Bool} (hb : (b && b') = false) :
      Edge job (.lookedUp b) (.lookupRateLimiter job.data.gatewayId) b' .refused
  | pass : Edge job .gated (.canAttempt job.data.gatewayId) true .admitted
  | refuse : Edge job .gated (.canAttempt job.data.gatewayId) false .refused
  | consume : Edge job .admitted (.tryConsume job.data.gatewayId) true .allowed
  | limit : Edge job .admitted (.tryConsume job.data.gatewayId) false .turnedAway
  | wait (ms : Int) :
      Edge job .turnedAway (.msUntilAvailable job.data.gatewayId) ms .turnedAway
  | started : Edge job .allowed (.emit (.started job.id job.data.gatewayId)) (.ok ())
      .checking
  | startedErr (e : Thrown) :
      Edge job .allowed (.emit (.started job.id job.data.gatewayId)) (.error e)
        .turnedAway
  -- idempotency checks
  | hit (v : GatewayResponse) :
      Edge job .checking (.getResult job.data.idempotencyKey) (.ok (some v)) .reporting
  | miss : Edge job .checking (.getResult job.data.idempotencyKey) (.ok none) .missed
  | getResultErr (e : Thrown) :
      Edge job .checking (.getResult job.data.idempotencyKey) (.error e) .turnedAway
  | dbHit {v : Option PaymentRecord} (hv : v.map (·.status) = some .completed) :
      Edge job .missed (.getStatus job.data.id) (.ok v) .backfilling
  | dbMiss {v : Option PaymentRecord} (hv : v.map (·.status) ≠ some .completed) :
      Edge job .missed (.getStatus job.data.id) (.ok v) .clear
  | getStatusErr (e : Thrown) :
      Edge job .missed (.getStatus job.data.id) (.error e) .turnedAway
  | backfill (v : GatewayResponse) :
      Edge job .backfilling (.storeResult job.data.idempotencyKey v) (.ok ()) .reporting
  | backfillErr (v : GatewayResponse) (e : Thrown) :
      Edge job .backfilling (.storeResult job.data.idempotencyKey v) (.error e)
        .turnedAway
  | report : Edge job .reporting
      (.emit (.statusChanged job.data.id .completed none job.data.correlationId))
      (.ok ()) .reported
  | reportErr (e : Thrown) : Edge job .reporting
      (.emit (.statusChanged job.data.id .completed none job.data.correlationId))
      (.error e) .turnedAway
  | recordReported :
      Edge job .reported (.recordSuccess job.data.gatewayId) () .done
  -- the lock
  | acquire :
      Edge job .clear (.acquireLock job.data.idempotencyKey) (.ok true) .locked
  | contend :
      Edge job .clear (.acquireLock job.data.idempotencyKey) (.ok false) .contending
  | acquireErr (e : Thrown) :
      Edge job .clear (.acquireLock job.data.idempotencyKey) (.error e) .turnedAway
  -- reconciliation
  | stillLocked :
      Edge job .contending (.hasLock job.data.idempotencyKey) (.ok true) .asking
  | vanished :
      Edge job .contending (.hasLock job.data.idempotencyKey) (.ok false) .dropped
  | hasLockErr (e : Thrown) :
      Edge job .contending (.hasLock job.data.idempotencyKey) (.error e) .turnedAway
  | toldSettled {s : GatewayStatus} (hs : s.status = .settled) :
      Edge job .asking
        (.gatewayGetStatus job.data.gatewayId job.data.idempotencyKey) (.ok s) .settled
  | toldOther {s : GatewayStatus} (hs : s.status ≠ .settled) :
      Edge job .asking
        (.gatewayGetStatus job.data.gatewayId job.data.idempotencyKey) (.ok s) .dropped
  | askErr (e : Thrown) :
      Edge job .asking
        (.gatewayGetStatus job.data.gatewayId job.data.idempotencyKey) (.error e)
        .dropped
  | reconcileStore (v : GatewayResponse) :
      Edge job .settled (.storeResult job.data.idempotencyKey v) (.ok ()) .reconciled
  | reconcileStoreErr (v : GatewayResponse) (e : Thrown) :
      Edge job .settled (.storeResult job.data.idempotencyKey v) (.error e) .dropped
  | reportSettled (r : Except Thrown Unit) : Edge job .reconciled
      (.emit (.statusChanged job.data.id .completed none job.data.correlationId)) r .done
  -- the saga
  | slot (t : Option Nat) :
      Edge job .locked (.semaphoreAcquire job.data.gatewayId) t .locked
  | granted (t : Nat) :
      Edge job .locked (.semaphoreGranted job.data.gatewayId t) () .locked
  | charge {v : GatewayResponse} (hv : v.success = true) :
      Edge job .locked (.gatewayProcess job.data) (.ok v) .authorized
  | decline {v : GatewayResponse} (hv : v.success = false) :
      Edge job .locked (.gatewayProcess job.data) (.ok v)
        (unwind (authorizationFailure v) [] true)
  | chargeErr (e : Thrown) :
      Edge job .locked (.gatewayProcess job.data) (.error e) (unwind e [] true)
  | capture {v : Option String} (hv : v ≠ some "capture") :
      Edge job .authorized .sagaFailStep v .captured
  | captureErr :
      Edge job .authorized .sagaFailStep (some "capture")
        (unwind (injectedSagaFailure "capture") [.voidAuthorization] true)
  | post {v : Option String} (hv : v ≠ some "ledger") :
      Edge job .captured .sagaFailStep v .posting
  | postErr :
      Edge job .captured .sagaFailStep (some "ledger")
        (unwind (injectedSagaFailure "ledger") [.refund, .voidAuthorization] true)
  | write (txn : Option String) :
      Edge job .posting (.upsertStatus job.data.id ⟨.completed, txn⟩) (.ok ()) .written
  | writeErr (txn : Option String) (e : Thrown) :
      Edge job .posting (.upsertStatus job.data.id ⟨.completed, txn⟩) (.error e)
        (unwind e [.refund, .voidAuthorization] true)
  | store (v : GatewayResponse) :
      Edge job .written (.storeResult job.data.idempotencyKey v) (.ok ()) .stored
  | storeErr (v : GatewayResponse) (e : Thrown) :
      Edge job .written (.storeResult job.data.idempotencyKey v) (.error e)
        (unwind e [.refund, .voidAuthorization] true)
  | notify {v : Option String} (hv : v ≠ some "notify") :
      Edge job .stored .sagaFailStep v .notifying
  | notifyInjected :
      Edge job .stored .sagaFailStep (some "notify")
        (unwind (injectedSagaFailure "notify")
          [.reverseLedger, .refund, .voidAuthorization] false)
  | notifyEmit :
      Edge job .notifying (.emit (.notify job.data.id)) (.ok ()) .notified
  | notifyEmitErr (e : Thrown) :
      Edge job .notifying (.emit (.notify job.data.id)) (.error e)
        (unwind e [.reverseLedger, .refund, .voidAuthorization] false)
  | complete : Edge job .notified
      (.emit (.statusChanged job.data.id .completed none job.data.correlationId))
      (.ok ()) .succeeded
  | completeErr (e : Thrown) : Edge job .notified
      (.emit (.statusChanged job.data.id .completed none job.data.correlationId))
      (.error e) (.unwinding [] e false)
  | recordSaga : Edge job .succeeded (.recordSuccess job.data.gatewayId) () .recorded
  | freeSlot : Edge job .recorded (.semaphoreRelease job.data.gatewayId) () .done
  -- compensation
  | reverseLedger (todo : List Undo) (err : Thrown) (kept : Bool)
      (r : Except Thrown Unit) :
      Edge job (.unwinding (.reverseLedger :: todo) err kept)
        (.upsertStatus job.data.id ⟨.compensated, none⟩) r (undone todo err kept r)
  | refund (todo : List Undo) (err : Thrown) (kept : Bool) (txn : Option String) :
      Edge job (.unwinding (.refund :: todo) err kept) (.refund txn) ()
        (.unwinding todo err kept)
  | voidAuthorization (todo : List Undo) (err : Thrown) (kept : Bool)
      (txn : Option String) :
      Edge job (.unwinding (.voidAuthorization :: todo) err kept)
        (.voidAuthorization txn) () (.unwinding todo err kept)
  -- failure
  | freeFailed (err : Thrown) (kept : Bool) :
      Edge job (.unwinding [] err kept) (.semaphoreRelease job.data.gatewayId) ()
        (.unwinding [] err kept)
  | recordFailed (err : Thrown) (kept : Bool) :
      Edge job (.unwinding [] err kept) (.recordFailure job.data.gatewayId) ()
        (.failed err kept)
  | failPermanent {err : Thrown} (herr : classifyFailure err = .permanent)
      (kept : Bool) (reason : Option String) :
      Edge job (.failed err kept)
        (.emit (.statusChanged job.data.id .failed reason job.data.correlationId)) (.ok ())
        (.burying true kept)
  | failPermanentErr {err : Thrown} (herr : classifyFailure err = .permanent)
      (kept : Bool) (reason : Option String) (e : Thrown) :
      Edge job (.failed err kept)
        (.emit (.statusChanged job.data.id .failed reason job.data.correlationId))
        (.error e) (.aborted kept)
  | unlock {err : Thrown} (herr : classifyFailure err ≠ .permanent) (kept : Bool) :
      Edge job (.failed err kept) (.releaseLock job.data.idempotencyKey) (.ok ())
        (.unlocked err)
  | unlockErr {err : Thrown} (herr : classifyFailure err ≠ .permanent) (kept : Bool)
      (e : Thrown) :
      Edge job (.failed err kept) (.releaseLock job.data.idempotencyKey) (.error e)
        (.aborted kept)
  | failExhausted (hex : Exhausted job) (err : Thrown) (reason : Option String) :
      Edge job (.unlocked err)
        (.emit (.statusChanged job.data.id .failed reason job.data.correlationId)) (.ok ())
        (.burying false false)
  | failExhaustedErr (hex : Exhausted job) (err : Thrown) (reason : Option String)
      (e : Thrown) :
      Edge job (.unlocked err)
        (.emit (.statusChanged job.data.id .failed reason job.data.correlationId))
        (.error e) (.aborted false)
  | bury (permanent kept : Bool) (reason : Option String) :
      Edge job (.burying permanent kept)
        (.deadLetterAdd { job.data with failureReason := reason }
          ("dlq:" ++ job.data.idempotencyKey)) (.ok ()) (.buried permanent kept)
  | buryErr (permanent kept : Bool) (reason : Option String) (e : Thrown) :
      Edge job (.burying permanent kept)
        (.deadLetterAdd { job.data with failureReason := reason }
          ("dlq:" ++ job.data.idempotencyKey)) (.error e) (.aborted (permanent && kept))
  | announce (permanent kept : Bool) (reason : Option String) :
      Edge job (.buried permanent kept) (.emit (.deadLetter job.data.id reason)) (.ok ())
        (.announced permanent kept)
  | announceErr (permanent kept : Bool) (reason : Option String) (e : Thrown) :
      Edge job (.buried permanent kept) (.emit (.deadLetter job.data.id reason))
        (.error e) (.aborted (permanent && kept))
  | unlockPermanent (kept : Bool) :
      Edge job (.announced true kept) (.releaseLock job.data.idempotencyKey) (.ok ())
        .done
  | unlockPermanentErr (kept : Bool) (e : Thrown) :
      Edge job (.announced true kept) (.releaseLock job.data.idempotencyKey) (.error e)
        (.aborted kept)

/-- How a `process` call can end, and at which stage. -/
def Ends (job : Job) : Stage → Except Thrown Unit → Prop
  | .done, .ok _ | .dropped, .ok _ => True
  | .announced permanent _, .ok _ => permanent = false
  | .refused, .error _ | .turnedAway, .error _ | .aborted _, .error _ => True
  | .unlocked err, .error e => (¬ Exhausted job ∧ e = err) ∨ err.nullish = true
  | _, _ => False

/-- How `runSaga` ends: with the stage that says so. -/
def SagaEnds : Stage → Except Thrown Unit → Prop
  | g, .ok _ => g = .succeeded
  | g, .error e => ∃ kept, g = .unwinding [] e kept

end Stage

end PaymentQueue
