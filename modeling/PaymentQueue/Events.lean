import PaymentQueue.Processor

/-!
# PaymentQueue.Events

What the events of one call say about its payment.

An event is an awaited operation with its answer. The predicates below pick out those
that settle, abandon or undo a payment; `settled` and `abandoned` read a whole trace.
-/

namespace PaymentQueue

open Async

/-- An event of a `process` call. -/
abbrev ProcEvent := Event effects

/-- The authorization is voided. -/
def isVoid : ProcEvent → Bool
  | ⟨.voidAuthorization _, _⟩ => true
  | _ => false

/-- An upsert of the payment's record resolves. -/
def isPost (id : String) : ProcEvent → Bool
  | ⟨.upsertStatus id' _, .ok _⟩ => decide (id' = id)
  | _ => false

/-- The compensation of the ledger step rejects: no other compensation can. -/
def isReversalReject : ProcEvent → Bool
  | ⟨.upsertStatus _ ⟨.compensated, _⟩, .error _⟩ => true
  | _ => false

/-- `storeResult` rejects. -/
def isStoreReject : ProcEvent → Bool
  | ⟨.storeResult _ _, .error _⟩ => true
  | _ => false

/-- `finalize` COMPLETED. -/
def isCompletedReport : ProcEvent → Bool
  | ⟨.emit (.statusChanged _ .completed _ _), _⟩ => true
  | _ => false

/-- `finalize` FAILED. -/
def isFailedReport : ProcEvent → Bool
  | ⟨.emit (.statusChanged _ .failed _ _), _⟩ => true
  | _ => false

/-- The payment is added to the dead-letter queue. -/
def isDeadLettered : ProcEvent → Bool
  | ⟨.deadLetterAdd _ _, .ok _⟩ => true
  | _ => false

/-- The lock is found taken. -/
def isContended : ProcEvent → Bool
  | ⟨.acquireLock _, .ok b⟩ => !b
  | _ => false

/-- Reconciliation learns nothing to go by: the lock is gone, or the gateway does not
say that the charge is settled. -/
def isInconclusive : ProcEvent → Bool
  | ⟨.hasLock _, .ok b⟩ => !b
  | ⟨.gatewayGetStatus _ _, .ok s⟩ => decide (s.status ≠ .settled)
  | ⟨.gatewayGetStatus _ _, .error _⟩ => true
  | _ => false

/-- The lock is acquired. -/
def isLockAcquired : ProcEvent → Bool
  | ⟨.acquireLock _, .ok b⟩ => b
  | _ => false

/-- A result is stored, and the lock deleted with it. -/
def isStored : ProcEvent → Bool
  | ⟨.storeResult _ _, .ok _⟩ => true
  | _ => false

/-- The lock is released. -/
def isReleased : ProcEvent → Bool
  | ⟨.releaseLock _, .ok _⟩ => true
  | _ => false

/-- A saga comes to its end: `runSaga` reports the completion, or the `catch` around it is
entered. -/
def endsSaga : ProcEvent → Bool
  | ⟨.emit (.statusChanged _ .completed _ _), .ok _⟩ | ⟨.recordFailure _, _⟩ => true
  | _ => false

/-- The gateway accepts the charge. -/
def isCharge : ProcEvent → Bool
  | ⟨.gatewayProcess _, .ok v⟩ => v.success
  | _ => false

/-- The gateway says that the charge is settled. -/
def isToldSettled : ProcEvent → Bool
  | ⟨.gatewayGetStatus _ _, .ok s⟩ => decide (s.status = .settled)
  | _ => false

/-- `storeResult` resolves or rejects. -/
def isStoreAnswer : ProcEvent → Bool
  | ⟨.storeResult _ _, _⟩ => true
  | _ => false

/-- The injected failure of a saga step is read. -/
def isFailureRead : ProcEvent → Bool
  | ⟨.sagaFailStep, _⟩ => true
  | _ => false

/-- The customer is notified, the last step of a saga. -/
def isNotified : ProcEvent → Bool
  | ⟨.emit (.notify _), .ok _⟩ => true
  | _ => false

/-- The `catch` of `process` is entered: the saga has failed, and its compensations are
over. -/
def isSagaFailed : ProcEvent → Bool
  | ⟨.recordFailure _, _⟩ => true
  | _ => false

/-- The call finalized its payment: as completed, or as failed and dead-lettered. -/
def settled (tr : List ProcEvent) : Bool :=
  tr.any isCompletedReport || (tr.any isFailedReport && tr.any isDeadLettered)

/-- The call found the lock taken and had to leave it at that: its reconciliation was
inconclusive, or could not store the settled charge. -/
def abandoned (tr : List ProcEvent) : Bool :=
  tr.any isInconclusive || (tr.any isContended && tr.any isStoreReject)

end PaymentQueue
