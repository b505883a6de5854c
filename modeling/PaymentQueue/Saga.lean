import PaymentQueue.Async.Control
import PaymentQueue.Types

/-!
# PaymentQueue.Saga

The saga coordinator of `payment/saga.ts` and the steps of a card payment.

`PaymentSaga.run` executes its steps in order and, when one throws, compensates
the completed ones in reverse order before it throws the same error. It is
generic in the operations its steps await and in the context they share; the
spread `{ ...ctx, ...patch }` is the operation of the class `Spread`.

Log lines are left out, but not the reading of `(err as Error).message` in them:
on a thrown `null` or `undefined` that read throws a `TypeError` of its own, in the
middle of the error handling.
-/

namespace PaymentQueue

open Async

/-- `{ ...ctx, ...patch }`. -/
class Spread (Ctx : Type) (Patch : outParam Type) where
  spread : Ctx → Patch → Ctx

/-- `SagaStep`. -/
structure SagaStep (S : Signature) (Ctx Patch : Type) where
  name : String
  execute : Ctx → Program S Thrown Patch
  compensate : Ctx → Program S Thrown Unit

variable {S : Signature} {Ctx Patch : Type}

/-- `(err as Error).message`, read inside a program. -/
def readMessage (err : Thrown) : Program S Thrown (Option String) :=
  .ofExcept err.message

namespace PaymentSaga

/-- `compensate`: the given steps in the given order; a compensation that throws
is logged and does not stop the others. -/
def compensate (ctx : Ctx) : List (SagaStep S Ctx Patch) → Program S Thrown Unit
  | [] => pure ()
  | step :: rest => do
      (step.compensate ctx).tryCatch fun compErr => do
        let _ ← readMessage compErr
        pure ()
      compensate ctx rest

/-- The `catch` of `run`: compensate what was completed, then throw again. -/
def onStepFailure (ctx : Ctx) (completedSteps : List (SagaStep S Ctx Patch))
    {α : Type} (err : Thrown) : Program S Thrown α := do
  let _ ← readMessage err
  compensate ctx completedSteps.reverse
  .throw err

variable [Spread Ctx Patch]

/-- The loop of `run`, with the steps completed so far and the merged context. -/
def loop : List (SagaStep S Ctx Patch) → List (SagaStep S Ctx Patch) → Ctx →
    Program S Thrown Ctx
  | [], _, ctx => pure ctx
  | step :: rest, completedSteps, ctx => do
      match ← (step.execute ctx).attempt with
      | .ok patch => loop rest (completedSteps ++ [step]) (Spread.spread ctx patch)
      | .error err => onStepFailure ctx completedSteps err

/-- `run`. -/
def run (steps : List (SagaStep S Ctx Patch)) (initialContext : Ctx) :
    Program S Thrown Ctx :=
  loop steps [] initialContext

/-! ### The field `completedSteps` -/

/-- The loop of `run` on an instance, whose field `completedSteps` outlives the run: how the
run ends, and what is left in the field. -/
def loopOn : List (SagaStep S Ctx Patch) → List (SagaStep S Ctx Patch) → Ctx →
    Program S Thrown (Except Thrown Ctx × List (SagaStep S Ctx Patch))
  | [], completedSteps, ctx => pure (.ok ctx, completedSteps)
  | step :: rest, completedSteps, ctx => do
      match ← (step.execute ctx).attempt with
      | .ok patch => loopOn rest (completedSteps ++ [step]) (Spread.spread ctx patch)
      | .error err => do
          let result ← (onStepFailure ctx completedSteps err).attempt
          pure (result, completedSteps)

/-- `run` on an instance that has run before: the field starts over from `[]`. -/
def runOn (steps _completedSteps : List (SagaStep S Ctx Patch)) (initialContext : Ctx) :
    Program S Thrown (Except Thrown Ctx × List (SagaStep S Ctx Patch)) :=
  loopOn steps [] initialContext

/-- Runs on the same instance, one after the other. -/
def runsOn (steps : List (SagaStep S Ctx Patch)) :
    List (SagaStep S Ctx Patch) → List Ctx → Program S Thrown (List (Except Thrown Ctx))
  | _, [] => pure []
  | completedSteps, ctx :: ctxs => do
      let (result, completedSteps) ← runOn steps completedSteps ctx
      let results ← runsOn steps completedSteps ctxs
      pure (result :: results)

/-! ### Rules for the coordinator -/

variable {γ : Type} {T : γ → (o : S.Op) → S.Ret o → γ → Prop} {g : γ}
variable {step : SagaStep S Ctx Patch} {rest completedSteps : List (SagaStep S Ctx Patch)}
variable {ctx : Ctx}

omit [Spread Ctx Patch] in
/-- Reading the message of an error goes on with it, or throws on a nullish one. -/
theorem follows_readMessage {α : Type} {err : Thrown}
    {f : Option String → Program S Thrown α} {Q : γ → Except Thrown α → Prop}
    (h : err.nullish = false → ∀ m, Follows T (f m) Q g)
    (hn : err.nullish = true → Q g (.error err.typeError)) :
    Follows T (readMessage err >>= f) Q g := by
  cases he : err.nullish with
  | false =>
      obtain ⟨m, hm⟩ := Thrown.message_of_not_nullish he
      rw [readMessage, hm]
      exact h he m
  | true =>
      rw [readMessage, Thrown.message_of_nullish he]
      exact hn he

/-- The loop executes the next step and goes on with the merged context, or unwinds. -/
theorem follows_loop {Q : γ → Except Thrown Ctx → Prop}
    (h : Follows T (step.execute ctx) (fun g' r => match r with
      | .ok patch =>
          Follows T (loop rest (completedSteps ++ [step]) (Spread.spread ctx patch)) Q g'
      | .error err => Follows T (onStepFailure ctx completedSteps err) Q g') g) :
    Follows T (loop (step :: rest) completedSteps ctx) Q g := by
  refine Follows.bind (Follows.attempt (h.mono ?_))
  rintro g' (err | patch) hr <;> exact hr

omit [Spread Ctx Patch] in
/-- Compensation goes on to the next step, unless the error of one is nullish. -/
theorem follows_compensate {Q : γ → Except Thrown Unit → Prop}
    (h : Follows T (step.compensate ctx) (fun g' r => match r with
      | .ok _ => Follows T (compensate ctx rest) Q g'
      | .error e =>
          (e.nullish = false → Follows T (compensate ctx rest) Q g') ∧
          (e.nullish = true → Q g' (.error e.typeError))) g) :
    Follows T (compensate ctx (step :: rest)) Q g := by
  refine Follows.bind (Follows.tryCatch (h.mono ?_))
  intro g' res hr
  rcases res with e | _
  · exact follows_readMessage (fun he _ => hr.1 he) hr.2
  · exact hr

section

variable {P : S.Op → Prop} {steps : List (SagaStep S Ctx Patch)}

theorem awaits_readMessage {err : Thrown} :
    Awaits P (readMessage err : Program S Thrown (Option String)) :=
  .ofExcept _

omit [Spread Ctx Patch] in
theorem awaits_compensate (h : ∀ step ∈ steps, Awaits P (step.compensate ctx)) :
    Awaits P (compensate ctx steps) := by
  induction steps with
  | nil => exact .ret ()
  | cons step steps ih =>
      refine .bind (.tryCatch (h step List.mem_cons_self) fun e => ?_) fun _ => ?_
      · exact .bind awaits_readMessage fun _ => .ret ()
      · exact ih fun step hstep => h step (List.mem_cons_of_mem _ hstep)

omit [Spread Ctx Patch] in
theorem awaits_onStepFailure {α : Type} {err : Thrown}
    (h : ∀ step ∈ completedSteps, Awaits P (step.compensate ctx)) :
    Awaits P (onStepFailure ctx completedSteps err : Program S Thrown α) := by
  refine .bind awaits_readMessage fun _ => .bind (awaits_compensate ?_) fun _ => .throw err
  simpa using h

/-- A saga awaits what its steps and their compensations do. -/
theorem awaits_loop (hsteps : ∀ step ∈ steps, ∀ ctx, Awaits P (step.execute ctx))
    (hcomp : ∀ step ∈ completedSteps ++ steps, ∀ ctx, Awaits P (step.compensate ctx)) :
    Awaits P (loop steps completedSteps ctx) := by
  induction steps generalizing completedSteps ctx with
  | nil => exact .ret ctx
  | cons step steps ih =>
      refine .bind (hsteps step List.mem_cons_self ctx).attempt fun r => ?_
      cases r with
      | ok patch =>
          refine ih (fun step hstep => hsteps step (List.mem_cons_of_mem _ hstep)) ?_
          simpa using hcomp
      | error err =>
          exact awaits_onStepFailure fun step hstep =>
            hcomp step (List.mem_append_left _ hstep) ctx

end

end PaymentSaga

/-! ### The steps of a card payment -/

/-- `PaymentSagaContext`. -/
structure PaymentSagaContext where
  paymentId : String
  correlationId : String
  /-- Funds reserved. -/
  reserved : Bool := false
  gatewayTransactionId : Option String := none
  captured : Bool := false
  ledgerEntryId : Option String := none
  notified : Bool := false
  deriving DecidableEq, Repr

/-- `Partial<PaymentSagaContext>`, as far as the payment steps set it. -/
structure PaymentSagaPatch where
  reserved : Option Bool := none
  gatewayTransactionId : Option String := none
  captured : Option Bool := none
  ledgerEntryId : Option String := none
  notified : Option Bool := none
  deriving DecidableEq, Repr

instance : Spread PaymentSagaContext PaymentSagaPatch where
  spread ctx patch :=
    { ctx with
      reserved := patch.reserved.getD ctx.reserved
      gatewayTransactionId := patch.gatewayTransactionId.or ctx.gatewayTransactionId
      captured := patch.captured.getD ctx.captured
      ledgerEntryId := patch.ledgerEntryId.or ctx.ledgerEntryId
      notified := patch.notified.getD ctx.notified }

/-- The dependencies of `buildPaymentSagaSteps`. -/
structure PaymentSagaDeps (S : Signature) where
  authorize : PaymentSagaContext → Program S Thrown String
  voidAuthorization : PaymentSagaContext → Program S Thrown Unit
  capture : PaymentSagaContext → Program S Thrown Unit
  refund : PaymentSagaContext → Program S Thrown Unit
  writeLedgerEntry : PaymentSagaContext → Program S Thrown String
  reverseLedgerEntry : PaymentSagaContext → Program S Thrown Unit
  notifyCustomer : PaymentSagaContext → Program S Thrown Unit

/-- A string that JavaScript takes for true: present and not empty. -/
def truthy : Option String → Bool
  | some s => s ≠ ""
  | none => false

section

variable (deps : PaymentSagaDeps S)

def authorizeStep : SagaStep S PaymentSagaContext PaymentSagaPatch where
  name := "authorize"
  execute ctx := do
    let gatewayTransactionId ← deps.authorize ctx
    pure { reserved := some true, gatewayTransactionId := some gatewayTransactionId }
  compensate ctx := if ctx.reserved then deps.voidAuthorization ctx else pure ()

def captureStep : SagaStep S PaymentSagaContext PaymentSagaPatch where
  name := "capture"
  execute ctx := do
    deps.capture ctx
    pure { captured := some true }
  compensate ctx := if ctx.captured then deps.refund ctx else pure ()

def writeLedgerStep : SagaStep S PaymentSagaContext PaymentSagaPatch where
  name := "write_ledger"
  execute ctx := do
    let ledgerEntryId ← deps.writeLedgerEntry ctx
    pure { ledgerEntryId := some ledgerEntryId }
  compensate ctx :=
    if truthy ctx.ledgerEntryId then deps.reverseLedgerEntry ctx else pure ()

def notifyCustomerStep : SagaStep S PaymentSagaContext PaymentSagaPatch where
  name := "notify_customer"
  execute ctx := do
    deps.notifyCustomer ctx
    pure { notified := some true }
  -- a failed notification need not unwind money movement: no-op by design
  compensate _ := pure ()

/-- `buildPaymentSagaSteps`. -/
def buildPaymentSagaSteps : List (SagaStep S PaymentSagaContext PaymentSagaPatch) :=
  [authorizeStep deps, captureStep deps, writeLedgerStep deps, notifyCustomerStep deps]

end

end PaymentQueue
