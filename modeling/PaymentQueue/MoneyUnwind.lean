import PaymentQueue.Async.Retry
import PaymentQueue.Protocol
import PaymentQueue.SagaTrace

/-!
# PaymentQueue.MoneyUnwind

When does the saga of a card payment move money back?

The seven dependencies of `buildPaymentSagaSteps` are calls here, with nothing assumed of
their answers; whatever programs the dependencies are, the saga does with them what it does
with the calls (`run_calledDeps`).

Money is to be unwound when a money step has thrown, step by step in reverse, and never for
a customer who could not be notified (`UnwoundLawfully`). The coordinator knows no last step
that is different from the others, so a failed notification unwinds all that was done
(`unwound_on_notify`); and an error without a message cuts the compensations short
(`unwound_lawfully_iff`).
-/

namespace PaymentQueue

open Async

namespace PaymentSaga

/-- A call of one of the dependencies. -/
inductive DepCall
  | authorize (ctx : PaymentSagaContext)
  | voidAuthorization (ctx : PaymentSagaContext)
  | capture (ctx : PaymentSagaContext)
  | refund (ctx : PaymentSagaContext)
  | writeLedgerEntry (ctx : PaymentSagaContext)
  | reverseLedgerEntry (ctx : PaymentSagaContext)
  | notifyCustomer (ctx : PaymentSagaContext)

/-- How a call is answered: it resolves or throws. -/
@[reducible] def DepCall.Ret : DepCall → Type
  | authorize _ | writeLedgerEntry _ => Except Thrown String
  | voidAuthorization _ | capture _ | refund _ | reverseLedgerEntry _
  | notifyCustomer _ => Except Thrown Unit

/-- The calls of the dependencies as operations. -/
abbrev depCalls : Signature := ⟨DepCall, DepCall.Ret⟩

/-- A call and its answer. -/
abbrev DepEvent := Event depCalls

/-- The dependencies that do what they are told. -/
def calledDeps : PaymentSagaDeps depCalls where
  authorize ctx := Program.perform (S := depCalls) (.authorize ctx) >>= .ofExcept
  voidAuthorization ctx :=
    Program.perform (S := depCalls) (.voidAuthorization ctx) >>= .ofExcept
  capture ctx := Program.perform (S := depCalls) (.capture ctx) >>= .ofExcept
  refund ctx := Program.perform (S := depCalls) (.refund ctx) >>= .ofExcept
  writeLedgerEntry ctx :=
    Program.perform (S := depCalls) (.writeLedgerEntry ctx) >>= .ofExcept
  reverseLedgerEntry ctx :=
    Program.perform (S := depCalls) (.reverseLedgerEntry ctx) >>= .ofExcept
  notifyCustomer ctx := Program.perform (S := depCalls) (.notifyCustomer ctx) >>= .ofExcept

/-! ### Dependencies that are programs -/

section

variable {S : Signature} (deps : PaymentSagaDeps S)

/-- What the calls stand for when the dependencies are programs. -/
def answering : (c : DepCall) → Program S Thrown c.Ret
  | .authorize ctx => (deps.authorize ctx).attempt
  | .voidAuthorization ctx => (deps.voidAuthorization ctx).attempt
  | .capture ctx => (deps.capture ctx).attempt
  | .refund ctx => (deps.refund ctx).attempt
  | .writeLedgerEntry ctx => (deps.writeLedgerEntry ctx).attempt
  | .reverseLedgerEntry ctx => (deps.reverseLedgerEntry ctx).attempt
  | .notifyCustomer ctx => (deps.notifyCustomer ctx).attempt

theorem settling_answering (c : DepCall) : (answering deps c).Settling := by
  cases c <;> exact Program.settling_attempt _

/-- A step does what its dependency does, and returns its patch. -/
theorem interpret_execute {α β : Type} (p : Program depCalls Thrown α)
    {q : Program S Thrown α} (h : p.interpret (answering deps) = q) (patch : α → β) :
    (p >>= fun a => pure (patch a)).interpret (answering deps) = q >>= fun a => pure (patch a) := by
  rw [Program.interpret_bind, h]
  rfl

/-- A compensation does what its dependency does, if its flag is set. -/
theorem interpret_guarded (p : Program depCalls Thrown Unit) {q : Program S Thrown Unit}
    (h : p.interpret (answering deps) = q) (flag : Bool) :
    (if flag = true then p else pure ()).interpret (answering deps) =
      if flag = true then q else pure () := by
  cases flag with
  | true => exact h
  | false => rfl

/-- A step that calls its dependencies is the step with the dependencies in place. -/
theorem buildPaymentSagaSteps_interprets :
    List.Forall₂ (SagaStep.Interprets (S := depCalls) (answering deps))
      (buildPaymentSagaSteps calledDeps) (buildPaymentSagaSteps deps) := by
  refine .cons ⟨fun ctx => ?_, fun ctx => ?_⟩ (.cons ⟨fun ctx => ?_, fun ctx => ?_⟩
    (.cons ⟨fun ctx => ?_, fun ctx => ?_⟩ (.cons ⟨fun ctx => ?_, fun ctx => rfl⟩ .nil)))
  · exact interpret_execute deps (calledDeps.authorize ctx)
      (deps.authorize ctx).attempt_bind_ofExcept _
  · exact interpret_guarded deps (calledDeps.voidAuthorization ctx)
      (deps.voidAuthorization ctx).attempt_bind_ofExcept _
  · exact interpret_execute deps (calledDeps.capture ctx)
      (deps.capture ctx).attempt_bind_ofExcept _
  · exact interpret_guarded deps (calledDeps.refund ctx)
      (deps.refund ctx).attempt_bind_ofExcept _
  · exact interpret_execute deps (calledDeps.writeLedgerEntry ctx)
      (deps.writeLedgerEntry ctx).attempt_bind_ofExcept _
  · exact interpret_guarded deps (calledDeps.reverseLedgerEntry ctx)
      (deps.reverseLedgerEntry ctx).attempt_bind_ofExcept _
  · exact interpret_execute deps (calledDeps.notifyCustomer ctx)
      (deps.notifyCustomer ctx).attempt_bind_ofExcept _

/-- Whatever its dependencies are, the saga does with them what it does with the calls. -/
theorem run_calledDeps (ctx : PaymentSagaContext) :
    (run (buildPaymentSagaSteps calledDeps) ctx).interpret (answering deps) =
      run (buildPaymentSagaSteps deps) ctx :=
  interpret_loop (settling_answering deps) ctx (buildPaymentSagaSteps_interprets deps) .nil

end

/-! ### The law -/

/-- A money step has thrown. -/
def isMoneyFailure : DepEvent → Bool
  | ⟨.authorize _, .error _⟩ | ⟨.capture _, .error _⟩ | ⟨.writeLedgerEntry _, .error _⟩ =>
      true
  | _ => false

/-- A money step is complete: what would undo it. -/
def undoing : DepEvent → Option Undo
  | ⟨.authorize _, .ok _⟩ => some .voidAuthorization
  | ⟨.capture _, .ok _⟩ => some .refund
  | ⟨.writeLedgerEntry _, .ok _⟩ => some .reverseLedger
  | _ => none

/-- What is undone, and with which context. -/
def undoneBy : DepEvent → Option (Undo × PaymentSagaContext)
  | ⟨.voidAuthorization ctx, _⟩ => some (.voidAuthorization, ctx)
  | ⟨.refund ctx, _⟩ => some (.refund, ctx)
  | ⟨.reverseLedgerEntry ctx, _⟩ => some (.reverseLedger, ctx)
  | _ => none

/-- The transaction that `authorize` returned. -/
def authorizedTxn : DepEvent → Option String
  | ⟨.authorize _, .ok txn⟩ => some txn
  | _ => none

/-- Money is unwound only when a money step has thrown: then exactly the complete money
steps are undone, once each and in reverse, each with the transaction of this run. -/
def UnwoundLawfully (log : List DepEvent) : Prop :=
  ((log.filterMap undoneBy).map Prod.fst =
    if log.any isMoneyFailure then (log.filterMap undoing).reverse else []) ∧
  ∀ undo ∈ log.filterMap undoneBy,
    undo.2.gatewayTransactionId.toList = log.filterMap authorizedTxn ∧
      undo.2.gatewayTransactionId.isSome = true

instance : DecidablePred UnwoundLawfully := fun _ => inferInstanceAs (Decidable (_ ∧ _))

/-- The notification fails with an error that has a message; or a step or the refund that
stands before a compensation fails with one that has none. -/
def breaksUnwinding : DepEvent → Bool
  | ⟨.notifyCustomer _, .error e⟩ => !e.nullish
  | ⟨.capture _, .error e⟩ | ⟨.writeLedgerEntry _, .error e⟩ | ⟨.refund _, .error e⟩ =>
      e.nullish
  | _ => false

/-! ### What the saga does -/

section

variable {log : List DepEvent} {ev : DepEvent}

/-- No money step has thrown, but its compensations were called on. -/
structure UnwoundForNothing (log : List DepEvent) : Prop where
  failure : log.any isMoneyFailure = false
  breaks : log.any breaksUnwinding = true
  undone : log.filterMap undoneBy ≠ []

/-- A compensation is no money step. -/
theorem isMoneyFailure_of_undoes (h : (undoneBy ev).isSome = true) :
    isMoneyFailure ev = false := by
  unfold undoneBy at h
  split at h <;> first | rfl | exact absurd h (by simp)

theorem UnwoundForNothing.snoc (h : UnwoundForNothing log)
    (hev : (undoneBy ev).isSome = true) : UnwoundForNothing (log ++ [ev]) := by
  refine ⟨?_, ?_, ?_⟩
  · simp [h.failure, isMoneyFailure_of_undoes hev]
  · simp [h.breaks]
  · simp [h.undone]

theorem UnwoundForNothing.lawful_iff (h : UnwoundForNothing log) :
    UnwoundLawfully log ↔ log.any breaksUnwinding = false := by
  refine iff_of_false (fun hlaw => h.undone ?_) (by simp [h.breaks])
  simpa [h.failure] using hlaw.1

end

section

variable {ctx : PaymentSagaContext} {log : List DepEvent} {Q : List DepEvent → Prop}

/-- The last compensation: whatever it is answered, it was called. -/
theorem void_follows (hr : ctx.reserved = true)
    (h : ∀ r, Q (log ++ [⟨.voidAuthorization ctx, r⟩])) :
    Follows Grows (compensate ctx [authorizeStep calledDeps]) (fun tr _ => Q tr) log := by
  refine follows_compensate ?_
  simp only [authorizeStep, hr, ↓reduceIte]
  refine Follows.perform_bind fun r => ⟨_, rfl, ?_⟩
  cases r with
  | ok _ => exact h _
  | error e => exact ⟨fun _ => h _, fun _ => h _⟩

/-- The refund, and the last compensation unless the refund has thrown a nullish value. -/
theorem refund_follows (hr : ctx.reserved = true) (hc : ctx.captured = true)
    (hcut : ∀ e : Thrown, e.nullish = true → Q (log ++ [⟨.refund ctx, .error e⟩]))
    (hall : ∀ r r', breaksUnwinding ⟨.refund ctx, r⟩ = false →
      Q (log ++ [⟨.refund ctx, r⟩] ++ [⟨.voidAuthorization ctx, r'⟩])) :
    Follows Grows (compensate ctx [captureStep calledDeps, authorizeStep calledDeps])
      (fun tr _ => Q tr) log := by
  refine follows_compensate ?_
  simp only [captureStep, hc, ↓reduceIte]
  refine Follows.perform_bind fun r => ⟨_, rfl, ?_⟩
  cases r with
  | ok _ => exact void_follows hr fun r' => hall (.ok _) r' rfl
  | error e => exact ⟨fun he => void_follows hr fun r' => hall (.error e) r' he, hcut e⟩

/-- After a failed notification something is undone, whatever that is answered. -/
theorem undo_follows (hr : ctx.reserved = true) (hc : ctx.captured = true)
    (hkeep : ∀ {tr : List DepEvent} {ev : DepEvent}, Q tr → (undoneBy ev).isSome = true →
      Q (tr ++ [ev]))
    (h : ∀ ev : DepEvent, (undoneBy ev).isSome = true → Q (log ++ [ev])) :
    Follows Grows (compensate ctx [writeLedgerStep calledDeps, captureStep calledDeps,
      authorizeStep calledDeps]) (fun tr _ => Q tr) log := by
  refine follows_compensate ?_
  simp only [writeLedgerStep]
  split
  · refine Follows.perform_bind fun r => ⟨_, rfl, ?_⟩
    have hrev := h ⟨.reverseLedgerEntry ctx, r⟩ rfl
    have hrest : Follows Grows (compensate ctx [captureStep calledDeps,
        authorizeStep calledDeps]) (fun tr _ => Q tr)
        (log ++ [⟨.reverseLedgerEntry ctx, r⟩]) := by
      refine refund_follows hr hc (fun e _ => hkeep hrev rfl) fun r r' _ => ?_
      exact hkeep (hkeep hrev rfl) rfl
    cases r with
    | ok _ => exact hrest
    | error e => exact ⟨fun _ => hrest, fun _ => hrev⟩
  · refine refund_follows hr hc (fun e _ => h _ rfl) fun r r' _ => ?_
    exact hkeep (h _ rfl) rfl

/-- A step that throws: its error is read, and the completed steps are compensated. -/
theorem failure_follows {α : Type} {err : Thrown}
    {completed : List (SagaStep depCalls PaymentSagaContext PaymentSagaPatch)}
    (hnull : err.nullish = true → Q log)
    (hcomp : err.nullish = false →
      Follows Grows (compensate ctx completed.reverse) (fun tr _ => Q tr) log) :
    Follows Grows (onStepFailure (α := α) ctx completed err) (fun tr _ => Q tr) log := by
  refine follows_readMessage (fun he _ => ?_) hnull
  refine Follows.bind ((hcomp he).mono ?_)
  intro tr res hres
  cases res <;> exact hres

end

/-- **When money is unwound.** Whatever the dependencies answer, the saga of a card payment
unwinds money lawfully exactly when no notification fails with an error that has a message,
and neither capture nor the ledger entry nor the refund with one that has none. -/
theorem unwound_lawfully_iff {ctx : PaymentSagaContext} {log : List DepEvent}
    {res : Except Thrown PaymentSagaContext}
    (h : Exec (run (buildPaymentSagaSteps calledDeps) ctx) log res) :
    UnwoundLawfully log ↔ log.any breaksUnwinding = false := by
  refine Follows.exec (Q := fun tr _ => UnwoundLawfully tr ↔ tr.any breaksUnwinding = false)
    ?_ h
  refine follows_loop (Follows.bind (Follows.perform_bind fun r => ⟨_, rfl, ?_⟩))
  rcases r with err | txn
  · -- nothing was completed
    have hnone : UnwoundLawfully [⟨.authorize ctx, .error err⟩] := by
      simp [UnwoundLawfully, undoneBy, undoing, isMoneyFailure, List.filterMap_cons]
    exact failure_follows (fun _ => iff_of_true hnone rfl) fun _ => iff_of_true hnone rfl
  refine follows_loop (Follows.bind (Follows.perform_bind fun r => ⟨_, rfl, ?_⟩))
  rcases r with err | _
  · refine failure_follows (fun he => ?_) fun he => void_follows rfl fun r => ?_
    · refine iff_of_false ?_ ?_
      · simp [UnwoundLawfully, undoneBy, undoing, isMoneyFailure, List.filterMap_cons]
      · simp [breaksUnwinding, he]
    · refine iff_of_true ?_ ?_
      · simp [UnwoundLawfully, undoneBy, undoing, isMoneyFailure, authorizedTxn, Spread.spread,
          List.filterMap_cons]
      · simp [breaksUnwinding, he]
  refine follows_loop (Follows.bind (Follows.perform_bind fun r => ⟨_, rfl, ?_⟩))
  rcases r with err | id
  · refine failure_follows (fun he => ?_) fun he =>
      refund_follows rfl rfl (fun e hn => ?_) fun r r' hr => ?_
    · refine iff_of_false ?_ ?_
      · simp [UnwoundLawfully, undoneBy, undoing, isMoneyFailure, List.filterMap_cons]
      · simp [breaksUnwinding, he]
    · refine iff_of_false ?_ ?_
      · simp [UnwoundLawfully, undoneBy, undoing, isMoneyFailure, List.filterMap_cons]
      · simp [breaksUnwinding, hn]
    · refine iff_of_true ?_ ?_
      · simp [UnwoundLawfully, undoneBy, undoing, isMoneyFailure, authorizedTxn, Spread.spread,
          List.filterMap_cons]
      · simp only [List.any_append, List.any_cons, hr]
        simp [breaksUnwinding, he]
  refine follows_loop (Follows.bind (Follows.perform_bind fun r => ⟨_, rfl, ?_⟩))
  rcases r with err | _
  · refine failure_follows (fun he => ?_) fun he => ?_
    · refine iff_of_true ?_ ?_
      · simp [UnwoundLawfully, undoneBy, isMoneyFailure, List.filterMap_cons]
      · simp [breaksUnwinding, he]
    · refine (undo_follows (Q := UnwoundForNothing) rfl rfl UnwoundForNothing.snoc
        fun ev hev => ?_).mono fun _ _ h => h.lawful_iff
      refine ⟨?_, ?_, ?_⟩
      · simpa using ⟨rfl, rfl, rfl, rfl, isMoneyFailure_of_undoes hev⟩
      · simp [breaksUnwinding, he]
      · simp [Option.isSome_iff_ne_none.mp hev]
  · refine iff_of_true ?_ rfl
    simp [UnwoundLawfully, undoneBy, isMoneyFailure, List.filterMap_cons]

/-- The ledger entry fails: the capture is refunded and the authorization voided, with the
transaction of this run. -/
theorem unwound_lawfully_ledger :
    let ctx : PaymentSagaContext := { paymentId := "p", correlationId := "c" }
    let reserved := { ctx with reserved := true, gatewayTransactionId := some "txn" }
    let captured := { reserved with captured := true }
    let log : List DepEvent :=
      [⟨.authorize ctx, .ok "txn"⟩, ⟨.capture reserved, .ok ()⟩,
        ⟨.writeLedgerEntry captured, .error (.error "ECONNRESET")⟩, ⟨.refund captured, .ok ()⟩,
        ⟨.voidAuthorization captured, .ok ()⟩]
    Exec (run (buildPaymentSagaSteps calledDeps) ctx) log (.error (.error "ECONNRESET")) ∧
      UnwoundLawfully log := by
  intro ctx reserved captured log
  have hexec : Exec (run (buildPaymentSagaSteps calledDeps) ctx) log
      (.error (.error "ECONNRESET")) :=
    .await (.await (.await (.await (.await (.throw _)))))
  exact ⟨hexec, (unwound_lawfully_iff hexec).mpr rfl⟩

/-- The customer cannot be notified: the ledger entry is reversed, the capture refunded and
the authorization voided. -/
theorem unwound_on_notify :
    let ctx : PaymentSagaContext := { paymentId := "p", correlationId := "c" }
    let reserved := { ctx with reserved := true, gatewayTransactionId := some "txn" }
    let captured := { reserved with captured := true }
    let posted := { captured with ledgerEntryId := some "ledger_p" }
    let log : List DepEvent :=
      [⟨.authorize ctx, .ok "txn"⟩, ⟨.capture reserved, .ok ()⟩,
        ⟨.writeLedgerEntry captured, .ok "ledger_p"⟩,
        ⟨.notifyCustomer posted, .error (.error "notification delivery failed")⟩,
        ⟨.reverseLedgerEntry posted, .ok ()⟩, ⟨.refund posted, .ok ()⟩,
        ⟨.voidAuthorization posted, .ok ()⟩]
    Exec (run (buildPaymentSagaSteps calledDeps) ctx) log
        (.error (.error "notification delivery failed")) ∧
      log.any isMoneyFailure = false ∧ ¬ UnwoundLawfully log := by
  refine ⟨?_, rfl, by decide⟩
  exact .await (.await (.await (.await (.await (.await (.await (.throw _)))))))

end PaymentSaga

end PaymentQueue
