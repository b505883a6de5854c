import PaymentQueue.Async.Instrument
import PaymentQueue.Async.Monitor
import PaymentQueue.Conformance
import PaymentQueue.TransactionId

/-!
# PaymentQueue.Books

What becomes of the money that a `process` call takes, and does the call say what has become
of it?

The books of a call are what it does to the money and to what is kept of it: the charge that
the gateway accepts, the record, the cached result, the customer's notification, a refund, a
void, the verdict, each with the data it is made with. When the call has ended, its books are
closed (`books_close`). COMPLETED stands only under a charge that has led to everything that
is to follow from it, or in books without a charge. A saga that has failed has returned the
charge under its transaction id, and FAILED stands under that or in books without a charge;
with two exceptions. A rejection without a message cuts the matter short and leaves the
charge as it is, and a completed charge may be reported FAILED if COMPLETED could not be.
-/

namespace PaymentQueue

open Async

/-- An entry in the books of a call. -/
inductive Posting
  /-- The gateway has accepted a charge. -/
  | charged (payment : Payment) (response : GatewayResponse)
  | wrote (paymentId : String) (record : PaymentRecord)
  | cached (key : String) (result : GatewayResponse)
  | notified (paymentId : String)
  | refunded (transactionId : Option String)
  | voided (transactionId : Option String)
  | reported (paymentId : String) (status : PaymentStatus)
  /-- A write or the notification was rejected with `null` or `undefined`. -/
  | cutShort
  deriving DecidableEq, Repr

/-- The entry for what can be rejected. -/
def Posting.ofWrite (posting : Posting) : Except Thrown Unit → Option Posting
  | .ok _ => some posting
  | .error e => if e.nullish then some .cutShort else none

/-- The entry for an event. -/
def posting : Event effects → Option Posting
  | ⟨.gatewayProcess payment, .ok v⟩ => if v.success then some (.charged payment v) else none
  | ⟨.upsertStatus paymentId record, r⟩ => Posting.ofWrite (.wrote paymentId record) r
  | ⟨.storeResult key result, r⟩ => Posting.ofWrite (.cached key result) r
  | ⟨.emit (.notify paymentId), r⟩ => Posting.ofWrite (.notified paymentId) r
  | ⟨.refund transactionId, _⟩ => some (.refunded transactionId)
  | ⟨.voidAuthorization transactionId, _⟩ => some (.voided transactionId)
  | ⟨.emit (.statusChanged paymentId status _ _), .ok _⟩ => some (.reported paymentId status)
  | _ => none

/-- The entry for the cached result of a charge. -/
def Posting.remembered (payment : Payment) (txn : String) : Posting :=
  .cached payment.idempotencyKey
    { success := true, transactionId := txn, gatewayId := payment.gatewayId }

/-- What is to follow from an accepted charge, with the charge itself. -/
def completion (payment : Payment) (v : GatewayResponse) : List Posting :=
  [.charged payment v,
    .wrote payment.id { status := .completed, gatewayTransactionId := some v.transactionId },
    .remembered payment v.transactionId,
    .notified payment.id]

/-- The books when a saga has failed. -/
inductive Failed (payment : Payment) : List Posting → Prop
  /-- Nothing was charged. -/
  | untouched : Failed payment []
  /-- Charged, not captured, voided. -/
  | voided (v : GatewayResponse) :
      Failed payment ((completion payment v).take 1 ++ [.voided (some v.transactionId)])
  /-- Captured, and the ledger step has failed. -/
  | refunded (v : GatewayResponse) {n : Nat} (hn : n = 1 ∨ n = 2) :
      Failed payment ((completion payment v).take n ++
        [.refunded (some v.transactionId), .voided (some v.transactionId)])
  /-- The customer could not be notified; the record is set back, if it can be. -/
  | reversed (v : GatewayResponse) {back : List Posting}
      (hback : back = [.wrote payment.id { status := .compensated }] ∨ back = []) :
      Failed payment ((completion payment v).take 3 ++ back ++
        [.refunded (some v.transactionId), .voided (some v.transactionId)])
  /-- Charged, and left at that. -/
  | cutShort (v : GatewayResponse) {n : Nat} (hn : n = 1 ∨ n = 2 ∨ n = 3) :
      Failed payment ((completion payment v).take n ++ [.cutShort])
  /-- Complete, but that could not be reported. -/
  | unreported (v : GatewayResponse) : Failed payment (completion payment v)

/-- The books of a call that has ended. -/
inductive Closed (payment : Payment) : List Posting → Prop
  /-- Found to be completed, by its cached result. -/
  | found : Closed payment [.reported payment.id .completed]
  /-- Known to be completed, by the record or by the gateway: cached, and reported if it can
  be. -/
  | remembered (txn : String) {verdict : List Posting}
      (hverdict : verdict = [.reported payment.id .completed] ∨ verdict = []) :
      Closed payment (.remembered payment txn :: verdict)
  | forgotten : Closed payment [.cutShort]
  /-- Charged, and all is done. -/
  | complete (v : GatewayResponse) :
      Closed payment (completion payment v ++ [.reported payment.id .completed])
  /-- The saga has failed, or did not begin; the failure is reported unless there is a retry
  to come, or the report fails. -/
  | failed {book verdict : List Posting} (hbook : Failed payment book)
      (hverdict : verdict = [.reported payment.id .failed] ∨ verdict = []) :
      Closed payment (book ++ verdict)

/-- The books of a call that has come to nothing. -/
theorem Closed.untouched {payment : Payment} : Closed payment [] :=
  .failed .untouched (.inr rfl)

section

variable {α : Type} {payment : Payment} {book : List Posting} {v : GatewayResponse}

/-- From these books on, a program closes them. -/
abbrev Closes (payment : Payment) (p : Proc α) (book : List Posting) : Prop :=
  Follows (Notes posting) p (fun book' _ => Closed payment book') book

/-- From these books on, a program leaves them as a failed saga does. -/
abbrev Unwinds (payment : Payment) (p : Proc α) (book : List Posting) : Prop :=
  Follows (Notes posting) p (fun book' _ => Failed payment book') book

/-- How a saga leaves the books, with what follows if it succeeds. -/
def Settles (payment : Payment) (verdict : List Posting) :
    List Posting → Except Thrown α → Prop
  | book, .ok _ => ∃ v, book = completion payment v ++ verdict
  | book, .error _ => Failed payment book

/-- An operation that is never entered. -/
def Op.unposted (o : Op) : Prop := ∀ r, posting ⟨o, r⟩ = none

/-- Closed books stay closed as long as nothing is entered. -/
theorem Closed.closes {p : Proc α} (hbook : Closed payment book) (h : Awaits Op.unposted p) :
    Closes payment p book :=
  Awaits.notes h fun _ => hbook

/-- A program that enters nothing, before another. -/
theorem Closed.closes_bind {β : Type} {p : Proc β} {f : β → Proc α}
    (hbook : Closed payment book) (hp : Awaits Op.unposted p)
    (hf : ∀ b, Closes payment (f b) book) : Closes payment (p >>= f) book := by
  refine Follows.bind (Awaits.notes hp fun r => ?_)
  cases r with
  | ok b => exact hf b
  | error e => exact hbook

/-- A report can be rejected. -/
theorem follows_finalize {status : PaymentStatus} {reason : Option String}
    {Q : List Posting → Except Thrown Unit → Prop}
    (hok : Q (book ++ [.reported payment.id status]) (.ok ())) (herr : ∀ e, Q book (.error e)) :
    Follows (Notes posting) (finalize payment status reason) Q book := by
  refine follows_awaited_end (Follows.perform fun r => ⟨_, rfl, ?_⟩)
  cases r with
  | ok _ => exact hok
  | error e => simpa only [posting, Option.toList_none, List.append_nil] using herr e

/-- A report, before a program that enters nothing. -/
theorem closes_finalize {status : PaymentStatus} {reason : Option String} {f : Unit → Proc α}
    (hok : Closed payment (book ++ [.reported payment.id status])) (herr : Closed payment book)
    (hf : Awaits Op.unposted (f ())) :
    Closes payment (finalize payment status reason >>= f) book :=
  Follows.bind (follows_finalize (hok.closes hf) fun _ => herr)

/-- How a write ends: with its entry, or with an error and the matter cut short if the error
has no message. -/
def Entered (book : List Posting) (posted : Posting) : List Posting → Except Thrown Unit → Prop
  | book', .ok _ => book' = book ++ [posted]
  | book', .error e => book' = if e.nullish then book ++ [.cutShort] else book

theorem entered_of_ofWrite (posted : Posting) (r : Except Thrown Unit) :
    Entered book posted (book ++ (posted.ofWrite r).toList) r := by
  cases r with
  | ok _ => rfl
  | error e => cases he : e.nullish <;> simp [Entered, Posting.ofWrite, he]

theorem upsertStatus_entered {paymentId : String} {record : PaymentRecord} :
    Follows (Notes posting) (awaited (perform (.upsertStatus paymentId record)))
      (Entered book (.wrote paymentId record)) book :=
  follows_awaited_end (Follows.perform fun r => ⟨_, rfl, entered_of_ofWrite _ r⟩)

theorem storeResult_entered {key : String} {result : GatewayResponse} :
    Follows (Notes posting) (awaited (perform (.storeResult key result)))
      (Entered book (.cached key result)) book :=
  follows_awaited_end (Follows.perform fun r => ⟨_, rfl, entered_of_ofWrite _ r⟩)

theorem notify_entered {paymentId : String} :
    Follows (Notes posting) (awaited (perform (.emit (.notify paymentId))))
      (Entered book (.notified paymentId)) book :=
  follows_awaited_end (Follows.perform fun r => ⟨_, rfl, entered_of_ofWrite _ r⟩)

/-- The three ends of a write. -/
theorem follows_write {p : Proc Unit} {posted : Posting}
    {Q : List Posting → Except Thrown Unit → Prop}
    (hp : Follows (Notes posting) p (Entered book posted) book)
    (hok : Q (book ++ [posted]) (.ok ()))
    (herr : ∀ e, e.nullish = false → Q book (.error e))
    (hcut : ∀ e, e.nullish = true → Q (book ++ [.cutShort]) (.error e)) :
    Follows (Notes posting) p Q book := by
  refine hp.mono ?_
  intro book' r hr
  rcases r with e | _
  · cases he : e.nullish with
    | false =>
        obtain rfl : book' = book := by simpa [Entered, he] using hr
        exact herr e he
    | true =>
        obtain rfl : book' = book ++ [.cutShort] := by simpa [Entered, he] using hr
        exact hcut e he
  · obtain rfl : book' = book ++ [posted] := hr
    exact hok

/-! ### Compensation -/

variable {ctx : PaymentSagaContext} {txn : String}

theorem unwinds_authorize (hr : ctx.reserved = true) (htxn : ctx.gatewayTransactionId = some txn)
    (hvoided : Failed payment (book ++ [.voided (some txn)])) :
    Unwinds payment (PaymentSaga.compensate ctx [authorizeStep (sagaDeps payment)]) book := by
  refine PaymentSaga.follows_compensate ?_
  simp only [authorizeStep, hr, ↓reduceIte]
  rw [← htxn] at hvoided
  exact Follows.perform fun _ => ⟨_, rfl, hvoided⟩

theorem unwinds_capture (hr : ctx.reserved = true) (hc : ctx.captured = true)
    (htxn : ctx.gatewayTransactionId = some txn)
    (hrefunded : Failed payment (book ++ [.refunded (some txn), .voided (some txn)])) :
    Unwinds payment (PaymentSaga.compensate ctx
      [captureStep (sagaDeps payment), authorizeStep (sagaDeps payment)]) book := by
  refine PaymentSaga.follows_compensate ?_
  simp only [captureStep, hc, ↓reduceIte]
  refine Follows.perform fun _ => ⟨_, rfl, unwinds_authorize hr htxn ?_⟩
  simpa [sagaDeps, posting, htxn] using hrefunded

theorem unwinds_writeLedger (hr : ctx.reserved = true) (hc : ctx.captured = true)
    (htxn : ctx.gatewayTransactionId = some txn) (hl : truthy ctx.ledgerEntryId = true)
    (hreversed : ∀ back, (back = [.wrote payment.id { status := .compensated }] ∨ back = []) →
      Failed payment (book ++ back ++ [.refunded (some txn), .voided (some txn)]))
    (hcut : Failed payment (book ++ [.cutShort])) :
    Unwinds payment (PaymentSaga.compensate ctx
      [writeLedgerStep (sagaDeps payment), captureStep (sagaDeps payment),
        authorizeStep (sagaDeps payment)]) book := by
  refine PaymentSaga.follows_compensate ?_
  simp only [writeLedgerStep, hl, ↓reduceIte]
  refine upsertStatus_entered.mono ?_
  intro book' r hentered
  rcases r with e | _
  · refine ⟨fun he => unwinds_capture hr hc htxn ?_, fun he => ?_⟩
    · obtain rfl : book' = book := by simpa [Entered, he] using hentered
      simpa using hreversed [] (Or.inr rfl)
    · obtain rfl : book' = book ++ [.cutShort] := by simpa [Entered, he] using hentered
      exact hcut
  · obtain rfl : book' = book ++ [_] := hentered
    exact unwinds_capture hr hc htxn (hreversed _ (Or.inl rfl))

/-! ### The steps of the saga, the last one first -/

section

variable {err : Thrown} {verdict : List Posting}
variable {completedSteps : List (SagaStep effects PaymentSagaContext PaymentSagaPatch)}

/-- A step has failed: what has been done is compensated. -/
theorem settles_of_message (herr : err.nullish = false)
    (hcomp : Unwinds payment (PaymentSaga.compensate ctx completedSteps.reverse) book) :
    Follows (Notes posting) (PaymentSaga.onStepFailure ctx completedSteps err : Proc α)
      (Settles payment verdict) book := by
  refine PaymentSaga.follows_readMessage (fun _ _ => ?_) (by simp [herr])
  refine Follows.bind (hcomp.mono ?_)
  intro book' r hfailed
  cases r <;> exact hfailed

/-- A step has failed with an error without a message: nothing is compensated. -/
theorem settles_of_nullish (herr : err.nullish = true) (hfailed : Failed payment book) :
    Follows (Notes posting) (PaymentSaga.onStepFailure ctx completedSteps err : Proc α)
      (Settles payment verdict) book :=
  PaymentSaga.follows_readMessage (by simp [herr]) fun _ => hfailed

/-- A step has failed with nothing charged. -/
theorem settles_untouched : Follows (Notes posting) (PaymentSaga.onStepFailure ctx
      ([] : List (SagaStep effects PaymentSagaContext PaymentSagaPatch)) err : Proc α)
    (Settles payment verdict) [] := by
  cases herr : err.nullish with
  | false => exact settles_of_message herr .untouched
  | true => exact settles_of_nullish herr .untouched

end

/-- A saga step: its work, and the rest of the loop or the compensations. -/
theorem follows_step {work : Proc α} {patch : α → PaymentSagaPatch}
    {step : SagaStep effects PaymentSagaContext PaymentSagaPatch}
    {rest completedSteps : List (SagaStep effects PaymentSagaContext PaymentSagaPatch)}
    {Q : List Posting → Except Thrown PaymentSagaContext → Prop}
    (hstep : step.execute ctx = work >>= fun a => pure (patch a))
    (hwork : Follows (Notes posting) work (fun book' r => match r with
      | .ok a => Follows (Notes posting) (PaymentSaga.loop rest (completedSteps ++ [step])
          (Spread.spread ctx (patch a))) Q book'
      | .error err => Follows (Notes posting)
          (PaymentSaga.onStepFailure ctx completedSteps err) Q book') book) :
    Follows (Notes posting) (PaymentSaga.loop (step :: rest) completedSteps ctx) Q book := by
  refine PaymentSaga.follows_loop ?_
  rw [hstep]
  refine Follows.bind (hwork.mono ?_)
  intro book' r hr
  rcases r with e | a <;> exact hr

theorem follows_throwInjected {step : String} {Q : List Posting → Except Thrown Unit → Prop}
    (hok : Q book (.ok ())) (herr : Q book (.error (injectedSagaFailure step))) :
    Follows (Notes posting) (throwInjectedSagaFailure step) Q book := by
  refine Follows.perform_bind fun v => ⟨book, by simp [Watched, posting], ?_⟩
  by_cases hv : v = some step
  · simp only [hv, ne_eq, not_true_eq_false, ↓reduceIte]
    exact herr
  · simp only [hv, ne_eq, not_false_eq_true, ↓reduceIte]
    exact hok

theorem settles_notifyCustomer (hid : ctx.paymentId = payment.id) (hr : ctx.reserved = true)
    (hc : ctx.captured = true) (htxn : ctx.gatewayTransactionId = some v.transactionId)
    (hl : truthy ctx.ledgerEntryId = true) :
    Follows (Notes posting) (PaymentSaga.loop [notifyCustomerStep (sagaDeps payment)]
      [authorizeStep (sagaDeps payment), captureStep (sagaDeps payment),
        writeLedgerStep (sagaDeps payment)] ctx) (Settles payment [])
      ((completion payment v).take 3) := by
  have hcomp : Unwinds payment (PaymentSaga.compensate ctx
      [writeLedgerStep (sagaDeps payment), captureStep (sagaDeps payment),
        authorizeStep (sagaDeps payment)]) ((completion payment v).take 3) :=
    unwinds_writeLedger hr hc htxn hl (fun _ hback => .reversed v hback)
      (.cutShort v (.inr (.inr rfl)))
  refine follows_step rfl (Follows.bind (follows_throwInjected ?_ ?_))
  · refine follows_write notify_entered ?_ (fun e he => ?_) fun e he => ?_
    · rw [hid]
      exact ⟨v, rfl⟩
    · exact settles_of_message he hcomp
    · exact settles_of_nullish he (.cutShort v (.inr (.inr rfl)))
  · exact settles_of_message rfl hcomp

theorem settles_writeLedger (hid : ctx.paymentId = payment.id) (hr : ctx.reserved = true)
    (hc : ctx.captured = true) (htxn : ctx.gatewayTransactionId = some v.transactionId) :
    Follows (Notes posting) (PaymentSaga.loop
      [writeLedgerStep (sagaDeps payment), notifyCustomerStep (sagaDeps payment)]
      [authorizeStep (sagaDeps payment), captureStep (sagaDeps payment)] ctx)
      (Settles payment []) ((completion payment v).take 1) := by
  have hcomp : ∀ {n}, n = 1 ∨ n = 2 → Unwinds payment (PaymentSaga.compensate ctx
      [captureStep (sagaDeps payment), authorizeStep (sagaDeps payment)])
      ((completion payment v).take n) :=
    fun hn => unwinds_capture hr hc htxn (.refunded v hn)
  refine follows_step rfl (Follows.bind (follows_throwInjected ?_ ?_))
  · refine Follows.bind (follows_write upsertStatus_entered ?_ (fun e he => ?_) fun e he => ?_)
    · refine Follows.bind (follows_write storeResult_entered ?_ (fun e he => ?_) fun e he => ?_)
      · rw [htxn]
        exact settles_notifyCustomer hid hr hc htxn (truthy_ledgerEntryId _)
      · rw [htxn]
        exact settles_of_message he (hcomp (.inr rfl))
      · rw [htxn]
        exact settles_of_nullish he (.cutShort v (.inr (.inl rfl)))
    · exact settles_of_message he (hcomp (.inl rfl))
    · exact settles_of_nullish he (.cutShort v (.inl rfl))
  · exact settles_of_message rfl (hcomp (.inl rfl))

theorem settles_capture (hid : ctx.paymentId = payment.id) (hr : ctx.reserved = true)
    (htxn : ctx.gatewayTransactionId = some v.transactionId) :
    Follows (Notes posting) (PaymentSaga.loop
      [captureStep (sagaDeps payment), writeLedgerStep (sagaDeps payment),
        notifyCustomerStep (sagaDeps payment)]
      [authorizeStep (sagaDeps payment)] ctx) (Settles payment [])
      ((completion payment v).take 1) := by
  refine follows_step rfl (follows_throwInjected ?_ ?_)
  · exact settles_writeLedger hid hr rfl htxn
  · exact settles_of_message rfl (unwinds_authorize hr htxn (.voided v))

theorem settles_run : Follows (Notes posting)
    (PaymentSaga.run (buildPaymentSagaSteps (sagaDeps payment))
      { paymentId := payment.id, correlationId := payment.correlationId })
    (Settles payment []) [] := by
  refine follows_step rfl (follows_awaited (Follows.perform fun r => ?_))
  rcases r with e | v
  · exact ⟨[], rfl, settles_untouched⟩
  cases hv : v.success with
  | false =>
      refine ⟨[], by simp [Watched, posting, hv], ?_⟩
      simp only [hv, Bool.false_eq_true, ↓reduceIte]
      exact settles_untouched
  | true =>
      refine ⟨(completion payment v).take 1, by simp [Watched, posting, hv, completion], ?_⟩
      simp only [hv, ↓reduceIte]
      exact settles_capture rfl rfl rfl

/-! ### The call around the saga -/

variable {job : Job}

theorem settles_runSaga : Follows (Notes posting) (runSaga payment)
    (Settles payment [.reported payment.id .completed]) [] := by
  refine Follows.bind (settles_run.mono ?_)
  intro book r hr
  cases r with
  | error e => exact hr
  | ok ctx =>
      obtain ⟨v, rfl⟩ := hr
      rw [List.append_nil]
      exact follows_finalize ⟨v, rfl⟩ fun _ => .unreported v

theorem moveToDeadLetter_unposted (reason : Option String) :
    Awaits Op.unposted (moveToDeadLetter payment reason) :=
  .bind (awaits_awaited (awaits_perform fun _ => rfl)) fun _ =>
    awaits_awaited (awaits_perform fun _ => rfl)

theorem acquireSlot_unposted (gatewayId : String) :
    Awaits Op.unposted (acquireSlot gatewayId) := by
  refine .bind (awaits_perform fun _ => rfl) fun ticket => ?_
  cases ticket with
  | none => exact .ret ()
  | some ticket => exact awaits_perform fun _ => rfl

theorem settles_sagaInSlot : Follows (Notes posting) (sagaInSlot payment)
    (Settles payment [.reported payment.id .completed]) [] := by
  refine Follows.bind (Awaits.notes (acquireSlot_unposted _) fun r => ?_)
  cases r with
  | error e => exact .untouched
  | ok _ =>
      refine Follows.tryFinally (Follows.bind (settles_runSaga.mono ?_))
      intro book r hr
      cases r with
      | ok _ =>
          exact Follows.perform fun _ => ⟨book, by simp [Watched, posting],
            Follows.perform fun _ => ⟨book, by simp [Watched, posting], hr⟩⟩
      | error e => exact Follows.perform fun _ => ⟨book, by simp [Watched, posting], hr⟩

/-- The failure of a saga is reported, or the call throws. -/
theorem closes_onSagaFailure (hfailed : Failed job.data book) (err : Thrown) :
    Closes job.data (onSagaFailure job err) book := by
  have hclosed : Closed job.data book := by simpa using Closed.failed hfailed (.inr rfl)
  have hmessage : Awaits Op.unposted (readMessage err : Proc (Option String)) :=
    PaymentSaga.awaits_readMessage
  have hunlock : Awaits Op.unposted (awaited (perform (.releaseLock job.data.idempotencyKey))) :=
    awaits_awaited (awaits_perform fun _ => rfl)
  refine hclosed.closes_bind (awaits_perform fun _ => rfl) fun _ => ?_
  split
  · refine hclosed.closes_bind hmessage fun _ => ?_
    refine closes_finalize (.failed hfailed (.inl rfl)) hclosed ?_
    exact .bind hmessage fun _ => .bind (moveToDeadLetter_unposted _) fun _ => hunlock
  · refine hclosed.closes_bind hunlock fun _ => ?_
    split
    · refine hclosed.closes_bind hmessage fun _ => ?_
      refine closes_finalize (.failed hfailed (.inl rfl)) hclosed ?_
      exact .bind hmessage fun _ => moveToDeadLetter_unposted _
    · exact hclosed

/-- A known charge is cached. -/
theorem closes_remember {txn : String} {f : Unit → Proc Unit}
    (hf : Closes payment (f ()) [.remembered payment txn]) : Closes payment
      (awaited (perform (.storeResult payment.idempotencyKey
        { success := true, transactionId := txn, gatewayId := payment.gatewayId })) >>= f) [] :=
  Follows.bind (follows_write storeResult_entered hf (fun _ _ => .untouched) fun _ _ => .forgotten)

theorem closes_reconcile : Closes payment (reconcile payment) [] := by
  refine Closed.untouched.closes_bind (awaits_awaited (awaits_perform fun _ => rfl)) fun b => ?_
  cases b with
  | false => exact .untouched
  | true =>
      have hbody : Closes payment
          (do
            let status ← awaited (perform
              (.gatewayGetStatus payment.gatewayId payment.idempotencyKey))
            if status.status = .settled then do
              awaited (perform (.storeResult payment.idempotencyKey
                { success := true
                  transactionId := status.transactionId
                  gatewayId := payment.gatewayId }))
              finalize payment .completed none
            else pure ()) [] := by
        refine Closed.untouched.closes_bind (awaits_awaited (awaits_perform fun _ => rfl))
          fun status => ?_
        split
        · exact closes_remember (follows_finalize (.remembered _ (.inl rfl))
            fun _ => .remembered _ (.inr rfl))
        · exact .untouched
      refine Follows.tryCatch (hbody.mono ?_)
      intro book r hclosed
      cases r <;> exact hclosed

/-- Whatever the answers, a call closes its books. -/
theorem closes_process : Closes job.data (process job) [] := by
  have hrecord : Awaits Op.unposted (perform (.recordSuccess job.data.gatewayId) : Proc Unit) :=
    awaits_perform fun _ => rfl
  refine Closed.untouched.closes_bind (awaits_perform fun _ => rfl) fun registered => ?_
  refine Closed.untouched.closes_bind (awaits_perform fun _ => rfl) fun limited => ?_
  split
  · exact .untouched
  split
  · exact .untouched
  refine Closed.untouched.closes_bind (awaits_perform fun _ => rfl) fun admitted => ?_
  split
  · exact .untouched
  refine Closed.untouched.closes_bind (awaits_perform fun _ => rfl) fun allowed => ?_
  split
  · exact Closed.untouched.closes_bind (awaits_perform fun _ => rfl) fun _ => .untouched
  refine Closed.untouched.closes_bind (awaits_awaited (awaits_perform fun _ => rfl)) fun _ => ?_
  refine Closed.untouched.closes_bind (awaits_awaited (awaits_perform fun _ => rfl))
    fun cached => ?_
  split
  · exact closes_finalize .found .untouched hrecord
  refine Closed.untouched.closes_bind (awaits_awaited (awaits_perform fun _ => rfl))
    fun dbRecord => ?_
  split
  · exact closes_remember
      (closes_finalize (.remembered _ (.inl rfl)) (.remembered _ (.inr rfl)) hrecord)
  refine Closed.untouched.closes_bind (awaits_awaited (awaits_perform fun _ => rfl))
    fun locked => ?_
  split
  · exact closes_reconcile
  refine Follows.tryCatch (settles_sagaInSlot.mono ?_)
  intro book r hr
  cases r with
  | error e => exact closes_onSagaFailure hr e
  | ok _ =>
      obtain ⟨v, rfl⟩ := hr
      exact .complete v

end

/-- **The books close.** In every run of any calls, over whatever world and whatever happens in
it, the books of a call that has ended are closed. -/
theorem books_close {M : Machine effects} {ι : Type} [DecidableEq ι] {G : Guard M ι Thrown Unit}
    {jobs : ι → Job} {w : M.World} {s : Config M ι Thrown Unit}
    (h : Run G (Config.start (fun c => process (jobs c)) w) s) {c : ι} {res : Except Thrown Unit}
    (hc : (s.thread c).outcome = some res) :
    Closed (jobs c).data ((eventsOf c s.log).filterMap posting) :=
  closes_process.notes ((h.through c).exec hc)

/-- The customer of an accepted charge cannot be notified. -/
def chargeReturned {ι : Type} (c : ι) : List (Action system ι) :=
  approach c ++ takeAndCharge c ++ captureAndPost c ++
    (.answer c (.env (some "notify")) :: List.replicate 6 (.answer c .resolve))

/-- The ledger entry is reversed, and the charge is refunded and voided. -/
theorem books_close_returned : ∃ s : State (Fin 1),
    (eventsOf 0 s.log).filterMap posting = (completion cardPayment accepted).take 3 ++
      [.wrote "pay_1" { status := .compensated }] ++
      [.refunded (some "txn_1"), .voided (some "txn_1")] ∧
    Closed cardPayment ((eventsOf 0 s.log).filterMap posting) := by
  have hrun : ∃ s : State (Fin 1), Run (fun _ _ => True)
      (processes (fun _ => cardJob 0) startedUp) s ∧ (s.thread 0).outcome.isSome = true ∧
      (eventsOf 0 s.log).filterMap posting = (completion cardPayment accepted).take 3 ++
        [.wrote "pay_1" { status := .compensated }] ++
        [.refunded (some "txn_1"), .voided (some "txn_1")] :=
    Run.exists_of_exec (chargeReturned 0) (by decide +kernel)
  obtain ⟨s, h, hend, hbooks⟩ := hrun
  obtain ⟨res, hres⟩ := Option.isSome_iff_exists.mp hend
  exact ⟨s, hbooks, books_close h hres⟩

end PaymentQueue
