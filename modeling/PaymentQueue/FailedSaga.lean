import PaymentQueue.Async.Solo
import PaymentQueue.Environment
import PaymentQueue.Events

/-!
# PaymentQueue.FailedSaga

What does a failed saga leave in the payment repository?

The ledger step writes COMPLETED and then stores the result in Redis, inside one
`execute`; the coordinator compensates only steps whose `execute` resolved. When the
store rejects, the saga refunds and voids, but the record stays COMPLETED
(`failed_saga_completed`), and that is the only outcome of the calls that leaves it so
(`failed_saga_record`).
-/

namespace PaymentQueue

open Async Stage

/-! ### What the events of a saga do to the record -/

/-- The record of a payment after an event. -/
def recordAfter (id : String) (record : Option PaymentRecord) :
    ProcEvent → Option PaymentRecord
  | ⟨.upsertStatus id' record', .ok _⟩ => if id' = id then some record' else record
  | _ => record

/-- The repository changes by resolved upserts only. -/
theorem World.records_perform {w w' : World} {o : Op} {a : Answer} {r : o.Ret}
    (h : w.perform o a = some (r, w')) (id : String) :
    w'.records id = recordAfter id (w.records id) ⟨o, r⟩ := by
  cases o with
  | upsertStatus id' record =>
      cases a <;> simp only [perform, reduceCtorEq, Option.some.injEq, Prod.mk.injEq] at h
      all_goals obtain ⟨rfl, rfl⟩ := h
      · by_cases hid : id = id'
        · subst hid
          simp [recordAfter]
        · have hid' : id' ≠ id := fun h => hid h.symm
          simp [recordAfter, hid, hid']
      · rfl
  | _ =>
      rw [(perform_frame h).records rfl]
      rfl

theorem records_of_answers {w w' : World} {tr : List (ProcEvent)}
    (h : system.Answers w tr w') (id : String) :
    w'.records id = tr.foldl (recordAfter id) (w.records id) :=
  (h.amid (R := fun w w' => w' = w) fun _ => rfl).view (fun w : World => w.records id)
    (fun hR => by rw [hR]) fun _ hw => World.records_perform hw id

/-- The record says that the payment is completed. -/
def SaysCompleted (record : Option PaymentRecord) : Prop :=
  record.map (·.status) = some .completed

instance : DecidablePred SaysCompleted := fun _ => inferInstanceAs (Decidable (_ = _))

/-! ### The record at every stage of a saga -/

/-- What a saga of payment `id` has done to the record by stage `g`, given what it has
been answered so far. -/
def RecordAt (id : String) (before : Option PaymentRecord) (tr : List (ProcEvent)) :
    Stage → Prop
  | .locked | .authorized | .captured | .posting =>
      tr.any isVoid = false ∧ tr.any isStoreReject = false ∧ tr.any (isPost id) = false ∧
        tr.foldl (recordAfter id) before = before
  | .written | .stored | .notifying | .notified | .succeeded =>
      tr.any isVoid = false ∧ tr.any isStoreReject = false ∧ tr.any (isPost id) = true ∧
        SaysCompleted (tr.foldl (recordAfter id) before)
  -- before the cached success: nothing was posted, or the cache rejected what was
  | .unwinding todo _ true =>
      .reverseLedger ∉ todo ∧
      ((tr.any isStoreReject = false ∧ tr.any (isPost id) = false ∧
          tr.foldl (recordAfter id) before = before) ∨
        (tr.any isStoreReject = true ∧ SaysCompleted (tr.foldl (recordAfter id) before)))
  -- after it: the reversal comes first, unless nothing is compensated at all
  | .unwinding todo _ false =>
      tr.any isStoreReject = false ∧ tr.any (isPost id) = true ∧
      (¬ SaysCompleted (tr.foldl (recordAfter id) before) ∨
        (tr.any isVoid = false ∧ (todo = [] ∨ todo.head? = some .reverseLedger)))
  -- the saga is over
  | .recorded | .failed _ _ | .unlocked _ | .burying _ _ | .buried _ _ | .announced _ _
  | .aborted _ | .done => True
  -- it has not begun
  | _ => False

section

variable {job : Job} {before : Option PaymentRecord} {g g' : Stage} {o : Op} {r : o.Ret}
variable {tr : List (ProcEvent)} {err : Thrown} {todo : List Undo}

/-- A step that threw before the cached success. -/
theorem recordAt_unwind_kept {id : String} (htodo : .reverseLedger ∉ todo)
    (h : (tr.any isStoreReject = false ∧ tr.any (isPost id) = false ∧
          tr.foldl (recordAfter id) before = before) ∨
        (tr.any isStoreReject = true ∧ SaysCompleted (tr.foldl (recordAfter id) before))) :
    RecordAt id before tr (unwind err todo true) := by
  cases he : err.nullish with
  | true =>
      rw [unwind, undone_of_nullish he]
      exact ⟨by simp, h⟩
  | false =>
      rw [unwind, undone_of_message he]
      exact ⟨htodo, h⟩

/-- A step that threw after it. -/
theorem recordAt_unwind_given {id : String} (htodo : todo.head? = some .reverseLedger)
    (hstore : tr.any isStoreReject = false) (hpost : tr.any (isPost id) = true)
    (hvoid : tr.any isVoid = false) : RecordAt id before tr (unwind err todo false) := by
  cases he : err.nullish with
  | true =>
      rw [unwind, undone_of_nullish he]
      exact ⟨hstore, hpost, Or.inr ⟨hvoid, Or.inl rfl⟩⟩
  | false =>
      rw [unwind, undone_of_message he]
      exact ⟨hstore, hpost, Or.inr ⟨hvoid, Or.inr htodo⟩⟩

theorem RecordAt.step (h : RecordAt job.data.id before tr g) (hT : Edge job g o r g')
    (hrev : isReversalReject ⟨o, r⟩ = false) :
    RecordAt job.data.id before (tr ++ [⟨o, r⟩]) g' := by
  cases hT
  case decline | chargeErr | captureErr | postErr =>
    refine recordAt_unwind_kept (by simp) (Or.inl ?_)
    simpa [isStoreReject, isPost, recordAfter] using h.2
  case writeErr =>
    refine recordAt_unwind_kept (by simp) (Or.inl ?_)
    simpa [isStoreReject, isPost, recordAfter] using h.2
  case storeErr =>
    refine recordAt_unwind_kept (by simp) (Or.inr ?_)
    simpa [isStoreReject, recordAfter] using h.2.2.2
  case notifyInjected | notifyEmitErr =>
    obtain ⟨hv, hs, hp, -⟩ := h
    refine recordAt_unwind_given rfl ?_ ?_ ?_
    · simpa [isStoreReject] using hs
    · simpa [isPost] using hp
    · simpa [isVoid] using hv
  case completeErr =>
    obtain ⟨hv, hs, hp, -⟩ := h
    refine ⟨?_, ?_, Or.inr ⟨?_, Or.inl rfl⟩⟩
    · simpa [isStoreReject] using hs
    · simpa [isPost] using hp
    · simpa [isVoid] using hv
  case reverseLedger todo err kept r =>
    cases r with
    | error e => exact absurd hrev (by simp [isReversalReject])
    | ok _ =>
      cases kept with
      | true => exact absurd h.1 (by simp)
      | false =>
          refine ⟨?_, ?_, Or.inl ?_⟩
          · simpa [isStoreReject] using h.1
          · simp [isPost]
          · simp [recordAfter, SaysCompleted]
  case refund todo err kept txn | voidAuthorization todo err kept txn =>
    -- a reversal that was due has come before
    cases kept with
    | true => simpa [RecordAt, isStoreReject, isPost, recordAfter] using h
    | false =>
        obtain ⟨hs, hp, hdone | ⟨-, htodo⟩⟩ := h
        · refine ⟨?_, ?_, Or.inl ?_⟩
          · simpa [isStoreReject] using hs
          · simpa [isPost] using hp
          · simpa [recordAfter] using hdone
        · exact absurd htodo (by simp)
  case freeFailed err kept =>
    cases kept <;> simpa [RecordAt, isVoid, isStoreReject, isPost, recordAfter] using h
  case write =>
    obtain ⟨hv, hs, -⟩ := h
    simp_all [RecordAt, isVoid, isStoreReject, isPost, recordAfter, SaysCompleted]
  all_goals first
    | trivial
    | exact h.elim
    | simpa [RecordAt, isVoid, isStoreReject, isPost, recordAfter] using h

end

/-- **The record after a failed saga.** When `runSaga` rejects after the authorization
was voided and every compensation succeeded, the record is not COMPLETED exactly if
`storeResult` did not reject, and the record was not COMPLETED before or was written. -/
theorem failed_saga_record {p : Payment} {w w' : World} {tr : List (ProcEvent)}
    {e : Thrown} (hexec : Exec (runSaga p) tr (.error e)) (hans : system.Answers w tr w')
    (hvoid : tr.any isVoid = true) (hrev : tr.any isReversalReject = false) :
    ¬ SaysCompleted (w'.records p.id) ↔
      tr.any isStoreReject = false ∧
        (¬ SaysCompleted (w.records p.id) ∨ tr.any (isPost p.id) = true) := by
  obtain ⟨g, hpath, kept, rfl⟩ := runSaga_path hexec
  have hrec : RecordAt p.id (w.records p.id) tr (.unwinding [] e kept) :=
    hpath.induct_without (P := fun g pre => RecordAt p.id (w.records p.id) pre g)
      (fun _ hpre hT hrev => hpre.step hT hrev) hrev ⟨rfl, rfl, rfl, rfl⟩
  rw [records_of_answers hans p.id]
  cases kept with
  | true =>
      obtain ⟨-, ⟨hs, hp, heq⟩ | ⟨hs, hsays⟩⟩ := hrec
      · simp [hs, hp, heq]
      · simp [hs, hsays]
  | false =>
      obtain ⟨hs, hp, hsays | ⟨hv, -⟩⟩ := hrec
      · simp [hs, hp, hsays]
      · simp [hvoid] at hv

/-- The injected failure of the ledger step: the record is as it was. -/
theorem failed_saga_record_ledger :
    ∃ tr e w', Exec (runSaga cardPayment) tr (.error e) ∧
      system.Answers startedUp tr w' ∧
      (¬ SaysCompleted (w'.records cardPayment.id) ↔
        tr.any isStoreReject = false ∧
          (¬ SaysCompleted (startedUp.records cardPayment.id) ∨
            tr.any (isPost cardPayment.id) = true)) := by
  have hsolo : ∃ tr res w', Exec (runSaga cardPayment) tr res ∧
      system.Answers startedUp tr w' ∧
      (res.isOk = false ∧ tr.any isVoid = true ∧ tr.any isReversalReject = false) :=
    Machine.exists_of_solo [.response accepted, .env none, .env (some "ledger"),
      .resolve, .resolve] (by decide +kernel)
  obtain ⟨tr, res, w', hexec, hans, hres, hvoid, hrev⟩ := hsolo
  cases res with
  | ok _ => exact absurd hres (by simp [Except.isOk, Except.toBool])
  | error e => exact ⟨tr, e, w', hexec, hans, failed_saga_record hexec hans hvoid hrev⟩

/-- The cache rejects after the record was written: the saga refunds and voids, and the
record says COMPLETED. -/
theorem failed_saga_completed :
    ∃ tr res w', Exec (runSaga cardPayment) tr res ∧ system.Answers startedUp tr w' ∧
      (res.isOk = false ∧ tr.any isVoid = true ∧ tr.any isReversalReject = false ∧
        SaysCompleted (w'.records cardPayment.id)) :=
  Machine.exists_of_solo [.response accepted, .env none, .env none, .resolve,
    .reject (.error "ECONNRESET"), .resolve, .resolve] (by decide +kernel)

end PaymentQueue
