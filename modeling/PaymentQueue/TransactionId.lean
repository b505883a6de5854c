import PaymentQueue.Async.Recording
import PaymentQueue.Durable

/-!
# PaymentQueue.TransactionId

Does the record of a payment keep the id of its gateway transaction?

`upsertStatus` replaces the record by the status and the extra fields of its call. The ledger
step supplies the transaction id with COMPLETED; its compensation upserts COMPENSATED and
nothing else, and with that the id is gone, although somebody may have to look the charge up
by it. So the record has the id last supplied unless it was last written by a reversal
(`transactionId_kept_iff`). A ledger entry is reversed when the customer could not be
notified, and never otherwise.
-/

namespace PaymentQueue

open Async Stage

/-! ### The records a call writes -/

/-- A record as the steps of a saga write it. -/
def PaymentRecord.OfSaga (record : PaymentRecord) : Prop :=
  (record.status = .completed ∧ record.gatewayTransactionId.isSome = true) ∨
    record = { status := .compensated }

/-- An upsert writes such a record. -/
def Op.UpsertsOfSaga : Op → Prop
  | upsertStatus _ record => record.OfSaga
  | _ => True

section

variable {P : Op → Prop} {α : Type} {payment : Payment}

theorem awaits_awaited {p : Proc (Except Thrown α)} (h : Awaits P p) : Awaits P (awaited p) :=
  h.bind fun _ => .ofExcept _

theorem awaits_perform {o : Op} (h : P o) : Awaits P (perform o : Proc o.Ret) := .perform h

/-- One step of a saga: its work, the compensations before it, and the rest with the context
that its work leads to. -/
theorem awaits_loop_cons {work : Proc α} {patch : α → PaymentSagaPatch}
    {step : SagaStep effects PaymentSagaContext PaymentSagaPatch}
    {rest completedSteps : List (SagaStep effects PaymentSagaContext PaymentSagaPatch)}
    {ctx : PaymentSagaContext} (hstep : step.execute ctx = work >>= fun a => pure (patch a))
    (hwork : Awaits P work) (hcomp : ∀ step ∈ completedSteps, Awaits P (step.compensate ctx))
    (hrest : ∀ a, Awaits P (PaymentSaga.loop rest (completedSteps ++ [step])
      (Spread.spread ctx (patch a)))) :
    Awaits P (PaymentSaga.loop (step :: rest) completedSteps ctx) := by
  refine PaymentSaga.follows_loop ?_
  rw [hstep]
  refine Follows.bind (hwork.mono ?_)
  intro _ res _
  rcases res with e | a
  · exact PaymentSaga.awaits_onStepFailure hcomp
  · exact hrest a

/-- The compensations of a payment upsert no other record. -/
theorem compensate_upserts {step : SagaStep effects PaymentSagaContext PaymentSagaPatch}
    (h : step ∈ buildPaymentSagaSteps (sagaDeps payment)) (ctx : PaymentSagaContext) :
    Awaits Op.UpsertsOfSaga (step.compensate ctx) := by
  simp only [buildPaymentSagaSteps, List.mem_cons, List.not_mem_nil, or_false] at h
  rcases h with rfl | rfl | rfl | rfl
  · simp only [authorizeStep]
    split
    · exact awaits_perform trivial
    · exact .ret ()
  · simp only [captureStep]
    split
    · exact awaits_perform trivial
    · exact .ret ()
  · simp only [writeLedgerStep]
    split
    · exact awaits_awaited (awaits_perform (Or.inr rfl))
    · exact .ret ()
  · exact .ret ()

theorem throwInjected_upserts (step : String) :
    Awaits Op.UpsertsOfSaga (throwInjectedSagaFailure step) := by
  refine .bind (awaits_perform trivial) fun failStep => ?_
  split
  · exact .ret ()
  · exact .throw _

theorem finalize_upserts (status : PaymentStatus) (reason : Option String) :
    Awaits Op.UpsertsOfSaga (finalize payment status reason) :=
  awaits_awaited (awaits_perform trivial)

/-- The ledger step supplies the id of the transaction that the first step has made. -/
theorem runSaga_upserts : Awaits Op.UpsertsOfSaga (runSaga payment) := by
  have hcomp : ∀ n ctx, ∀ step ∈ (buildPaymentSagaSteps (sagaDeps payment)).take n,
      Awaits Op.UpsertsOfSaga (step.compensate ctx) :=
    fun n ctx step hstep => compensate_upserts (List.mem_of_mem_take hstep) ctx
  refine .bind ?_ fun _ => finalize_upserts _ _
  refine awaits_loop_cons rfl ?_ (hcomp 0 _) fun txn => ?_
  · refine .bind (awaits_awaited (awaits_perform trivial)) fun res => ?_
    split
    · exact .ret _
    · exact .throw _
  refine awaits_loop_cons rfl (throwInjected_upserts _) (hcomp 1 _) fun _ => ?_
  refine awaits_loop_cons rfl ?_ (hcomp 2 _) fun entry => ?_
  · refine .bind (throwInjected_upserts _) fun _ => ?_
    refine .bind (awaits_awaited (awaits_perform (Or.inl ⟨rfl, rfl⟩))) fun _ => ?_
    exact .bind (awaits_awaited (awaits_perform trivial)) fun _ => .ret _
  refine awaits_loop_cons rfl ?_ (hcomp 3 _) fun _ => .ret _
  exact .bind (throwInjected_upserts _) fun _ => awaits_awaited (awaits_perform trivial)

theorem moveToDeadLetter_upserts (reason : Option String) :
    Awaits Op.UpsertsOfSaga (moveToDeadLetter payment reason) :=
  .bind (awaits_awaited (awaits_perform trivial)) fun _ =>
    awaits_awaited (awaits_perform trivial)

theorem reconcile_upserts : Awaits Op.UpsertsOfSaga (reconcile payment) := by
  refine .bind (awaits_awaited (awaits_perform trivial)) fun stillLocked => ?_
  split
  · exact .ret ()
  refine .tryCatch (.bind (awaits_awaited (awaits_perform trivial)) fun status => ?_)
    fun _ => .ret ()
  split
  · exact .bind (awaits_awaited (awaits_perform trivial)) fun _ => finalize_upserts _ _
  · exact .ret ()

theorem sagaInSlot_upserts : Awaits Op.UpsertsOfSaga (sagaInSlot payment) := by
  have hslot : Awaits Op.UpsertsOfSaga (acquireSlot payment.gatewayId) := by
    refine .bind (awaits_perform trivial) fun ticket => ?_
    cases ticket with
    | none => exact .ret ()
    | some ticket => exact awaits_perform trivial
  refine .bind hslot fun _ => .bind (Awaits.attempt ?_) fun r => ?_
  · exact .bind runSaga_upserts fun _ => awaits_perform trivial
  · exact .bind (awaits_perform trivial) fun _ => .ofExcept r

theorem onSagaFailure_upserts {job : Job} (err : Thrown) :
    Awaits Op.UpsertsOfSaga (onSagaFailure job err) := by
  have hmessage : Awaits Op.UpsertsOfSaga (readMessage err : Proc (Option String)) :=
    PaymentSaga.awaits_readMessage
  refine .bind (awaits_perform trivial) fun _ => ?_
  split
  · refine .bind hmessage fun _ => .bind (finalize_upserts _ _) fun _ => ?_
    refine .bind hmessage fun _ => .bind (moveToDeadLetter_upserts _) fun _ => ?_
    exact awaits_awaited (awaits_perform trivial)
  · refine .bind (awaits_awaited (awaits_perform trivial)) fun _ => ?_
    split
    · refine .bind hmessage fun _ => .bind (finalize_upserts _ _) fun _ => ?_
      exact .bind hmessage fun _ => moveToDeadLetter_upserts _
    · exact .throw err

/-- A call upserts only what the steps of a saga write. -/
theorem process_upserts (job : Job) : Awaits Op.UpsertsOfSaga (process job) := by
  refine .bind (awaits_perform trivial) fun registered => ?_
  refine .bind (awaits_perform trivial) fun limited => ?_
  split
  · exact .throw _
  split
  · exact .throw _
  refine .bind (awaits_perform trivial) fun admitted => ?_
  split
  · exact .throw _
  refine .bind (awaits_perform trivial) fun allowed => ?_
  split
  · exact .bind (awaits_perform trivial) fun _ => .throw _
  refine .bind (awaits_awaited (awaits_perform trivial)) fun _ => ?_
  refine .bind (awaits_awaited (awaits_perform trivial)) fun cached => ?_
  split
  · exact .bind (finalize_upserts _ _) fun _ => awaits_perform trivial
  refine .bind (awaits_awaited (awaits_perform trivial)) fun dbRecord => ?_
  split
  · refine .bind (awaits_awaited (awaits_perform trivial)) fun _ => ?_
    exact .bind (finalize_upserts _ _) fun _ => awaits_perform trivial
  refine .bind (awaits_awaited (awaits_perform trivial)) fun locked => ?_
  split
  · exact reconcile_upserts
  · exact .tryCatch sagaInSlot_upserts onSagaFailure_upserts

end

/-! ### The records of a payment in a run -/

/-- The upsert that an operation carries out. -/
def upsertOf : Op → Answer → Option (String × PaymentRecord)
  | .upsertStatus id record, .resolve => some (id, record)
  | _, _ => none

theorem World.records_upsertOf {w w' : World} {o : Op} {a : Answer} {r : o.Ret}
    (h : w.perform o a = some (r, w')) :
    w'.records = match upsertOf o a with
      | some (id, record) => Function.update w.records id (some record)
      | none => w.records := by
  cases o with
  | upsertStatus id record =>
      cases a <;> simp only [perform, reduceCtorEq, Option.some.injEq, Prod.mk.injEq] at h
      all_goals
        obtain ⟨-, rfl⟩ := h
        rfl
  | _ => exact (perform_frame h).records rfl

theorem World.records_move {w w' : World} {m : Move} (h : w.move m = some w') :
    w'.records = w.records := by
  obtain ⟨now, redis, -, rfl⟩ := World.move_frame h
  rfl

variable {ι : Type} [DecidableEq ι]

/-- The upsert that an action carries out, even if the call dies before it hears of it. -/
def upserted (s : State ι) : Action system ι → Option (String × PaymentRecord)
  | .answer c a | .crash c (some a) => (s.thread c).awaiting.bind (upsertOf · a)
  | _ => none

/-- The records of payment `id` so far, latest first, after one more action. -/
def recordsOf (id : String) (records : List PaymentRecord) (s : State ι)
    (a : Action system ι) : List PaymentRecord :=
  match upserted s a with
  | some (id', record) => if id' = id then record :: records else records
  | none => records

/-- A run of calls, with the records of payment `id` in it, latest first. -/
abbrev Written (G : Guard system ι Thrown Unit) (jobs : ι → Job) (w : World) (id : String) :
    State ι → List PaymentRecord → Prop :=
  Recording G (recordsOf id) (processes jobs w) (w.records id).toList

/-- The record of payment `id` has the transaction id last supplied, if any was. -/
def KeepsId (id : String) (s : State ι) (records : List PaymentRecord) : Prop :=
  ∀ txn ∈ records.findSome? (·.gatewayTransactionId),
    (s.world.records id).bind (·.gatewayTransactionId) = some txn

instance (id : String) (s : State ι) (records : List PaymentRecord) :
    Decidable (KeepsId id s records) := inferInstanceAs (Decidable (∀ _ ∈ _, _))

/-- The last record was written by `reverseLedgerEntry`, after an id had been supplied. -/
def reversed : List PaymentRecord → Bool
  | record :: earlier =>
      decide (record.status = .compensated) && earlier.any (·.gatewayTransactionId.isSome)
  | [] => false

/-- Only an upsert changes the records, and only that of its payment. -/
theorem records_step {s s' : State ι} {a : Action system ι} (h : s.step a = some s') :
    s'.world.records = match upserted s a with
      | some (id, record) => Function.update s.world.records id (some record)
      | none => s.world.records := by
  match a with
  | .begin c | .crash c none =>
      simp only [Config.step] at h
      split at h
      · obtain rfl := Option.some.inj h
        rfl
      · exact absurd h (by simp)
  | .answer c a | .crash c (some a) =>
      simp only [Config.step] at h
      split at h
      · next o k hp =>
        obtain ⟨⟨r, w⟩, hw, rfl⟩ := Option.map_eq_some_iff.mp h
        have hup : ∀ act : Action system ι, act = .answer c a ∨ act = .crash c (some a) →
            upserted s act = upsertOf o a := by
          rintro act (rfl | rfl) <;> simp [upserted, hp, Thread.awaiting]
        rw [hup _ (by simp)]
        exact World.records_upsertOf hw
      · exact absurd h (by simp)
  | .move m =>
      obtain ⟨w, hw, rfl⟩ := Option.map_eq_some_iff.mp h
      exact World.records_move hw

omit [DecidableEq ι] in
/-- Who carries out an upsert was awaiting it. -/
theorem awaiting_of_upserted {s : State ι} {a : Action system ι} {id : String}
    {record : PaymentRecord} (h : upserted s a = some (id, record)) :
    ∃ c, (s.thread c).awaiting = some (.upsertStatus id record) := by
  have hop : ∀ {o : Op} {a : Answer}, upsertOf o a = some (id, record) →
      o = .upsertStatus id record := by
    intro o a ho
    unfold upsertOf at ho
    split at ho
    · obtain ⟨rfl, rfl⟩ := Prod.mk.inj (Option.some.inj ho)
      rfl
    · exact absurd ho (by simp)
  match a with
  | .begin _ | .crash _ none | .move _ => exact absurd h (by simp [upserted])
  | .answer c a | .crash c (some a) =>
      obtain ⟨o, ho, hup⟩ := Option.bind_eq_some_iff.mp h
      exact ⟨c, hop hup ▸ ho⟩

section

variable {G : Guard system ι Thrown Unit} {jobs : ι → Job} {w : World} {id : String}
variable {s : State ι} {records : List PaymentRecord} {a : Action system ι}

omit [DecidableEq ι] in
/-- An action leaves the records of the payment as they are, or upserts one. -/
theorem recordsOf_cases (id : String) (records : List PaymentRecord) (s : State ι)
    (a : Action system ι) : recordsOf id records s a = records ∧
      (∀ record, upserted s a ≠ some (id, record)) ∨
    ∃ record, upserted s a = some (id, record) ∧
      recordsOf id records s a = record :: records := by
  unfold recordsOf
  split
  · next id' record hup =>
    by_cases hid : id' = id
    · subst hid
      exact Or.inr ⟨record, hup, if_pos rfl⟩
    · refine Or.inl ⟨if_neg hid, fun record' h => hid ?_⟩
      exact (Prod.mk.inj (Option.some.inj (hup.symm.trans h))).1
  · next hnone => exact Or.inl ⟨rfl, by simp [hnone]⟩

/-- Upserts of other payments leave the record alone. -/
theorem record_unchanged {s' : State ι} (h : s.step a = some s')
    (hother : ∀ record, upserted s a ≠ some (id, record)) :
    s'.world.records id = s.world.records id := by
  rw [records_step h]
  split
  · next id' record hup =>
    have hid : id ≠ id' := fun heq => hother record (heq ▸ hup)
    exact Function.update_of_ne hid _ _
  · rfl

/-- The record of a payment is the last of its records. -/
theorem Written.record_eq (h : Written G jobs w id s records) :
    s.world.records id = records.head? := by
  induction h with
  | start => cases hrec : w.records id <;> simp [processes, Config.start, hrec]
  | @step s s' records a _ _ hs ih =>
      rcases recordsOf_cases id records s a with ⟨hsame, hother⟩ | ⟨record, hup, hnext⟩
      · rw [record_unchanged hs hother, ih, hsame]
      · rw [records_step hs, hup, hnext]
        simp

/-- All records but the first were written by the steps of sagas. -/
theorem Written.head_ofSaga (h : Written G jobs w id s records) :
    records = (w.records id).toList ∨
      ∃ record earlier, records = record :: earlier ∧ record.OfSaga := by
  obtain ⟨-, -, hhead⟩ := Recording.staged
    (I := fun _ records _ => records = (w.records id).toList ∨
      ∃ record earlier, records = record :: earlier ∧ record.OfSaga)
    (fun c => process_upserts (jobs c)) (Or.inl rfl)
    (fun {s records σ a _ _} hat hI _ _ => by
      rcases recordsOf_cases id records s a with ⟨hsame, -⟩ | ⟨record, hup, hnext⟩
      · rw [hsame]
        exact hI
      · obtain ⟨c, hc⟩ := awaiting_of_upserted hup
        obtain ⟨-, hsaga⟩ := hat.edge hc (.ok ())
        exact Or.inr ⟨record, records, hnext, hsaga⟩) h
  exact hhead

/-- **The fallback has an id.** In every run a COMPLETED record holds a transaction id, if it
did so at the start: the lookup of the record never falls back to `unknown`. -/
theorem completed_has_id (hw : ∀ record, w.records id = some record →
      record.status = .completed → record.gatewayTransactionId.isSome = true)
    (h : Run G (processes jobs w) s) : ∀ record, s.world.records id = some record →
      record.status = .completed → record.gatewayTransactionId.isSome = true := by
  intro record hrec hstatus
  obtain ⟨records, h⟩ := h.exists_recording (recordsOf id) (w.records id).toList
  have hlast := Written.record_eq h
  rcases Written.head_ofSaga h with hstart | ⟨record', earlier, rfl, ⟨-, hid⟩ | rfl⟩
  · -- nobody has written it
    refine hw record ?_ hstatus
    rw [← hrec, hlast, hstart]
    cases w.records id <;> rfl
  · obtain rfl : record' = record := by simpa [hrec] using hlast.symm
    exact hid
  · -- a reversal wrote it, so it is not COMPLETED
    obtain rfl : _ = record := by simpa [hrec] using hlast.symm
    exact absurd hstatus (by decide)

/-- After the records of a run, the last of them tells whether the id is still there. -/
theorem Written.keepsId_iff (h : Written G jobs w id s records) :
    KeepsId id s records ↔ reversed records = false := by
  unfold KeepsId
  rw [h.record_eq]
  rcases h.head_ofSaga with rfl | ⟨record, earlier, rfl, ⟨hstatus, hid⟩ | rfl⟩
  · cases w.records id with
    | none => simp [reversed]
    | some record => simp [reversed]
  · obtain ⟨txn, htxn⟩ := Option.isSome_iff_exists.mp hid
    simp [reversed, List.findSome?, hstatus, htxn]
  · -- the id is missing, so none may have been supplied
    have hnone : (∀ txn, earlier.findSome? (·.gatewayTransactionId) ≠ some txn) ↔
        ∀ record ∈ earlier, record.gatewayTransactionId = none := by
      rw [← Option.eq_none_iff_forall_ne_some, List.findSome?_eq_none_iff]
    simpa [reversed, List.findSome?] using hnone

end

/-! ### When the customer can be notified -/

/-- Of a call with the events `tr`: the step that notifies the customer fails, with an error
that has a message. -/
def notifyFails (tr : List ProcEvent) : ProcEvent → Bool
  | ⟨.sagaFailStep, v⟩ => tr.any isStored && v = some "notify"
  | ⟨.emit (.notify _), .error e⟩ => !e.nullish
  | _ => false

/-- Runs in which the customer can be notified. -/
def NotifiesOk (s : State ι) : Action system ι → Prop
  | .answer c a => ∀ ev ∈ s.received c a, notifyFails (eventsOf c s.log) ev = false
  | _ => True

instance (s : State ι) : DecidablePred (NotifiesOk s)
  | .answer _ _ => inferInstanceAs (Decidable (∀ _ ∈ _, _))
  | .begin _ | .crash _ _ | .move _ => .isTrue trivial

/-- A saga comes to reverse its ledger entry when it could not notify the customer. -/
theorem Stage.Edge.reversing_of_notify {job : Job} {g g' : Stage} {o : Op} {r : o.Ret}
    {tr : List ProcEvent} (h : Edge job g o r g')
    (hpub : g.publishing = true → tr.any isStored = true) (hg' : g'.reversing = true) :
    g.reversing = true ∨ notifyFails tr ⟨o, r⟩ = true := by
  cases h
  all_goals simp_all [reversing, publishing, notifyFails, remaining]

/-- What keeps the transaction id of payment `id` when the customer can be notified. -/
structure IdInv (s : State ι) (records : List PaymentRecord) (σ : ι → Stage) : Prop where
  stored : ∀ c, (σ c).publishing = true → (eventsOf c s.log).any isStored = true
  kept : ∀ c, (σ c).reversing = false
  head : reversed records = false

section

variable {G : Guard system ι Thrown Unit} {jobs : ι → Job} {w : World} {id : String}
variable {s : State ι} {records : List PaymentRecord} {σ : ι → Stage}

/-- Nobody upserts COMPENSATED who has no ledger entry to reverse. -/
theorem IdInv.recordsOf_head (h : IdInv s records σ) (hat : AtStages jobs s σ) (id : String)
    (a : Action system ι) : reversed (recordsOf id records s a) = false := by
  rcases recordsOf_cases id records s a with ⟨hsame, -⟩ | ⟨record, hup, hnext⟩
  · rw [hsame]
    exact h.head
  · obtain ⟨c, hc⟩ := awaiting_of_upserted hup
    obtain ⟨g, hT⟩ := hat.edge hc (.ok ())
    have hstatus : record.status = .completed := by
      by_contra hne
      have hrev := hT.reversing_of_upsertStatus hne
      simp [h.kept c] at hrev
    simp [hnext, reversed, hstatus]

theorem IdInv.step {s' : State ι} {σ' : ι → Stage} {a : Action system ι}
    (h : IdInv s records σ) (hat : AtStages jobs s σ) (hok : NotifiesOk s a)
    (hT : TStep (fun c => Edge (jobs c)) s σ a s' σ') :
    IdInv s' (recordsOf id records s a) σ' := by
  have hhead := h.recordsOf_head hat id a
  cases hT with
  | begin hc | crash hc | lost hc | move hm =>
      exact ⟨fun c hpub => by simpa [eventsOf_cons, Entry.eventOf] using h.stored c hpub,
        h.kept, hhead⟩
  | @answer c a o k r w' g hc hw hT =>
      -- the event is no failure of the notification
      have hev := hok _ (received_eq (by rw [hc]; rfl) hw)
      refine ⟨forall_update_events
        (P := fun _ (g : Stage) evs => g.publishing = true → evs.any isStored = true)
        (fun hpub => ?_) fun d _ => h.stored d,
        forall_update (P := fun _ (g : Stage) => g.reversing = false) ?_ fun d _ => h.kept d,
        hhead⟩
      · rcases hT.publishing_of hpub with hg | hst
        · simp [h.stored c hg]
        · simp [hst]
      · by_contra hrev
        rcases hT.reversing_of_notify (h.stored c) (by simpa using hrev) with hg | hfails
        · simp [h.kept c] at hg
        · simp [hev] at hfails

/-- A run in which the customer can be notified reverses no ledger entry. -/
theorem Written.not_reversed (hG : ∀ s a, G s a → NotifiesOk s a)
    (h : Written G jobs w id s records) : reversed records = false := by
  have h₀ : IdInv (processes jobs w) (w.records id).toList (fun _ => .entering) := by
    refine ⟨by simp [publishing], by simp [reversing], ?_⟩
    cases w.records id <;> simp [reversed]
  have hstep : ∀ {s : State ι} {records σ a} {s' : State ι} {σ'}, AtStages jobs s σ →
      IdInv s records σ → G s a → TStep (fun c => Edge (jobs c)) s σ a s' σ' →
      IdInv s' (recordsOf id records s a) σ' :=
    fun hat hI hg hT => hI.step hat (hG _ _ hg) hT
  obtain ⟨σ, -, hI⟩ := Recording.staged (fun c => process_follows (jobs c)) h₀ hstep h
  exact hI.head

end

/-- **The transaction id.** In every run of `process` calls of any payments, whatever the
outcomes of their steps: the record of a payment has the id last supplied for it if and only
if it was not last written by `reverseLedgerEntry`; it always has if the customer can be
notified; and no upsert of another payment changes it. -/
theorem transactionId_kept_iff {G : Guard system ι Thrown Unit} {jobs : ι → Job} {w : World}
    {id : String} {s : State ι} {records : List PaymentRecord}
    (h : Written G jobs w id s records) :
    (KeepsId id s records ↔ reversed records = false) ∧
      ((∀ s a, G s a → NotifiesOk s a) → KeepsId id s records) ∧
      ∀ a s', s.step a = some s' → (∀ record, upserted s a ≠ some (id, record)) →
        s'.world.records id = s.world.records id :=
  ⟨h.keepsId_iff, fun hG => h.keepsId_iff.mpr (h.not_reversed hG),
    fun _ _ hs hother => record_unchanged hs hother⟩

/-- A saga that has posted its ledger entry, and can notify the customer. -/
theorem transactionId_kept_posted :
    ∃ s records, Written NotifiesOk (fun _ : Fin 1 => cardJob 0) startedUp "pay_1" s records ∧
      records = [⟨.completed, some "txn_1"⟩] ∧ KeepsId "pay_1" s records := by
  have hrun : ∃ s records, Written NotifiesOk (fun _ : Fin 1 => cardJob 0) startedUp "pay_1" s
      records ∧ records = [⟨.completed, some "txn_1"⟩] :=
    Recording.exists_of_record (approach 0 ++ takeAndCharge 0 ++ captureAndPost 0 ++
      [.answer 0 (.env none)]) (by decide +kernel)
  obtain ⟨s, records, h, hrecords⟩ := hrun
  exact ⟨s, records, h, hrecords, (transactionId_kept_iff h).2.1 fun _ _ hok => hok⟩

/-- The customer cannot be notified: the ledger entry is reversed, and the record no longer
has the id of the transaction. -/
theorem transactionId_lost :
    ∃ s records, Written (fun _ _ => True) (fun _ : Fin 1 => cardJob 0) startedUp "pay_1" s
        records ∧
      records = [⟨.compensated, none⟩, ⟨.completed, some "txn_1"⟩] ∧
      s.world.records "pay_1" = some ⟨.compensated, none⟩ ∧ ¬ KeepsId "pay_1" s records :=
  Recording.exists_of_record (approach 0 ++ takeAndCharge 0 ++ captureAndPost 0 ++
    [.answer 0 (.env (some "notify")), .answer 0 .resolve]) (by decide +kernel)

end PaymentQueue
