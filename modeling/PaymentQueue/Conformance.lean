import PaymentQueue.Protocol

/-!
# PaymentQueue.Conformance

Every `process` call follows the control automaton (`process_follows`).

One lemma for each method of the processor, stating from which stage it starts and
at which stage and with which result it may end; its callers use that lemma and not
its body. The saga is verified step by step (`loop_follows`): the work of a step, the
compensation of the steps before it, the rest of the loop.
-/

namespace PaymentQueue

open Async Stage

section

variable {γ α β : Type} {T : γ → (o : Op) → o.Ret → γ → Prop}

/-- An awaited call goes on with the value it resolved with, or throws. -/
theorem follows_awaited {p : Proc (Except Thrown α)} {f : α → Proc β}
    {Q : γ → Except Thrown β → Prop} {g : γ}
    (h : Follows T p (fun g' r => match r with
      | .ok (.ok a) => Follows T (f a) Q g'
      | .ok (.error e) | .error e => Q g' (.error e)) g) :
    Follows T (awaited p >>= f) Q g := by
  refine Follows.bind (Follows.bind (h.mono ?_))
  rintro g' (e | e | a) hr <;> exact hr

/-- An awaited call at the end of a program. -/
theorem follows_awaited_end {p : Proc (Except Thrown α)}
    {Q : γ → Except Thrown α → Prop} {g : γ}
    (h : Follows T p (fun g' r => match r with
      | .ok r => Q g' r
      | .error e => Q g' (.error e)) g) :
    Follows T (awaited p) Q g := by
  refine Follows.bind (h.mono ?_)
  rintro g' (e | e | a) hr <;> exact hr

end

variable {job : Job}

/-! ### Reconciliation -/

theorem reconcile_follows :
    Follows (Edge job) (reconcile job.data) (Ends job) .contending := by
  refine follows_awaited (Follows.perform ?_)
  intro res
  rcases res with e | _ | _
  · exact ⟨_, .hasLockErr e, trivial⟩
  · exact ⟨_, .vanished, trivial⟩
  refine ⟨_, .stillLocked, Follows.tryCatch (follows_awaited (Follows.perform ?_))⟩
  intro res
  rcases res with e | s
  · exact ⟨_, .askErr e, trivial⟩
  by_cases hs : s.status = .settled
  · refine ⟨_, .toldSettled hs, ?_⟩
    simp only [hs, ↓reduceIte]
    refine follows_awaited (Follows.perform ?_)
    intro res
    rcases res with e | _
    · exact ⟨_, .reconcileStoreErr _ e, trivial⟩
    · refine ⟨_, .reconcileStore _, follows_awaited_end (Follows.perform ?_)⟩
      rintro (e | _) <;> exact ⟨_, .reportSettled _, trivial⟩
  · refine ⟨_, .toldOther hs, ?_⟩
    simp only [hs, ↓reduceIte]
    trivial

/-! ### Compensation -/

/-- How the compensations end: all done, or cut short by a `TypeError`. -/
def Unwound (err : Thrown) (kept : Bool) : Stage → Except Thrown Unit → Prop
  | g, .ok _ => g = .unwinding [] err kept
  | g, .error e => g = .unwinding [] e kept

theorem compensate_authorize_follows {ctx : PaymentSagaContext} (hr : ctx.reserved = true)
    (err : Thrown) (kept : Bool) :
    Follows (Edge job)
      (PaymentSaga.compensate ctx [authorizeStep (sagaDeps job.data)])
      (Unwound err kept) (.unwinding [.voidAuthorization] err kept) := by
  refine PaymentSaga.follows_compensate ?_
  simp only [authorizeStep, hr, ↓reduceIte]
  exact Follows.perform fun _ => ⟨_, .voidAuthorization _ _ _ _, rfl⟩

theorem compensate_capture_follows {ctx : PaymentSagaContext} (hr : ctx.reserved = true)
    (hc : ctx.captured = true) (err : Thrown) (kept : Bool) :
    Follows (Edge job)
      (PaymentSaga.compensate ctx
        [captureStep (sagaDeps job.data), authorizeStep (sagaDeps job.data)])
      (Unwound err kept) (.unwinding [.refund, .voidAuthorization] err kept) := by
  refine PaymentSaga.follows_compensate ?_
  simp only [captureStep, hc, ↓reduceIte]
  exact Follows.perform fun _ =>
    ⟨_, .refund _ _ _ _, compensate_authorize_follows hr err kept⟩

theorem compensate_ledger_follows {ctx : PaymentSagaContext} (hr : ctx.reserved = true)
    (hc : ctx.captured = true) (hl : truthy ctx.ledgerEntryId = true) (err : Thrown)
    (kept : Bool) :
    Follows (Edge job)
      (PaymentSaga.compensate ctx
        [writeLedgerStep (sagaDeps job.data), captureStep (sagaDeps job.data),
          authorizeStep (sagaDeps job.data)])
      (Unwound err kept)
      (.unwinding [.reverseLedger, .refund, .voidAuthorization] err kept) := by
  refine PaymentSaga.follows_compensate ?_
  simp only [writeLedgerStep, hl, ↓reduceIte]
  refine follows_awaited_end (Follows.perform ?_)
  intro res
  rcases res with e | _
  · refine ⟨_, .reverseLedger _ _ _ _, ?_, ?_⟩
    · intro he
      rw [undone_of_message he]
      exact compensate_capture_follows hr hc err kept
    · intro he
      rw [undone_of_nullish he]
      rfl
  · exact ⟨_, .reverseLedger _ _ _ _, compensate_capture_follows hr hc err kept⟩

/-- A step that failed: from the stage that unwinds it to the end of the saga. -/
theorem onStepFailure_follows {ctx : PaymentSagaContext} {todo : List Undo} {kept : Bool}
    {completedSteps : List (SagaStep effects PaymentSagaContext PaymentSagaPatch)}
    {α : Type} {Q : Stage → Except Thrown α → Prop} {err : Thrown}
    (hcomp : Follows (Edge job) (PaymentSaga.compensate ctx completedSteps.reverse)
      (Unwound err kept) (.unwinding todo err kept))
    (hQ : ∀ e, Q (.unwinding [] e kept) (.error e)) :
    Follows (Edge job) (PaymentSaga.onStepFailure ctx completedSteps err) Q
      (unwind err todo kept) := by
  refine PaymentSaga.follows_readMessage (fun he _ => ?_) (fun he => ?_)
  · rw [unwind, undone_of_message he]
    refine Follows.bind (hcomp.mono ?_)
    intro g res hg
    rcases res with e | _
    · subst hg
      exact hQ e
    · subst hg
      exact hQ err
  · rw [unwind, undone_of_nullish he]
    exact hQ _

/-! ### The steps of the saga -/

/-- How the work of a saga step ends: at `g` with a value in `P`, or about to undo
`todo`. -/
def StepEnds {α : Type} (g : Stage) (P : α → Prop) (todo : List Undo) (kept : Bool) :
    Stage → Except Thrown α → Prop
  | g', .ok a => g' = g ∧ P a
  | g', .error err => g' = unwind err todo kept

theorem authorize_follows :
    Follows (Edge job) (authorize job.data)
      (StepEnds .authorized (fun _ => True) [] true) .locked := by
  refine follows_awaited (Follows.perform ?_)
  intro res
  rcases res with e | res
  · exact ⟨_, .chargeErr e, rfl⟩
  cases hres : res.success with
  | true =>
      refine ⟨_, .charge hres, ?_⟩
      simp only [hres, ↓reduceIte]
      exact ⟨rfl, trivial⟩
  | false =>
      refine ⟨_, .decline hres, ?_⟩
      simp only [hres, Bool.false_eq_true, ↓reduceIte]
      rfl

theorem throwInjected_follows {step : String} {g g' : Stage} {todo : List Undo}
    {kept : Bool} (hgo : ∀ v, v ≠ some step → Edge job g .sagaFailStep v g')
    (hfail : Edge job g .sagaFailStep (some step)
      (unwind (injectedSagaFailure step) todo kept)) :
    Follows (Edge job) (throwInjectedSagaFailure step)
      (StepEnds g' (fun _ => True) todo kept) g := by
  refine Follows.perform_bind fun v => ?_
  by_cases hv : v = some step
  · subst hv
    refine ⟨_, hfail, ?_⟩
    simp only [ne_eq, not_true_eq_false, ↓reduceIte]
    rfl
  · refine ⟨_, hgo v hv, ?_⟩
    simp only [ne_eq, hv, not_false_eq_true, ↓reduceIte]
    exact ⟨rfl, trivial⟩

theorem capture_follows :
    Follows (Edge job) (throwInjectedSagaFailure "capture")
      (StepEnds .captured (fun _ => True) [.voidAuthorization] true) .authorized :=
  throwInjected_follows (fun _ hv => .capture hv) .captureErr

theorem truthy_ledgerEntryId (id : String) : truthy (some s!"ledger_{id}") = true := by
  have h : s!"ledger_{id}" = "ledger_" ++ id := rfl
  simp [truthy, h]

theorem writeLedgerEntry_follows (ctx : PaymentSagaContext) :
    Follows (Edge job) (writeLedgerEntry job.data ctx)
      (StepEnds .stored (fun id => truthy (some id) = true)
        [.refund, .voidAuthorization] true) .captured := by
  refine Follows.bind ((throwInjected_follows (fun _ hv => .post hv) .postErr).mono ?_)
  intro g res hg
  rcases res with e | _
  · exact hg
  obtain ⟨rfl, -⟩ := hg
  refine follows_awaited (Follows.perform ?_)
  intro res
  rcases res with e | _
  · exact ⟨_, .writeErr _ e, rfl⟩
  refine ⟨_, .write _, follows_awaited (Follows.perform ?_)⟩
  intro res
  rcases res with e | _
  · exact ⟨_, .storeErr _ e, rfl⟩
  · exact ⟨_, .store _, rfl, truthy_ledgerEntryId _⟩

theorem notifyCustomer_follows {ctx : PaymentSagaContext}
    (hctx : ctx.paymentId = job.data.id) :
    Follows (Edge job) ((sagaDeps job.data).notifyCustomer ctx)
      (StepEnds .notified (fun _ => True)
        [.reverseLedger, .refund, .voidAuthorization] false) .stored := by
  refine Follows.bind ((throwInjected_follows (fun _ hv => .notify hv)
    .notifyInjected).mono ?_)
  intro g res hg
  rcases res with e | _
  · exact hg
  obtain ⟨rfl, -⟩ := hg
  rw [hctx]
  refine follows_awaited_end (Follows.perform ?_)
  intro res
  rcases res with e | _
  · exact ⟨_, .notifyEmitErr e, rfl⟩
  · exact ⟨_, .notifyEmit, rfl, trivial⟩

/-- A saga step is verified by its work, by the compensation of the steps before it,
and by the rest of the loop. -/
theorem loop_follows {g g' : Stage} {todo : List Undo} {kept : Bool} {α : Type}
    {P : α → Prop} {work : Proc α} {patch : α → PaymentSagaPatch}
    {step : SagaStep effects PaymentSagaContext PaymentSagaPatch}
    {rest completedSteps : List (SagaStep effects PaymentSagaContext PaymentSagaPatch)}
    {ctx : PaymentSagaContext} {Q : Stage → Except Thrown PaymentSagaContext → Prop}
    (hstep : step.execute ctx = work >>= fun a => pure (patch a))
    (hwork : Follows (Edge job) work (StepEnds g' P todo kept) g)
    (hcomp : ∀ err, Follows (Edge job) (PaymentSaga.compensate ctx completedSteps.reverse)
      (Unwound err kept) (.unwinding todo err kept))
    (hQ : ∀ e, Q (.unwinding [] e kept) (.error e))
    (hrest : ∀ a, P a → Follows (Edge job) (PaymentSaga.loop rest (completedSteps ++ [step])
      (Spread.spread ctx (patch a))) Q g') :
    Follows (Edge job) (PaymentSaga.loop (step :: rest) completedSteps ctx) Q g := by
  refine PaymentSaga.follows_loop ?_
  rw [hstep]
  refine Follows.bind (hwork.mono ?_)
  intro g'' res hg
  rcases res with e | a
  · obtain rfl := hg
    exact onStepFailure_follows (hcomp e) hQ
  · obtain ⟨rfl, ha⟩ := hg
    exact hrest a ha

theorem runSaga_follows :
    Follows (Edge job) (runSaga job.data) SagaEnds .locked := by
  refine Follows.bind ?_
  refine loop_follows rfl authorize_follows (fun _ => rfl) (fun e => ⟨_, rfl⟩) fun txn _ => ?_
  refine loop_follows rfl capture_follows
    (fun err => compensate_authorize_follows rfl err _) (fun e => ⟨_, rfl⟩) fun _ _ => ?_
  refine loop_follows rfl (writeLedgerEntry_follows _)
    (fun err => compensate_capture_follows rfl rfl err _) (fun e => ⟨_, rfl⟩) fun id hid => ?_
  refine loop_follows rfl (notifyCustomer_follows rfl)
    (fun err => compensate_ledger_follows rfl rfl hid err _) (fun e => ⟨_, rfl⟩) fun _ _ => ?_
  refine follows_awaited_end (Follows.perform ?_)
  intro res
  rcases res with e | _
  · exact ⟨_, .completeErr e, ⟨_, rfl⟩⟩
  · exact ⟨_, .complete, rfl⟩

/-- The events of a saga on `p` are a path of the automaton. -/
theorem runSaga_path {p : Payment} {tr : List (Event effects)} {res : Except Thrown Unit}
    (h : Exec (runSaga p) tr res) :
    ∃ g, Path (Edge ⟨"", p, 0⟩) .locked tr g ∧ SagaEnds g res :=
  Follows.path runSaga_follows h

/-! ### The slot, the failure path and the gates -/

theorem acquireSlot_follows :
    Follows (Edge job) (acquireSlot job.data.gatewayId)
      (fun g r => g = .locked ∧ r = .ok ()) .locked := by
  refine Follows.perform_bind ?_
  intro res
  rcases res with _ | ticket
  · exact ⟨_, .slot _, rfl, rfl⟩
  · exact ⟨_, .slot _, Follows.perform fun _ => ⟨_, .granted ticket, rfl, rfl⟩⟩

/-- How `sagaInSlot` ends: successfully, or with the error that is next recorded. -/
def SlotEnds : Stage → Except Thrown Unit → Prop
  | g, .ok _ => g = .done
  | g, .error e => ∃ kept, g = .unwinding [] e kept

theorem sagaInSlot_follows :
    Follows (Edge job) (sagaInSlot job.data) SlotEnds .locked := by
  refine Follows.bind (acquireSlot_follows.mono ?_)
  intro g res hslot
  obtain ⟨rfl, hr⟩ := hslot
  rcases res with e | _
  · exact absurd hr (by simp)
  refine Follows.tryFinally (Follows.bind (runSaga_follows.mono ?_))
  intro g res hg
  rcases res with e | _
  · obtain ⟨kept, rfl⟩ := hg
    exact Follows.perform fun _ => ⟨_, .freeFailed _ _, kept, rfl⟩
  · obtain rfl := hg
    exact Follows.perform fun _ => ⟨_, .recordSaga,
      Follows.perform fun _ => ⟨_, .freeSlot, rfl⟩⟩

theorem moveToDeadLetter_follows (permanent kept : Bool) (reason : Option String) :
    Follows (Edge job) (moveToDeadLetter job.data reason)
      (fun g r => match r with
        | .ok _ => g = .announced permanent kept
        | .error _ => g = .aborted (permanent && kept))
      (.burying permanent kept) := by
  refine follows_awaited (Follows.perform ?_)
  intro res
  rcases res with e | _
  · exact ⟨_, .buryErr _ _ _ e, rfl⟩
  refine ⟨_, .bury _ _ _, follows_awaited_end (Follows.perform ?_)⟩
  intro res
  rcases res with e | _
  · exact ⟨_, .announceErr _ _ _ e, rfl⟩
  · exact ⟨_, .announce _ _ _, rfl⟩

theorem onSagaFailure_follows (err : Thrown) (kept : Bool) :
    Follows (Edge job) (onSagaFailure job err) (Ends job) (.unwinding [] err kept) := by
  refine Follows.perform_bind fun _ => ⟨_, .recordFailed _ _, ?_⟩
  by_cases herr : classifyFailure err = .permanent
  · simp only [herr, ↓reduceIte]
    have hn : err.nullish = false := by
      by_contra h
      exact nullish_not_permanent (by simpa using h) herr
    refine PaymentSaga.follows_readMessage (fun _ m => ?_) (by simp [hn])
    refine follows_awaited (Follows.perform ?_)
    intro res
    rcases res with e | _
    · exact ⟨_, .failPermanentErr herr kept m e, trivial⟩
    refine ⟨_, .failPermanent herr kept m, ?_⟩
    refine PaymentSaga.follows_readMessage (fun _ m => ?_) (by simp [hn])
    refine Follows.bind ((moveToDeadLetter_follows true kept m).mono ?_)
    intro g res hg
    rcases res with e | _
    · subst hg
      trivial
    subst hg
    refine follows_awaited_end (Follows.perform ?_)
    intro res
    rcases res with e | _
    · exact ⟨_, .unlockPermanentErr _ e, trivial⟩
    · exact ⟨_, .unlockPermanent _, trivial⟩
  · simp only [herr, ↓reduceIte]
    refine follows_awaited (Follows.perform ?_)
    intro res
    rcases res with e | _
    · exact ⟨_, .unlockErr herr kept e, trivial⟩
    refine ⟨_, .unlock herr kept, ?_⟩
    by_cases hex : Exhausted job
    · have hused : (job.attemptsMade : Int) + 1 ≥ job.data.maxRetries := hex
      simp only [hused, ↓reduceIte]
      refine PaymentSaga.follows_readMessage (fun hn m => ?_) (fun hn => Or.inr hn)
      refine follows_awaited (Follows.perform ?_)
      intro res
      rcases res with e | _
      · exact ⟨_, .failExhaustedErr hex err m e, trivial⟩
      refine ⟨_, .failExhausted hex err m, ?_⟩
      refine PaymentSaga.follows_readMessage (fun _ m => ?_) (by simp [hn])
      refine (moveToDeadLetter_follows false false _).mono ?_
      intro g res hg
      rcases res with e | _
      · subst hg
        trivial
      subst hg
      rfl
    · have hleft : ¬ (job.attemptsMade : Int) + 1 ≥ job.data.maxRetries := hex
      simp only [hleft, ↓reduceIte]
      exact Or.inl ⟨hex, rfl⟩

theorem processAdmitted_follows :
    Follows (Edge job) (processAdmitted job) (Ends job) .allowed := by
  refine follows_awaited (Follows.perform ?_)
  intro res
  rcases res with e | _
  · exact ⟨_, .startedErr e, trivial⟩
  refine ⟨_, .started, follows_awaited (Follows.perform ?_)⟩
  intro res
  rcases res with e | _ | v
  · exact ⟨_, .getResultErr e, trivial⟩
  · refine ⟨_, .miss, follows_awaited (Follows.perform ?_)⟩
    intro res
    rcases res with e | v
    · exact ⟨_, .getStatusErr e, trivial⟩
    by_cases hv : v.map (·.status) = some .completed
    · refine ⟨_, .dbHit hv, ?_⟩
      simp only [hv, ↓reduceIte]
      refine follows_awaited (Follows.perform ?_)
      intro res
      rcases res with e | _
      · exact ⟨_, .backfillErr _ e, trivial⟩
      refine ⟨_, .backfill _, follows_awaited (Follows.perform ?_)⟩
      intro res
      rcases res with e | _
      · exact ⟨_, .reportErr e, trivial⟩
      exact ⟨_, .report, Follows.perform fun _ => ⟨_, .recordReported, trivial⟩⟩
    · refine ⟨_, .dbMiss hv, ?_⟩
      simp only [hv, ↓reduceIte]
      refine follows_awaited (Follows.perform ?_)
      intro res
      rcases res with e | _ | _
      · exact ⟨_, .acquireErr e, trivial⟩
      · exact ⟨_, .contend, reconcile_follows⟩
      · refine ⟨_, .acquire, Follows.tryCatch (sagaInSlot_follows.mono ?_)⟩
        intro g res hg
        rcases res with e | _
        · obtain ⟨kept, rfl⟩ := hg
          exact onSagaFailure_follows e kept
        · obtain rfl := hg
          trivial
  · refine ⟨_, .hit v, follows_awaited (Follows.perform ?_)⟩
    intro res
    rcases res with e | _
    · exact ⟨_, .reportErr e, trivial⟩
    exact ⟨_, .report, Follows.perform fun _ => ⟨_, .recordReported, trivial⟩⟩

/-- **Conformity.** Whatever answers it receives, a `process` call follows the
automaton from its first stage and ends as the automaton says. -/
theorem process_follows (job : Job) :
    Follows (Edge job) (process job) (Ends job) .entering := by
  refine Follows.perform_bind fun b => ⟨_, .lookupGateway b, ?_⟩
  refine Follows.perform_bind fun b' => ?_
  cases b' with
  | false => exact ⟨_, .unregistered (by simp), trivial⟩
  | true =>
  cases b with
  | false => exact ⟨_, .unregistered (by simp), trivial⟩
  | true =>
  refine ⟨_, .registered, ?_⟩
  refine Follows.perform_bind ?_
  intro res
  rcases res with _ | _
  · exact ⟨_, .refuse, trivial⟩
  refine ⟨_, .pass, Follows.perform_bind ?_⟩
  intro res
  rcases res with _ | _
  · exact ⟨_, .limit, Follows.perform_bind fun ms => ⟨_, .wait ms, trivial⟩⟩
  · exact ⟨_, .consume, processAdmitted_follows⟩

/-- What the stages of a call have to do with its events, from its first stage to one that
allows its end. -/
theorem process_induct {job : Job} {tr : List (Event effects)} {res : Except Thrown Unit}
    {P : Stage → List (Event effects) → Prop} (h₀ : P .entering [])
    (hstep : ∀ {g o r g'} pre, P g pre → Edge job g o r g' → P g' (pre ++ [⟨o, r⟩]))
    (h : Exec (process job) tr res) : ∃ g, Ends job g res ∧ P g tr := by
  obtain ⟨g, hpath, hend⟩ := (process_follows job).path h
  exact ⟨g, hend, Path.induct (T := Edge job) (P := P) hstep hpath h₀⟩

/-- Every operation of a call is on its own payment. -/
theorem Stage.Edge.concerns {g g' : Stage} {o : Op} {r : o.Ret}
    (h : Edge job g o r g') : o.Concerns job.data := by
  cases h <;> first | rfl | trivial

end PaymentQueue
