import PaymentQueue.Async.TwoRun
import PaymentQueue.Breakers
import PaymentQueue.GivingUp
import PaymentQueue.TripCondition

/-!
# PaymentQueue.Recategorised

Do the categories of failures steer what becomes of a payment?

The comments on `FailureCategory` say that an unknown failure caps the retries lower, and that
a rate-limited one does not trip the breaker as hard. But the `catch` of `process` only asks
whether the category is PERMANENT, and `recordFailure` is told no category. So two runs of the
same calls, in which failures of category TRANSIENT in the first are of another category but
PERMANENT in the second, go side by side: `goAlike_process` compares a call with itself,
`World.UpToReasons.perform` the answers of the worlds, and `categories_ignored` reads off what the
runs have in common.
-/

namespace PaymentQueue

open Async

/-! ### What counts as alike -/

/-- Errors that a call treats alike: the same, or two that it can read and may retry. -/
def Thrown.Alike (e e' : Thrown) : Prop :=
  e = e' ∨ (classifyFailure e ≠ .permanent ∧ classifyFailure e' ≠ .permanent ∧
    e.nullish = false ∧ e'.nullish = false)

/-- What a gateway rejects with: the second error may also be one that cannot be read, since
there is nothing to be compensated then. -/
def Thrown.GatewayAlike (e e' : Thrown) : Prop :=
  e = e' ∨ (classifyFailure e ≠ .permanent ∧ classifyFailure e' ≠ .permanent ∧
    e.nullish = false)

/-- Responses of a gateway that a call treats alike. -/
def GatewayResponse.Alike (v v' : GatewayResponse) : Prop :=
  v = v' ∨ (v.success = false ∧ v'.success = false ∧
    (authorizationFailure v).Alike (authorizationFailure v'))

/-- Operations that are the same but for the text of a failure. -/
inductive Op.Alike : Op → Op → Prop
  | same (o : Op) : Alike o o
  | statusChanged (id : String) (status : PaymentStatus) (reason reason' : Option String)
      (correlationId : String) :
      Alike (.emit (.statusChanged id status reason correlationId))
        (.emit (.statusChanged id status reason' correlationId))
  | deadLetter (id : String) (reason reason' : Option String) :
      Alike (.emit (.deadLetter id reason)) (.emit (.deadLetter id reason'))
  | deadLetterAdd (payment : Payment) (reason reason' : Option String) (jobId : String) :
      Alike (.deadLetterAdd { payment with failureReason := reason } jobId)
        (.deadLetterAdd { payment with failureReason := reason' } jobId)

/-- Answers that are the same but for a failure. -/
def Op.AnswersAlike : (o o' : Op) → o.Ret → o'.Ret → Prop
  | .gatewayProcess _, .gatewayProcess _ => EndsAlike Thrown.GatewayAlike GatewayResponse.Alike
  | .gatewayGetStatus _ _, .gatewayGetStatus _ _ => EndsAlike Thrown.GatewayAlike (· = ·)
  | .emit _, .emit _ | .releaseLock _, .releaseLock _ | .storeResult _ _, .storeResult _ _
  | .upsertStatus _ _, .upsertStatus _ _ | .deadLetterAdd _ _, .deadLetterAdd _ _
  | .getResult _, .getResult _ | .acquireLock _, .acquireLock _ | .hasLock _, .hasLock _
  | .getStatus _, .getStatus _ => EndsAlike Thrown.Alike (· = ·)
  | o, o' => fun r r' => (⟨o, r⟩ : Event effects) = ⟨o', r'⟩

/-- Operations and answers up to failures. -/
def upToFailures : Likeness effects := ⟨Op.Alike, Op.AnswersAlike⟩

/-- Programs that go alike up to failures. -/
abbrev GoAlike {α β : Type} (p : Proc α) (q : Proc β) (V : α → β → Prop) : Prop :=
  Parallel upToFailures Thrown.Alike V p q

/-! ### A call beside itself -/

section

variable {α : Type} {e e' : Thrown} {payment : Payment}

theorem Thrown.Alike.refl (e : Thrown) : e.Alike e := Or.inl rfl

theorem goAlike_perform {o o' : Op} (h : o.Alike o') :
    GoAlike (perform o) (perform o') (o.AnswersAlike o') := .perform h

theorem GoAlike.unit {V V' : Unit → Unit → Prop} {p q : Proc Unit} (hV : V' () ())
    (h : GoAlike p q V) : GoAlike p q V' := h.mono fun _ _ _ => hV

/-- An operation before the rest of a program. -/
theorem goAlike_step {β γ : Type} {V : β → γ → Prop} {o : Op} {f : o.Ret → Proc β}
    {g : o.Ret → Proc γ} (h : ∀ r r', o.AnswersAlike o r r' → GoAlike (f r) (g r') V) :
    GoAlike (perform o >>= f) (perform o >>= g) V := (goAlike_perform (.same o)).bind h

theorem goAlike_awaited {p q : Proc (Except Thrown α)}
    (h : GoAlike p q (EndsAlike Thrown.Alike (· = ·))) : GoAlike (awaited p) (awaited q) (· = ·) :=
  h.bind fun _ _ hr => .ofExcept hr

/-- An awaited call before the rest of a program. -/
theorem goAlike_call {β γ : Type} {V : β → γ → Prop} {p q : Proc (Except Thrown α)}
    {f : α → Proc β} {g : α → Proc γ} (h : GoAlike p q (EndsAlike Thrown.Alike (· = ·)))
    (hf : ∀ a, GoAlike (f a) (g a) V) : GoAlike (awaited p >>= f) (awaited q >>= g) V := by
  refine (goAlike_awaited h).bind ?_
  rintro a _ rfl
  exact hf a

theorem goAlike_readMessage (h : e.Alike e') : GoAlike (readMessage e : Proc (Option String))
    (readMessage e') (fun _ _ => True) := by
  refine .ofExcept ?_
  rcases h with rfl | ⟨-, -, hn, hn'⟩
  · cases e.message with
    | ok m => trivial
    | error e => exact .refl e
  · obtain ⟨m, hm⟩ := Thrown.message_of_not_nullish hn
    obtain ⟨m', hm'⟩ := Thrown.message_of_not_nullish hn'
    rw [hm, hm']
    trivial

theorem goAlike_finalize (status : PaymentStatus) (reason reason' : Option String) :
    GoAlike (finalize payment status reason) (finalize payment status reason') (· = ·) :=
  goAlike_awaited (goAlike_perform (.statusChanged _ _ _ _ _))

theorem goAlike_moveToDeadLetter (reason reason' : Option String) :
    GoAlike (moveToDeadLetter payment reason) (moveToDeadLetter payment reason') (· = ·) := by
  refine goAlike_call (goAlike_perform (.deadLetterAdd _ _ _ _)) fun _ => ?_
  exact goAlike_awaited (goAlike_perform (.deadLetter _ _ _))

theorem goAlike_throwInjected (step : String) :
    GoAlike (throwInjectedSagaFailure step) (throwInjectedSagaFailure step) (· = ·) := by
  refine goAlike_step ?_
  rintro v _ ⟨⟩
  split
  · exact .ret rfl
  · exact .throw (.refl _)

/-! ### The saga -/

/-- A step of the saga of a payment. -/
abbrev PaymentStep := SagaStep effects PaymentSagaContext PaymentSagaPatch

/-- The compensation of a step goes like itself. -/
def CompensatesAlike (step : PaymentStep) : Prop :=
  ∀ ctx, GoAlike (step.compensate ctx) (step.compensate ctx) (· = ·)

theorem goAlike_compensate {ctx : PaymentSagaContext} {steps : List PaymentStep}
    (h : ∀ step ∈ steps, CompensatesAlike step) :
    GoAlike (PaymentSaga.compensate ctx steps) (PaymentSaga.compensate ctx steps) (· = ·) := by
  induction steps with
  | nil => exact .ret rfl
  | cons step steps ih =>
      refine .bind ((h step List.mem_cons_self ctx).tryCatch fun e e' he => ?_) fun _ _ _ =>
        ih fun step hstep => h step (List.mem_cons_of_mem _ hstep)
      exact (goAlike_readMessage he).bind fun _ _ _ => .ret rfl

theorem goAlike_onStepFailure {β : Type} {V : α → β → Prop} {ctx : PaymentSagaContext}
    {steps : List PaymentStep} (h : ∀ step ∈ steps, CompensatesAlike step) (he : e.Alike e') :
    GoAlike (PaymentSaga.onStepFailure ctx steps e) (PaymentSaga.onStepFailure ctx steps e') V := by
  refine (goAlike_readMessage he).bind fun _ _ _ => ?_
  refine (goAlike_compensate fun step hstep => h step ?_).bind fun _ _ _ => .throw he
  simpa using hstep

theorem goAlike_loop {steps completedSteps : List PaymentStep} {ctx : PaymentSagaContext}
    (hsteps : ∀ step ∈ steps, ∀ ctx, GoAlike (step.execute ctx) (step.execute ctx) (· = ·))
    (hcomp : ∀ step ∈ completedSteps ++ steps, CompensatesAlike step) :
    GoAlike (PaymentSaga.loop steps completedSteps ctx)
      (PaymentSaga.loop steps completedSteps ctx) (· = ·) := by
  induction steps generalizing completedSteps ctx with
  | nil => exact .ret rfl
  | cons step steps ih =>
      refine (hsteps step List.mem_cons_self ctx).attempt.bind fun r r' hr => ?_
      match r, r', hr with
      | .ok patch, .ok _, rfl =>
          refine ih (fun step hstep => hsteps step (List.mem_cons_of_mem _ hstep)) ?_
          simpa using hcomp
      | .error e, .error e', he =>
          exact goAlike_onStepFailure
            (fun step hstep => hcomp step (List.mem_append_left _ hstep)) he

theorem compensatesAlike_payment :
    ∀ step ∈ buildPaymentSagaSteps (sagaDeps payment), CompensatesAlike step := by
  intro step h ctx
  simp only [buildPaymentSagaSteps, List.mem_cons, List.not_mem_nil, or_false] at h
  rcases h with rfl | rfl | rfl | rfl
  · dsimp only [authorizeStep]
    split
    · exact GoAlike.unit rfl (goAlike_perform (.same _))
    · exact .ret rfl
  · dsimp only [captureStep]
    split
    · exact GoAlike.unit rfl (goAlike_perform (.same _))
    · exact .ret rfl
  · dsimp only [writeLedgerStep]
    split
    · exact goAlike_awaited (goAlike_perform (.same _))
    · exact .ret rfl
  · exact .ret rfl

theorem goAlike_writeLedgerEntry (ctx : PaymentSagaContext) :
    GoAlike (writeLedgerEntry payment ctx) (writeLedgerEntry payment ctx) (· = ·) := by
  refine (goAlike_throwInjected _).bind fun _ _ _ => ?_
  refine goAlike_call (goAlike_perform (.same _)) fun _ => ?_
  exact goAlike_call (goAlike_perform (.same _)) fun _ => .ret rfl

/-- The charge; what it throws has not been read yet. -/
theorem goAlike_authorize : Parallel upToFailures Thrown.GatewayAlike (· = ·)
    (authorize payment) (authorize payment) := by
  have hanswer : Parallel upToFailures Thrown.GatewayAlike GatewayResponse.Alike
      (awaited (perform (.gatewayProcess payment)))
      (awaited (perform (.gatewayProcess payment))) :=
    (Parallel.perform (Op.Alike.same _)).bind fun _ _ hr => .ofExcept hr
  refine hanswer.bind ?_
  rintro v v' (rfl | ⟨hv, hv', he⟩)
  · split
    · exact .ret rfl
    · exact .throw (Or.inl rfl)
  · rw [if_neg (by simp [hv]), if_neg (by simp [hv'])]
    refine .throw ?_
    rcases he with he | ⟨hp, hp', hn, -⟩
    · exact Or.inl he
    · exact Or.inr ⟨hp, hp', hn⟩

/-- A failed charge ends the saga before there is anything to compensate, even if its error
cannot be read. -/
theorem goAlike_onChargeFailure {β : Type} {V : α → β → Prop} {ctx : PaymentSagaContext}
    (h : e.GatewayAlike e') :
    GoAlike (PaymentSaga.onStepFailure ctx ([] : List PaymentStep) e : Proc α)
      (PaymentSaga.onStepFailure ctx ([] : List PaymentStep) e' : Proc β) V := by
  rcases h with rfl | ⟨hp, hp', hn⟩
  · exact goAlike_onStepFailure (by simp) (.refl e)
  cases hn' : e'.nullish with
  | false => exact goAlike_onStepFailure (by simp) (Or.inr ⟨hp, hp', hn, hn'⟩)
  | true =>
      -- reading its message throws an error that may be retried as well
      obtain ⟨m, hm⟩ := Thrown.message_of_not_nullish hn
      have hthrow : PaymentSaga.onStepFailure ctx ([] : List PaymentStep) e =
          (.throw e : Proc α) := by
        rw [PaymentSaga.onStepFailure, readMessage, hm]
        rfl
      have hthrow' : PaymentSaga.onStepFailure ctx ([] : List PaymentStep) e' =
          (.throw e'.typeError : Proc β) := by
        rw [PaymentSaga.onStepFailure, readMessage, Thrown.message_of_nullish hn']
        rfl
      rw [hthrow, hthrow']
      exact .throw (Or.inr ⟨hp, typeError_not_permanent e', hn, e'.typeError_not_nullish⟩)

theorem goAlike_runSaga : GoAlike (runSaga payment) (runSaga payment) (· = ·) := by
  refine Parallel.bind (V := (· = ·)) ?_ fun _ _ _ => goAlike_finalize _ _ _
  have hcharge : Parallel upToFailures Thrown.GatewayAlike (· = ·)
      ((authorizeStep (sagaDeps payment)).execute
        { paymentId := payment.id, correlationId := payment.correlationId })
      ((authorizeStep (sagaDeps payment)).execute
        { paymentId := payment.id, correlationId := payment.correlationId }) := by
    refine goAlike_authorize.bind ?_
    rintro txn _ rfl
    exact .ret rfl
  refine hcharge.attempt.bind fun r r' hr => ?_
  match r, r', hr with
  | .ok patch, .ok _, rfl =>
      -- from here on a failure is read before the saga is undone
      refine goAlike_loop ?_ compensatesAlike_payment
      intro step h ctx
      simp only [List.mem_cons, List.not_mem_nil, or_false] at h
      rcases h with rfl | rfl | rfl
      · exact (goAlike_throwInjected _).bind fun _ _ _ => .ret rfl
      · refine (goAlike_writeLedgerEntry ctx).bind ?_
        rintro entry _ rfl
        exact .ret rfl
      · refine Parallel.bind (V := (· = ·)) ?_ fun _ _ _ => .ret rfl
        refine (goAlike_throwInjected _).bind fun _ _ _ => ?_
        exact goAlike_awaited (goAlike_perform (.same _))
  | .error e, .error e', he => exact goAlike_onChargeFailure he

theorem goAlike_reconcile : GoAlike (reconcile payment) (reconcile payment) (· = ·) := by
  refine goAlike_call (goAlike_perform (.same _)) fun stillLocked => ?_
  split
  · exact .ret rfl
  -- nobody looks at what is caught here
  refine Parallel.tryCatch (E := fun _ _ => True) ?_ fun _ _ _ => .ret rfl
  have hasked : Parallel upToFailures (fun _ _ => True) (· = ·)
      (awaited (perform (.gatewayGetStatus payment.gatewayId payment.idempotencyKey)))
      (awaited (perform (.gatewayGetStatus payment.gatewayId payment.idempotencyKey))) :=
    (Parallel.perform (Op.Alike.same _)).bind fun _ _ hr =>
      Parallel.weaken (fun _ _ _ => trivial) (Parallel.ofExcept hr)
  refine hasked.bind ?_
  rintro status _ rfl
  refine Parallel.weaken (E := Thrown.Alike) (fun _ _ _ => trivial) ?_
  split
  · refine goAlike_call (goAlike_perform (.same _)) fun _ => ?_
    exact goAlike_finalize _ _ _
  · exact .ret rfl

theorem goAlike_sagaInSlot : GoAlike (sagaInSlot payment) (sagaInSlot payment) (· = ·) := by
  have hslot : GoAlike (acquireSlot payment.gatewayId)
      (acquireSlot payment.gatewayId) (· = ·) := by
    refine goAlike_step ?_
    rintro ticket _ ⟨⟩
    cases ticket with
    | none => exact .ret rfl
    | some ticket => exact GoAlike.unit rfl (goAlike_perform (.same _))
  refine hslot.bind fun _ _ _ => .tryFinally ?_
    (GoAlike.unit trivial (goAlike_perform (.same _)))
  exact goAlike_runSaga.bind fun _ _ _ => GoAlike.unit rfl (goAlike_perform (.same _))

/-- The `catch` of `process` goes the same way for errors that are alike. -/
theorem goAlike_onSagaFailure {job : Job} (h : e.Alike e') :
    GoAlike (onSagaFailure job e) (onSagaFailure job e') (· = ·) := by
  have hcategory : classifyFailure e = .permanent ↔ classifyFailure e' = .permanent := by
    rcases h with rfl | ⟨hp, hp', -, -⟩
    · rfl
    · exact iff_of_false hp hp'
  refine goAlike_step fun _ _ _ => ?_
  -- the only question that `process` asks about the category
  by_cases hp : classifyFailure e = .permanent
  · rw [if_pos hp, if_pos (hcategory.mp hp)]
    refine (goAlike_readMessage h).bind fun _ _ _ => ?_
    refine (goAlike_finalize _ _ _).bind fun _ _ _ => ?_
    refine (goAlike_readMessage h).bind fun _ _ _ => ?_
    refine (goAlike_moveToDeadLetter _ _).bind fun _ _ _ => ?_
    exact goAlike_awaited (goAlike_perform (.same _))
  · rw [if_neg hp, if_neg (mt hcategory.mpr hp)]
    refine goAlike_call (goAlike_perform (.same _)) fun _ => ?_
    split
    · refine (goAlike_readMessage h).bind fun _ _ _ => ?_
      refine (goAlike_finalize _ _ _).bind fun _ _ _ => ?_
      refine (goAlike_readMessage h).bind fun _ _ _ => ?_
      exact goAlike_moveToDeadLetter _ _
    · exact .throw h

/-- **A call beside itself** goes alike, whatever the categories of the failures that it may
retry. -/
theorem goAlike_process (job : Job) : GoAlike (process job) (process job) (· = ·) := by
  refine goAlike_step ?_
  rintro registered _ ⟨⟩
  refine goAlike_step ?_
  rintro limited _ ⟨⟩
  split
  · exact .throw (.refl _)
  split
  · exact .throw (.refl _)
  -- the gates of the breaker and of the rate limiter
  refine goAlike_step ?_
  rintro admitted _ ⟨⟩
  split
  · exact .throw (.refl _)
  refine goAlike_step ?_
  rintro allowed _ ⟨⟩
  split
  · refine goAlike_step ?_
    rintro waitMs _ ⟨⟩
    exact .throw (.refl _)
  -- the payment may be completed already
  refine goAlike_call (goAlike_perform (.same _)) fun _ => ?_
  refine goAlike_call (goAlike_perform (.same _)) fun cached => ?_
  split
  · refine (goAlike_finalize _ _ _).bind fun _ _ _ => ?_
    exact GoAlike.unit rfl (goAlike_perform (.same _))
  refine goAlike_call (goAlike_perform (.same _)) fun dbRecord => ?_
  split
  · refine goAlike_call (goAlike_perform (.same _)) fun _ => ?_
    refine (goAlike_finalize _ _ _).bind fun _ _ _ => ?_
    exact GoAlike.unit rfl (goAlike_perform (.same _))
  -- or its saga under way
  refine goAlike_call (goAlike_perform (.same _)) fun locked => ?_
  split
  · exact goAlike_reconcile
  · exact goAlike_sagaInSlot.tryCatch fun _ _ => goAlike_onSagaFailure

end

/-! ### Two runs of calls -/

/-- A dead letter without the reason of the failure. -/
def withoutReason (letter : String × Payment) : String × Payment :=
  (letter.1, { letter.2 with failureReason := none })

/-- Worlds that are the same but for the reasons in the dead-letter queue. -/
def World.UpToReasons (w w' : World) : Prop :=
  ∃ dead, w' = { w with deadLetters := dead } ∧
    dead.map withoutReason = w.deadLetters.map withoutReason

theorem World.UpToReasons.refl (w : World) : w.UpToReasons w := ⟨_, rfl, rfl⟩

/-- The gateway is asked. -/
def Op.asksGateway : Op → Bool
  | gatewayProcess _ | gatewayGetStatus _ _ => true
  | _ => false

/-- In place of a failure of category TRANSIENT there is one of category `target`: an
operation rejects with another error, or the gateway declines with another message. An error
that cannot be read has to come from the gateway. -/
inductive Recategorises (target : FailureCategory) : Op → Answer → Answer → Prop
  | same (o : Op) (a : Answer) : Recategorises target o a a
  | reject {o : Op} {e e' : Thrown} (he : classifyFailure e = .transient)
      (he' : classifyFailure e' = target)
      (hread : o.asksGateway = false → e'.nullish = false) :
      Recategorises target o (.reject e) (.reject e')
  | decline {payment : Payment} {v v' : GatewayResponse} (hv : v.success = false)
      (hv' : v'.success = false)
      (he : classifyFailure (authorizationFailure v) = .transient)
      (he' : classifyFailure (authorizationFailure v') = target) :
      Recategorises target (.gatewayProcess payment) (.response v) (.response v')

/-- The operation adds to the dead-letter queue. -/
def Op.buries : Op → Bool
  | deadLetterAdd _ _ => true
  | _ => false

section

variable {w w' w₁ w₁' : World} {o o' : Op} {a a' : Answer} {dead : List (String × Payment)}

theorem World.setBreaker_deadLetters {g : String} {gw : RegisteredGateway}
    {b : CircuitBreaker} : World.setBreaker { w with deadLetters := dead } g gw b =
      { w.setBreaker g gw b with deadLetters := dead } := by
  unfold setBreaker onStateChange
  split
  · rfl
  · split <;> rfl

/-- No operation reads the dead-letter queue, and only one writes it. -/
theorem World.perform_deadLetters (dead : List (String × Payment)) (ho : o.buries = false) :
    World.perform { w with deadLetters := dead } o a =
      (w.perform o a).map fun out => (out.1, { out.2 with deadLetters := dead }) := by
  cases o with
  | deadLetterAdd payment jobId => exact absurd ho (by simp [Op.buries])
  | canAttempt g | recordSuccess g | recordFailure g =>
      cases a <;> try rfl
      simp only [perform, Option.map_map, setBreaker_deadLetters]
      rfl
  | tryConsume g | msUntilAvailable g | semaphoreAcquire g | semaphoreRelease g =>
      cases a <;> try rfl
      simp only [perform, Option.map_map]
      rfl
  | semaphoreGranted g ticket =>
      cases a <;> try rfl
      simp only [perform]
      cases w.gateways g with
      | none => rfl
      | some gw =>
          simp only [Option.bind_some]
          split <;> rfl
  | _ => cases a <;> rfl

/-- Operations on worlds that are alike, answered by the same. -/
theorem World.UpToReasons.perform_same {r r' : o.Ret} (hW : w.UpToReasons w')
    (ho : o.buries = false) (h : w.perform o a = some (r, w₁))
    (h' : w'.perform o a = some (r', w₁')) : r' = r ∧ w₁.UpToReasons w₁' := by
  obtain ⟨dead, rfl, hdead⟩ := hW
  have hkept := World.perform_deadLetters (w := w) (a := a) w.deadLetters ho
  rw [World.perform_deadLetters _ ho, h] at h'
  rw [h] at hkept
  simp only [Option.map_some, Option.some.injEq, Prod.mk.injEq] at h' hkept
  obtain ⟨rfl, rfl⟩ := h'
  refine ⟨rfl, dead, rfl, hdead.trans ?_⟩
  rw [show w₁.deadLetters = w.deadLetters by rw [hkept.2]]

theorem Op.answersAlike_refl (o : Op) (r : o.Ret) : o.AnswersAlike o r r := by
  have hsame : ∀ {α : Type} {E : Thrown → Thrown → Prop}, (∀ e, E e e) →
      ∀ r : Except Thrown α, EndsAlike E (· = ·) r r := by
    rintro α E hE (e | a)
    · exact hE e
    · exact rfl
  cases o with
  | gatewayProcess payment =>
      rcases r with e | v
      · exact Or.inl rfl
      · exact Or.inl rfl
  | gatewayGetStatus gatewayId transactionId => exact hsame (fun _ => Or.inl rfl) r
  | _ => first | exact hsame Thrown.Alike.refl r | rfl

/-- The dead letters after one more that is the same but for its reason. -/
theorem World.UpToReasons.bury {payment : Payment} {reason reason' : Option String}
    {jobId : String} (hW : w.UpToReasons w') :
    World.UpToReasons
      { w with deadLetters :=
          (jobId, { payment with failureReason := reason }) :: w.deadLetters }
      { w' with deadLetters :=
          (jobId, { payment with failureReason := reason' }) :: w'.deadLetters } := by
  obtain ⟨dead, rfl, hdead⟩ := hW
  exact ⟨_, rfl, by simp [withoutReason, hdead]⟩

/-- An operation that rejects leaves the world as it is. -/
theorem World.perform_reject {e : Thrown} {r : o.Ret}
    (h : w.perform o (.reject e) = some (r, w₁)) : w₁ = w := by
  cases o <;> simp only [perform, reduceCtorEq, Option.some.injEq, Prod.mk.injEq] at h
  all_goals exact h.2.symm

/-- Rejections with errors that are alike are answers that are alike. -/
theorem World.answersAlike_reject {e e' : Thrown} {r : o.Ret} {r' : o'.Ret} (ho : o.Alike o')
    (he : e.GatewayAlike e') (hread : o.asksGateway = false → e.Alike e')
    (h : w.perform o (.reject e) = some (r, w₁))
    (h' : w'.perform o' (.reject e') = some (r', w₁')) : o.AnswersAlike o' r r' := by
  cases ho with
  | same o =>
      cases o <;> simp only [perform, reduceCtorEq, Option.some.injEq, Prod.mk.injEq] at h h'
      all_goals
        obtain ⟨rfl, -⟩ := h
        obtain ⟨rfl, -⟩ := h'
        first | exact hread rfl | exact he
  | statusChanged | deadLetter | deadLetterAdd =>
      simp only [perform, Option.some.injEq, Prod.mk.injEq] at h h'
      obtain ⟨rfl, -⟩ := h
      obtain ⟨rfl, -⟩ := h'
      exact hread rfl

/-- A failure of category TRANSIENT or RATE_LIMITED can be read. -/
theorem readable_of_category {e : Thrown} (h : classifyFailure e ≠ .unknown) :
    e.nullish = false := by
  cases e with
  | undefined | null => exact absurd (by decide +kernel) h
  | error | classified | other => rfl

/-- What a call is answered in worlds that are alike, up to re-categorised failures. -/
theorem World.UpToReasons.perform {target : FailureCategory} (htarget : target ≠ .permanent)
    {r : o.Ret} {r' : o'.Ret} (hW : w.UpToReasons w') (ho : o.Alike o')
    (ha : Recategorises target o a a') (h : w.perform o a = some (r, w₁))
    (h' : w'.perform o' a' = some (r', w₁')) : o.AnswersAlike o' r r' ∧ w₁.UpToReasons w₁' := by
  have hreject : ∀ {e e' : Thrown}, e.GatewayAlike e' →
      (o.asksGateway = false → e.Alike e') → w.perform o (.reject e) = some (r, w₁) →
      w'.perform o' (.reject e') = some (r', w₁') →
      o.AnswersAlike o' r r' ∧ w₁.UpToReasons w₁' := by
    intro e e' he hread h h'
    refine ⟨World.answersAlike_reject ho he hread h h', ?_⟩
    rwa [World.perform_reject h, World.perform_reject h']
  cases ha with
  | @reject _ e e' he he' hread =>
      have hp : ∀ {e : Thrown} {c : FailureCategory}, classifyFailure e = c →
          c ≠ .permanent → classifyFailure e ≠ .permanent := fun h hc => h ▸ hc
      have hn : e.nullish = false := readable_of_category (by simp [he])
      exact hreject (Or.inr ⟨hp he (by decide), hp he' htarget, hn⟩)
        (fun ho => Or.inr ⟨hp he (by decide), hp he' htarget, hn, hread ho⟩) h h'
  | @decline payment v v' hv hv' he he' =>
      cases ho
      simp only [World.perform, Option.some.injEq, Prod.mk.injEq] at h h'
      obtain ⟨rfl, rfl⟩ := h
      obtain ⟨rfl, rfl⟩ := h'
      refine ⟨Or.inr ⟨hv, hv', Or.inr ⟨?_, ?_, rfl, rfl⟩⟩, hW⟩
      · rw [he]
        decide
      · rwa [he']
  | same =>
      cases ho with
      | same o =>
          cases ho : o.buries with
          | false =>
              obtain ⟨rfl, hw⟩ := hW.perform_same ho h h'
              exact ⟨Op.answersAlike_refl o _, hw⟩
          | true =>
              -- the same dead letter on top of letters that are alike
              cases o <;> simp only [Op.buries, Bool.false_eq_true] at ho
              cases a with
              | reject e => exact hreject (Or.inl rfl) (fun _ => .refl e) h h'
              | resolve =>
                  simp only [World.perform, Option.some.injEq, Prod.mk.injEq] at h h'
                  obtain ⟨rfl, rfl⟩ := h
                  obtain ⟨rfl, rfl⟩ := h'
                  exact ⟨rfl, hW.bury⟩
              | response | status | env => exact absurd h (by simp [World.perform])
      | statusChanged | deadLetter | deadLetterAdd =>
          cases a with
          | reject e => exact hreject (Or.inl rfl) (fun _ => .refl e) h h'
          | resolve =>
              simp only [World.perform, Option.some.injEq, Prod.mk.injEq] at h h'
              obtain ⟨rfl, rfl⟩ := h
              obtain ⟨rfl, rfl⟩ := h'
              exact ⟨rfl, by first | exact hW | exact hW.bury⟩
          | response | status | env => exact absurd h (by simp [World.perform])

/-- What one world answers to an operation, the other answers to the one that is alike. -/
theorem World.UpToReasons.isSome_perform {target : FailureCategory} (hW : w.UpToReasons w')
    (ho : o.Alike o') (ha : Recategorises target o a a') :
    (w'.perform o' a').isSome = (w.perform o a).isSome := by
  obtain ⟨dead, rfl, -⟩ := hW
  cases ha with
  | decline =>
      cases ho
      rfl
  | reject =>
      cases ho with
      | same o => cases o <;> rfl
      | statusChanged | deadLetter | deadLetterAdd => rfl
  | same =>
      cases ho with
      | same o =>
          cases hburies : o.buries with
          | false => rw [World.perform_deadLetters _ hburies, Option.isSome_map]
          | true =>
              cases o <;> simp only [Op.buries, Bool.false_eq_true] at hburies
              cases a <;> rfl
      | statusChanged | deadLetter | deadLetterAdd => cases a <;> rfl

/-- The world moves whatever is in the dead-letter queue. -/
theorem World.move_deadLetters (dead : List (String × Payment)) (m : Move) :
    World.move { w with deadLetters := dead } m =
      (w.move m).map fun w₁ => { w₁ with deadLetters := dead } := by
  cases m with
  | tick ms => rfl
  | expire key =>
      simp only [move, Option.map_map]
      rfl

theorem World.UpToReasons.isSome_move {m : Move} (hW : w.UpToReasons w') :
    (w'.move m).isSome = (w.move m).isSome := by
  obtain ⟨dead, rfl, -⟩ := hW
  rw [World.move_deadLetters, Option.isSome_map]

theorem World.UpToReasons.move {m : Move} (hW : w.UpToReasons w') (h : w.move m = some w₁)
    (h' : w'.move m = some w₁') : w₁.UpToReasons w₁' := by
  obtain ⟨dead, rfl, hdead⟩ := hW
  rw [World.move_deadLetters, h] at h'
  obtain rfl := Option.some.inj h'
  obtain ⟨now, redis, -, rfl⟩ := World.move_frame h
  exact ⟨dead, rfl, hdead⟩

theorem World.UpToReasons.breaker (hW : w.UpToReasons w') (gatewayId : String) :
    w'.breaker gatewayId = w.breaker gatewayId := by
  obtain ⟨dead, rfl, -⟩ := hW
  rfl

theorem World.UpToReasons.deadLetters (hW : w.UpToReasons w') :
    w'.deadLetters.map withoutReason = w.deadLetters.map withoutReason := by
  obtain ⟨dead, rfl, hdead⟩ := hW
  exact hdead

end

section

variable {ι : Type} [DecidableEq ι] {jobs : ι → Job} {w : World} {s t : State ι}

/-- Two runs of the same calls, which differ in that failures of category TRANSIENT in the
first are of category `target` in the second. -/
abbrev RecategorisedRun (target : FailureCategory) (jobs : ι → Job) (w : World)
    (s t : State ι) : Prop :=
  TwoRun (M := system) (fun o => Recategorises target o) (processes jobs w) (processes jobs w) s t

/-- Two such runs never part. -/
theorem RecategorisedRun.sideBySide {target : FailureCategory} (htarget : target ≠ .permanent)
    (h : RecategorisedRun target jobs w s t) :
    SideBySide upToFailures Thrown.Alike (· = ·) World.UpToReasons s t :=
  TwoRun.sideBySide (fun hW ho ha h h' => hW.perform htarget ho ha h h')
    (fun hW h h' => hW.move h h')
    ⟨fun c => .idle (goAlike_process (jobs c)), .refl w, .nil⟩ h

end

/-! ### A breaker that is told of failures only -/

/-- The gateway is asked to charge the payment. -/
def Op.chargesFor (paymentId : String) : Op → Bool
  | gatewayProcess payment => payment.id == paymentId
  | _ => false

/-- The breaker of the gateway is told of a failure. -/
def Op.tellsFailure (gatewayId : String) : Op → Bool
  | recordFailure g => g == gatewayId
  | _ => false

/-- The breaker of the gateway is told of a success. -/
def Op.tellsSuccess (gatewayId : String) : Op → Bool
  | recordSuccess g => g == gatewayId
  | _ => false

namespace CircuitBreaker

variable {b : CircuitBreaker} {opts : CircuitBreakerOptions} {gatewayId : String} {now : Int}
variable {o : Op} {failures : Nat}

theorem canAttempt_closed_iff : (b.canAttempt now).2.state = .closed ↔ b.state = .closed := by
  rcases b.canAttempt_cases now with ⟨-, heq⟩ | ⟨-, -, heq⟩ | ⟨hb, -, heq⟩ | ⟨-, heq⟩
  · rw [heq]
  · rw [heq]
  · simp [heq, hb, transition]
  · simp [heq]

/-- A breaker that is still closed after a failure has not counted to its threshold. -/
theorem lt_of_recordFailure_closed (h : (b.recordFailure now).state = .closed) :
    b.consecutiveFailures + 1 < b.opts.failureThreshold := by
  rw [recordFailure] at h
  split at h
  · exact absurd h (by simp [transition])
  · split at h
    · exact absurd h (by simp [transition])
    · next hstays =>
      have hcount := (not_or.mp hstays).1
      simpa [pushOutcome] using hcount

/-- A breaker that has been told of `failures` failures since it was new, and of no success. -/
structure OnlyFailed (opts : CircuitBreakerOptions) (failures : Nat) (b : CircuitBreaker) :
    Prop where
  consecutiveFailures : b.consecutiveFailures = failures
  fresh : failures = 0 → b.state = .closed
  closed : b.state = .closed → failures = 0 ∨ failures < opts.failureThreshold
  opts : b.opts = opts

theorem OnlyFailed.after (h : b.OnlyFailed opts failures)
    (ho : o.tellsSuccess gatewayId = false) : (b.after gatewayId now o).OnlyFailed opts
      (failures + if o.tellsFailure gatewayId then 1 else 0) := by
  cases hon : o.onBreaker gatewayId with
  | false =>
      rw [after_of_not_onBreaker hon]
      cases o with
      | recordFailure g =>
          have hg : g ≠ gatewayId := by simpa [Op.onBreaker] using hon
          simpa [Op.tellsFailure, hg] using h
      | _ => exact h
  | true =>
      cases o with
      | canAttempt g =>
          obtain rfl : g = gatewayId := by simpa [Op.onBreaker] using hon
          rw [after, if_pos rfl]
          refine ⟨by simpa [Op.tellsFailure] using h.consecutiveFailures, fun hnone => ?_,
            fun hclosed => ?_, by simpa using h.opts⟩
          · exact canAttempt_closed_iff.mpr (h.fresh hnone)
          · exact h.closed (canAttempt_closed_iff.mp hclosed)
      | recordFailure g =>
          obtain rfl : g = gatewayId := by simpa [Op.onBreaker] using hon
          rw [after, if_pos rfl, Op.tellsFailure, if_pos (beq_self_eq_true g)]
          -- it was not HALF_OPEN, and the count stays below the threshold
          refine ⟨by simp [h.consecutiveFailures], by simp, fun hclosed => ?_,
            by simpa using h.opts⟩
          have hlt := lt_of_recordFailure_closed hclosed
          rw [h.consecutiveFailures, h.opts] at hlt
          exact Or.inr hlt
      | recordSuccess g =>
          exact absurd hon (by simpa [Op.onBreaker, Op.tellsSuccess] using ho)
      | _ => exact absurd hon (by simp [Op.onBreaker])

end CircuitBreaker

section

variable {ι : Type} [DecidableEq ι] {jobs : ι → Job} {w : World} {s t : State ι}
variable {gatewayId : String} {opts : CircuitBreakerOptions}

/-- A new breaker that is told of failures only, in a run. -/
theorem onlyFailed_of_run {G : Guard system ι Thrown Unit} (h : Run G (processes jobs w) s)
    (hb : w.breaker gatewayId = some { opts := opts })
    (hnone : countIssued (Op.tellsSuccess gatewayId) s.log = 0) :
    ∃ b, s.world.breaker gatewayId = some b ∧
      b.OnlyFailed opts (countIssued (Op.tellsFailure gatewayId) s.log) := by
  induction h with
  | start => exact ⟨_, hb, rfl, fun _ => rfl, fun _ => Or.inl rfl, rfl⟩
  | @step s s' a _ _ hs ih =>
      obtain ⟨e, hlog, hcase⟩ := Config.step_issued hs
      rw [hlog, countIssued_cons] at hnone ⊢
      obtain ⟨hbefore, hentry⟩ := Nat.add_eq_zero_iff.mp hnone
      obtain ⟨b, hb, hfailed⟩ := ih hbefore
      rcases hcase with ⟨o, a, r, ho, hw⟩ | ⟨ho, hworld⟩
      · have hsuccess : o.tellsSuccess gatewayId = false := by simpa [ho] using hentry
        rw [ho, (World.breaker_perform hw gatewayId).2, hb]
        exact ⟨_, rfl, hfailed.after hsuccess⟩
      · have hsame : s'.world.breaker gatewayId = s.world.breaker gatewayId := by
          rcases hworld with heq | ⟨m, hw⟩
          · rw [heq]
          · exact (World.breaker_move hw gatewayId).2
        rw [ho, hsame, hb]
        exact ⟨b, rfl, hfailed⟩

/-- Exactly `failureThreshold` failures open a new breaker, unless that is none. -/
theorem closed_iff_of_failures {G : Guard system ι Thrown Unit}
    (h : Run G (processes jobs w) s) (hb : w.breaker gatewayId = some { opts := opts })
    (hnone : countIssued (Op.tellsSuccess gatewayId) s.log = 0)
    (hall : countIssued (Op.tellsFailure gatewayId) s.log = opts.failureThreshold) :
    (s.world.breaker gatewayId).map (·.state) = some .closed ↔ opts.failureThreshold = 0 := by
  obtain ⟨b, hb, hfailed⟩ := onlyFailed_of_run h hb hnone
  rw [hall] at hfailed
  rw [hb, Option.map_some, Option.some.injEq]
  refine ⟨fun hclosed => ?_, hfailed.fresh⟩
  rcases hfailed.closed hclosed with hzero | hlt
  · exact hzero
  · exact absurd hlt (lt_irrefl _)

end

/-! ### A payment whose charge always fails -/

/-- Where the first run fails with a failure of category TRANSIENT, the second fails with
`message`. -/
def failInstead (message : String) (_ : Op) : Answer → Answer
  | .reject e => .reject (if classifyFailure e = .transient then .error message else e)
  | a => a

theorem recategorises_failInstead {target : FailureCategory} (message : String)
    (h : classifyFailure (.error message) = target) (o : Op) (a : Answer) :
    Recategorises target o a (failInstead message o a) := by
  cases a with
  | reject e =>
      by_cases he : classifyFailure e = .transient
      · rw [failInstead, if_pos he]
        exact .reject he h fun _ => rfl
      · rw [failInstead, if_neg he]
        exact .same o _
  | _ => exact .same o _

/-- The charge is rejected with an error of the category. -/
def chargeRejected (category : FailureCategory) : ProcEvent → Bool
  | ⟨.gatewayProcess _, .error e⟩ => decide (classifyFailure e = category)
  | _ => false

/-- The five attempts of a payment with five retries. -/
def fiveTries (c : Fin 5) : Job where
  id := "job_1"
  data := cardPaymentWith 5
  attemptsMade := c

/-- The charge fails in each of them, and the payment is dead-lettered in the last. -/
def failFiveTimes : List (Action system (Fin 5)) :=
  [0, 1, 2, 3, 4].flatMap (fun c => approach c ++ takeAndFail c) ++
    List.replicate 3 (.answer 4 .resolve)

/-- All five charges were rejected with errors of the category. -/
def AllRejected (category : FailureCategory) (s : State (Fin 5)) : Prop :=
  s.log.countP (heard (chargeRejected category)) = 5 ∧ s.world.deadLetters.length = 1

instance (category : FailureCategory) : DecidablePred (AllRejected category) :=
  fun _ => inferInstanceAs (Decidable (_ ∧ _))

/-! ### Categories are ignored -/

section

variable {ι : Type} [DecidableEq ι] {jobs : ι → Job} {w : World} {s t : State ι}

/-- **Categories are ignored.** Of two runs of the same calls, in which failures of category
TRANSIENT in the first are of any category but PERMANENT in the second: neither can do what the
other cannot, a call returns or throws in the second if it does so in the first, as many sagas
of each payment have begun, the same payments are in the dead-letter queue, and the breakers of
all gateways are the same. And a new breaker that is told of exactly `failureThreshold`
failures, of whatever category, and of no success, is left CLOSED only if that is none. -/
theorem categories_ignored {target : FailureCategory} (htarget : target ≠ .permanent)
    (h : RecategorisedRun target jobs w s t) :
    (∀ a a', Action.Alike (fun o => Recategorises target o) s a a' →
      (t.step a').isSome = (s.step a).isSome) ∧
    (∀ c, (t.thread c).returned = (s.thread c).returned) ∧
    (∀ id, countIssued (Op.chargesFor id) t.log = countIssued (Op.chargesFor id) s.log) ∧
    t.world.deadLetters.map withoutReason = s.world.deadLetters.map withoutReason ∧
    (∀ gatewayId, t.world.breaker gatewayId = s.world.breaker gatewayId) ∧
    ∀ gatewayId opts, w.breaker gatewayId = some { opts := opts } →
      countIssued (Op.tellsSuccess gatewayId) t.log = 0 →
      countIssued (Op.tellsFailure gatewayId) t.log = opts.failureThreshold →
      ((t.world.breaker gatewayId).map (·.state) = some .closed ↔
        opts.failureThreshold = 0) := by
  have hside := h.sideBySide htarget
  have hcharges : ∀ id o o', Op.Alike o o' → Op.chargesFor id o' = Op.chargesFor id o := by
    intro id o o' ho
    cases ho <;> rfl
  refine ⟨fun a a' ha => ?_, fun c => (hside.thread c).returned,
    fun id => countIssued_eq (hcharges id) hside.log, hside.world.deadLetters,
    hside.world.breaker, fun g opts => closed_iff_of_failures h.right⟩
  exact hside.isSome_step (fun hW ho ha => hW.isSome_perform ho ha)
    (fun hW => hW.isSome_move) ha

end

/-- The charge of a payment with five retries times out five times, or fails five times for a
reason that is not known. -/
theorem categories_ignored_unknown :
    ∃ s t : State (Fin 5), RecategorisedRun .unknown fiveTries startedUp s t ∧
      AllRejected .transient s ∧ AllRejected .unknown t ∧
      countIssued (Op.chargesFor "pay_1") s.log = 5 ∧
      countIssued (Op.chargesFor "pay_1") t.log = 5 ∧
      (t.world.breaker "stripe").map (·.state) ≠ some .closed := by
  have hruns : ∃ s t : State (Fin 5), RecategorisedRun .unknown fiveTries startedUp s t ∧
      (AllRejected .transient s ∧ AllRejected .unknown t ∧
        countIssued (Op.chargesFor "pay_1") s.log = 5 ∧
        countIssued (Op.tellsSuccess "stripe") t.log = 0 ∧
        countIssued (Op.tellsFailure "stripe") t.log = 5) :=
    TwoRun.exists_of_execBoth (recategorises_failInstead "unexpected end of input"
      (by decide +kernel)) failFiveTimes (by decide +kernel)
  obtain ⟨s, t, h, hs, ht, hcharges, hnone, hall⟩ := hruns
  obtain ⟨-, -, hsagas, -, -, htrip⟩ := categories_ignored (by decide) h
  refine ⟨s, t, h, hs, ht, hcharges, (hsagas "pay_1").trans hcharges, fun hclosed => ?_⟩
  exact absurd ((htrip "stripe" .defaults rfl hnone hall).mp hclosed) (by decide)

/-- Errors that cannot be classified get a payment no fewer sagas than timeouts do. And five
rate-limited failures open a new breaker whose threshold is five. (The `add` of the dead letter
comes after all this; here it resolves.) -/
theorem categories_do_not_steer :
    (∃ s t : State (Fin 5), RecategorisedRun .unknown fiveTries startedUp s t ∧
      AllRejected .transient s ∧ AllRejected .unknown t ∧
      ¬ countIssued (Op.chargesFor "pay_1") t.log < countIssued (Op.chargesFor "pay_1") s.log) ∧
    (∃ s t : State (Fin 5), RecategorisedRun .rateLimited fiveTries startedUp s t ∧
      AllRejected .transient s ∧ AllRejected .rateLimited t ∧
      startedUp.breaker "stripe" = some { opts := .defaults } ∧
      countIssued (Op.tellsSuccess "stripe") t.log = 0 ∧
      countIssued (Op.tellsFailure "stripe") t.log =
        CircuitBreakerOptions.defaults.failureThreshold ∧
      (t.world.breaker "stripe").map (·.state) = some .open) := by
  refine ⟨?_, ?_⟩
  · exact TwoRun.exists_of_execBoth (recategorises_failInstead "unexpected end of input"
      (by decide +kernel)) failFiveTimes (by decide +kernel)
  · have hruns : ∃ s t : State (Fin 5), RecategorisedRun .rateLimited fiveTries startedUp s t ∧
        (AllRejected .transient s ∧ AllRejected .rateLimited t ∧
          countIssued (Op.tellsSuccess "stripe") t.log = 0 ∧
          countIssued (Op.tellsFailure "stripe") t.log = 5 ∧
          (t.world.breaker "stripe").map (·.state) = some .open) :=
      TwoRun.exists_of_execBoth (recategorises_failInstead "429 too many requests"
        (by decide +kernel)) failFiveTimes (by decide +kernel)
    obtain ⟨s, t, h, hs, ht, hnone, hall, hopen⟩ := hruns
    exact ⟨s, t, h, hs, ht, rfl, hnone, hall, hopen⟩

end PaymentQueue
