import PaymentQueue.Async.Credits
import PaymentQueue.Concurrency

/-!
# PaymentQueue.Drain

**The service comes to rest.**

A `process` call performs at most 26 operations, whatever they answer: the longest way
through it waits for a slot, runs the saga up to the notification, takes everything back and
buries the payment (`costs_process`). And no set of calls can block itself: an operation
that is not answered at once is the wait for a slot, and whoever waits for a slot waits for a
call that has one and can go on (`exists_answer`). So once no further payment comes in, the
calls in flight end, in whatever order they are answered (`drains`).
-/

namespace PaymentQueue

open Async

/-! ### What a saga costs -/

namespace PaymentSaga

variable {S : Signature} {Ctx Patch : Type}
variable {steps completedSteps : List (SagaStep S Ctx Patch)} {ctx : Ctx} {xs ys : List Nat}

/-- The executions of the steps cost what is listed. -/
abbrev ExecutionCosts (steps : List (SagaStep S Ctx Patch)) (xs : List Nat) : Prop :=
  List.Forall₂ (fun step x => ∀ ctx, Costs x (step.execute ctx)) steps xs

/-- The compensations of the steps cost what is listed. -/
abbrev CompensationCosts (steps : List (SagaStep S Ctx Patch)) (ys : List Nat) : Prop :=
  List.Forall₂ (fun step y => ∀ ctx, Costs y (step.compensate ctx)) steps ys

theorem costs_readMessage {n : Nat} {err : Thrown} :
    Costs n (readMessage err : Program S Thrown (Option String)) := .ofExcept _

theorem costs_compensate (h : CompensationCosts steps ys) :
    Costs ys.sum (compensate ctx steps) := by
  have hcaught : ∀ e : Thrown, Costs 0 (do
      let _ ← readMessage e
      pure () : Program S Thrown Unit) :=
    fun e => Costs.bind (n := 0) (m := 0) costs_readMessage fun _ => .ret ()
  induction h with
  | nil => exact .ret ()
  | cons hstep _ ih => exact .bind (Costs.tryCatch (hstep ctx) hcaught) fun _ => ih

/-- The unwinding of a saga does not return. -/
theorem affords_onStepFailure {α : Type} {k : Nat} {err : Thrown} {left : Except Thrown α → Nat}
    (h : CompensationCosts completedSteps ys) (hleft : ∀ e, left (.error e) ≤ k) :
    Affords (k + ys.sum) (onStepFailure ctx completedSteps err : Program S Thrown α) left := by
  have hback : Costs ys.sum (compensate ctx completedSteps.reverse) := by
    rw [← List.sum_reverse]
    exact costs_compensate (List.rel_reverse h)
  refine Affords.bind (costs_readMessage (n := 0) (k + ys.sum)) (fun _ => ?_)
    fun e => (hleft e).trans (Nat.le_add_right _ _)
  exact Affords.bind (hback k) (fun _ => .throw (hleft err)) hleft

/-- A saga that succeeds costs its executions; one that fails, compensations besides. -/
theorem affords_loop [Spread Ctx Patch] {k : Nat} {done : List Nat}
    (hdone : CompensationCosts completedSteps done) (hx : ExecutionCosts steps xs)
    (hy : CompensationCosts steps ys) :
    Affords (k + (done.sum + ys.sum) + xs.sum) (loop steps completedSteps ctx) fun r =>
      match r with
      | .ok _ => k + (done.sum + ys.sum)
      | .error _ => k := by
  induction hx generalizing completedSteps ctx done ys with
  | nil => exact .ret (by simp)
  | @cons step x steps xs hstep _ ih =>
      cases hy with
      | @cons _ y _ ys hcomp hrest =>
      have hsum : k + (done.sum + (y :: ys).sum) + (x :: xs).sum =
          k + (done.sum + (y :: ys).sum) + xs.sum + x := by
        rw [List.sum_cons (a := x)]
        omega
      rw [hsum]
      have hattempt : Affords (k + (done.sum + (y :: ys).sum) + xs.sum + x)
          (step.execute ctx).attempt fun _ => k + (done.sum + (y :: ys).sum) + xs.sum :=
        Affords.attempt (hstep ctx _)
      refine hattempt.bind (fun r => ?_) fun _ => show k ≤ _ by omega
      cases r with
      | ok patch =>
          have hloop := @ih _ (Spread.spread ctx patch) _ _
            (List.rel_append hdone (.cons hcomp .nil)) hrest
          simpa [Nat.add_assoc] using hloop
      | error err =>
          refine (affords_onStepFailure hdone fun e => le_rfl).mono ?_ fun r => le_rfl
          omega

end PaymentSaga

/-! ### What a call costs -/

section

variable {k : Nat} {p : Payment} {job : Job}

/-- An awaited operation costs what it costs. -/
theorem costs_awaited {α : Type} {n : Nat} {q : Proc (Except Thrown α)} (h : Costs n q) :
    Costs n (awaited q) :=
  .bind (m := 0) h .ofExcept

theorem costs_finalize {status : PaymentStatus} {reason : Option String} :
    Costs 1 (finalize p status reason) := costs_awaited (.perform _)

theorem costs_moveToDeadLetter {reason : Option String} : Costs 2 (moveToDeadLetter p reason) :=
  .bind (n := 1) (m := 1) (costs_awaited (.perform _)) fun _ => costs_awaited (.perform _)

theorem costs_throwInjected {step : String} : Costs 1 (throwInjectedSagaFailure step) := by
  refine .bind (m := 0) (.perform _) fun v => ?_
  split
  · exact .ret ()
  · exact .throw _

theorem costs_authorize : Costs 1 (authorize p) := by
  refine .bind (m := 0) (costs_awaited (.perform _)) fun res => ?_
  split
  · exact .ret _
  · exact .throw _

theorem costs_writeLedgerEntry {ctx : PaymentSagaContext} : Costs 3 (writeLedgerEntry p ctx) :=
  .bind (n := 1) (m := 2) costs_throwInjected fun _ =>
    .bind (n := 1) (m := 1) (costs_awaited (.perform _)) fun _ =>
      .bind (n := 1) (m := 0) (costs_awaited (.perform _)) fun _ => .ret _

/-- Charging, capturing, posting, notifying. -/
theorem executionCosts_payment :
    PaymentSaga.ExecutionCosts (buildPaymentSagaSteps (sagaDeps p)) [1, 1, 3, 2] := by
  refine .cons ?_ (.cons ?_ (.cons ?_ (.cons ?_ .nil))) <;> intro ctx
  · exact .bind (m := 0) costs_authorize fun _ => .ret _
  · exact .bind (m := 0) costs_throwInjected fun _ => .ret _
  · exact .bind (m := 0) costs_writeLedgerEntry fun _ => .ret _
  · refine .bind (m := 0) (.bind (n := 1) (m := 1) costs_throwInjected fun _ => ?_)
      fun _ => .ret _
    exact costs_awaited (.perform _)

/-- Voiding, refunding, reversing; a notification is not taken back. -/
theorem compensationCosts_payment :
    PaymentSaga.CompensationCosts (buildPaymentSagaSteps (sagaDeps p)) [1, 1, 1, 0] := by
  refine .cons ?_ (.cons ?_ (.cons ?_ (.cons ?_ .nil))) <;> intro ctx
  · simp only [authorizeStep]
    split
    · exact .perform _
    · exact .ret ()
  · simp only [captureStep]
    split
    · exact .perform _
    · exact .ret ()
  · simp only [writeLedgerStep]
    split
    · exact costs_awaited (.perform _)
    · exact .ret ()
  · exact .ret ()

/-- A saga costs eight operations if it succeeds, and ten if it fails. -/
theorem affords_runSaga : Affords (k + 10) (runSaga p) fun r => match r with
    | .ok _ => k + 2
    | .error _ => k := by
  refine Affords.bind (PaymentSaga.affords_loop (k := k) .nil executionCosts_payment
    compensationCosts_payment) (fun _ => ?_) fun e => le_rfl
  refine (costs_finalize (k + 2)).mono le_rfl fun r => ?_
  cases r <;> simp

theorem costs_acquireSlot {gatewayId : String} : Costs 2 (acquireSlot gatewayId) := by
  refine .bind (n := 1) (m := 1) (.perform _) fun t => ?_
  cases t with
  | none => exact .ret ()
  | some t => exact .perform _

theorem costs_sagaInSlot : Costs 13 (sagaInSlot p) := by
  intro k
  have hslot : Affords (k + 13) (acquireSlot p.gatewayId) fun _ => k + 11 :=
    costs_acquireSlot (k + 11)
  refine hslot.bind (fun _ => ?_) fun _ => by omega
  have hsaga : Affords (k + 11)
      (runSaga p >>= fun _ => perform (.recordSuccess p.gatewayId)) fun _ => k + 1 := by
    refine Affords.bind (affords_runSaga (k := k + 1)) (fun _ => ?_) fun e => le_rfl
    exact (Costs.perform _ (k + 1 + 1)).mono le_rfl fun _ => by omega
  refine hsaga.tryFinally fun r => (Costs.perform _ k).mono le_rfl fun u => ?_
  cases u <;> exact le_rfl

theorem costs_onSagaFailure {err : Thrown} : Costs 5 (onSagaFailure job err) := by
  have hread : ∀ err : Thrown, Costs 0 (readMessage err : Proc (Option String)) :=
    fun _ => PaymentSaga.costs_readMessage
  refine .bind (n := 1) (m := 4) (.perform _) fun _ => ?_
  split
  · refine .bind (n := 0) (m := 4) (hread err) fun _ => ?_
    refine .bind (n := 1) (m := 3) costs_finalize fun _ => ?_
    refine .bind (n := 0) (m := 3) (hread err) fun _ => ?_
    exact .bind (n := 2) (m := 1) costs_moveToDeadLetter fun _ => costs_awaited (.perform _)
  · refine .bind (n := 1) (m := 3) (costs_awaited (.perform _)) fun _ => ?_
    split
    · refine .bind (n := 0) (m := 3) (hread err) fun _ => ?_
      refine .bind (n := 1) (m := 2) costs_finalize fun _ => ?_
      exact .bind (n := 0) (m := 2) (hread err) fun _ => costs_moveToDeadLetter
    · exact .throw err

theorem costs_reconcile : Costs 4 (reconcile p) := by
  refine .bind (n := 1) (m := 3) (costs_awaited (.perform _)) fun locked => ?_
  split
  · exact .ret ()
  · refine .tryCatch (n := 3) (m := 0) ?_ fun _ => .ret ()
    refine .bind (n := 1) (m := 2) (costs_awaited (.perform _)) fun status => ?_
    split
    · exact .bind (n := 1) (m := 1) (costs_awaited (.perform _)) fun _ => costs_finalize
    · exact .ret ()

theorem costs_processAdmitted : Costs 22 (processAdmitted job) := by
  refine .bind (n := 1) (m := 21) (costs_awaited (.perform _)) fun _ => ?_
  refine .bind (n := 1) (m := 20) (costs_awaited (.perform _)) fun cached => ?_
  split
  · exact (Costs.bind (n := 1) (m := 1) costs_finalize fun _ => .perform _).mono (by decide)
  refine .bind (n := 1) (m := 19) (costs_awaited (.perform _)) fun dbRecord => ?_
  split
  · refine Costs.mono (n := 3) ?_ (by decide)
    refine .bind (n := 1) (m := 2) (costs_awaited (.perform _)) fun _ => ?_
    exact .bind (n := 1) (m := 1) costs_finalize fun _ => .perform _
  refine .bind (n := 1) (m := 18) (costs_awaited (.perform _)) fun locked => ?_
  split
  · exact costs_reconcile.mono (by decide)
  · exact .tryCatch (n := 13) (m := 5) costs_sagaInSlot fun _ => costs_onSagaFailure

/-- The most operations a `process` call performs. -/
def processCost : Nat := 26

theorem costs_process (job : Job) : Costs processCost (process job) := by
  refine .bind (n := 1) (m := 25) (.perform _) fun registered => ?_
  refine .bind (n := 1) (m := 24) (.perform _) fun limited => ?_
  split
  · exact .throw _
  split
  · exact .throw _
  refine .bind (n := 1) (m := 23) (.perform _) fun admitted => ?_
  split
  · exact .throw _
  refine .bind (n := 1) (m := 22) (.perform _) fun allowed => ?_
  split
  · exact (Costs.bind (n := 1) (m := 0) (.perform _) fun _ => .throw _).mono (by decide)
  · exact costs_processAdmitted

end

/-! ### What a call waits for -/

/-- What the operation works on is registered. -/
def World.Serves (w : World) : Op → Prop
  | .canAttempt g | .recordSuccess g | .recordFailure g | .semaphoreAcquire g
  | .semaphoreGranted g _ | .semaphoreRelease g => (w.gateways g).isSome = true
  | .tryConsume g | .msUntilAvailable g => (w.rateLimiters g).isSome = true
  | _ => True

namespace World

variable {w w' : World}

/-- An operation can be answered, unless it waits for a slot. -/
theorem exists_perform {o : Op} (h : w.Serves o) :
    (∃ a rw, w.perform o a = some rw) ∨ ∃ g t sem, o = .semaphoreGranted g t ∧
      w.semaphore g = some sem ∧ t ∈ sem.waiters := by
  cases o with
  | canAttempt g | recordSuccess g | recordFailure g | semaphoreAcquire g
  | semaphoreRelease g =>
      obtain ⟨gw, hgw⟩ := Option.isSome_iff_exists.mp h
      exact Or.inl ⟨.resolve, by simp [perform, hgw]⟩
  | tryConsume g | msUntilAvailable g =>
      obtain ⟨t, ht⟩ := Option.isSome_iff_exists.mp h
      exact Or.inl ⟨.resolve, by simp [perform, ht]⟩
  | semaphoreGranted g t =>
      obtain ⟨gw, hgw⟩ := Option.isSome_iff_exists.mp h
      by_cases ht : t ∈ gw.semaphore.waiters
      · exact Or.inr ⟨g, t, gw.semaphore, rfl, by simp [semaphore, hgw], ht⟩
      · exact Or.inl ⟨.resolve, by simp [perform, hgw, ht]⟩
  | gatewayProcess p => exact Or.inl ⟨.reject .null, _, rfl⟩
  | gatewayGetStatus g id => exact Or.inl ⟨.reject .null, _, rfl⟩
  | sagaFailStep => exact Or.inl ⟨.env none, _, rfl⟩
  | _ => exact Or.inl ⟨.resolve, _, rfl⟩

/-- No operation adds or removes a gateway. -/
theorem isSome_gateways_perform {o : Op} {a : Answer} {r : o.Ret}
    (h : w.perform o a = some (r, w')) (g : String) :
    (w'.gateways g).isSome = (w.gateways g).isSome := by
  have := congrArg Option.isSome (semaphore_perform h g)
  simpa [semaphore] using this

@[simp] theorem isSome_rateLimiters_setBreaker {g gatewayId : String} {gw : RegisteredGateway}
    {b : CircuitBreaker} :
    ((w.setBreaker gatewayId gw b).rateLimiters g).isSome = (w.rateLimiters g).isSome := by
  unfold setBreaker onStateChange
  by_cases hg : g = gatewayId
  · subst hg
    split
    · rfl
    · split <;> simp
  · split
    · rfl
    · split <;> simp [hg]

/-- No operation adds or removes a rate limiter. -/
theorem isSome_rateLimiters_perform {o : Op} {a : Answer} {r : o.Ret}
    (h : w.perform o a = some (r, w')) (g : String) :
    (w'.rateLimiters g).isSome = (w.rateLimiters g).isSome := by
  cases o with
  | canAttempt g' | recordSuccess g' | recordFailure g' =>
      cases a <;> simp only [perform, reduceCtorEq, Option.map_eq_some_iff,
        Prod.mk.injEq] at h
      obtain ⟨gw, -, -, rfl⟩ := h
      exact isSome_rateLimiters_setBreaker
  | tryConsume g' | msUntilAvailable g' =>
      cases a <;> simp only [perform, reduceCtorEq, Option.map_eq_some_iff,
        Prod.mk.injEq] at h
      obtain ⟨t, ht, -, rfl⟩ := h
      by_cases hg : g = g'
      · subst hg
        simp [setBucket, ht]
      · simp [setBucket, hg]
  | semaphoreGranted g' t =>
      cases a <;> simp only [perform, reduceCtorEq, Option.bind_eq_some_iff] at h
      obtain ⟨gw, -, h⟩ := h
      split at h
      · exact absurd h (by simp)
      · obtain ⟨-, rfl⟩ : () = r ∧ w = w' := by simpa using h
        rfl
  | semaphoreAcquire g' | semaphoreRelease g' =>
      cases a <;> simp only [perform, reduceCtorEq, Option.map_eq_some_iff,
        Prod.mk.injEq] at h
      obtain ⟨gw, -, -, rfl⟩ := h
      rfl
  | _ =>
      cases a <;> simp only [perform, reduceCtorEq, Option.some.injEq, Prod.mk.injEq] at h
      all_goals
        obtain ⟨-, rfl⟩ := h
        rfl

end World

namespace Stage

/-- The gateway of the call has been found registered. -/
def foundGateway : Stage → Bool
  | .entering | .lookedUp false | .refused => false
  | _ => true

/-- The rate limiter of the call has been found. -/
def foundLimiter : Stage → Bool
  | .entering | .lookedUp _ | .refused => false
  | _ => true

/-- What the call has found is there. -/
structure Found (job : Job) (w : World) (g : Stage) : Prop where
  gateway : g.foundGateway = true → (w.gateways job.data.gatewayId).isSome = true
  limiter : g.foundLimiter = true → (w.rateLimiters job.data.gatewayId).isSome = true

variable {job : Job} {w w' : World} {g g' : Stage} {o : Op} {r : o.Ret}

/-- What a call has found, it has just looked up or had found before. -/
theorem Edge.found_of (h : Edge job g o r g') :
    (g'.foundGateway = true → g.foundGateway = true ∨ g' = .lookedUp true) ∧
    (g'.foundLimiter = true → g.foundLimiter = true ∨ g' = .gated) := by
  cases h <;> simp [foundGateway, foundLimiter]
  case lookupGateway b => cases b <;> simp

theorem Found.mono (h : Found job w g)
    (hgw : (w'.gateways job.data.gatewayId).isSome = (w.gateways job.data.gatewayId).isSome)
    (hlim : (w'.rateLimiters job.data.gatewayId).isSome =
      (w.rateLimiters job.data.gatewayId).isSome) : Found job w' g :=
  ⟨fun hg => hgw ▸ h.gateway hg, fun hg => hlim ▸ h.limiter hg⟩

/-- A call goes on with what it has found. -/
theorem Found.step {a : Answer} (h : Found job w g) (hw : w.perform o a = some (r, w'))
    (hT : Edge job g o r g') : Found job w' g' := by
  refine Found.mono (w := w) ⟨fun hg => ?_, fun hg => ?_⟩
    (World.isSome_gateways_perform hw _) (World.isSome_rateLimiters_perform hw _)
  · rcases hT.found_of.1 hg with hfound | rfl
    · exact h.gateway hfound
    · cases hT
      cases a <;> simp only [World.perform, reduceCtorEq, Option.some.injEq, Prod.mk.injEq] at hw
      exact hw.1
  · rcases hT.found_of.2 hg with hfound | rfl
    · exact h.limiter hfound
    · cases hT
      cases a <;> simp only [World.perform, reduceCtorEq, Option.some.injEq, Prod.mk.injEq] at hw
      exact hw.1

/-- At every stage a call works on what it has found. -/
theorem Edge.serves (hT : Edge job g o r g') (h : Found job w g) : w.Serves o := by
  obtain ⟨hgw, hlim⟩ := h
  cases hT <;> first
    | trivial
    | exact hgw rfl
    | exact hlim rfl

end Stage

/-! ### What a set of calls waits for -/

/-- Every registered gateway has a slot, and nobody in one. -/
def World.Vacant (w : World) : Prop :=
  ∀ g sem, w.semaphore g = some sem → ∃ m : Nat, 1 ≤ m ∧ sem = { max := m }

/-- The module registers its gateways one after the other. -/
theorem World.vacant_empty {now : Int} : (World.empty now).Vacant := by
  intro g sem hsem
  simp [World.empty, World.semaphore] at hsem

theorem World.Vacant.registerGateway {w : World} (h : w.Vacant) {gatewayId : String}
    {concurrency : Int} {capacity perSecond : ℚ} (hc : 1 ≤ concurrency) :
    (w.registerGateway gatewayId concurrency capacity perSecond).Vacant := by
  intro g sem hsem
  by_cases hg : g = gatewayId
  · subst hg
    obtain rfl : { max := concurrency } = sem := by
      simpa [World.registerGateway, World.semaphore] using hsem
    lift concurrency to Nat using by omega with m
    exact ⟨m, by omega, rfl⟩
  · exact h g sem (by simpa [World.registerGateway, World.semaphore, hg] using hsem)

section

variable {ι : Type} [DecidableEq ι] {jobs : ι → Job} {w : World} {s : State ι}

/-- In every run the calls have found what they work on. -/
theorem found_of_run {G : Guard system ι Thrown Unit} (h : Run G (processes jobs w) s) :
    ∃ σ, AtStages jobs s σ ∧ ∀ c, Stage.Found (jobs c) s.world (σ c) := by
  have hstep : ∀ {s s' : State ι} {σ σ' : ι → Stage} {a},
      (∀ c, Stage.Found (jobs c) s.world (σ c)) →
      TStep (fun c => Stage.Edge (jobs c)) s σ a s' σ' →
      ∀ c, Stage.Found (jobs c) s'.world (σ' c) := by
    intro s s' σ σ' a hI hT
    have hperform : ∀ {o : Op} {b : Answer} {r : o.Ret} {w' : World},
        s.world.perform o b = some (r, w') → ∀ d, Stage.Found (jobs d) w' (σ d) :=
      fun hw d => (hI d).mono (World.isSome_gateways_perform hw _)
        (World.isSome_rateLimiters_perform hw _)
    cases hT with
    | begin | crash => exact hI
    | @answer c b o k r w' g _ hw hT =>
        refine forall_update (P := fun d g => Stage.Found (jobs d) w' g) ?_ fun d _ =>
          hperform hw d
        exact (hI c).step hw hT
    | lost _ hw => exact hperform hw
    | move hm =>
        obtain ⟨now, redis, -, rfl⟩ := World.move_frame hm
        exact fun d => (hI d).mono rfl rfl
  refine Run.staged (fun c => process_follows (jobs c)) ?_
    (fun _ _ hI _ hT _ => hstep hI hT) h
  exact fun c => ⟨fun hg => absurd hg (by simp [Stage.foundGateway]),
    fun hg => absurd hg (by simp [Stage.foundLimiter])⟩

/-- A call in flight can be answered, or waits for a slot. -/
theorem answerable_or_waits {G : Guard system ι Thrown Unit} (h : Run G (processes jobs w) s)
    {c : ι} (hc : (s.thread c).inFlight = true) :
    (∃ a s', s.step (.answer c a) = some s') ∨ ∃ g, Waits g s c := by
  obtain ⟨σ, hat, hfound⟩ := found_of_run h
  obtain ⟨o, ho, hedge⟩ := awaiting_of_inFlight hat hc
  obtain ⟨r⟩ := (inferInstance : Nonempty o.Ret)
  obtain ⟨g', hT⟩ := hedge r
  rcases World.exists_perform (hT.serves (hfound c)) with ⟨a, rw', hw⟩ | ⟨g, t, sem, rfl, hsem, ht⟩
  · left
    match hp : s.thread c with
    | .running (.await o' k) =>
        obtain rfl : o' = o := by simpa [hp, Thread.awaiting] using ho
        refine ⟨a, ?_⟩
        simp only [Config.step, hp]
        exact ⟨_, congrArg (Option.map _) hw⟩
    | .idle _ | .running (.ret _) | .running (.throw _) | .crashed =>
        simp [hp, Thread.awaiting] at ho
  · exact Or.inr ⟨g, sem, t, hsem, ht, ho⟩

/-- A gateway a call waits for was registered before the run. -/
theorem semaphore_of_run {G : Guard system ι Thrown Unit} (h : Run G (processes jobs w) s)
    (g : String) : (s.world.semaphore g).isSome = (w.semaphore g).isSome := by
  refine Run.world_induct (M := system)
    (I := fun w' : World => (w'.semaphore g).isSome = (w.semaphore g).isSome) rfl ?_ ?_ h
  · intro v o a r v' hI hw
    rw [World.semaphore_perform hw, Option.isSome_map, hI]
  · intro v m v' hI hm
    rw [World.semaphore_move hm, hI]

theorem slotInv_of_run {g : String} {m : Nat} (hw : w.semaphore g = some { max := m })
    (h : Run NoCrash (processes jobs w) s) :
    ∃ σ, AtSlots jobs s σ ∧ ∃ sem q, SlotInv jobs g m s σ sem q := by
  refine Run.staged (I := fun s σ => ∃ sem q, SlotInv jobs g m s σ sem q)
    (fun c => process_slotted (jobs c)) ⟨_, _, .start hw⟩ (fun _ _ hI hG hT _ => ?_) h
  obtain ⟨sem, q, hI⟩ := hI
  cases hT with
  | begin hc => exact ⟨sem, q, hI.other (by simp) rfl _⟩
  | answer hc hw hT =>
      obtain ⟨q', -, hI'⟩ := hI.reply hw hT _
      exact ⟨_, q', hI'⟩
  | crash | lost => exact hG.elim
  | move hm => exact ⟨sem, q, hI.other (by simp) (World.semaphore_move hm _) _⟩

/-- A call with a slot is in flight, and does not wait for another. -/
theorem SlotInv.inside_goes_on {σ : ι → SlotStage} {g : String} {m : Nat}
    {sem : GatewaySemaphore} {q : Slots ι} {d : ι} (h : SlotInv jobs g m s σ sem q)
    (hat : AtSlots jobs s σ) (halive : s.thread d ≠ .crashed) (hd : d ∈ q.inside) :
    (s.thread d).inFlight = true ∧ ∀ g', ¬ Waits g' s d := by
  obtain ⟨hon, hseats⟩ := (h.refines.inside d).mp hd
  constructor
  · by_contra hover
    have hslotless : (σ d).slotless = true := by
      rcases hat.ends (by simpa using hover) halive with hd | ⟨-, hd⟩
      · rw [hd]
        rfl
      · exact hd
    rcases hseats with hin | ⟨t, ht, -⟩ <;>
      cases hx : σ d <;> simp_all [SlotStage.slotless, SlotStage.inSlot, SlotStage.ticket]
  · intro g' hwaits
    obtain ⟨sem', t, hsem', ht, hawait⟩ := hwaits
    obtain ⟨x, hT⟩ := hat.edge hawait ()
    obtain ⟨hx, hg⟩ := hT.of_granted
    -- its ticket is one of its own gateway, and has been called
    obtain rfl : g = g' := hon.symm.trans hg
    obtain rfl : sem = sem' := by simpa [h.semaphore] using hsem'
    rcases hseats with hin | ⟨t', ht', hout⟩
    · simp [hx, SlotStage.inSlot] at hin
    · obtain rfl : t = t' := by simpa [hx] using ht'
      exact hout ht

/-- **No deadlock.** As long as a call is in flight, some call can be answered. -/
theorem exists_answer (hw : w.Vacant) (h : Run NoCrash (processes jobs w) s) {c : ι}
    (hc : (s.thread c).inFlight = true) : ∃ d a s', s.step (.answer d a) = some s' := by
  rcases answerable_or_waits h hc with hanswer | ⟨g, hwaits⟩
  · exact ⟨c, hanswer⟩
  obtain ⟨sem, t, hsem, ht, -⟩ := id hwaits
  obtain ⟨sem₀, hsem₀⟩ := Option.isSome_iff_exists.mp
    (semaphore_of_run h g ▸ Option.isSome_of_eq_some hsem)
  obtain ⟨m, hm, rfl⟩ := hw g sem₀ hsem₀
  obtain ⟨σ, hat, sem', q, hI⟩ := slotInv_of_run hsem₀ h
  have halive := alive_of_run (G := NoCrash) id h
  -- the gateway of a waiting call is full, so there is a call inside
  have hqueue : q.queue ≠ [] :=
    List.ne_nil_of_mem ((hI.waits_iff hat (halive c)).mp hwaits)
  have hcard := hI.refines.sound.full hqueue
  obtain ⟨d, hd⟩ := Finset.card_pos.mp (by omega : 0 < q.inside.card)
  obtain ⟨hflight, hgoes⟩ := hI.inside_goes_on hat (halive d) hd
  rcases answerable_or_waits h hflight with hanswer | ⟨g', hwaits'⟩
  · exact ⟨d, hanswer⟩
  · exact absurd hwaits' (hgoes g')

/-- When no call is in flight, every slot is free and nobody waits. -/
theorem vacated (hw : w.Vacant) (h : Run NoCrash (processes jobs w) s)
    (hover : ∀ c, (s.thread c).inFlight = false) {g : String} {sem : GatewaySemaphore}
    (hsem : s.world.semaphore g = some sem) : sem.inFlight = 0 ∧ sem.waiters = [] := by
  obtain ⟨sem₀, hsem₀⟩ := Option.isSome_iff_exists.mp
    (semaphore_of_run h g ▸ Option.isSome_of_eq_some hsem)
  obtain ⟨m, -, rfl⟩ := hw g sem₀ hsem₀
  obtain ⟨σ, hat, sem', q, hI⟩ := slotInv_of_run hsem₀ h
  obtain rfl : sem' = sem := Option.some.inj (hI.semaphore.symm.trans hsem)
  exact (hI.kept hat fun c => alive_of_run id h c).settled hover

/-- A call in flight has the credits of the longest way through `process` at most. -/
theorem credits_of_run (h : Run NoCrash (processes jobs w) s) :
    ∃ σ, s.Worth processCost σ ∧
      ∀ c, s.credits σ c ≤ if (s.thread c).inFlight then processCost else 0 := by
  obtain ⟨σ, hworth, hle⟩ := Run.worth (n := processCost)
    (fun c => by simpa using costs_process (jobs c) 0) h
  refine ⟨σ, hworth, fun c => ?_⟩
  unfold Config.credits
  split
  · exact (Nat.le_add_left _ _).trans (hle c)
  · exact le_rfl

/-- No call can be given more than `processCost` answers. -/
theorem answersTo_le (h : Run NoCrash (processes jobs w) s) {s' : State ι}
    {as : List (Action system ι)} (hbegin : ∀ a ∈ as, a.isBegin = false)
    (hexec : s.exec NoCrash as = some s') (c : ι) :
    as.countP (Action.answers c) ≤ processCost := by
  obtain ⟨σ, hworth, hle⟩ := credits_of_run h
  have hcredits : s.credits σ c ≤ processCost := (hle c).trans (by split <;> simp)
  exact (hworth.answersTo_le hbegin hexec c).trans hcredits

/-- Together they can be given no more than `processCost` for each that is in flight. -/
theorem answers_le [Fintype ι] (h : Run NoCrash (processes jobs w) s) {s' : State ι}
    {as : List (Action system ι)} (hbegin : ∀ a ∈ as, a.isBegin = false)
    (hexec : s.exec NoCrash as = some s') : as.countP Action.isAnswer ≤
      processCost * (Finset.univ.filter fun c => (s.thread c).inFlight = true).card := by
  obtain ⟨σ, hworth, hle⟩ := credits_of_run h
  calc as.countP Action.isAnswer
      ≤ ∑ c, s.credits σ c := hworth.answers_le hbegin hexec
    _ ≤ ∑ c, if (s.thread c).inFlight then processCost else 0 :=
        Finset.sum_le_sum fun c _ => hle c
    _ = (Finset.univ.filter fun c => (s.thread c).inFlight = true).card • processCost := by
        rw [← Finset.sum_filter, Finset.sum_const]
    _ = _ := Nat.mul_comm _ _

/-- **The service comes to rest.** In every run in which no worker dies and every gateway
has a slot, once no further call begins: however the calls in flight are answered, in
whatever order and whatever time passes in between, each is answered at most `processCost`
times more, all together at most that often for each that is in flight; and when no call can
be answered any more, all have ended, every slot is free and nobody waits for one. -/
theorem drains [Fintype ι] (hw : w.Vacant) (h : Run NoCrash (processes jobs w) s)
    {s' : State ι} {as : List (Action system ι)} (hbegin : ∀ a ∈ as, a.isBegin = false)
    (hexec : s.exec NoCrash as = some s') :
    (∀ c, as.countP (Action.answers c) ≤ processCost) ∧
      as.countP Action.isAnswer ≤
        processCost * (Finset.univ.filter fun c => (s.thread c).inFlight = true).card ∧
      ((∀ c a, s'.step (.answer c a) = none) → (∀ c, (s'.thread c).inFlight = false) ∧
        ∀ g sem, s'.world.semaphore g = some sem → sem.inFlight = 0 ∧ sem.waiters = []) := by
  refine ⟨answersTo_le h hbegin hexec, answers_le h hbegin hexec, fun hstuck => ?_⟩
  have h' := h.of_exec hexec
  have hover : ∀ c, (s'.thread c).inFlight = false := by
    intro c
    by_contra hc
    obtain ⟨d, a, s'', hs⟩ := exists_answer hw h' (by simpa using hc)
    rw [hstuck d a] at hs
    cases hs
  exact ⟨hover, fun g sem hsem => vacated hw h' hover hsem⟩

end

/-- Payment number `n`, on the last attempt of its job. -/
def lastAttempt (n : Nat) : Job := ⟨"job", numbered n, 2⟩

/-- Call `c` holds the only slot, and call `d` waits for it. -/
def slotAwaited {ι : Type} (c d : ι) : List (Action system ι) :=
  approach c ++ takeAndCharge c ++ approach d ++ [.answer d .resolve, .answer d .resolve]

/-- Call `c` completes; call `d` gets the slot and charges, and its notification fails. -/
def slotHandedOver {ι : Type} (c d : ι) : List (Action system ι) :=
  captureAndPost c ++ [.answer c (.env none)] ++ List.replicate 4 (.answer c .resolve) ++
    [.answer d .resolve, .answer d (.response accepted)] ++ captureAndPost d ++
    [.answer d (.env none), .answer d (.reject (.error "ECONNRESET"))] ++
    List.replicate 9 (.answer d .resolve)

/-- The call that waits, fails at the notification and is buried goes the longest way; then
everything is at rest. -/
theorem drains_two : ∃ s s' : State (Fin 2),
    Run NoCrash (processes (fun c : Fin 2 => lastAttempt c) oneSlot) s ∧
    (s.world.semaphore "stripe").map (·.waiters) = some [0] ∧
    s.exec NoCrash (slotHandedOver 0 1) = some s' ∧ (eventsOf 1 s'.log).length = processCost ∧
    (slotHandedOver 0 1).countP (Action.answers 1) ≤ processCost ∧
    (slotHandedOver 0 1).countP Action.isAnswer ≤
      processCost * (Finset.univ.filter fun c => (s.thread c).inFlight = true).card ∧
    ∀ sem, s'.world.semaphore "stripe" = some sem → sem.inFlight = 0 ∧ sem.waiters = [] := by
  have hrun : ∃ s, Run NoCrash (processes (fun c : Fin 2 => lastAttempt c) oneSlot) s ∧
      ((s.world.semaphore "stripe").map (·.waiters) = some [0] ∧
        (s.exec NoCrash (slotHandedOver 0 1)).any (fun s' =>
          decide ((eventsOf 1 s'.log).length = processCost ∧
            ∀ c, (s'.thread c).inFlight = false)) = true) :=
    Run.exists_of_exec (slotAwaited 0 1) (by decide +kernel)
  obtain ⟨s, h, hwaiters, hexec⟩ := hrun
  obtain ⟨s', hs', hend⟩ := (Option.any_eq_true _ _).mp hexec
  obtain ⟨hlength, hover⟩ := of_decide_eq_true hend
  have hvacant : oneSlot.Vacant := World.vacant_empty.registerGateway (by decide)
  have hstuck : ∀ c a, s'.step (.answer c a) = none := by
    intro c a
    have hc := hover c
    match hp : s'.thread c with
    | .running (.await o k) => simp [hp, Thread.inFlight, Thread.awaiting] at hc
    | .idle _ | .running (.ret _) | .running (.throw _) | .crashed => simp [Config.step, hp]
  obtain ⟨hcall, hle, hrest⟩ := drains hvacant h (by decide) hs'
  exact ⟨s, s', h, hwaiters, hs', hlength, hcall 1, hle, (hrest hstuck).2 "stripe"⟩

end PaymentQueue
