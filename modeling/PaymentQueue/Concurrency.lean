import PaymentQueue.Async.Slots
import PaymentQueue.Environment

/-!
# PaymentQueue.Concurrency

The slots of a gateway.

`SlotStage` is where a `process` call stands with the semaphore of its gateway, and
`process_slotted` says that every call asks for one slot at most, charges only in it, and
gives it back however its saga ends. `World.semaphore_perform` says once what any operation
does to the semaphore of a gateway. From both, the semaphore refines the abstract slots of
`Async.Slots` (`Refines`): the calls inside are the sagas that are running, and the waiters
are the queue. What the slots keep is then read off (`slots_kept`).
-/

namespace PaymentQueue

open Async

/-! ### The slot of one call -/

/-- Where a `process` call stands with the slot of its gateway. -/
inductive SlotStage
  /-- The lock is not acquired. -/
  | away
  /-- The lock is acquired, and no slot asked for. -/
  | locked
  /-- In the queue with a ticket, or called from it. -/
  | waiting (ticket : Nat)
  /-- In a slot, about to charge. -/
  | seated
  /-- In a slot, the gateway asked to charge. -/
  | charging
  /-- The slot is given back. -/
  | left
  deriving DecidableEq, Repr

/-- The operation concerns neither the lock's acquisition nor the slot, and does not
charge. -/
def Op.elsewhere : Op → Bool
  | acquireLock _ | semaphoreAcquire _ | semaphoreGranted _ _ | semaphoreRelease _
  | gatewayProcess _ => false
  | _ => true

namespace SlotStage

/-- One step of a `process` call, as far as its slot goes. -/
inductive Edge (job : Job) : SlotStage → (o : Op) → o.Ret → SlotStage → Prop
  | before {o : Op} {r : o.Ret} (ho : o.elsewhere = true) : Edge job .away o r .away
  | refused {r : Except Thrown Bool} (hr : r ≠ .ok true) :
      Edge job .away (.acquireLock job.data.idempotencyKey) r .away
  | lock : Edge job .away (.acquireLock job.data.idempotencyKey) (.ok true) .locked
  | enter : Edge job .locked (.semaphoreAcquire job.data.gatewayId) none .seated
  | join (t : Nat) :
      Edge job .locked (.semaphoreAcquire job.data.gatewayId) (some t) (.waiting t)
  | grant (t : Nat) :
      Edge job (.waiting t) (.semaphoreGranted job.data.gatewayId t) () .seated
  | charge (r : Except Thrown GatewayResponse) :
      Edge job .seated (.gatewayProcess job.data) r .charging
  | work {o : Op} {r : o.Ret} (ho : o.elsewhere = true) : Edge job .charging o r .charging
  | leave : Edge job .charging (.semaphoreRelease job.data.gatewayId) () .left
  | after {o : Op} {r : o.Ret} (ho : o.elsewhere = true) : Edge job .left o r .left

/-- The call has no slot and waits for none. -/
def slotless : SlotStage → Bool
  | .away | .left => true
  | _ => false

end SlotStage

section

variable {job : Job} {p : Payment}

/-- The program leaves the slot and the lock's acquisition alone. -/
abbrev Elsewhere {α : Type} (q : Proc α) : Prop :=
  Awaits (S := effects) (fun o : Op => o.elsewhere = true) q

theorem elsewhere_awaited {α : Type} {q : Proc (Except Thrown α)} (h : Elsewhere q) :
    Elsewhere (awaited q) :=
  .bind h .ofExcept

theorem elsewhere_finalize {status : PaymentStatus} {reason : Option String} :
    Elsewhere (finalize p status reason) :=
  elsewhere_awaited (.perform rfl)

theorem elsewhere_moveToDeadLetter {reason : Option String} :
    Elsewhere (moveToDeadLetter p reason) :=
  .bind (elsewhere_awaited (.perform rfl)) fun _ => elsewhere_awaited (.perform rfl)

theorem elsewhere_throwInjected {step : String} :
    Elsewhere (throwInjectedSagaFailure step) := by
  refine .bind (.perform rfl) fun v => ?_
  split
  · exact .ret ()
  · exact .throw _

theorem elsewhere_writeLedgerEntry {ctx : PaymentSagaContext} :
    Elsewhere (writeLedgerEntry p ctx) :=
  .bind elsewhere_throwInjected fun _ => .bind (elsewhere_awaited (.perform rfl)) fun _ =>
    .bind (elsewhere_awaited (.perform rfl)) fun _ => .ret _

/-- Of the steps of a saga only `authorize` charges. -/
theorem elsewhere_execute {step : SagaStep effects PaymentSagaContext PaymentSagaPatch}
    (h : step ∈ (buildPaymentSagaSteps (sagaDeps p)).tail) (ctx : PaymentSagaContext) :
    Elsewhere (step.execute ctx) := by
  simp only [buildPaymentSagaSteps, List.tail_cons, List.mem_cons, List.not_mem_nil,
    or_false] at h
  rcases h with rfl | rfl | rfl
  · exact .bind elsewhere_throwInjected fun _ => .ret _
  · exact .bind elsewhere_writeLedgerEntry fun _ => .ret _
  · exact .bind (.bind elsewhere_throwInjected fun _ => elsewhere_awaited (.perform rfl))
      fun _ => .ret _

theorem elsewhere_compensate {step : SagaStep effects PaymentSagaContext PaymentSagaPatch}
    (h : step ∈ buildPaymentSagaSteps (sagaDeps p)) (ctx : PaymentSagaContext) :
    Elsewhere (step.compensate ctx) := by
  simp only [buildPaymentSagaSteps, List.mem_cons, List.not_mem_nil, or_false] at h
  rcases h with rfl | rfl | rfl | rfl
  · simp only [authorizeStep]
    split
    · exact .perform rfl
    · exact .ret ()
  · simp only [captureStep]
    split
    · exact .perform rfl
    · exact .ret ()
  · simp only [writeLedgerStep]
    split
    · exact elsewhere_awaited (.perform rfl)
    · exact .ret ()
  · exact .ret ()

theorem elsewhere_onSagaFailure {err : Thrown} : Elsewhere (onSagaFailure job err) := by
  refine .bind (.perform rfl) fun _ => ?_
  split
  · refine .bind PaymentSaga.awaits_readMessage fun _ => .bind elsewhere_finalize fun _ => ?_
    refine .bind PaymentSaga.awaits_readMessage fun _ => ?_
    exact .bind elsewhere_moveToDeadLetter fun _ => elsewhere_awaited (.perform rfl)
  · refine .bind (elsewhere_awaited (.perform rfl)) fun _ => ?_
    split
    · refine .bind PaymentSaga.awaits_readMessage fun _ => ?_
      refine .bind elsewhere_finalize fun _ => ?_
      exact .bind PaymentSaga.awaits_readMessage fun _ => elsewhere_moveToDeadLetter
    · exact .throw err

theorem elsewhere_reconcile : Elsewhere (reconcile p) := by
  refine .bind (elsewhere_awaited (.perform rfl)) fun locked => ?_
  split
  · exact .ret ()
  · refine .tryCatch (.bind (elsewhere_awaited (.perform rfl)) fun status => ?_)
      fun _ => .ret ()
    split
    · exact .bind (elsewhere_awaited (.perform rfl)) fun _ => elsewhere_finalize
    · exact .ret ()

open SlotStage in
/-- A saga charges first, and then leaves the slot alone. -/
theorem runSaga_slotted {Q : SlotStage → Except Thrown Unit → Prop}
    (hQ : ∀ r, Q .charging r) : Follows (Edge job) (runSaga job.data) Q .seated := by
  intro r
  refine ⟨_, .charge r, Awaits.follows ?_ (fun _ _ ho => .work ho) hQ⟩
  refine .bind (.bind (.attempt (.bind (.bind (.bind (.ret r) .ofExcept) fun res => ?_)
    fun _ => .ret _)) fun result => ?_) fun _ => elsewhere_finalize
  · split
    · exact .ret _
    · exact .throw _
  · cases result with
    | ok patch =>
        refine PaymentSaga.awaits_loop (fun step hstep => elsewhere_execute hstep) ?_
        exact fun step hstep => elsewhere_compensate hstep
    | error err => exact PaymentSaga.awaits_onStepFailure (by simp)

open SlotStage in
/-- Under the lock a call takes a slot, charges in it, and gives it back. -/
theorem sagaInSlot_slotted {Q : SlotStage → Except Thrown Unit → Prop}
    (hQ : ∀ r, Q .left r) : Follows (Edge job) (sagaInSlot job.data) Q .locked := by
  have hslot : Follows (Edge job) (acquireSlot job.data.gatewayId)
      (fun g r => g = .seated ∧ r = .ok ()) .locked := by
    refine Follows.perform_bind fun t => ?_
    cases t with
    | none => exact ⟨_, .enter, rfl, rfl⟩
    | some t => exact ⟨_, .join t, Follows.perform fun _ => ⟨_, .grant t, rfl, rfl⟩⟩
  refine Follows.bind (hslot.mono ?_)
  intro g r hg
  obtain ⟨rfl, rfl⟩ := hg
  refine Follows.tryFinally (Follows.bind (runSaga_slotted fun r => ?_))
  cases r with
  | ok _ =>
      exact Follows.perform fun _ => ⟨_, .work rfl, Follows.perform fun _ => ⟨_, .leave, hQ _⟩⟩
  | error e => exact Follows.perform fun _ => ⟨_, .leave, hQ _⟩

open SlotStage in
/-- **One slot a call.** Every `process` call follows the slot automaton, whatever it is
answered, and ends without a slot. -/
theorem process_slotted (job : Job) :
    Follows (Edge job) (process job) (fun g _ => g.slotless = true) .away := by
  have hbefore : ∀ {α : Type} {q : Proc α} {f : α → Proc Unit}, Elsewhere q →
      (∀ a, Follows (Edge job) (f a) (fun g _ => g.slotless = true) .away) →
      Follows (Edge job) (q >>= f) (fun g _ => g.slotless = true) .away :=
    fun h hf => h.follows_bind (fun _ _ ho => .before ho) hf fun _ => rfl
  have hthrow : ∀ e, Follows (Edge job) (.throw e : Proc Unit) (fun g _ => g.slotless = true)
      .away := fun _ => rfl
  refine hbefore (.perform rfl) fun registered => hbefore (.perform rfl) fun limited => ?_
  split
  · exact hthrow _
  split
  · exact hthrow _
  refine hbefore (.perform rfl) fun admitted => ?_
  split
  · exact hthrow _
  refine hbefore (.perform rfl) fun allowed => ?_
  split
  · exact hbefore (.perform rfl) fun _ => hthrow _
  refine hbefore (elsewhere_awaited (.perform rfl)) fun _ => ?_
  refine hbefore (elsewhere_awaited (.perform rfl)) fun cached => ?_
  split
  · exact hbefore elsewhere_finalize fun _ => Follows.perform fun _ => ⟨_, .before rfl, rfl⟩
  refine hbefore (elsewhere_awaited (.perform rfl)) fun dbRecord => ?_
  split
  · refine hbefore (elsewhere_awaited (.perform rfl)) fun _ => hbefore elsewhere_finalize ?_
    exact fun _ => Follows.perform fun _ => ⟨_, .before rfl, rfl⟩
  refine follows_awaited (Follows.perform fun r => ?_)
  match r with
  | .error e => exact ⟨_, .refused (by simp), rfl⟩
  | .ok false =>
      refine ⟨_, .refused (by simp), ?_⟩
      exact elsewhere_reconcile.follows (fun _ _ ho => .before ho) fun _ => rfl
  | .ok true =>
      refine ⟨_, .lock, Follows.tryCatch (sagaInSlot_slotted fun r => ?_)⟩
      cases r with
      | ok _ => rfl
      | error e => exact elsewhere_onSagaFailure.follows (fun _ _ ho => .after ho) fun _ => rfl

end

/-! ### The semaphore of a gateway -/

/-- The semaphore of a registered gateway. -/
def World.semaphore (w : World) (gatewayId : String) : Option GatewaySemaphore :=
  (w.gateways gatewayId).map (·.semaphore)

/-- The semaphore of a gateway after an operation. -/
def GatewaySemaphore.after (s : GatewaySemaphore) (gatewayId : String) :
    Op → GatewaySemaphore
  | .semaphoreAcquire g => if g = gatewayId then s.acquire.2 else s
  | .semaphoreRelease g => if g = gatewayId then s.release else s
  | _ => s

namespace GatewaySemaphore

variable {s : GatewaySemaphore} {gatewayId : String}

theorem after_of_elsewhere {o : Op} (h : o.elsewhere = true) : s.after gatewayId o = s := by
  unfold after
  split <;> simp_all [Op.elsewhere]

theorem acquire_of_lt (h : s.inFlight < s.max) :
    s.acquire = (none, { s with inFlight := s.inFlight + 1 }) := by
  simp [acquire, h]

theorem acquire_of_not_lt (h : ¬ s.inFlight < s.max) :
    s.acquire = (some s.nextTicket,
      { s with waiters := s.waiters ++ [s.nextTicket], nextTicket := s.nextTicket + 1 }) := by
  simp [acquire, h]

theorem release_of_nil (h : s.waiters = []) :
    s.release = { s with inFlight := s.inFlight - 1 } := by
  simp [release, h]

/-- A slot that is handed over stays in flight. -/
theorem release_of_cons {t : Nat} {rest : List Nat} (h : s.waiters = t :: rest) :
    s.release = { s with waiters := rest } := by
  simp [release, h]

end GatewaySemaphore

namespace World

variable {w w' : World} {g gatewayId : String}

@[simp] theorem semaphore_setBreaker {gw : RegisteredGateway} {b : CircuitBreaker}
    (hgw : w.gateways g = some gw) :
    (w.setBreaker g gw b).semaphore gatewayId = w.semaphore gatewayId := by
  have hgateways : (w.setBreaker g gw b).gateways =
      Function.update w.gateways g (some { gw with breaker := b }) := by
    unfold setBreaker onStateChange
    split
    · rfl
    · split <;> rfl
  by_cases hg : gatewayId = g
  · subst hg
    simp [semaphore, hgateways, hgw]
  · simp [semaphore, hgateways, hg]

@[simp] theorem semaphore_setBucket {t : TokenBucket} :
    (w.setBucket g t).semaphore gatewayId = w.semaphore gatewayId := rfl

@[simp] theorem semaphore_setSemaphore {gw : RegisteredGateway} {s : GatewaySemaphore} :
    (w.setSemaphore g gw s).semaphore gatewayId =
      if g = gatewayId then some s else w.semaphore gatewayId := by
  by_cases hg : g = gatewayId
  · subst hg
    simp [semaphore, setSemaphore]
  · have hg' : gatewayId ≠ g := fun h => hg h.symm
    simp [semaphore, setSemaphore, hg, hg']

/-- The semaphore of a gateway changes by `acquire` and `release` on it, and by nothing
else. -/
theorem semaphore_perform {o : Op} {a : Answer} {r : o.Ret}
    (h : w.perform o a = some (r, w')) (gatewayId : String) :
    w'.semaphore gatewayId = (w.semaphore gatewayId).map (·.after gatewayId o) := by
  have hframe := perform_frame h
  cases o with
  | canAttempt g | recordSuccess g | recordFailure g =>
      cases a <;> simp only [perform, reduceCtorEq, Option.map_eq_some_iff,
        Prod.mk.injEq] at h
      obtain ⟨gw, hgw, -, rfl⟩ := h
      simp [semaphore_setBreaker hgw, GatewaySemaphore.after]
  | semaphoreAcquire g | semaphoreRelease g =>
      cases a <;> simp only [perform, reduceCtorEq, Option.map_eq_some_iff,
        Prod.mk.injEq] at h
      obtain ⟨gw, hgw, -, rfl⟩ := h
      by_cases hg : g = gatewayId
      · subst hg
        have hs : w.semaphore g = some gw.semaphore := by simp [semaphore, hgw]
        simp [GatewaySemaphore.after, hs]
      · simp [GatewaySemaphore.after, hg]
  | _ =>
      have hsame : w'.semaphore gatewayId = w.semaphore gatewayId := by
        rw [semaphore, hframe.gateways rfl, semaphore]
      simp [hsame, GatewaySemaphore.after]

variable {s : GatewaySemaphore} {a : Answer}

/-- `acquire` answers from the semaphore. -/
theorem acquire_perform {r : Option Nat}
    (h : w.perform (.semaphoreAcquire gatewayId) a = some (r, w'))
    (hs : w.semaphore gatewayId = some s) : s.acquire.1 = r := by
  cases a <;> simp only [perform, reduceCtorEq, Option.map_eq_some_iff, Prod.mk.injEq] at h
  obtain ⟨gw, hgw, rfl, -⟩ := h
  obtain rfl : gw.semaphore = s := by simpa [semaphore, hgw] using hs
  rfl

/-- A waiter goes on when its ticket has been called. -/
theorem granted_perform {t : Nat} {r : Unit}
    (h : w.perform (.semaphoreGranted gatewayId t) a = some (r, w'))
    (hs : w.semaphore gatewayId = some s) : t ∉ s.waiters := by
  cases a <;> simp only [perform, reduceCtorEq, Option.bind_eq_some_iff] at h
  obtain ⟨gw, hgw, h⟩ := h
  obtain rfl : gw.semaphore = s := by simpa [semaphore, hgw] using hs
  split at h
  · exact absurd h (by simp)
  · assumption

theorem semaphore_move {m : Move} (h : w.move m = some w') (gatewayId : String) :
    w'.semaphore gatewayId = w.semaphore gatewayId := by
  obtain ⟨now, redis, -, rfl⟩ := move_frame h
  rfl

end World

/-! ### The semaphore refines the slots -/

namespace SlotStage

/-- The ticket of a call that is in the queue, or has been called from it. -/
def ticket : SlotStage → Option Nat
  | .waiting t => some t
  | _ => none

@[simp] theorem ticket_waiting {t : Nat} : (waiting t).ticket = some t := rfl

/-- The call has taken its slot. -/
def inSlot : SlotStage → Bool
  | .seated | .charging => true
  | _ => false

/-- The call has asked for a slot and not given it back. -/
def asking : SlotStage → Bool
  | .waiting _ | .seated | .charging => true
  | _ => false

end SlotStage

/-- A slot is given to the call: it has taken it, or been called from the queue. -/
def GatewaySemaphore.Seats (sem : GatewaySemaphore) (x : SlotStage) : Prop :=
  x.inSlot = true ∨ ∃ t, x.ticket = some t ∧ t ∉ sem.waiters

/-- The operation asks for a slot of the gateway. -/
def Op.asksSlot (gatewayId : String) : Op → Bool
  | semaphoreAcquire g => g == gatewayId
  | _ => false

/-- The operation gives a slot of the gateway back. -/
def Op.freesSlot (gatewayId : String) : Op → Bool
  | semaphoreRelease g => g == gatewayId
  | _ => false

/-- Elsewhere, no slot is asked for or freed. -/
theorem Op.slot_of_elsewhere {o : Op} (h : o.elsewhere = true) (gatewayId : String) :
    o.asksSlot gatewayId = false ∧ o.freesSlot gatewayId = false := by
  cases o <;> simp_all [Op.elsewhere, Op.asksSlot, Op.freesSlot]

variable {ι : Type} [DecidableEq ι]

/-- The call is on a payment through the gateway. -/
def OnGateway (jobs : ι → Job) (gatewayId : String) (c : ι) : Prop :=
  (jobs c).data.gatewayId = gatewayId

omit [DecidableEq ι] in
/-- The tickets of the calls in `On` are different, and have all been given out. -/
structure Tickets (On : ι → Prop) (next : Nat) (σ : ι → SlotStage) : Prop where
  fresh : ∀ c t, On c → (σ c).ticket = some t → t < next
  distinct : ∀ c d t, On c → On d → (σ c).ticket = some t → (σ d).ticket = some t → c = d

omit [DecidableEq ι] in
/-- The semaphore with the calls at `σ`, those on its gateway being `On`, stands for the
slots `q`. -/
structure Refines (On : ι → Prop) (m : Nat) (sem : GatewaySemaphore) (σ : ι → SlotStage)
    (q : Slots ι) : Prop where
  sound : q.Sound m
  max : sem.max = m
  inFlight : sem.inFlight = q.inside.card
  inside : ∀ c, c ∈ q.inside ↔ On c ∧ sem.Seats (σ c)
  /-- The waiters are the tickets of the queue, in its order. -/
  queue : q.queue.map (fun c => (σ c).ticket) = sem.waiters.map some
  on : ∀ c ∈ q.queue, On c
  tickets : Tickets On sem.nextTicket σ

/-- What the slots of a gateway do when call `c` is answered. -/
inductive SlotMove (m : Nat) (gatewayId : String) (c : ι) (q : Slots ι) :
    (o : Op) → o.Ret → Slots ι → Prop
  | enter (hfree : q.inside.card < m) :
      SlotMove m gatewayId c q (.semaphoreAcquire gatewayId) none (q.enter c)
  | join (t : Nat) (hfull : ¬ q.inside.card < m) (hin : c ∉ q.inside) (hq : c ∉ q.queue) :
      SlotMove m gatewayId c q (.semaphoreAcquire gatewayId) (some t) (q.join c)
  | leave (hc : c ∈ q.inside) :
      SlotMove m gatewayId c q (.semaphoreRelease gatewayId) () (q.leave c)
  | stay {o : Op} {r : o.Ret} (hask : o.asksSlot gatewayId = false)
      (hfree : o.freesSlot gatewayId = false) : SlotMove m gatewayId c q o r q

/-- The slots are granted in the order of asking. -/
theorem SlotMove.asked {m : Nat} {gatewayId : String} {c : ι} {q q' : Slots ι} {o : Op}
    {r : o.Ret} (h : SlotMove m gatewayId c q o r q') (hq : q.Sound m) :
    q'.asked = q.asked ++ if o.asksSlot gatewayId then [c] else [] := by
  cases h with
  | enter hfree => simp [Slots.asked_enter (hq.queue_eq_nil hfree), Op.asksSlot]
  | join t => simp [Slots.asked_join, Op.asksSlot]
  | leave => simp [Slots.asked_leave, Op.asksSlot]
  | stay hask => simp [hask]

namespace Tickets

variable {On : ι → Prop} {next : Nat} {σ σ' : ι → SlotStage} {c : ι} {x : SlotStage}

omit [DecidableEq ι] in
/-- Calls can lose their tickets. -/
theorem mono (h : Tickets On next σ)
    (hσ : ∀ d t, On d → (σ' d).ticket = some t → (σ d).ticket = some t) :
    Tickets On next σ' :=
  ⟨fun d t hd ht => h.fresh d t hd (hσ d t hd ht), fun d e t hd he htd hte =>
    h.distinct d e t hd he (hσ d t hd htd) (hσ e t he hte)⟩

theorem update_none (h : Tickets On next σ) (hx : x.ticket = none) :
    Tickets On next (Function.update σ c x) := by
  refine h.mono fun d t _ ht => ?_
  by_cases hd : d = c
  · simp [hd, hx] at ht
  · rwa [Function.update_of_ne hd] at ht

/-- A call draws the next ticket, which is nobody else's. -/
theorem draw (h : Tickets On next σ) :
    Tickets On (next + 1) (Function.update σ c (.waiting next)) := by
  have hother : ∀ d t, d ≠ c → On d → (Function.update σ c (.waiting next) d).ticket = some t →
      (σ d).ticket = some t ∧ t < next := by
    intro d t hd hon ht
    rw [Function.update_of_ne hd] at ht
    exact ⟨ht, h.fresh d t hon ht⟩
  refine ⟨fun d t hd ht => ?_, fun d e t hd he htd hte => ?_⟩
  · by_cases hdc : d = c
    · obtain rfl : next = t := by simpa [hdc] using ht
      exact Nat.lt_succ_self _
    · exact Nat.lt_succ_of_lt (hother d t hdc hd ht).2
  · by_cases hdc : d = c <;> by_cases hec : e = c
    · rw [hdc, hec]
    · obtain rfl : next = t := by simpa [hdc] using htd
      exact absurd (hother e _ hec he hte).2 (lt_irrefl _)
    · obtain rfl : next = t := by simpa [hec] using hte
      exact absurd (hother d _ hdc hd htd).2 (lt_irrefl _)
    · exact h.distinct d e t hd he (hother d t hdc hd htd).1 (hother e t hec he hte).1

end Tickets

namespace Refines

variable {On : ι → Prop} {m : Nat} {sem : GatewaySemaphore} {σ σ' : ι → SlotStage}
variable {q : Slots ι} {c : ι} {t : Nat}

omit [DecidableEq ι]

theorem mem_waiters (h : Refines On m sem σ q) :
    t ∈ sem.waiters ↔ ∃ c ∈ q.queue, (σ c).ticket = some t := by
  have := congrArg (fun l => some t ∈ l) h.queue
  simpa using this.symm

theorem mem_queue (h : Refines On m sem σ q) :
    c ∈ q.queue ↔ On c ∧ ∃ t ∈ sem.waiters, (σ c).ticket = some t := by
  constructor
  · intro hc
    have hmem : (σ c).ticket ∈ sem.waiters.map some := h.queue ▸ List.mem_map_of_mem hc
    obtain ⟨t, ht, heq⟩ := List.mem_map.mp hmem
    exact ⟨h.on c hc, t, ht, heq.symm⟩
  · intro hc
    obtain ⟨hon, t, ht, heq⟩ := hc
    obtain ⟨d, hd, heq'⟩ := h.mem_waiters.mp ht
    exact h.tickets.distinct c d t hon (h.on d hd) heq heq' ▸ hd

/-- Nothing but the tickets and who has taken a slot matters. -/
theorem congr (h : Refines On m sem σ q)
    (hσ : ∀ c, On c → (σ' c).ticket = (σ c).ticket ∧ (σ' c).inSlot = (σ c).inSlot) :
    Refines On m sem σ' q where
  sound := h.sound
  max := h.max
  inFlight := h.inFlight
  inside c := by
    rw [h.inside]
    refine and_congr_right fun hon => ?_
    simp [GatewaySemaphore.Seats, hσ c hon]
  queue := by
    rw [← h.queue]
    exact List.map_congr_left fun c hc => (hσ c (h.on c hc)).1
  on := h.on
  tickets := h.tickets.mono fun c t hon ht => (hσ c hon).1 ▸ ht

theorem waiters_eq_nil (h : Refines On m sem σ q) (hq : q.queue = []) : sem.waiters = [] := by
  have := h.queue
  rw [hq] at this
  simpa using this.symm

theorem inFlight_lt (h : Refines On m sem σ q) :
    sem.inFlight < sem.max ↔ q.inside.card < m := by
  rw [h.inFlight, h.max, Nat.cast_lt]

/-- A call without a ticket or a slot is neither inside nor in the queue. -/
theorem outside (h : Refines On m sem σ q) (hslot : (σ c).inSlot = false)
    (ht : (σ c).ticket = none) : c ∉ q.inside ∧ c ∉ q.queue := by
  rw [h.inside, h.mem_queue]
  simp [GatewaySemaphore.Seats, hslot, ht]

variable [DecidableEq ι]

/-- The tickets of the queue are those of before, if the acting call is not in it. -/
theorem queue_update {x : SlotStage} (hc : c ∉ q.queue) :
    q.queue.map (fun d => (Function.update σ c x d).ticket) =
      q.queue.map fun d => (σ d).ticket := by
  refine List.map_congr_left fun d hd => ?_
  have hdc : d ≠ c := fun heq => hc (by rwa [← heq])
  rw [Function.update_of_ne hdc]

theorem enter (h : Refines On m sem σ q) (hon : On c) (hc : σ c = .locked)
    (hlt : sem.inFlight < sem.max) :
    Refines On m { sem with inFlight := sem.inFlight + 1 } (Function.update σ c .seated)
      (q.enter c) := by
  have hfree := h.inFlight_lt.mp hlt
  obtain ⟨hin, hqueue⟩ := h.outside (c := c) (by rw [hc]; rfl) (by rw [hc]; rfl)
  refine ⟨h.sound.enter hfree, h.max, ?_, fun d => ?_, (queue_update hqueue).trans h.queue,
    h.on, h.tickets.update_none rfl⟩
  · simp [Slots.enter, Finset.card_insert_of_notMem hin, h.inFlight]
  · by_cases hd : d = c
    · subst hd
      simp [Slots.enter, hon, GatewaySemaphore.Seats, SlotStage.inSlot]
    · simp [Slots.enter, hd, h.inside, GatewaySemaphore.Seats]

theorem join (h : Refines On m sem σ q) (hon : On c) (hc : σ c = .locked)
    (hfull : ¬ sem.inFlight < sem.max) :
    Refines On m
      { sem with
        waiters := sem.waiters ++ [sem.nextTicket], nextTicket := sem.nextTicket + 1 }
      (Function.update σ c (.waiting sem.nextTicket)) (q.join c) := by
  obtain ⟨hin, hqueue⟩ := h.outside (c := c) (by rw [hc]; rfl) (by rw [hc]; rfl)
  refine ⟨h.sound.join (fun hlt => hfull (h.inFlight_lt.mpr hlt)) hin hqueue, h.max,
    h.inFlight, fun d => ?_, ?_, ?_, h.tickets.draw⟩
  · by_cases hd : d = c
    · subst hd
      simp [Slots.join, hin, GatewaySemaphore.Seats, SlotStage.inSlot]
    · simp only [Slots.join, h.inside, GatewaySemaphore.Seats, Function.update_of_ne hd]
      refine and_congr_right fun hond => or_congr_right (exists_congr fun t => ?_)
      refine and_congr_right fun ht => ?_
      -- the new ticket is nobody else's
      simp [(h.tickets.fresh d t hond ht).ne]
  · simp [Slots.join, queue_update hqueue, h.queue]
  · intro d hd
    rcases List.mem_append.mp hd with hd | hd
    · exact h.on d hd
    · rwa [List.mem_singleton.mp hd]

/-- A call whose ticket has been called was inside before it takes its slot. -/
theorem grant (h : Refines On m sem σ q) (hon : On c) (hc : σ c = .waiting t)
    (ht : t ∉ sem.waiters) :
    c ∈ q.inside ∧ Refines On m sem (Function.update σ c .seated) q := by
  have hin : c ∈ q.inside := (h.inside c).mpr ⟨hon, Or.inr ⟨t, by rw [hc]; rfl, ht⟩⟩
  have hqueue : c ∉ q.queue := fun hq => h.sound.outside c hq hin
  refine ⟨hin, h.sound, h.max, h.inFlight, fun d => ?_, (queue_update hqueue).trans h.queue,
    h.on, h.tickets.update_none rfl⟩
  by_cases hd : d = c
  · subst hd
    simp [hin, hon, GatewaySemaphore.Seats, SlotStage.inSlot]
  · simp [h.inside, hd, GatewaySemaphore.Seats]

/-- A call leaves its slot, to nobody or to the first in the queue. -/
theorem leave (h : Refines On m sem σ q) (hon : On c) (hc : σ c = .charging) :
    c ∈ q.inside ∧ Refines On m sem.release (Function.update σ c .left) (q.leave c) := by
  have hin : c ∈ q.inside := (h.inside c).mpr ⟨hon, Or.inl (by rw [hc]; rfl)⟩
  have hqueue : c ∉ q.queue := fun hq => h.sound.outside c hq hin
  have hcard := Finset.card_erase_add_one hin
  refine ⟨hin, ?_⟩
  cases hq : q.queue with
  | nil =>
      have hwaiters := h.waiters_eq_nil hq
      have hsound := h.sound.leave hin
      rw [Slots.leave_nil hq] at hsound ⊢
      rw [GatewaySemaphore.release_of_nil hwaiters]
      refine ⟨hsound, h.max, ?_, fun d => ?_, (queue_update hqueue).trans h.queue, h.on,
        h.tickets.update_none rfl⟩
      · simp only [h.inFlight]
        omega
      · by_cases hd : d = c
        · subst hd
          simp [GatewaySemaphore.Seats, SlotStage.inSlot, SlotStage.ticket]
        · simp [h.inside, hd, GatewaySemaphore.Seats]
  | cons d rest =>
      have hmap := h.queue
      rw [hq, List.map_cons] at hmap
      obtain ⟨t, ws, hws, htd, hrest⟩ := List.map_eq_cons_iff.mp hmap.symm
      have hond : On d := h.on d (by simp [hq])
      obtain ⟨hdrest, -⟩ := List.nodup_cons.mp (hq ▸ h.sound.nodup)
      have hdc : d ≠ c := fun heq => hqueue (by simp [hq, ← heq])
      -- the ticket of the first in the queue is called, and no other
      have hcalled : ∀ e t', On e → e ≠ d → (σ e).ticket = some t' →
          (t' ∈ sem.waiters ↔ t' ∈ ws) := by
        intro e t' hone hed hte
        have hne : t' ≠ t := fun heq =>
          hed (h.tickets.distinct e d t' hone hond hte (heq ▸ htd.symm))
        simp [hws, hne]
      have hnot : t ∉ ws := by
        intro hmem
        have hsome : some t ∈ rest.map fun e => (σ e).ticket := hrest ▸ List.mem_map_of_mem hmem
        obtain ⟨e, he, hte⟩ := List.mem_map.mp hsome
        have hone : On e := h.on e (by simp [hq, he])
        exact hdrest (h.tickets.distinct e d t hone hond hte htd.symm ▸ he)
      have hsound := h.sound.leave hin
      rw [Slots.leave_cons hq] at hsound ⊢
      rw [GatewaySemaphore.release_of_cons hws]
      refine ⟨hsound, h.max, ?_, fun e => ?_, ?_, fun e he => h.on e (by simp [hq, he]),
        h.tickets.update_none rfl⟩
      · rw [h.sound.card_handOver hin hq]
        exact h.inFlight
      · by_cases hec : e = c
        · subst hec
          simp [GatewaySemaphore.Seats, SlotStage.inSlot, SlotStage.ticket, hdc.symm]
        · by_cases hed : e = d
          · subst hed
            simp [hond, hec, GatewaySemaphore.Seats, ← htd, hnot]
          · simp only [Finset.mem_insert, hed, false_or, Finset.mem_erase, ne_eq, hec,
              not_false_eq_true, true_and, h.inside, GatewaySemaphore.Seats,
              Function.update_of_ne hec]
            refine and_congr_right fun hone => or_congr_right (exists_congr fun t' => ?_)
            exact and_congr_right fun hte => not_congr (hcalled e t' hone hed hte)
      · rw [queue_update fun hmem => hqueue (by simp [hq, hmem]), hrest]

/-- One answer moves the semaphore as it moves the slots. -/
theorem reply {jobs : ι → Job} {gatewayId : String} {w w' : World} {o : Op} {a : Answer}
    {r : o.Ret} {x : SlotStage} (h : Refines (OnGateway jobs gatewayId) m sem σ q)
    (hs : w.semaphore gatewayId = some sem) (hw : w.perform o a = some (r, w'))
    (hT : SlotStage.Edge (jobs c) (σ c) o r x) :
    ∃ q', SlotMove m gatewayId c q o r q' ∧
      Refines (OnGateway jobs gatewayId) m (sem.after gatewayId o) (Function.update σ c x)
        q' := by
  -- where nothing about tickets and slots changes, the slots stay
  have hstay : o.asksSlot gatewayId = false ∧ o.freesSlot gatewayId = false →
      sem.after gatewayId o = sem →
      (OnGateway jobs gatewayId c → x.ticket = (σ c).ticket ∧ x.inSlot = (σ c).inSlot) →
      ∃ q', SlotMove m gatewayId c q o r q' ∧
        Refines (OnGateway jobs gatewayId) m (sem.after gatewayId o) (Function.update σ c x)
          q' := by
    intro hslot hafter hx
    refine ⟨q, .stay hslot.1 hslot.2, ?_⟩
    rw [hafter]
    refine h.congr fun d hd => ?_
    by_cases hdc : d = c
    · subst hdc
      simpa using hx hd
    · simp [hdc]
  generalize hc : σ c = x₀ at hT
  cases hT with
  | before ho | work ho | after ho =>
      exact hstay (Op.slot_of_elsewhere ho gatewayId) (sem.after_of_elsewhere ho)
        fun _ => by simp [hc]
  | refused _ => exact hstay ⟨rfl, rfl⟩ rfl fun _ => by simp [hc]
  | lock =>
      exact hstay ⟨rfl, rfl⟩ rfl fun _ => by simp [hc, SlotStage.ticket, SlotStage.inSlot]
  | charge r =>
      exact hstay ⟨rfl, rfl⟩ rfl fun _ => by simp [hc, SlotStage.ticket, SlotStage.inSlot]
  | enter =>
      by_cases hon : OnGateway jobs gatewayId c
      · obtain rfl : (jobs c).data.gatewayId = gatewayId := hon
        by_cases hlt : sem.inFlight < sem.max
        · refine ⟨_, .enter (h.inFlight_lt.mp hlt), ?_⟩
          simpa [GatewaySemaphore.after, sem.acquire_of_lt hlt] using h.enter rfl hc hlt
        · have hr := World.acquire_perform hw hs
          simp [sem.acquire_of_not_lt hlt] at hr
      · exact hstay ⟨beq_false_of_ne hon, rfl⟩ (if_neg hon) (absurd · hon)
  | join t =>
      by_cases hon : OnGateway jobs gatewayId c
      · obtain rfl : (jobs c).data.gatewayId = gatewayId := hon
        have hr := World.acquire_perform hw hs
        by_cases hlt : sem.inFlight < sem.max
        · simp [sem.acquire_of_lt hlt] at hr
        · obtain rfl : sem.nextTicket = t := by simpa [sem.acquire_of_not_lt hlt] using hr
          obtain ⟨hin, hqueue⟩ := h.outside (c := c) (by rw [hc]; rfl) (by rw [hc]; rfl)
          refine ⟨_, .join _ (fun hfree => hlt (h.inFlight_lt.mpr hfree)) hin hqueue, ?_⟩
          simpa [GatewaySemaphore.after, sem.acquire_of_not_lt hlt] using h.join rfl hc hlt
      · exact hstay ⟨beq_false_of_ne hon, rfl⟩ (if_neg hon) (absurd · hon)
  | grant t =>
      by_cases hon : OnGateway jobs gatewayId c
      · obtain rfl : (jobs c).data.gatewayId = gatewayId := hon
        exact ⟨q, .stay rfl rfl, (h.grant rfl hc (World.granted_perform hw hs)).2⟩
      · exact hstay ⟨rfl, rfl⟩ rfl (absurd · hon)
  | leave =>
      by_cases hon : OnGateway jobs gatewayId c
      · obtain rfl : (jobs c).data.gatewayId = gatewayId := hon
        obtain ⟨hin, hleave⟩ := h.leave rfl hc
        refine ⟨_, .leave hin, ?_⟩
        simpa [GatewaySemaphore.after] using hleave
      · exact hstay ⟨rfl, beq_false_of_ne hon⟩ (if_neg hon) (absurd · hon)

end Refines

/-! ### What the slots keep -/

/-- The calls that asked for a slot of the gateway, in the order of asking. -/
def askedSlots (gatewayId : String) (log : List (LogEntry ι)) : List ι :=
  (log.filterMap fun
    | .reply c ev => if ev.op.asksSlot gatewayId then some c else none
    | _ => none).reverse

/-- Call `c` waits for a slot of the gateway. -/
def Waits (gatewayId : String) (s : State ι) (c : ι) : Prop :=
  ∃ sem t, s.world.semaphore gatewayId = some sem ∧ t ∈ sem.waiters ∧
    (s.thread c).awaiting = some (.semaphoreGranted gatewayId t)

/-- The saga of call `c` runs against the gateway: the call has asked for a slot, it does
not wait any more, and it has not given the slot back. -/
def HasSlot (gatewayId : String) (s : State ι) (c : ι) : Prop :=
  Pending (answered c fun ev => ev.op.asksSlot gatewayId)
    (answered c fun ev => ev.op.freesSlot gatewayId) s.log ∧ ¬ Waits gatewayId s c

/-- What is to hold of the slots of a gateway registered with `maxConcurrency`. -/
structure SlotsKept (gatewayId : String) (maxConcurrency : Int) (s : State ι)
    (sem : GatewaySemaphore) : Prop where
  /-- `inFlight` is the number of sagas that run against the gateway. -/
  inFlight : ∃ running : Finset ι, (∀ c, c ∈ running ↔ HasSlot gatewayId s c) ∧
    sem.inFlight = running.card
  bounded : sem.inFlight ≤ maxConcurrency
  /-- The gateway is charged by such sagas only. -/
  charging : ∀ c p, (s.thread c).awaiting = some (.gatewayProcess p) →
    p.gatewayId = gatewayId → HasSlot gatewayId s c
  /-- No slot is idle while a call waits. -/
  noIdle : sem.waiters ≠ [] → sem.inFlight = maxConcurrency
  /-- The slots are granted in the order of asking: those that still wait asked last, and
  are called in the order in which they asked. -/
  inOrder : ∃ granted waiting, askedSlots gatewayId s.log = granted ++ waiting ∧
    (∀ c ∈ granted, ¬ Waits gatewayId s c) ∧
    waiting.map (fun c => (s.thread c).awaiting) =
      sem.waiters.map fun t => some (.semaphoreGranted gatewayId t)
  settled : (∀ c, (s.thread c).inFlight = false) → sem.inFlight = 0 ∧ sem.waiters = []

/-- The configuration is at the slot stages `σ` of its calls. -/
abbrev AtSlots (jobs : ι → Job) (s : State ι) (σ : ι → SlotStage) : Prop :=
  s.At (fun c => SlotStage.Edge (jobs c)) .away (fun _ g _ => g.slotless = true) σ

/-- A call asks for a slot of its own gateway, and gives it back. -/
theorem SlotStage.Edge.asking_iff {job : Job} {x x' : SlotStage} {o : Op} {r : o.Ret}
    {gatewayId : String} (h : Edge job x o r x') :
    (job.data.gatewayId = gatewayId ∧ x'.asking = true) ↔
      o.asksSlot gatewayId = true ∨ (o.freesSlot gatewayId = false ∧
        job.data.gatewayId = gatewayId ∧ x.asking = true) := by
  cases h with
  | before ho | work ho | after ho =>
      simp [Op.slot_of_elsewhere ho gatewayId, SlotStage.asking]
  | _ => simp [Op.asksSlot, Op.freesSlot, SlotStage.asking, and_comm]

theorem SlotStage.Edge.of_granted {job : Job} {x x' : SlotStage} {g : String} {t : Nat}
    {u : Unit} (h : Edge job x (.semaphoreGranted g t) u x') :
    x = .waiting t ∧ job.data.gatewayId = g := by
  cases h with
  | before ho | work ho | after ho => simp [Op.elsewhere] at ho
  | grant => exact ⟨rfl, rfl⟩

theorem SlotStage.Edge.of_waiting {job : Job} {x' : SlotStage} {t : Nat} {o : Op} {r : o.Ret}
    (h : Edge job (.waiting t) o r x') : o = .semaphoreGranted job.data.gatewayId t := by
  cases h
  rfl

theorem SlotStage.Edge.of_gatewayProcess {job : Job} {x x' : SlotStage} {p : Payment}
    {r : Except Thrown GatewayResponse} (h : Edge job x (.gatewayProcess p) r x') :
    x = .seated ∧ p = job.data := by
  cases h with
  | before ho | work ho | after ho => simp [Op.elsewhere] at ho
  | charge => exact ⟨rfl, rfl⟩

omit [DecidableEq ι] in
/-- A call with a ticket awaits its being called. -/
theorem awaiting_of_ticket {jobs : ι → Job} {s : State ι} {σ : ι → SlotStage} {c : ι}
    {t : Nat} (hat : AtSlots jobs s σ) (halive : s.thread c ≠ .crashed)
    (ht : (σ c).ticket = some t) :
    (s.thread c).awaiting = some (.semaphoreGranted (jobs c).data.gatewayId t) := by
  have hc : σ c = .waiting t := by
    cases hx : σ c <;> simp_all [SlotStage.ticket]
  cases hawait : (s.thread c).awaiting with
  | none =>
      rcases hat.ends (by simp [Thread.inFlight, hawait]) halive with haway | ⟨r, hover⟩
      · simp [hc] at haway
      · simp [hc, SlotStage.slotless] at hover
  | some o =>
      obtain ⟨r⟩ := (inferInstance : Nonempty o.Ret)
      obtain ⟨x, hT⟩ := hat.edge hawait r
      rw [hc] at hT
      rw [hT.of_waiting]

/-- The call has asked for a slot. -/
def SlotStage.hasAsked : SlotStage → Bool
  | .away | .locked => false
  | _ => true

/-- A call asks for a slot once. -/
theorem SlotStage.Edge.hasAsked_step {job : Job} {x x' : SlotStage} {o : Op} {r : o.Ret}
    (h : Edge job x o r x') :
    (x.hasAsked = true → x'.hasAsked = true) ∧ ∀ g, o.asksSlot g = true →
      x.hasAsked = false ∧ x'.hasAsked = true := by
  cases h with
  | before ho | work ho | after ho =>
      exact ⟨id, fun g hg => by simp [Op.slot_of_elsewhere ho g] at hg⟩
  | _ => simp [hasAsked, Op.asksSlot]

/-- What every run keeps of the slots of a gateway. -/
structure SlotInv (jobs : ι → Job) (gatewayId : String) (m : Nat) (s : State ι)
    (σ : ι → SlotStage) (sem : GatewaySemaphore) (q : Slots ι) : Prop where
  semaphore : s.world.semaphore gatewayId = some sem
  refines : Refines (OnGateway jobs gatewayId) m sem σ q
  asked : q.asked = askedSlots gatewayId s.log
  once : q.asked.Nodup
  hasAsked : ∀ c ∈ q.asked, (σ c).hasAsked = true
  asking : ∀ c, Pending (answered c fun ev => ev.op.asksSlot gatewayId)
      (answered c fun ev => ev.op.freesSlot gatewayId) s.log ↔
    OnGateway jobs gatewayId c ∧ (σ c).asking = true

namespace SlotInv

variable {jobs : ι → Job} {gatewayId : String} {m : Nat} {s : State ι} {σ : ι → SlotStage}
variable {sem : GatewaySemaphore} {q : Slots ι} {c : ι} {o : Op} {r : o.Ret} {w : World}
variable {x : SlotStage} {a : Answer}

/-- An answer moves the slots. -/
theorem reply (h : SlotInv jobs gatewayId m s σ sem q)
    (hw : s.world.perform o a = some (r, w)) (hT : SlotStage.Edge (jobs c) (σ c) o r x)
    (t : Thread effects Thrown Unit) :
    ∃ q', SlotMove m gatewayId c q o r q' ∧
      SlotInv jobs gatewayId m ⟨Function.update s.thread c t, w, .reply c ⟨o, r⟩ :: s.log⟩
        (Function.update σ c x) (sem.after gatewayId o) q' := by
  obtain ⟨q', hmove, hrefines⟩ := h.refines.reply h.semaphore hw hT
  have hasked := hmove.asked h.refines.sound
  obtain ⟨hmono, hask⟩ := hT.hasAsked_step
  -- whoever asks now has not asked before
  have hnew : o.asksSlot gatewayId = true → c ∉ q.asked := by
    intro ho hc
    have := (hask gatewayId ho).1
    simp [h.hasAsked c hc] at this
  refine ⟨q', hmove, ?_, hrefines, ?_, ?_, ?_, fun d => ?_⟩
  · simp [World.semaphore_perform hw, h.semaphore]
  · rw [hasked, h.asked]
    cases ho : o.asksSlot gatewayId <;> simp [askedSlots, ho]
  · rw [hasked]
    cases ho : o.asksSlot gatewayId with
    | false => simpa using h.once
    | true =>
        rw [if_pos rfl, ← List.concat_eq_append]
        exact h.once.concat (hnew ho)
  · refine forall_update (P := fun d (x : SlotStage) => d ∈ q'.asked → x.hasAsked = true)
      (fun hc => ?_) fun d hdc hd => h.hasAsked d ?_
    · cases ho : o.asksSlot gatewayId with
      | false => exact hmono (h.hasAsked c (by simpa [hasked, ho] using hc))
      | true => exact (hask gatewayId ho).2
    · rw [hasked] at hd
      cases ho : o.asksSlot gatewayId <;> simpa [ho, hdc] using hd
  · by_cases hd : d = c
    · subst hd
      rw [pending_cons, answered_reply_self, answered_reply_self, h.asking d,
        Function.update_self, OnGateway, hT.asking_iff]
    · rw [pending_skip (answered_reply_of_ne hd) (answered_reply_of_ne hd),
        Function.update_of_ne hd]
      exact h.asking d

/-- Whatever is no reply leaves the slots alone. -/
theorem other (h : SlotInv jobs gatewayId m s σ sem q) {e : LogEntry ι}
    (he : ∀ c ev, e ≠ .reply c ev) (hw : w.semaphore gatewayId = s.world.semaphore gatewayId)
    (t : ι → Thread effects Thrown Unit) :
    SlotInv jobs gatewayId m ⟨t, w, e :: s.log⟩ σ sem q where
  semaphore := hw ▸ h.semaphore
  refines := h.refines
  asked := by
    rw [h.asked]
    cases e with
    | reply c ev => exact absurd rfl (he c ev)
    | _ => simp [askedSlots]
  once := h.once
  hasAsked := h.hasAsked
  asking c := by
    have hskip : ∀ f, answered c f e = false := by
      intro f
      cases e with
      | reply c ev => exact absurd rfl (he c ev)
      | _ => rfl
    rw [pending_skip (hskip _) (hskip _)]
    exact h.asking c

/-- The calls in the queue are those that wait. -/
theorem waits_iff (h : SlotInv jobs gatewayId m s σ sem q) (hat : AtSlots jobs s σ)
    (halive : s.thread c ≠ .crashed) : Waits gatewayId s c ↔ c ∈ q.queue := by
  rw [h.refines.mem_queue]
  constructor
  · intro hwaits
    obtain ⟨sem', t, hsem, ht, hc⟩ := hwaits
    obtain rfl : sem = sem' := by simpa [h.semaphore] using hsem
    obtain ⟨x, hT⟩ := hat.edge hc ()
    obtain ⟨hx, hon⟩ := hT.of_granted
    exact ⟨hon, t, ht, by rw [hx, SlotStage.ticket_waiting]⟩
  · intro hqueue
    obtain ⟨hon, t, ht, hticket⟩ := hqueue
    exact ⟨sem, t, h.semaphore, ht, hon ▸ awaiting_of_ticket hat halive hticket⟩

/-- The calls inside are those whose sagas run. -/
theorem hasSlot_iff (h : SlotInv jobs gatewayId m s σ sem q) (hat : AtSlots jobs s σ)
    (halive : s.thread c ≠ .crashed) : HasSlot gatewayId s c ↔ c ∈ q.inside := by
  rw [HasSlot, h.asking, h.waits_iff hat halive, h.refines.mem_queue, h.refines.inside,
    and_assoc]
  refine and_congr_right fun hon => ?_
  cases hc : σ c <;>
    simp [hon, GatewaySemaphore.Seats, SlotStage.asking, SlotStage.inSlot, SlotStage.ticket]

theorem kept (h : SlotInv jobs gatewayId m s σ sem q) (hat : AtSlots jobs s σ)
    (halive : ∀ c, s.thread c ≠ .crashed) : SlotsKept gatewayId m s sem where
  inFlight := ⟨q.inside, fun c => (h.hasSlot_iff hat (halive c)).symm, h.refines.inFlight⟩
  bounded := by
    rw [h.refines.inFlight]
    exact Nat.cast_le.mpr h.refines.sound.card_le
  charging := by
    intro c p hc hp
    obtain ⟨x, hT⟩ := hat.edge hc (.error .null)
    obtain ⟨hx, rfl⟩ := hT.of_gatewayProcess
    rw [h.hasSlot_iff hat (halive c), h.refines.inside]
    exact ⟨hp, Or.inl (by rw [hx]; rfl)⟩
  noIdle := by
    intro hwaiters
    have hqueue : q.queue ≠ [] := fun hq => hwaiters (h.refines.waiters_eq_nil hq)
    rw [h.refines.inFlight, h.refines.sound.full hqueue]
  inOrder := by
    refine ⟨q.granted, q.queue, h.asked.symm, fun c hc => ?_, ?_⟩
    · rw [h.waits_iff hat (halive c)]
      exact fun hq => (List.nodup_append.mp h.once).2.2 c hc c hq rfl
    · have hawait : ∀ c ∈ q.queue, (s.thread c).awaiting =
          (σ c).ticket.map (Op.semaphoreGranted gatewayId) := by
        intro c hc
        obtain ⟨hon, t, -, hticket⟩ := h.refines.mem_queue.mp hc
        rw [awaiting_of_ticket hat (halive c) hticket, hticket, hon, Option.map_some]
      rw [List.map_congr_left hawait]
      have := congrArg (List.map (Option.map (Op.semaphoreGranted gatewayId))) h.refines.queue
      simpa [Function.comp_def] using this
  settled := by
    intro hover
    have hout : ∀ c, c ∉ q.inside ∧ c ∉ q.queue := by
      intro c
      have hc : (σ c).slotless = true := by
        rcases hat.ends (hover c) (halive c) with hc | ⟨-, hc⟩
        · rw [hc]
          rfl
        · exact hc
      cases hx : σ c with
      | away | left => exact h.refines.outside (by rw [hx]; rfl) (by rw [hx]; rfl)
      | _ => simp [hx, SlotStage.slotless] at hc
    have hinside := Finset.eq_empty_of_forall_notMem fun c => (hout c).1
    have hqueue := List.eq_nil_iff_forall_not_mem.mpr fun c => (hout c).2
    exact ⟨by simp [h.refines.inFlight, hinside], h.refines.waiters_eq_nil hqueue⟩

end SlotInv

variable {jobs : ι → Job} {gatewayId : String} {w : World}

theorem SlotInv.start {m : Nat}
    (hw : w.semaphore gatewayId = some { max := m }) :
    SlotInv jobs gatewayId m (processes jobs w) (fun _ => .away) { max := m } .empty where
  semaphore := hw
  refines := by
    refine ⟨.empty, rfl, rfl, ?_, rfl, ?_, ⟨?_, ?_⟩⟩
    all_goals simp [Slots.empty, GatewaySemaphore.Seats, SlotStage.inSlot, SlotStage.ticket]
  asked := rfl
  once := by simp [Slots.asked, Slots.empty]
  hasAsked := by simp [Slots.asked, Slots.empty]
  asking c := by simp [processes, Config.start, SlotStage.asking]

/-- **The slots of a gateway.** For every gateway registered with `maxConcurrency` of at
least one, in every run of calls that do not die, at every moment: the sagas that run
against it are as many as `inFlight`, and no more than `maxConcurrency`; no slot is idle
while a call waits; slots are granted in the order of asking; and when all calls have
settled, every slot is free and nobody waits. -/
theorem slots_kept {maxConcurrency : Int} (hmax : 1 ≤ maxConcurrency)
    (hw : w.semaphore gatewayId = some { max := maxConcurrency }) {s : State ι}
    (h : Run NoCrash (processes jobs w) s) :
    ∃ sem, s.world.semaphore gatewayId = some sem ∧
      SlotsKept gatewayId maxConcurrency s sem := by
  lift maxConcurrency to Nat using by omega with m
  have hstep : ∀ {s : State ι} {σ a} {s' : State ι} {σ'},
      (∃ sem q, SlotInv jobs gatewayId m s σ sem q) → NoCrash s a →
      TStep (fun c => SlotStage.Edge (jobs c)) s σ a s' σ' →
      ∃ sem q, SlotInv jobs gatewayId m s' σ' sem q := by
    intro s σ a s' σ' hI hG hT
    obtain ⟨sem, q, hI⟩ := hI
    cases hT with
    | begin hc => exact ⟨sem, q, hI.other (by simp) rfl _⟩
    | answer hc hw hT =>
        obtain ⟨q', -, hI'⟩ := hI.reply hw hT _
        exact ⟨_, q', hI'⟩
    | crash | lost => exact hG.elim
    | move hm => exact ⟨sem, q, hI.other (by simp) (World.semaphore_move hm _) _⟩
  obtain ⟨σ, hat, sem, q, hI⟩ := Run.staged
    (I := fun s σ => ∃ sem q, SlotInv jobs gatewayId m s σ sem q)
    (fun c => process_slotted (jobs c)) ⟨_, _, .start hw⟩
    (fun _ _ hI hG hT _ => hstep hI hG hT) h
  exact ⟨sem, hI.semaphore, hI.kept hat fun c => alive_of_run id h c⟩

/-- The service right after start-up, with one slot for the gateway `stripe`. -/
def oneSlot : World := (World.empty 0).registerGateway "stripe" 1 100 50

/-- Three payments at once on one slot: the first has been charged and given its slot to the
second, and the third still waits. -/
theorem slots_kept_three :
    ∃ s, Run NoCrash (processes (fun c : Fin 3 => ⟨"job", numbered c, 0⟩) oneSlot) s ∧
      ((s.world.semaphore "stripe").any fun sem => decide (sem.waiters ≠ [])) = true ∧
      ∃ sem, s.world.semaphore "stripe" = some sem ∧ SlotsKept "stripe" 1 s sem := by
  have hrun : ∃ s, Run NoCrash
      (processes (fun c : Fin 3 => ⟨"job", numbered c, 0⟩) oneSlot) s ∧
      ((s.world.semaphore "stripe").any fun sem => decide (sem.waiters ≠ [])) = true :=
    Run.exists_of_exec (approach 0 ++ takeAndCharge 0 ++ approach 1 ++ approach 2 ++
      [.answer 1 .resolve, .answer 1 .resolve, .answer 2 .resolve, .answer 2 .resolve] ++
      captureAndPost 0 ++ [.answer 0 (.env none)] ++ List.replicate 4 (.answer 0 .resolve))
      (by decide +kernel)
  obtain ⟨s, h, hwaiters⟩ := hrun
  exact ⟨s, h, hwaiters, slots_kept (by decide) rfl h⟩

end PaymentQueue
