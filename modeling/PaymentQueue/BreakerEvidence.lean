import PaymentQueue.Breakers
import PaymentQueue.Environment

/-!
# PaymentQueue.BreakerEvidence

Is what a breaker is told what its gateway has done?

A `process` call tells the breaker how the call as a whole went. It reports a success when it
finds the payment completed already, without asking the gateway; and it reports a failure
when the gateway has accepted the charge and a later step of the saga fails. In every run, each
report is evidence of the gateway's behaviour exactly if the call that makes it was not
answered in one of these ways (`evidenced_iff`).
-/

namespace PaymentQueue

open Async Stage

/-! ### What a call has found out -/

/-- The payment is known to be completed: its result is cached, or its record says so. -/
def isHit : ProcEvent → Bool
  | ⟨.getResult _, .ok v⟩ => v.isSome
  | ⟨.getStatus _, .ok v⟩ => decide (v.map (·.status) = some .completed)
  | _ => false

/-- The gateway's `process` returned success. -/
def isAccepted (gatewayId : String) : ProcEvent → Bool
  | ⟨.gatewayProcess p, .ok v⟩ => p.gatewayId == gatewayId && v.success
  | _ => false

/-- The gateway's `process` threw, or returned no success. -/
def isDeclined (gatewayId : String) : ProcEvent → Bool
  | ⟨.gatewayProcess p, .ok v⟩ => p.gatewayId == gatewayId && !v.success
  | ⟨.gatewayProcess p, .error _⟩ => p.gatewayId == gatewayId
  | _ => false

/-- The completion cannot be recorded, cached or reported, or the customer not be notified. -/
def isStepReject : ProcEvent → Bool
  | ⟨.upsertStatus _ ⟨.completed, _⟩, .error _⟩ | ⟨.storeResult _ _, .error _⟩
  | ⟨.emit (.notify _), .error _⟩ | ⟨.emit (.statusChanged _ .completed _ _), .error _⟩ => true
  | _ => false

/-- What `SAGA_FAIL_STEP` was when it was read. -/
def failStepRead : ProcEvent → Option (Option String)
  | ⟨.sagaFailStep, v⟩ => some v
  | _ => none

/-- The steps that read `SAGA_FAIL_STEP`, in the order in which they do. -/
def injectable : List String := ["capture", "ledger", "notify"]

/-- A failure is injected: a step has read its own name. -/
def injected (tr : List ProcEvent) : Bool :=
  (tr.filterMap failStepRead).zipIdx.any fun vi => vi.1.isSome && vi.1 == injectable[vi.2]?

/-- A step of the saga after the authorization fails. -/
def sagaBroken (tr : List ProcEvent) : Bool := tr.any isStepReject || injected tr

/-- What a trace says about the gateway and about what has kept the call from it. -/
structure Findings where
  hit : Bool
  accepted : Bool
  declined : Bool
  broken : Bool
  /-- How often `SAGA_FAIL_STEP` has been read. -/
  reads : Nat

/-- The findings of a trace. -/
def findingsOf (gatewayId : String) (tr : List ProcEvent) : Findings where
  hit := tr.any isHit
  accepted := tr.any (isAccepted gatewayId)
  declined := tr.any (isDeclined gatewayId)
  broken := sagaBroken tr
  reads := (tr.filterMap failStepRead).length

namespace Findings

/-- The event is a reading of its own name by the step that is the next to read. -/
def injects (t : Findings) (ev : ProcEvent) : Bool :=
  (failStepRead ev).any fun v => v.isSome && v == injectable[t.reads]?

/-- The findings after one more event. -/
def add (gatewayId : String) (t : Findings) (ev : ProcEvent) : Findings where
  hit := t.hit || isHit ev
  accepted := t.accepted || isAccepted gatewayId ev
  declined := t.declined || isDeclined gatewayId ev
  broken := t.broken || isStepReject ev || t.injects ev
  reads := t.reads + (failStepRead ev).toList.length

/-- What has been found at a stage. -/
def At (t : Findings) : Stage → Prop
  | .entering | .lookedUp _ | .gated | .admitted | .allowed | .checking | .missed | .clear
  | .locked => t = ⟨false, false, false, false, 0⟩
  | .backfilling | .reporting | .reported => t.hit = true ∧ t.accepted = false
  | .authorized => t = ⟨false, true, false, false, 0⟩
  | .captured => t = ⟨false, true, false, false, 1⟩
  | .posting | .written | .stored => t = ⟨false, true, false, false, 2⟩
  | .notifying | .notified | .succeeded => t = ⟨false, true, false, false, 3⟩
  -- there is nothing to be undone after a decline
  | .unwinding todo _ _ => (todo = [] ∧ t.declined = true ∧ t.broken = false) ∨
      (t.declined = false ∧ t.broken = true)
  | _ => True

variable {job : Job} {g g' : Stage} {o : Op} {r : o.Ret} {t : Findings}

theorem At.step (h : t.At g) (hT : Edge job g o r g') :
    (t.add job.data.gatewayId ⟨o, r⟩).At g' := by
  cases hT
  all_goals simp_all [At, add, isHit, isAccepted, isDeclined, isStepReject, failStepRead,
    injects, injectable]

end Findings

theorem injected_snoc (tr : List ProcEvent) (ev : ProcEvent) :
    injected (tr ++ [ev]) = (injected tr || (failStepRead ev).any fun v =>
      v.isSome && v == injectable[(tr.filterMap failStepRead).length]?) := by
  cases hread : failStepRead ev <;> simp [injected, hread, List.zipIdx_append]

theorem findingsOf_snoc (gatewayId : String) (tr : List ProcEvent) (ev : ProcEvent) :
    findingsOf gatewayId (tr ++ [ev]) = (findingsOf gatewayId tr).add gatewayId ev := by
  have hbroken : sagaBroken (tr ++ [ev]) = ((findingsOf gatewayId tr).broken ||
      isStepReject ev || (findingsOf gatewayId tr).injects ev) := by
    rw [sagaBroken, injected_snoc, List.any_append]
    simp only [findingsOf, Findings.injects, sagaBroken, List.any_cons, List.any_nil,
      Bool.or_false]
    ac_rfl
  have hreads : ((tr ++ [ev]).filterMap failStepRead).length =
      (findingsOf gatewayId tr).reads + (failStepRead ev).toList.length := by
    cases hread : failStepRead ev <;> simp [findingsOf, hread]
  rw [findingsOf, hbroken, hreads]
  simp [findingsOf, Findings.add]

variable {job : Job} {g g' : Stage} {gatewayId : String} {t : Findings} {u : Unit}

/-- A success is reported with the gateway's acceptance, or after a hit and without. -/
theorem Findings.At.recordSuccess (h : t.At g)
    (hT : Edge job g (.recordSuccess gatewayId) u g') : t.accepted = !t.hit := by
  cases hT with
  | recordReported =>
      obtain ⟨hhit, hacc⟩ := h
      rw [hhit, hacc]
      rfl
  | recordSaga => rw [h]; rfl

/-- A failure is reported when the gateway declined, or after a later step failed. -/
theorem Findings.At.recordFailure (h : t.At g)
    (hT : Edge job g (.recordFailure gatewayId) u g') : t.declined = !t.broken := by
  cases hT with
  | recordFailed err kept =>
      rcases h with ⟨-, hdecl, hbroken⟩ | ⟨hdecl, hbroken⟩ <;> rw [hdecl, hbroken] <;> rfl

/-- The calls on a breaker are made on that of the call's own gateway. -/
theorem Stage.Edge.gateway_of_record {o : Op} {r : o.Ret} (hT : Edge job g o r g')
    (ho : o = .recordSuccess gatewayId ∨ o = .recordFailure gatewayId) :
    gatewayId = job.data.gatewayId := by
  rcases ho with rfl | rfl
  · cases hT <;> rfl
  · cases hT
    rfl

/-! ### What takes a breaker to CLOSED and to OPEN -/

namespace CircuitBreaker

variable {b : CircuitBreaker} {gatewayId : String} {now : Int} {o : Op}

theorem canAttempt_state (b : CircuitBreaker) (now : Int) :
    (b.canAttempt now).2.state = b.state ∨ (b.canAttempt now).2.state = .halfOpen := by
  rcases b.canAttempt_cases now with ⟨-, heq⟩ | ⟨-, -, heq⟩ | ⟨-, -, heq⟩ | ⟨-, heq⟩
  · exact Or.inl (by rw [heq])
  · exact Or.inl (by rw [heq])
  · exact Or.inr (by rw [heq, admitTrial_state]; rfl)
  · exact Or.inl (by rw [heq, admitTrial_state])

/-- An operation leaves the breaker in its state, or takes it to HALF_OPEN, or is a report on
it that takes it where such reports do. -/
theorem after_state (b : CircuitBreaker) (gatewayId : String) (now : Int) (o : Op) :
    (b.after gatewayId now o).state = b.state ∨ (b.after gatewayId now o).state = .halfOpen ∨
    (o = .recordSuccess gatewayId ∧ (b.after gatewayId now o).state = .closed) ∨
    (o = .recordFailure gatewayId ∧ (b.after gatewayId now o).state = .open) := by
  cases hon : o.onBreaker gatewayId with
  | false => exact Or.inl (by rw [after_of_not_onBreaker hon])
  | true =>
      cases o with
      | canAttempt g =>
          rw [after, if_pos (by simpa [Op.onBreaker] using hon)]
          exact (b.canAttempt_state now).imp_right Or.inl
      | recordSuccess g =>
          obtain rfl : g = gatewayId := by simpa [Op.onBreaker] using hon
          rw [after, if_pos rfl]
          rcases b.recordSuccess_cases with ⟨-, hsame, -⟩ | ⟨-, -, hhalf, -⟩ | ⟨-, -, hclosed⟩
          · exact Or.inl hsame
          · exact Or.inr (Or.inl hhalf)
          · exact Or.inr (Or.inr (Or.inl ⟨rfl, hclosed⟩))
      | recordFailure g =>
          obtain rfl : g = gatewayId := by simpa [Op.onBreaker] using hon
          rw [after, if_pos rfl]
          rcases b.recordFailure_cases now with ⟨hopen, -⟩ | ⟨-, hsame, -⟩
          · exact Or.inr (Or.inr (Or.inr ⟨rfl, hopen⟩))
          · exact Or.inl hsame
      | _ => exact absurd hon (by simp [Op.onBreaker])

theorem of_after_closed (hb : b.state ≠ .closed)
    (h : (b.after gatewayId now o).state = .closed) : o = .recordSuccess gatewayId := by
  rcases b.after_state gatewayId now o with hsame | hhalf | ⟨ho, -⟩ | ⟨-, hopen⟩
  · exact absurd (hsame.symm.trans h) hb
  · exact absurd (hhalf.symm.trans h) (by decide)
  · exact ho
  · exact absurd (hopen.symm.trans h) (by decide)

theorem of_after_open (hb : b.state ≠ .open)
    (h : (b.after gatewayId now o).state = .open) : o = .recordFailure gatewayId := by
  rcases b.after_state gatewayId now o with hsame | hhalf | ⟨-, hclosed⟩ | ⟨ho, -⟩
  · exact absurd (hsame.symm.trans h) hb
  · exact absurd (hhalf.symm.trans h) (by decide)
  · exact absurd (hclosed.symm.trans h) (by decide)
  · exact ho

end CircuitBreaker

/-! ### Runs -/

variable {ι : Type} [DecidableEq ι] {jobs : ι → Job} {w : World} {s s' : State ι}
variable {a : Action system ι}

/-- The breaker of the gateway is told, and changed, by this step only what the gateway has
done: a call reports a success to it if the gateway's `process` has returned success to the
call, and a failure if it has thrown or returned no success; and by nothing else does it go
from HALF_OPEN to CLOSED, or to OPEN. -/
structure Evidenced (gatewayId : String) (s : State ι) (a : Action system ι) (s' : State ι) :
    Prop where
  success : ∀ c, s.Issues a c (.recordSuccess gatewayId) →
    (eventsOf c s.log).any (isAccepted gatewayId) = true
  failure : ∀ c, s.Issues a c (.recordFailure gatewayId) →
    (eventsOf c s.log).any (isDeclined gatewayId) = true
  closing : ∀ b b', s.world.breaker gatewayId = some b →
    s'.world.breaker gatewayId = some b' → b.state = .halfOpen → b'.state = .closed →
    ∃ c, s.Issues a c (.recordSuccess gatewayId) ∧
      (eventsOf c s.log).any (isAccepted gatewayId) = true
  opening : ∀ b b', s.world.breaker gatewayId = some b →
    s'.world.breaker gatewayId = some b' → b.state ≠ .open → b'.state = .open →
    ∃ c, s.Issues a c (.recordFailure gatewayId) ∧
      (eventsOf c s.log).any (isDeclined gatewayId) = true

/-- A step leaves the breaker of a gateway alone, or it is an operation of some call. -/
theorem breaker_of_step (hs : s.step a = some s') {gatewayId : String} {b b' : CircuitBreaker}
    (hb : s.world.breaker gatewayId = some b) (hb' : s'.world.breaker gatewayId = some b') :
    b' = b ∨ ∃ c o, s.Issues a c o ∧ b' = b.after gatewayId s.world.now o := by
  rcases Config.step_world hs with heq | ⟨c, o, a', r, hissues, hw⟩ | ⟨m, hw⟩
  · rw [heq, hb] at hb'
    exact Or.inl (Option.some.inj hb').symm
  · rw [(World.breaker_perform hw gatewayId).2, hb] at hb'
    exact Or.inr ⟨c, o, hissues, (Option.some.inj hb').symm⟩
  · rw [(World.breaker_move hw gatewayId).2, hb] at hb'
    exact Or.inl (Option.some.inj hb').symm

/-- What a call that awaits an operation has found out. -/
theorem findings_of_run {G : Guard system ι Thrown Unit} (h : Run G (processes jobs w) s)
    {c : ι} {o : Op} (hc : (s.thread c).awaiting = some o) :
    ∃ g, (findingsOf (jobs c).data.gatewayId (eventsOf c s.log)).At g ∧
      ∀ r, ∃ g', Edge (jobs c) g o r g' := by
  refine Run.awaiting_induct (g := Stage.entering) (P := fun g tr =>
    (findingsOf (jobs c).data.gatewayId tr).At g) (process_follows (jobs c)) rfl ?_ h hc
  intro g o r g' pre hpre hT
  rw [findingsOf_snoc]
  exact hpre.step hT

theorem accepted_of_run {G : Guard system ι Thrown Unit} (h : Run G (processes jobs w) s)
    {c : ι} {gatewayId : String} (hc : s.Issues a c (.recordSuccess gatewayId)) :
    (eventsOf c s.log).any (isAccepted gatewayId) = !(eventsOf c s.log).any isHit := by
  obtain ⟨g, hat, hedge⟩ := findings_of_run h hc.awaiting
  obtain ⟨g', hT⟩ := hedge ()
  obtain rfl := hT.gateway_of_record (Or.inl rfl)
  exact hat.recordSuccess hT

theorem declined_of_run {G : Guard system ι Thrown Unit} (h : Run G (processes jobs w) s)
    {c : ι} {gatewayId : String} (hc : s.Issues a c (.recordFailure gatewayId)) :
    (eventsOf c s.log).any (isDeclined gatewayId) = !sagaBroken (eventsOf c s.log) := by
  obtain ⟨g, hat, hedge⟩ := findings_of_run h hc.awaiting
  obtain ⟨g', hT⟩ := hedge ()
  obtain rfl := hT.gateway_of_record (Or.inr rfl)
  exact hat.recordFailure hT

/-- **Breaker evidence.** In every run, of any calls of any gateways, whatever they are
answered and whoever crashes: a step tells the breaker of a gateway only what the gateway has
done, if and only if a call that reports a success in it was answered no cached result and no
COMPLETED record, and a call that reports a failure has had no step of its saga fail after
the authorization. -/
theorem evidenced_iff {G : Guard system ι Thrown Unit} (h : Run G (processes jobs w) s)
    (hs : s.step a = some s') {gatewayId : String} :
    Evidenced gatewayId s a s' ↔ ∀ c,
      (s.Issues a c (.recordSuccess gatewayId) → (eventsOf c s.log).any isHit = false) ∧
      (s.Issues a c (.recordFailure gatewayId) → sagaBroken (eventsOf c s.log) = false) := by
  constructor
  · intro hev c
    refine ⟨fun hc => ?_, fun hc => ?_⟩
    · simpa [accepted_of_run h hc] using hev.success c hc
    · simpa [declined_of_run h hc] using hev.failure c hc
  · intro hnone
    have hsuccess : ∀ c, s.Issues a c (.recordSuccess gatewayId) →
        (eventsOf c s.log).any (isAccepted gatewayId) = true := by
      intro c hc
      rw [accepted_of_run h hc, (hnone c).1 hc]
      rfl
    have hfailure : ∀ c, s.Issues a c (.recordFailure gatewayId) →
        (eventsOf c s.log).any (isDeclined gatewayId) = true := by
      intro c hc
      rw [declined_of_run h hc, (hnone c).2 hc]
      rfl
    refine ⟨hsuccess, hfailure, fun b b' hb hb' hhalf hclosed => ?_,
      fun b b' hb hb' hnot hopen => ?_⟩
    · rcases breaker_of_step hs hb hb' with rfl | ⟨c, o, hissues, rfl⟩
      · exact absurd (hhalf.symm.trans hclosed) (by decide)
      · obtain rfl := CircuitBreaker.of_after_closed (by simp [hhalf]) hclosed
        exact ⟨c, hissues, hsuccess c hissues⟩
    · rcases breaker_of_step hs hb hb' with rfl | ⟨c, o, hissues, rfl⟩
      · exact absurd hopen hnot
      · obtain rfl := CircuitBreaker.of_after_open hnot hopen
        exact ⟨c, hissues, hfailure c hissues⟩

/-- A payment that is charged reports a success of its gateway. -/
theorem evidenced_charged :
    ∃ s s' : State Unit, Run NoCrash (processes (fun _ => cardJob 0) startedUp) s ∧
      s.step (.answer () .resolve) = some s' ∧
      s.Issues (.answer () .resolve) () (.recordSuccess "stripe") ∧
      Evidenced "stripe" s (.answer () .resolve) s' := by
  have hrun : ∃ s : State Unit, Run NoCrash (processes (fun _ => cardJob 0) startedUp) s ∧
      ((s.thread ()).awaiting = some (.recordSuccess "stripe") ∧
        (eventsOf () s.log).any isHit = false ∧ (s.step (.answer () .resolve)).isSome = true) :=
    Run.exists_of_exec (approach () ++ takeAndCharge () ++ captureAndPost () ++
      .answer () (.env none) :: List.replicate 2 (.answer () .resolve)) (by decide +kernel)
  obtain ⟨s, hrun, hawait, hhit, hstep⟩ := hrun
  obtain ⟨s', hs'⟩ := Option.isSome_iff_exists.mp hstep
  refine ⟨s, s', hrun, hs', ⟨rfl, hawait⟩, (evidenced_iff hrun hs').mpr fun c => ⟨fun _ => hhit,
    fun hfail => ?_⟩⟩
  exact absurd (hawait.symm.trans hfail.awaiting) (by simp)

/-- Call `c` is about to report what the gateway has not done, and by it to take the breaker
from one state to another. -/
def Misleads (c : ι) (source target : CircuitState) (s : State ι) : Prop :=
  ((s.thread c).awaiting = some (.recordSuccess "stripe") ∧
      (eventsOf c s.log).any (isAccepted "stripe") = false ∨
    (s.thread c).awaiting = some (.recordFailure "stripe") ∧
      (eventsOf c s.log).any (isDeclined "stripe") = false) ∧
  (s.world.breaker "stripe").map (·.state) = some source ∧
  (s.step (.answer c .resolve)).any (fun s' =>
    (s'.world.breaker "stripe").map (·.state) = some target) = true

instance (c : ι) (source target : CircuitState) :
    DecidablePred (Misleads c source target) :=
  fun _ => inferInstanceAs (Decidable (_ ∧ _ ∧ _))

theorem Misleads.not_evidenced {c : ι} {source target : CircuitState}
    (h : Misleads c source target s) (s' : State ι) :
    ¬ Evidenced "stripe" s (.answer c .resolve) s' := by
  intro hev
  rcases h.1 with ⟨hawait, hnone⟩ | ⟨hawait, hnone⟩
  · exact absurd (hev.success c ⟨rfl, hawait⟩) (by simp [hnone])
  · exact absurd (hev.failure c ⟨rfl, hawait⟩) (by simp [hnone])

/-- A job of another payment for the same gateway. -/
def otherJob : Job where
  id := "job_2"
  data := { cardPayment with id := "pay_2", idempotencyKey := "idem_2" }
  attemptsMade := 0

/-- After the card payment has been charged, five calls of another payment time out and open
the breaker; half a minute later three calls of the charged payment find its result, and close
the breaker. And five charges that are accepted, but cannot be recorded, open it. -/
theorem unevidenced_reachable :
    (∃ s : State (Fin 9), Run NoCrash (processes
        (fun c => if c ∈ [1, 2, 3, 4, 5] then otherJob else cardJob 0) startedUp) s ∧
      Misleads 8 .halfOpen .closed s ∧
      ∀ s', ¬ Evidenced "stripe" s (.answer 8 .resolve) s') ∧
    (∃ s : State (Fin 5), Run NoCrash (processes (fun _ => cardJob 0) startedUp) s ∧
      Misleads 4 .closed .open s ∧
      ∀ s', ¬ Evidenced "stripe" s (.answer 4 .resolve) s') := by
  have hhits : ∃ s : State (Fin 9), Run NoCrash (processes
      (fun c => if c ∈ [1, 2, 3, 4, 5] then otherJob else cardJob 0) startedUp) s ∧
      Misleads 8 .halfOpen .closed s :=
    Run.exists_of_exec (approach 0 ++ takeAndCharge 0 ++ captureAndPost 0 ++
      .answer 0 (.env none) :: List.replicate 4 (.answer 0 .resolve) ++
      [1, 2, 3, 4, 5].flatMap (fun c => approach c ++ takeAndFail c) ++
      .move (.tick 30000) :: [6, 7].flatMap (fun c =>
        .begin c :: List.replicate 8 (.answer c .resolve)) ++
      .begin 8 :: List.replicate 7 (.answer 8 .resolve)) (by decide +kernel)
  have hledger : ∃ s : State (Fin 5),
      Run NoCrash (processes (fun _ => cardJob 0) startedUp) s ∧ Misleads 4 .closed .open s :=
    Run.exists_of_exec ([0, 1, 2, 3, 4].flatMap (fun c => approach c ++ takeAndCharge c ++
      [.answer c (.env none), .answer c (.env none),
        .answer c (.reject (.error "ECONNREFUSED"))] ++
      List.replicate (if c = 4 then 3 else 5) (.answer c .resolve))) (by decide +kernel)
  obtain ⟨s, hrun, hmis⟩ := hhits
  obtain ⟨t, hrun', hmis'⟩ := hledger
  exact ⟨⟨s, hrun, hmis, hmis.not_evidenced⟩, ⟨t, hrun', hmis', hmis'.not_evidenced⟩⟩

end PaymentQueue
