import Mathlib.Data.Finset.Card
import PaymentQueue.Attempts
import PaymentQueue.Breakers
import PaymentQueue.Environment

/-!
# PaymentQueue.Trials

Can a gateway's breaker get stuck in HALF_OPEN?

`canAttempt` counts the trials it admits and never takes one off the count, so a trial
has to report its outcome for the breaker to leave HALF_OPEN. The rate-limit gate, a
rejected lookup and a lock held by another call all turn an admitted call away without a
report; after `halfOpenTrialCount` such calls the breaker refuses every attempt for good
(`wedged_reachable`). While no admitted call is turned away during HALF_OPEN, every trial
is accounted for (`TrialInv`), and a gateway at rest recovers (`never_wedged`).
-/

namespace PaymentQueue

open Async Stage

variable {ι : Type} [DecidableEq ι]

/-- An admitted call is turned away without a report to the breaker. -/
def isTurnAway : ProcEvent → Bool
  | ⟨.tryConsume _, b⟩ => !b
  | ⟨.acquireLock _, .ok b⟩ => !b
  | ⟨.acquireLock _, .error _⟩ | ⟨.emit (.started _ _), .error _⟩ | ⟨.getResult _, .error _⟩
  | ⟨.getStatus _, .error _⟩ => true
  | _ => false

/-- After the events `before` the call is turned away by a gate, a lookup or the lock, or
by a payment known to be completed for which it cannot say so. -/
def losesTrial (before : List ProcEvent) (ev : ProcEvent) : Bool :=
  isTurnAway ev || (isCompletionReject ev && !before.any isLockRequest)

/-- While the gateway's breaker is HALF_OPEN none of its admitted calls is turned away. -/
def TrialsKept (jobs : ι → Job) (gatewayId : String) (s : State ι) :
    Action system ι → Prop
  | .answer c a =>
      (jobs c).data.gatewayId = gatewayId →
      (s.world.breaker gatewayId).any (fun b => b.state = .halfOpen) = true →
      (s.received c a).any (losesTrial (eventsOf c s.log)) = false
  | _ => True

instance (jobs : ι → Job) (gatewayId : String) (s : State ι) :
    DecidablePred (TrialsKept jobs gatewayId s)
  | .answer _ _ => inferInstanceAs (Decidable (_ → _ → _))
  | .begin _ | .crash _ _ | .move _ => .isTrue trivial

/-- Runs without a crash that keep the trials of a gateway. -/
abbrev trialRuns (jobs : ι → Job) (gatewayId : String) : Guard system ι Thrown Unit :=
  fun s a => NoCrash s a ∧ TrialsKept jobs gatewayId s a

/-- When no call of the gateway is in flight, its breaker admits an attempt once
`openDurationMs` has elapsed. -/
def Recovers (jobs : ι → Job) (gatewayId : String) (s : State ι) : Prop :=
  (∀ c, (jobs c).data.gatewayId = gatewayId → (s.thread c).inFlight = false) →
  ∀ b, s.world.breaker gatewayId = some b →
    ∀ later : Int, b.opts.openDurationMs ≤ ((later - s.world.now : Int) : ℚ) →
      (b.canAttempt later).1 = true

/-! ### Which calls owe a report -/

/-- The breaker has admitted the call, which has not yet reported to it. -/
def Stage.owes : Stage → Bool
  | .admitted | .allowed | .checking | .missed | .clear | .backfilling | .reporting
  | .reported | .locked | .authorized | .captured | .posting | .written | .stored
  | .notifying | .notified | .succeeded | .unwinding _ _ _ => true
  | _ => false

/-- The call has not asked for the lock. -/
def Stage.unasked : Stage → Bool
  | .entering | .lookedUp _ | .gated | .admitted | .allowed | .checking | .missed
  | .backfilling | .reporting => true
  | _ => false

section

variable {job : Job} {g g' : Stage} {o : Op} {r : o.Ret}

/-- A call is rid of its debt by a report, or by being turned away. -/
theorem Stage.Edge.owes_step (h : Edge job g o r g') (hg : g.owes = true) :
    g'.owes = true ∨ o = .recordSuccess job.data.gatewayId ∨
      o = .recordFailure job.data.gatewayId ∨ isTurnAway ⟨o, r⟩ = true ∨
      (g.unasked = true ∧ isCompletionReject ⟨o, r⟩ = true) := by
  cases h
  all_goals simp_all [Stage.owes, Stage.unasked, isTurnAway, isCompletionReject]

theorem Stage.Edge.unasked_of (h : Edge job g o r g') (hg : g'.unasked = true) :
    g.unasked = true ∧ isLockRequest ⟨o, r⟩ = false := by
  cases h
  all_goals simp_all [Stage.unasked, isLockRequest]

/-- The gate admits a call that does not owe, and the calls on the breaker are made on the
call's own gateway. -/
theorem Stage.Edge.of_canAttempt {gatewayId : String} {b : Bool}
    (h : Edge job g (.canAttempt gatewayId) b g') :
    gatewayId = job.data.gatewayId ∧ g.owes = false ∧ g'.owes = b := by
  cases h <;> exact ⟨rfl, rfl, rfl⟩

theorem Stage.Edge.of_recordSuccess {gatewayId : String} {u : Unit}
    (h : Edge job g (.recordSuccess gatewayId) u g') :
    gatewayId = job.data.gatewayId ∧ g.owes = true := by
  cases h <;> exact ⟨rfl, rfl⟩

theorem Stage.Edge.of_recordFailure {gatewayId : String} {u : Unit}
    (h : Edge job g (.recordFailure gatewayId) u g') :
    gatewayId = job.data.gatewayId := by
  cases h
  rfl

/-- A call that owes a report is not over. -/
theorem Stage.Ends.not_owes {r : Except Thrown Unit} (h : Ends job g r) : g.owes = false := by
  cases g with
  | done | dropped | announced _ _ | refused | turnedAway | aborted _ | unlocked _ => rfl
  | _ => exact h.elim

end

/-! ### Every trial is accounted for -/

variable {jobs : ι → Job} {gatewayId : String}

omit [DecidableEq ι] in
/-- The calls in `owing` are those of the gateway that owe its breaker a report. -/
def Owing (jobs : ι → Job) (gatewayId : String) (σ : ι → Stage) (owing : Finset ι) : Prop :=
  ∀ c ∈ owing, (jobs c).data.gatewayId = gatewayId ∧ (σ c).owes = true

/-- What keeps a gateway's breaker from being stuck. -/
structure TrialInv (jobs : ι → Job) (gatewayId : String) (opts : CircuitBreakerOptions)
    (s : State ι) (σ : ι → Stage) : Prop where
  /-- Each trial has been reported, or a call in flight owes the report. -/
  accounted : ∃ owing, Owing jobs gatewayId σ owing ∧
    s.world.Balanced gatewayId opts owing.card
  unasked : ∀ c, (σ c).unasked = true → (eventsOf c s.log).any isLockRequest = false

/-- A debt that is not touched is still owed. -/
theorem Owing.update {σ : ι → Stage} {owing : Finset ι} (h : Owing jobs gatewayId σ owing)
    {c : ι} {g : Stage} (hc : c ∈ owing → g.owes = true) :
    Owing jobs gatewayId (Function.update σ c g) owing := by
  intro d hd
  by_cases hdc : d = c
  · subst hdc
    simpa using ⟨(h d hd).1, hc hd⟩
  · simpa [hdc] using h d hd

/-- The reports of the others are owed as before. -/
theorem Owing.erase {σ : ι → Stage} {owing : Finset ι} (h : Owing jobs gatewayId σ owing)
    {c : ι} {g : Stage} :
    Owing jobs gatewayId (Function.update σ c g) (owing.erase c) := by
  intro d hd
  obtain ⟨hdc, hd⟩ := Finset.mem_erase.mp hd
  simpa [hdc] using h d hd

/-- One more call owes a report. -/
theorem Owing.insert {σ : ι → Stage} {owing : Finset ι} (h : Owing jobs gatewayId σ owing)
    {c : ι} {g : Stage} (hc : (jobs c).data.gatewayId = gatewayId) (hg : g.owes = true) :
    Owing jobs gatewayId (Function.update σ c g) (insert c owing) := by
  intro d hd
  by_cases hdc : d = c
  · subst hdc
    simpa using ⟨hc, hg⟩
  · simpa [hdc] using h d (Finset.mem_of_mem_insert_of_ne hd hdc)

namespace TrialInv

variable {opts : CircuitBreakerOptions} {s : State ι} {σ : ι → Stage}

/-- An answer to a call of another gateway. -/
theorem accounted_other (h : TrialInv jobs gatewayId opts s σ) {c : ι} {a : Answer} {o : Op}
    {r : o.Ret} {w : World} {g : Stage} (hw : s.world.perform o a = some (r, w))
    (hT : Edge (jobs c) (σ c) o r g) (hgate : (jobs c).data.gatewayId ≠ gatewayId) :
    ∃ owing, Owing jobs gatewayId (Function.update σ c g) owing ∧
      w.Balanced gatewayId opts owing.card := by
  obtain ⟨owing, howing, hbal⟩ := h.accounted
  refine ⟨owing, howing.update fun hc => absurd (howing c hc).1 hgate,
    hbal.of_not_onBreaker hw ?_⟩
  cases o with
  | canAttempt g => simpa [Op.onBreaker, hT.of_canAttempt.1] using hgate
  | recordSuccess g => simpa [Op.onBreaker, hT.of_recordSuccess.1] using hgate
  | recordFailure g => simpa [Op.onBreaker, hT.of_recordFailure] using hgate
  | _ => rfl

/-- An answer that is not the breaker's: the call keeps its debt, or the breaker is not
half open. -/
theorem accounted_quiet (h : TrialInv jobs gatewayId opts s σ) {c : ι} {a : Answer} {o : Op}
    {r : o.Ret} {w : World} {g : Stage} (hc : (s.thread c).awaiting = some o)
    (hw : s.world.perform o a = some (r, w)) (hT : Edge (jobs c) (σ c) o r g)
    (hgate : (jobs c).data.gatewayId = gatewayId)
    (hG : TrialsKept jobs gatewayId s (.answer c a)) (ho : o.onBreaker gatewayId = false) :
    ∃ owing, Owing jobs gatewayId (Function.update σ c g) owing ∧
      w.Balanced gatewayId opts owing.card := by
  obtain ⟨owing, howing, hbal⟩ := h.accounted
  by_cases hkeeps : c ∈ owing → g.owes = true
  · exact ⟨owing, howing.update hkeeps, hbal.of_not_onBreaker hw ho⟩
  simp only [Classical.not_imp, Bool.not_eq_true] at hkeeps
  have hloses : losesTrial (eventsOf c s.log) ⟨o, r⟩ = true := by
    rcases hT.owes_step (howing c hkeeps.1).2 with hg | rfl | rfl | haway | ⟨hun, hrej⟩
    · simp [hg] at hkeeps
    · simp [Op.onBreaker, hgate] at ho
    · simp [Op.onBreaker, hgate] at ho
    · simp [losesTrial, haway]
    · simp [losesTrial, hrej, h.unasked c hun]
  refine ⟨∅, by simp [Owing], (hbal.of_not_halfOpen ?_ _).of_not_onBreaker hw ho⟩
  by_contra hhalf
  have := hG hgate (by simpa using hhalf)
  simp [Config.received, hc, hw, hloses] at this

/-- What an answer leaves of the accounts. -/
theorem accounted_reply (h : TrialInv jobs gatewayId opts s σ)
    (hk : 1 ≤ opts.halfOpenTrialCount) {c : ι} {a : Answer} {o : Op} {r : o.Ret} {w : World}
    {g : Stage} (hc : (s.thread c).awaiting = some o) (hw : s.world.perform o a = some (r, w))
    (hT : Edge (jobs c) (σ c) o r g) (hG : TrialsKept jobs gatewayId s (.answer c a)) :
    ∃ owing, Owing jobs gatewayId (Function.update σ c g) owing ∧
      w.Balanced gatewayId opts owing.card := by
  by_cases hgate : (jobs c).data.gatewayId = gatewayId
  case neg => exact h.accounted_other hw hT hgate
  cases ho : o.onBreaker gatewayId with
  | false => exact h.accounted_quiet hc hw hT hgate hG ho
  | true =>
  obtain ⟨owing, howing, hbal⟩ := h.accounted
  cases o with
  | canAttempt gw =>
      obtain ⟨rfl, howes, hg⟩ := hT.of_canAttempt
      have hnew : c ∉ owing := fun hc => by simp [(howing c hc).2] at howes
      cases r with
      | true =>
          refine ⟨insert c owing, howing.insert hgate hg, hbal.perform hw ?_⟩
          intro b hb heq hacc
          subst heq
          have hadm := hacc.canAttempt hk s.world.now
          rw [World.canAttempt_perform hw (hgate ▸ hb)] at hadm
          simpa [CircuitBreaker.after, hgate, hnew] using hadm
      | false =>
          refine ⟨owing, howing.update fun hc => absurd hc hnew, hbal.perform hw ?_⟩
          intro b hb heq hacc
          subst heq
          have hadm := hacc.canAttempt hk s.world.now
          rw [World.canAttempt_perform hw (hgate ▸ hb)] at hadm
          simpa [CircuitBreaker.after, hgate] using hadm
  | recordSuccess gw =>
      obtain ⟨rfl, -⟩ := hT.of_recordSuccess
      refine ⟨owing.erase c, howing.erase, hbal.perform hw fun b _ _ hacc => ?_⟩
      have hcard : owing.card ≤ (owing.erase c).card + 1 := by
        have := Finset.pred_card_le_card_erase (s := owing) (a := c)
        omega
      simpa [CircuitBreaker.after, hgate] using (hacc.mono le_rfl hcard).recordSuccess
  | recordFailure gw =>
      obtain rfl := hT.of_recordFailure
      refine ⟨∅, by simp [Owing], hbal.perform hw fun b _ _ hacc => ?_⟩
      simpa [CircuitBreaker.after, hgate] using hacc.recordFailure 0
  | _ => exact absurd ho (by simp [Op.onBreaker])

theorem step (h : TrialInv jobs gatewayId opts s σ) (hk : 1 ≤ opts.halfOpenTrialCount)
    {a : Action system ι} {s' : State ι} {σ' : ι → Stage} (hG : trialRuns jobs gatewayId s a)
    (hT : TStep (fun c => Edge (jobs c)) s σ a s' σ') :
    TrialInv jobs gatewayId opts s' σ' := by
  cases hT with
  | begin => exact ⟨h.accounted, fun d hd => by simpa using h.unasked d hd⟩
  | @answer c a o k r w g hc hw hT =>
      have hawait : (s.thread c).awaiting = some o := by rw [hc]; rfl
      refine ⟨h.accounted_reply hk hawait hw hT hG.2, forall_update_events
        (P := fun _ (g : Stage) evs => g.unasked = true → evs.any isLockRequest = false) ?_
        fun d _ => h.unasked d⟩
      intro hg
      obtain ⟨hun, hev⟩ := hT.unasked_of hg
      simpa [hev] using h.unasked c hun
  | crash hc => exact hG.1.elim
  | lost hc => exact hG.1.elim
  | @move m w hw =>
      obtain ⟨owing, howing, hbal⟩ := h.accounted
      obtain ⟨hnow, hbreaker⟩ := World.breaker_move hw gatewayId
      exact ⟨⟨owing, howing, hbal.mono hbreaker hnow⟩,
        fun d hd => by simpa using h.unasked d hd⟩

/-- When no call of the gateway is in flight, none owes a report. -/
theorem recovers_at_rest (h : TrialInv jobs gatewayId opts s σ)
    (hk : 1 ≤ opts.halfOpenTrialCount) (hat : AtStages jobs s σ)
    (halive : ∀ c, s.thread c ≠ .crashed) :
    Recovers jobs gatewayId s := by
  intro hrest b hb later helapsed
  obtain ⟨owing, howing, hbal⟩ := h.accounted
  have hempty : owing = ∅ := by
    refine Finset.eq_empty_of_forall_notMem fun c hc => ?_
    obtain ⟨hgate, howes⟩ := howing c hc
    have hflight : (s.thread c).inFlight = true := by
      refine inFlight_of_stage hat (halive c) (fun hent => ?_) fun r hr => ?_
      · simp [hent, Stage.owes] at howes
      · simp [hr.not_owes] at howes
    simp [hrest c hgate] at hflight
  obtain ⟨rfl, hacc⟩ := hbal b hb
  rw [hempty] at hacc
  exact hacc.admits hk helapsed

end TrialInv

/-- **No wedged gateway.** In every run without crash, of any calls of payments of any
gateways, in which no admitted call of the gateway is turned away while the gateway's
breaker is HALF_OPEN: whenever no call of the gateway is in flight, its breaker admits an
attempt once `openDurationMs` has elapsed. -/
theorem never_wedged {jobs : ι → Job} {gatewayId : String} {w : World}
    {gw : RegisteredGateway} {opts : CircuitBreakerOptions}
    (hgw : w.gateways gatewayId = some gw) (hnew : gw.breaker = { opts := opts })
    (hk : 1 ≤ opts.halfOpenTrialCount) {s : State ι}
    (h : Run (trialRuns jobs gatewayId) (processes jobs w) s) : Recovers jobs gatewayId s := by
  have h₀ : TrialInv jobs gatewayId opts (processes jobs w) (fun _ => .entering) := by
    refine ⟨⟨∅, by simp [Owing], fun b hb => ?_⟩, fun c _ => rfl⟩
    obtain rfl : ({ opts := opts } : CircuitBreaker) = b := by
      simpa [World.breaker, processes, Config.start, hgw, hnew] using hb
    exact ⟨rfl, .of_new⟩
  obtain ⟨σ, hat, hI⟩ := Run.staged (fun c => process_follows (jobs c)) h₀
    (fun _ _ hI hG hT _ => hI.step hk hG hT) h
  exact hI.recovers_at_rest hk hat (alive_of_run (fun hG => hG.1) h)

/-- The calls from `c` on fail one after the other, which trips the breaker. -/
def tripBreaker (cs : List ι) : List (Action system ι) :=
  cs.flatMap fun c => approach c ++ takeAndFail c

/-- Five failures open the breaker, and a trial half a minute later is a success. -/
theorem never_wedged_trial :
    ∃ s, Run (trialRuns (fun _ : Fin 6 => cardJob 0) "stripe")
        (processes (fun _ : Fin 6 => cardJob 0) startedUp) s ∧
      (s.world.breaker "stripe").any (fun b => b.state = .halfOpen) = true ∧
      Recovers (fun _ => cardJob 0) "stripe" s := by
  have hrun : ∃ s, Run (trialRuns (fun _ : Fin 6 => cardJob 0) "stripe")
      (processes (fun _ : Fin 6 => cardJob 0) startedUp) s ∧
      (s.world.breaker "stripe").any (fun b => b.state = .halfOpen) = true :=
    Run.exists_of_exec (tripBreaker [0, 1, 2, 3, 4] ++ .move (.tick 30000) :: approach 5 ++
      takeAndCharge 5 ++ captureAndPost 5 ++ [.answer 5 (.env none)] ++
      List.replicate 4 (.answer 5 .resolve)) (by decide +kernel)
  obtain ⟨s, h, hhalf⟩ := hrun
  exact ⟨s, h, hhalf, never_wedged rfl rfl (by decide) h⟩

/-- Five failures open the breaker, and in the three trials half a minute later Redis is
down: the breaker stays half open with no trial left, and no call is in flight. -/
theorem wedged_reachable :
    ∃ s, Run NoCrash (processes (fun _ : Fin 8 => cardJob 0) startedUp) s ∧
      ¬ Recovers (fun _ => cardJob 0) "stripe" s := by
  have hrun : ∃ s, Run NoCrash (processes (fun _ : Fin 8 => cardJob 0) startedUp) s ∧
      ((∀ c, (s.thread c).inFlight = false) ∧
        (s.world.breaker "stripe").any (fun b => decide (b.state = .halfOpen ∧
          b.opts.halfOpenTrialCount ≤ b.halfOpenInFlight ∧ b.opts.openDurationMs ≤ 30000)) =
          true) :=
    Run.exists_of_exec (tripBreaker [0, 1, 2, 3, 4] ++ .move (.tick 30000) ::
      [5, 6, 7].flatMap fun c => .begin c ::
        (List.replicate 5 (.answer c .resolve) ++
          [.answer c (.reject (.error "ECONNREFUSED"))]))
      (by decide +kernel)
  obtain ⟨s, h, hrest, hbreaker⟩ := hrun
  refine ⟨s, h, fun hrec => ?_⟩
  obtain ⟨b, hb, hstuck⟩ := (Option.any_eq_true _ _).mp hbreaker
  obtain ⟨hhalf, hused, hopen⟩ := of_decide_eq_true hstuck
  have hadmits := hrec (fun c _ => hrest c) b hb (s.world.now + 30000) (by simpa using hopen)
  simp [CircuitBreaker.refuses_of_used_up hhalf hused] at hadmits

end PaymentQueue
