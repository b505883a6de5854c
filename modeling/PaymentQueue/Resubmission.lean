import PaymentQueue.Async.Instrument
import PaymentQueue.Fleet

/-!
# PaymentQueue.Resubmission

What becomes of a payment that comes again after its result was stored, because BullMQ
delivers or retries its job once more, or because it is submitted again under its key?

The result stays in Redis for a day, whatever calls, deaths and restarts there are in between.
A call that begins in that time, in whichever process, either comes to nothing or says that
the payment is completed, and does nothing else (`result_protects`). When the day is over, a
process that has been started again knows nothing of the payment (`charged_after_a_day`).
-/

namespace PaymentQueue

open Async IdempotencyService

/-! ### What a call does that finds the result -/

/-- The operations of a call that goes no further than the cached result. -/
def Op.reports : Op → Bool
  | lookupGateway _ | lookupRateLimiter _ | canAttempt _ | tryConsume _ | msUntilAvailable _
  | getResult _ | recordSuccess _ | emit (.started _ _)
  | emit (.statusChanged _ .completed _ _) => true
  | _ => false

namespace Stage

/-- The stages of a call that goes no further than the cached result. -/
def reports : Stage → Bool
  | .entering | .lookedUp _ | .gated | .refused | .admitted | .allowed | .checking
  | .reporting | .reported | .turnedAway | .done => true
  | _ => false

/-- The call has said that the payment is completed. -/
def told : Stage → Bool
  | .reported | .done => true
  | _ => false

variable {job : Job} {g g' : Stage} {o : Op} {r : o.Ret}

/-- From there the only way on is that no result is found. -/
theorem Edge.reports (h : Edge job g o r g') (hg : g.reports = true) :
    o.reports = true ∧ (g'.reports = true ∨
      (⟨o, r⟩ : Event effects) = ⟨.getResult job.data.idempotencyKey, .ok none⟩) := by
  cases h <;> simp_all [Stage.reports, Op.reports]

theorem Edge.told (h : Edge job g o r g') (hg : g.reports = true) (hg' : g'.told = true) :
    g.told = true ∨ (⟨o, r⟩ : Event effects) =
      ⟨.emit (.statusChanged job.data.id .completed none job.data.correlationId), .ok ()⟩ := by
  cases h <;> simp_all [Stage.reports, Stage.told]

end Stage

/-- The call has not begun. -/
def Async.Thread.isIdle {S : Signature} {ε α : Type} : Thread S ε α → Bool
  | .idle _ => true
  | _ => false

section

variable {κ ι : Type} [DecidableEq κ] [DecidableEq ι] {configs : List GatewayConfig}
variable {jobs : ι → Job} {G G' : Guard ((worker configs).fleet κ) ι Thrown Unit}
variable {f : FleetWorld (worker configs) κ} {s₀ s s' : FleetState configs κ ι}
variable {P : ι → Prop} {key : String} {t now₀ : Int} {σ σ' : ι → Stage}

/-- Call `c` has said that its payment is completed. -/
abbrev CompletedSaid (jobs : ι → Job) (s : FleetState configs κ ι) (c : ι) : Prop :=
  .reply c ⟨.emit (.statusChanged (jobs c).data.id .completed none (jobs c).data.correlationId),
    .ok ()⟩ ∈ s.log

omit [DecidableEq ι] in
/-- Call `c` goes no further than the cached result: all that it awaits is there to look for it
and to report it, and when it has returned it has said that the payment is completed. -/
structure OnlyReports (jobs : ι → Job) (s : FleetState configs κ ι) (c : ι) : Prop where
  awaits : ∀ o, (s.thread c).awaiting = some o → o.reports = true
  returned : (s.thread c).outcome = some (.ok ()) → CompletedSaid jobs s c

omit [DecidableEq ι] in
/-- What a run keeps of calls for a key that is remembered until `t`. -/
structure FoundInv (jobs : ι → Job) (P : ι → Prop) (key : String) (t : Int)
    (s : FleetState configs κ ι) (σ : ι → Stage) : Prop where
  remembers : s.world.store.Remembers key t
  reports : s.world.store.now < t → ∀ c, P c → (σ c).reports = true
  told : s.world.store.now < t → ∀ c, P c → (σ c).told = true → CompletedSaid jobs s c

/-- A step keeps that: while the result is there, whoever looks for it finds it. -/
theorem FoundInv.step {a : Action ((worker configs).fleet κ) ι}
    (hkey : ∀ c, P c → (jobs c).data.idempotencyKey = key) (h : FoundInv jobs P key t s σ)
    (hT : TStep (fun c => Stage.Edge (jobs c)) s σ a s' σ') : FoundInv jobs P key t s' σ' := by
  cases hT with
  | begin hc | crash hc =>
      exact ⟨h.remembers, h.reports,
        fun hlt c hP htold => List.mem_cons_of_mem _ (h.told hlt c hP htold)⟩
  | @answer c a o k r f' g hc hw hE =>
      have hview : (Division.view s.world a.1).stores.Remembers key t := h.remembers
      have hw := (Division.perform_iff.mp hw).1
      have hnow : f'.store.now = s.world.store.now := (World.perform_frame hw).now
      have hstage : s.world.store.now < t → P c → g.reports = true ∧ (g.told = true →
          (σ c).told = true ∨ (⟨o, r⟩ : Event effects) = ⟨.emit (.statusChanged
            (jobs c).data.id .completed none (jobs c).data.correlationId), .ok ()⟩) := by
        intro hlt hP
        have hreports := h.reports hlt c hP
        refine ⟨(hE.reports hreports).2.resolve_right fun hnone => ?_, hE.told hreports⟩
        cases hnone
        rw [hkey c hP] at hw
        exact hview.not_missed hlt hw
      refine ⟨hview.perform hw, fun hlt => ?_, fun hlt => ?_⟩
      · rw [hnow] at hlt
        exact forall_update (P := fun c (g : Stage) => P c → g.reports = true)
          (fun hP => (hstage hlt hP).1) fun d _ => h.reports hlt d
      · rw [hnow] at hlt
        refine forall_update (P := fun d (g : Stage) => P d → g.told = true → CompletedSaid jobs
          ⟨_, f', .reply c ⟨o, r⟩ :: s.log⟩ d) (fun hP htold => ?_)
          fun d _ hP htold => List.mem_cons_of_mem _ (h.told hlt d hP htold)
        rcases (hstage hlt hP).2 htold with htold | hsaid
        · exact List.mem_cons_of_mem _ (h.told hlt c hP htold)
        · rw [hsaid]
          exact List.mem_cons_self
  | @lost c a o k r f' g hc hw hE =>
      have hview : (Division.view s.world a.1).stores.Remembers key t := h.remembers
      have hw := (Division.perform_iff.mp hw).1
      have hnow : f'.store.now = s.world.store.now := (World.perform_frame hw).now
      refine ⟨hview.perform hw, fun hlt => h.reports (hnow ▸ hlt), fun hlt c hP htold => ?_⟩
      exact List.mem_cons_of_mem _ (h.told (hnow ▸ hlt) c hP htold)
  | @move m f' hm =>
      cases m with
      | restart i =>
          obtain rfl := Option.some.inj hm
          exact ⟨h.remembers, h.reports,
            fun hlt c hP htold => List.mem_cons_of_mem _ (h.told hlt c hP htold)⟩
      | store m =>
          obtain ⟨x, hx, rfl⟩ := Option.map_eq_some_iff.mp hm
          have hnow : s.world.store.now ≤ x.now := Stores.now_le_move hx
          refine ⟨h.remembers.move hx, fun hlt => h.reports (lt_of_le_of_lt hnow hlt),
            fun hlt c hP htold => ?_⟩
          exact List.mem_cons_of_mem _ (h.told (lt_of_le_of_lt hnow hlt) c hP htold)

omit [DecidableEq ι] in
/-- A call at such a stage goes no further than the cached result. -/
theorem FoundInv.onlyReports (h : FoundInv jobs P key t s σ)
    (hat : s.At (fun c => Stage.Edge (jobs c)) .entering (fun c => Stage.Ends (jobs c)) σ)
    (hlt : s.world.store.now < t) {c : ι} (hP : P c) : OnlyReports jobs s c := by
  have hreports := h.reports hlt c hP
  refine ⟨fun o ho => ?_, fun hret => h.told hlt c hP ?_⟩
  · obtain ⟨r⟩ := (inferInstance : Nonempty o.Ret)
    obtain ⟨g, hE⟩ := hat.edge ho r
    exact (hE.reports hreports).1
  · have hends : Stage.Ends (jobs c) (σ c) (.ok ()) := by
      have hatc := hat c
      match hc : s.thread c with
      | .running (.ret ()) =>
          rw [hc] at hatc
          exact hatc
      | .idle _ | .running (.throw _) | .running (.await _ _) | .crashed =>
          simp [hc, Thread.outcome] at hret
    revert hends hreports
    cases σ c <;> simp [Stage.Ends, Stage.reports, Stage.told]

/-- **A payment that comes again.** Take any run of any number of worker processes over one Redis,
in which any of them may die and be started again; a result that is in Redis; and the time at
which it runs out. However the run goes on, until then every call for the key that had not begun,
in whichever process, goes no further than the result: it charges nothing, writes nothing, takes
no lock and no slot and reports no failure, and when it returns it has said that its payment is
completed. -/
theorem result_protects {v : GatewayResponse}
    (h₀ : Run G (fleetProcesses jobs (firstFleet configs κ now₀)) s₀)
    (hr : s₀.world.store.redis (resultKey key) = some ⟨.json v, t⟩) (h : Run G' s₀ s)
    (hlt : s.world.store.now < t) {c : ι} (hc : (s₀.thread c).isIdle = true)
    (hkey : (jobs c).data.idempotencyKey = key) : OnlyReports jobs s c := by
  have htimely : s₀.world.store.Timely := timely_of_run timely_firstFleet h₀
  have hremembers : s₀.world.store.Remembers key t :=
    ⟨htimely.entry _ _ hr, fun _ => ⟨v, t, hr, le_rfl⟩⟩
  obtain ⟨σ₀, hat₀, -⟩ := Run.staged (I := fun _ _ => True) (fun c => process_follows (jobs c))
    trivial (fun _ _ _ _ _ _ => trivial) h₀
  have hentering : σ₀ c = .entering := by
    have hatc := hat₀ c
    match hp : s₀.thread c with
    | .idle p =>
        rw [hp] at hatc
        exact hatc.1
    | .running _ | .crashed => simp [hp, Thread.isIdle] at hc
  have hstart : FoundInv jobs (· = c) key t s₀ σ₀ := by
    refine ⟨hremembers, ?_, ?_⟩
    · rintro - d rfl
      simp [hentering, Stage.reports]
    · rintro - d rfl htold
      simp [hentering, Stage.told] at htold
  obtain ⟨σ, hat, hI⟩ := Run.staged_from (I := FoundInv jobs (· = c) key t) hat₀ hstart
    (fun _ _ hI _ hT _ => hI.step (by simp [hkey]) hT) h
  exact hI.onlyReports hat hlt rfl

end

section

variable {κ ι : Type} [DecidableEq κ] [DecidableEq ι] [Fintype ι]

/-- A call charges its payment and stores the result; then it dies. -/
def dieStored (c : ι) : List (Action system ι) :=
  approach c ++ takeAndCharge c ++ captureAndPost c ++ [.crash c none]

/-- All calls are for payment 0. -/
abbrev allForOne (κ ι : Type) [DecidableEq κ] : FleetState stripeTable κ ι :=
  fleetProcesses (fun _ => inPriority 0 .high) (firstFleet stripeTable κ 0)

/-- The process of call `c` has died when the payment was charged and the result stored. -/
def diedStored (host : ι → κ) (c : ι) : FleetState stripeTable κ ι :=
  ((allForOne κ ι).exec (fleetRuns host) ((dieStored c).map (Action.on (host c)))).getD
    (allForOne κ ι)

theorem run_diedStored (host : ι → κ) (c : ι) :
    Run (fleetRuns host) (allForOne κ ι) (diedStored host c) := by
  rw [diedStored]
  cases hs : (allForOne κ ι).exec (fleetRuns host) ((dieStored c).map (Action.on (host c))) with
  | none => exact .start
  | some s => exact .of_exec .start hs

end

/-- When the job is delivered once more, to process 1, the payment is reported completed. -/
theorem result_protects_redelivered :
    ∃ s, Run (fleetRuns id) (diedStored (id : Fin 2 → Fin 2) 0) s ∧
      CompletedSaid (fun _ => inPriority 0 .high) s 1 := by
  have hrun : ∃ s, Run (fleetRuns id) (diedStored (id : Fin 2 → Fin 2) 0) s ∧
      (s.world.store.now < 86400000 ∧ (s.thread 1).outcome = some (.ok ())) :=
    Run.exists_of_exec
      ((approach 1 ++ [.answer 1 .resolve] : List (Action system (Fin 2))).map (Action.on 1))
      (by decide +kernel)
  obtain ⟨s, h, hlt, hended⟩ := hrun
  have hr : (diedStored (id : Fin 2 → Fin 2) 0).world.store.redis (resultKey "idem_0") =
      some ⟨.json accepted, 86400000⟩ := by decide +kernel
  have honly := result_protects (run_diedStored id 0) hr h hlt (c := 1) (by decide +kernel)
    (by decide)
  exact ⟨s, h, honly.returned hended⟩

/-- A day later process 1 charges the payment again. -/
theorem charged_after_a_day :
    ∃ s, Run (fleetRuns id) (diedStored (id : Fin 2 → Fin 2) 0) s ∧
      (s.thread 1).awaiting = some (.gatewayProcess (inPriority 0 .high).data) :=
  Run.exists_of_exec
    ((.move (.tick 86400000) :: .move (.expire "idem:result:idem_0") :: approach 1 ++
      [.answer 1 .resolve, .answer 1 .resolve] : List (Action system (Fin 2))).map (Action.on 1))
    (by decide +kernel)

end PaymentQueue
