import PaymentQueue.Ownership
import PaymentQueue.Verdicts

/-!
# PaymentQueue.OneVerdict

Does a payment get one verdict?

A contender decides from the gateway's status alone, while the saga that owns the lock
may still fail: the one reports COMPLETED, the other FAILED
(`two_verdicts_reachable`). The same happens when a saga throws after something says
that the payment has succeeded, or when a call goes to charge again once a failure was
reported. While nobody does any of this (`KeepsVerdict`), nobody loses whose payment is
decided or still being charged (`VerdictInv.undivided`), and every payment gets one
verdict (`one_verdict`).
-/

namespace PaymentQueue

open Async Stage

variable {ι : Type} [DecidableEq ι]

/-! ### The verdicts on a payment -/

/-- The payment is never reported both completed and failed. -/
def NeverBoth (log : List (LogEntry ι)) : Prop :=
  ¬ (log.any (heard isCompletedReport) = true ∧ log.any (heard isFailedReport) = true)

/-- When no saga is under way, and a saga has ended compensated with no successful one
after it, the payment has not been reported completed. -/
def CompensatedNotCompleted (log : List (LogEntry ι)) : Prop :=
  (∀ c, ¬ UnderWay c log) → Pending (heard isSagaFailed) (heard isNotified) log →
    log.any (heard isCompletedReport) = false

/-- The verdict on the payment is unique. -/
abbrev OneVerdict (log : List (LogEntry ι)) : Prop :=
  NeverBoth log ∧ CompensatedNotCompleted log

instance : DecidablePred (NeverBoth (ι := ι)) := fun _ => inferInstanceAs (Decidable (¬ _))

instance [Fintype ι] : DecidablePred (CompensatedNotCompleted (ι := ι)) :=
  fun _ => inferInstanceAs (Decidable (_ → _ → _))

/-- Once `gateway.process` has succeeded, `gateway.getStatus` answers 'settled', if it
answers. -/
def SettledOnceCharged (s : State ι) : Action system ι → Prop
  | .answer _ (.status st) => s.log.any (heard isCharge) = true → st.status = .settled
  | _ => True

instance (s : State ι) : DecidablePred (SettledOnceCharged s)
  | .answer _ (.status _) => inferInstanceAs (Decidable (_ → _))
  | .answer _ .resolve | .answer _ (.reject _) | .answer _ (.response _)
  | .answer _ (.env _) | .begin _ | .crash _ _ | .move _ => .isTrue trivial

/-! ### When the verdict is kept -/

/-- Call `c` is about to report that the payment failed. -/
def aboutToFail (s : State ι) (c : ι) : Bool :=
  (s.thread c).awaiting.any Op.reportsFailure

/-- The event of call `c` does not put the verdict on the payment in doubt. -/
structure KeepsVerdict (p : Payment) (s : State ι) (c : ι) (ev : ProcEvent) : Prop where
  /-- The lock is acquired only while no result is cached, and nobody has reported, or is
  about to report, that the payment failed. -/
  acquire : isLockAcquired ev = true → (s.world.standing p).result = none ∧
    s.log.any (heard isFailedReport) = false ∧ ∀ d, aboutToFail s d = false
  /-- A contender is told that the charge is settled only while a saga is running, or when
  the payment is decided already. -/
  told : isToldSettled ev = true →
    Decided (s.world.standing p) s.log ∨ ∃ d, sagaRunning d s.log = true
  /-- A saga throws only while the payment is not decided. -/
  throws : sagaThrows (eventsOf c s.log) ev = true → ¬ Decided (s.world.standing p) s.log

instance [Fintype ι] (p : Payment) (s : State ι) (c : ι) (ev : ProcEvent) :
    Decidable (KeepsVerdict p s c ev) :=
  decidable_of_iff ((isLockAcquired ev = true → (s.world.standing p).result = none ∧
      s.log.any (heard isFailedReport) = false ∧ ∀ d, aboutToFail s d = false) ∧
    (isToldSettled ev = true →
      Decided (s.world.standing p) s.log ∨ ∃ d, sagaRunning d s.log = true) ∧
    (sagaThrows (eventsOf c s.log) ev = true → ¬ Decided (s.world.standing p) s.log))
    ⟨fun h => ⟨h.1, h.2.1, h.2.2⟩, fun h => ⟨h.acquire, h.told, h.throws⟩⟩

/-- The step does not put the verdict on the payment in doubt. -/
def VerdictRespected (p : Payment) (s : State ι) : Action system ι → Prop
  | .answer c a => ∀ ev ∈ s.received c a, KeepsVerdict p s c ev
  | _ => True

instance [Fintype ι] (p : Payment) (s : State ι) : DecidablePred (VerdictRespected p s)
  | .answer _ _ => inferInstanceAs (Decidable (∀ _ ∈ _, _))
  | .begin _ | .crash _ _ | .move _ => .isTrue trivial

/-- Steady runs that keep the verdict on `p`. -/
abbrev verdictRuns (p : Payment) : Guard system ι Thrown Unit :=
  fun s a => Steady s a ∧ VerdictRespected p s a

/-! ### What keeps the verdict -/

/-- What keeps the verdict on a payment. -/
structure VerdictInv (p : Payment) (s : State ι) (σ : ι → Stage) : Prop where
  holder : SoleHolder (s.world.standing p) σ
  sagas : RunsAt σ s.log
  underWay : Agrees σ s.log
  told : Tracks isToldSettled isStoreAnswer Stage.isSettled σ s.log
  cached : ∀ c, (σ c).knowing = true → (s.world.standing p).result ≠ none
  recorded : ∀ c, (σ c).posted = true → (s.world.standing p).recordedCompleted
  /-- No saga throws once it has cached its result. -/
  kept : ∀ c, (σ c).botched = false
  completed : s.log.any (heard isCompletedReport) = true →
    (s.world.standing p).result ≠ none
  doomed : ∀ c, (σ c).doomed = true → s.log.any (heard isFailedReport) = true
  /-- Nobody has lost, or is losing, whose payment is decided or still being charged. -/
  undivided : (Decided (s.world.standing p) s.log ∨ ∃ c, (σ c).running = true) →
    s.log.any (heard isFailedReport) = false ∧
      ∀ c, (s.thread c).inFlight = true → (σ c).losing = false
  /-- If the payment is decided, a saga that failed is made good by one that is running. -/
  resolved : Decided (s.world.standing p) s.log →
    Pending (heard isSagaFailed) (heard isNotified) s.log → ∃ c, (σ c).midway = true

namespace VerdictInv

variable {p : Payment} {s : State ι} {σ : ι → Stage} {jobs : ι → Job} {c : ι}
variable {o : Op} {r : o.Ret} {w : World} {g : Stage}

/-- While the payment is not decided, one saga at most is running. -/
theorem runs_alone (h : VerdictInv p s σ) (hdec : ¬ Decided (s.world.standing p) s.log)
    {d : ι} (hc : (σ c).running = true) (hd : (σ d).running = true) : c = d := by
  have hholds : ∀ e, (σ e).running = true → (σ e).holds = true := fun e he =>
    (holds_or_knowing he).resolve_right fun hk => hdec (Or.inl (h.cached e hk))
  exact h.holder.exclusive c d (hholds c hc) (hholds d hd)

/-- A call that comes to lose has thrown. -/
theorem throws_of_losing (h : VerdictInv p s σ) (hT : Edge (jobs c) (σ c) o r g)
    (hc : (σ c).losing = false) (hg : g.losing = true) :
    sagaThrows (eventsOf c s.log) ⟨o, r⟩ = true ∧ (σ c).running = true ∧
      g.running = false := by
  rcases hT.losing_of hg with hlose | ⟨hrun, hstop, hends⟩
  · simp [hc] at hlose
  · rcases hT.running_or (h.sagas.history c).running hrun with hrun' | hends' | hthrows
    · simp [hstop] at hrun'
    · simp [hends] at hends'
    · exact ⟨hthrows, hrun, hstop⟩

/-- A payment comes to be decided when a contender is told so, or with its record. -/
theorem of_decided (h : VerdictInv p s σ) (hT : Edge (jobs c) (σ c) o r g)
    (ht : (s.world.standing p).Step o r (w.standing p))
    (hdec : Decided (w.standing p) (.reply c ⟨o, r⟩ :: s.log)) :
    Decided (s.world.standing p) s.log ∨
      (isToldSettled ⟨o, r⟩ = true ∧ σ c = .asking ∧ g = .settled) ∨
      (σ c = .posting ∧ g = .written) := by
  rcases hdec with hres | hrec | ⟨d, hd⟩
  · by_cases hres₀ : (s.world.standing p).result = none
    · left
      rcases hT.of_isStored (ht.result_new hres₀ hres) with hposted | hsettled
      · exact Or.inr (Or.inl (h.recorded c hposted))
      · exact Or.inr (Or.inr ⟨c, (h.told c).mpr hsettled⟩)
    · exact Or.inl (Or.inl hres₀)
  · rcases ht.recorded_of hrec with hrec | ⟨id, txn, ⟨⟩⟩
    · exact Or.inl (Or.inr (Or.inl hrec))
    · rcases hT.of_upsertStatus with ⟨hg, -, hw⟩ | ⟨-, hne⟩
      · exact Or.inr (Or.inr ⟨hg, hw rfl⟩)
      · exact absurd rfl hne
  · by_cases hdc : d = c
    · subst hdc
      rcases pending_cons.mp hd with htold | ⟨-, hd⟩
      · rw [answered_reply_self] at htold
        exact Or.inr (Or.inl ⟨htold, hT.of_isToldSettled htold⟩)
      · exact Or.inl (Or.inr (Or.inr ⟨d, hd⟩))
    · have hother : ∀ f, answered d f (.reply c ⟨o, r⟩) = false :=
        fun _ => answered_reply_of_ne hdc
      rw [ToldSettled, pending_skip (hother _) (hother _)] at hd
      exact Or.inl (Or.inr (Or.inr ⟨d, hd⟩))

/-- Nobody loses once a saga has acquired the lock. -/
theorem of_acquire (h : VerdictInv p s σ) (hat : AtStages jobs s σ)
    (hfree : (s.world.standing p).locked = false)
    (hkeep : (s.world.standing p).result = none ∧
      s.log.any (heard isFailedReport) = false ∧ ∀ d, aboutToFail s d = false)
    {d : ι} (hd : (s.thread d).inFlight = true) : (σ d).losing = false := by
  obtain ⟨hres, hfailed, habout⟩ := hkeep
  by_contra hlose
  rcases losing_cases (by simpa using hlose) with hholds | hdoomed | hbotched | ⟨err, herr⟩
  · simp [h.holder.of_acquire hfree hres d] at hholds
  · simp [h.doomed d hdoomed] at hfailed
  · simp [h.kept d] at hbotched
  · obtain ⟨o', hawait, hedge⟩ := awaiting_of_inFlight hat hd
    obtain ⟨r'⟩ := (inferInstance : Nonempty o'.Ret)
    obtain ⟨g', hT'⟩ := hedge r'
    rw [herr] at hT'
    have := habout d
    simp [aboutToFail, hawait, hT'.of_unlocked] at this

/-- A reply after which the payment is decided or still being charged finds nobody losing,
and leaves nobody so. -/
theorem of_open (h : VerdictInv p s σ) (hat : AtStages jobs s σ)
    (hc : (s.thread c).awaiting = some o) (hT : Edge (jobs c) (σ c) o r g)
    (ht : (s.world.standing p).Step o r (w.standing p))
    (hkeep : KeepsVerdict p s c ⟨o, r⟩)
    (hopen : Decided (w.standing p) (.reply c ⟨o, r⟩ :: s.log) ∨
      ∃ d, (Function.update σ c g d).running = true) :
    s.log.any (heard isFailedReport) = false ∧
      (∀ d, (s.thread d).inFlight = true → (σ d).losing = false) ∧
      (σ c).losing = false ∧ g.losing = false := by
  have hbefore : (Decided (s.world.standing p) s.log ∨ ∃ d, (σ d).running = true) ∨
      isLockAcquired ⟨o, r⟩ = true := by
    rcases hopen with hdec | ⟨d, hd⟩
    · rcases h.of_decided hT ht hdec with hdec | ⟨htold, -, -⟩ | ⟨hg, -⟩
      · exact Or.inl (Or.inl hdec)
      · refine Or.inl ((hkeep.told htold).imp id ?_)
        intro hruns
        obtain ⟨d, hd⟩ := hruns
        exact ⟨d, by rwa [h.sagas.runs d] at hd⟩
      · exact Or.inl (Or.inr ⟨c, by simp [hg, running]⟩)
    · by_cases hdc : d = c
      · subst hdc
        rw [Function.update_self] at hd
        rcases hT.running_of hd with ⟨-, -, hacq, -⟩ | ⟨hrun, -⟩
        · exact Or.inr hacq
        · exact Or.inl (Or.inr ⟨d, hrun⟩)
      · rw [Function.update_of_ne hdc] at hd
        exact Or.inl (Or.inr ⟨d, hd⟩)
  have hsafe : s.log.any (heard isFailedReport) = false ∧
      ∀ d, (s.thread d).inFlight = true → (σ d).losing = false := by
    rcases hbefore with hopen₀ | hacq
    · exact h.undivided hopen₀
    · have hacquire := hkeep.acquire hacq
      exact ⟨hacquire.2.1, fun d hd => h.of_acquire hat (ht.locked_eq.2 hacq) hacquire hd⟩
  have hcsafe : (σ c).losing = false := hsafe.2 c (by simp [Thread.inFlight, hc])
  refine ⟨hsafe.1, hsafe.2, hcsafe, ?_⟩
  -- if it comes to lose, the payment is not decided, and no other saga is running
  by_contra hlose
  obtain ⟨hthrows, hrun, hstop⟩ := h.throws_of_losing hT hcsafe (by simpa using hlose)
  have hdec := hkeep.throws hthrows
  rcases hopen with hdec' | ⟨d, hd⟩
  · rcases h.of_decided hT ht hdec' with hdec' | ⟨-, hg, -⟩ | ⟨-, hg⟩
    · exact hdec hdec'
    · simp [hg, running] at hrun
    · simp [hg, running] at hstop
  · by_cases hdc : d = c
    · subst hdc
      simp [hstop] at hd
    · rw [Function.update_of_ne hdc] at hd
      exact hdc (h.runs_alone hdec hd hrun)

theorem step_resolved (h : VerdictInv p s σ) (hT : Edge (jobs c) (σ c) o r g)
    (ht : (s.world.standing p).Step o r (w.standing p))
    (hkeep : KeepsVerdict p s c ⟨o, r⟩) (hlose : (σ c).losing = false)
    (hlose' : g.losing = false)
    (hdec : Decided (w.standing p) (.reply c ⟨o, r⟩ :: s.log))
    (hpend : Pending (heard isSagaFailed) (heard isNotified) (.reply c ⟨o, r⟩ :: s.log)) :
    ∃ d, (Function.update σ c g d).midway = true := by
  rcases pending_cons.mp hpend with hfailed | ⟨hnotified, hpend⟩
  · simp [(hT.of_isSagaFailed hfailed).1] at hlose
  -- a saga midway stays so, or notifies its customer
  have hstay : ∀ d, (σ d).midway = true → ∃ d, (Function.update σ c g d).midway = true := by
    intro d hd
    refine ⟨d, ?_⟩
    by_cases hdc : d = c
    · subst hdc
      rw [Function.update_self]
      rcases hT.midway_step hd with hg | hnot | hg
      · exact hg
      · simp [heard, hnot] at hnotified
      · simp [hlose'] at hg
    · rwa [Function.update_of_ne hdc]
  have hdecided : Decided (s.world.standing p) s.log →
      ∃ d, (Function.update σ c g d).midway = true := by
    intro hdec
    obtain ⟨d, hd⟩ := h.resolved hdec hpend
    exact hstay d hd
  rcases h.of_decided hT ht hdec with hdec | ⟨htold, -, -⟩ | ⟨-, rfl⟩
  · exact hdecided hdec
  · rcases hkeep.told htold with hdec | ⟨d, hd⟩
    · exact hdecided hdec
    · rw [h.sagas.runs d] at hd
      rcases midway_or_knowing hd with hmid | hknow
      · exact hstay d hmid
      · exact hdecided (Or.inl (h.cached d hknow))
  · exact ⟨c, by simp [midway, running]⟩

theorem step_cached (h : VerdictInv p s σ) (hT : Edge (jobs c) (σ c) o r g)
    (ht : (s.world.standing p).Step o r (w.standing p)) (d : ι)
    (hd : (Function.update σ c g d).knowing = true) : (w.standing p).result ≠ none := by
  revert d
  refine forall_update (P := fun _ g => Stage.knowing g = true → (w.standing p).result ≠ none)
    (fun hg => ?_) fun d _ hd hnone => h.cached d hd (ht.result_kept hnone)
  rcases hT.knowing_of hg with hknow | hst | ⟨v, ⟨⟩⟩
  · exact fun hnone => h.cached c hknow (ht.result_kept hnone)
  · exact ht.of_isStored hst
  · obtain ⟨hv, ht⟩ := ht
    simp [ht, ← hv]

theorem step_recorded (h : VerdictInv p s σ) (hT : Edge (jobs c) (σ c) o r g)
    (ht : (s.world.standing p).Step o r (w.standing p)) (d : ι)
    (hd : (Function.update σ c g d).posted = true) : (w.standing p).recordedCompleted := by
  revert d
  refine forall_update
    (P := fun _ g => Stage.posted g = true → (w.standing p).recordedCompleted)
    (fun hg => ?_) fun d _ hd => ?_
  · rcases hT.posted_of hg with ⟨v, hv, ⟨⟩⟩ | ⟨txn, ⟨⟩⟩
    · obtain ⟨rfl, ht⟩ := ht
      simpa [ht, Standing.recordedCompleted] using hv
    · simp [Standing.recordedCompleted, show w.standing p = _ from ht]
  · rcases ht.recorded_kept (h.recorded d hd) with hrec | ⟨id, record, u, hne, ⟨⟩⟩
    · exact hrec
    · rcases hT.of_upsertStatus with ⟨-, hcompleted, -⟩ | ⟨hbotched, -⟩
      · exact absurd hcompleted hne
      · simp [h.kept c] at hbotched

theorem step_kept (h : VerdictInv p s σ) (hT : Edge (jobs c) (σ c) o r g)
    (hkeep : KeepsVerdict p s c ⟨o, r⟩) (d : ι) :
    (Function.update σ c g d).botched = false := by
  revert d
  refine forall_update (P := fun _ g => Stage.botched g = false) ?_ fun d _ => h.kept d
  by_contra hg
  rcases hT.botched_of (by simpa using hg) with hbotched | ⟨hlose, hlose', hknow⟩
  · simp [h.kept c] at hbotched
  · exact hkeep.throws (h.throws_of_losing hT hlose hlose').1 (Or.inl (h.cached c hknow))

theorem reply (h : VerdictInv p s σ) (hat : AtStages jobs s σ) (hjob : (jobs c).data = p)
    {a : Answer} (hc : (s.thread c).awaiting = some o)
    (hw : s.world.perform o a = some (r, w)) (hT : Edge (jobs c) (σ c) o r g)
    (hkeep : KeepsVerdict p s c ⟨o, r⟩) (t : Thread effects Thrown Unit) :
    VerdictInv p ⟨Function.update s.thread c t, w, .reply c ⟨o, r⟩ :: s.log⟩
      (Function.update σ c g) := by
  have ht : (s.world.standing p).Step o r (w.standing p) :=
    World.standing_perform (hjob ▸ hT.concerns) hw
  have hopen := h.of_open hat hc hT ht hkeep
  refine ⟨h.holder.step hT ht ?_, h.sagas.reply hT, h.underWay.reply hT.working_eq,
    h.told.reply hT.isSettled_eq, h.step_cached hT ht, h.step_recorded hT ht,
    h.step_kept hT hkeep, ?_, ?_, fun hor => ?_, fun hdec hpend => ?_⟩
  · intro heq
    cases heq
    exact (hkeep.acquire rfl).1
  · intro hrep hnone
    simp only [List.any_cons, heard, Bool.or_eq_true] at hrep
    rcases hrep with hrep | hrep
    · exact h.cached c (hT.of_isCompletedReport hrep) (ht.result_kept hnone)
    · exact h.completed hrep (ht.result_kept hnone)
  · simp only [List.any_cons, heard, Bool.or_eq_true]
    refine forall_update (P := fun _ g => Stage.doomed g = true → _) (fun hg => ?_)
      fun d _ hd => Or.inr (h.doomed d hd)
    rcases hT.doomed_of hg with hdoomed | hrep
    · exact Or.inr (h.doomed c hdoomed)
    · exact Or.inl hrep
  · obtain ⟨hfailed, hsafe, hlose, hlose'⟩ := hopen hor
    refine ⟨?_, fun d => ?_⟩
    · simp only [List.any_cons, heard, hfailed, Bool.or_false]
      by_contra hrep
      simp [hT.of_isFailedReport (by simpa using hrep)] at hlose
    · by_cases hdc : d = c
      · subst hdc
        simp [hlose']
      · simpa [hdc] using hsafe d
  · obtain ⟨-, -, hlose, hlose'⟩ := hopen (Or.inl hdec)
    exact h.step_resolved hT ht hkeep hlose hlose' hdec hpend

theorem quiet (h : VerdictInv p s σ) {e : LogEntry ι} (he : quiet e = true)
    {thread : ι → Thread effects Thrown Unit} {w : World}
    (hw : w.standing p = s.world.standing p)
    (hflight : ∀ d, (thread d).inFlight = true →
      (s.thread d).inFlight = true ∨ σ d = .entering) :
    VerdictInv p ⟨thread, w, e :: s.log⟩ σ := by
  have hheard : ∀ f, heard f e = false := by
    rcases quiet_iff.mp he with ⟨c, rfl⟩ | ⟨ms, rfl⟩ <;> exact fun _ => rfl
  have hdec : Decided (s.world.standing p) (e :: s.log) →
      Decided (s.world.standing p) s.log := by
    refine Or.imp id (Or.imp id ?_)
    intro htold
    obtain ⟨d, hd⟩ := htold
    exact ⟨d, (h.told d).mpr ((h.told.quiet he d).mp hd)⟩
  constructor
  case holder => simpa only [hw] using h.holder
  case sagas => exact h.sagas.quiet he
  case underWay => exact h.underWay.quiet he
  case told => exact h.told.quiet he
  case cached => simpa only [hw] using h.cached
  case recorded => simpa only [hw] using h.recorded
  case kept => exact h.kept
  case completed => simpa [hheard, hw] using h.completed
  case doomed => simpa [hheard] using h.doomed
  case undivided =>
    simp only [hw]
    intro hor
    obtain ⟨hfailed, hsafe⟩ := h.undivided (hor.imp hdec id)
    refine ⟨by simpa [hheard] using hfailed, fun d hd => ?_⟩
    rcases hflight d hd with hd | hd
    · exact hsafe d hd
    · simp [hd, losing]
  case resolved =>
    simp only [hw]
    intro hd hpend
    exact h.resolved (hdec hd) ((pending_skip (hheard _) (hheard _)).mp hpend)

end VerdictInv

variable {jobs : ι → Job} {p : Payment} {w : World}

/-- **One verdict.** In every steady run of any number of overlapping calls of one payment
in which no step puts the verdict in doubt, the payment is never reported both completed
and failed; and with its last saga compensated it is not reported completed. -/
theorem one_verdict (hjobs : ∀ c, (jobs c).data = p) {s : State ι}
    (h : Run (verdictRuns p) (processes jobs w) s) : OneVerdict s.log := by
  have h₀ : VerdictInv p (processes jobs w) (fun _ => .entering) := by
    refine ⟨.start, .start, ?_, ?_, ?_, ?_, ?_, ?_, ?_, ?_, ?_⟩
    all_goals simp [Tracks, processes, Config.start, working, isSettled, knowing, posted,
      botched, doomed, losing]
  have hstep : ∀ {s : State ι} {σ a} {s' : State ι} {σ'}, AtStages jobs s σ →
      VerdictInv p s σ → verdictRuns p s a →
      TStep (fun c => Edge (jobs c)) s σ a s' σ' → VerdictInv p s' σ' := by
    intro s σ a s' σ' hat hI hG hT
    cases hT with
    | @begin c q hc =>
        refine hI.quiet rfl rfl fun d hd => ?_
        by_cases hdc : d = c
        · subst hdc
          have := hat d
          rw [hc] at this
          exact Or.inr this.1
        · simp only [Function.update_of_ne hdc] at hd
          exact Or.inl hd
    | @answer c a o k r w g hc hw hT =>
        have hawait : (s.thread c).awaiting = some o := by rw [hc]; rfl
        exact hI.reply hat (hjobs c) hawait hw hT (hG.2 _ (received_eq hawait hw)) _
    | crash | lost => exact hG.1.1.elim
    | @move m w hw =>
        cases m with
        | tick ms =>
            obtain rfl := Option.some.inj hw
            exact hI.quiet rfl rfl fun d hd => Or.inl hd
        | expire key => exact hG.1.2.elim
  obtain ⟨σ, -, hI⟩ := Run.staged (fun c => process_follows (jobs c)) h₀
    (fun _ hat hI hG hT _ => hstep hat hI hG hT) h
  refine ⟨?_, fun hover hpend => ?_⟩
  · intro hboth
    obtain ⟨hcompleted, hfailed⟩ := hboth
    simp [(hI.undivided (Or.inl (Or.inl (hI.completed hcompleted)))).1] at hfailed
  · by_contra hcompleted
    obtain ⟨c, hc⟩ := hI.resolved (Or.inl (hI.completed (by simpa using hcompleted))) hpend
    exact hover c ((hI.underWay c).mpr (working_of_running (running_of_midway hc)))

/-- Three calls: the first saga fails, the second succeeds, and the third call is told
so by the gateway in the meantime. -/
theorem one_verdict_contended :
    ∃ s, Run (verdictRuns cardPayment) (processes (fun _ : Fin 3 => cardJob 0) startedUp) s ∧
      s.log.any (heard isSagaFailed) = true ∧ s.log.any (heard isToldSettled) = true ∧
      s.log.any (heard isCompletedReport) = true ∧ OneVerdict s.log := by
  have hrun : ∃ s, Run (verdictRuns cardPayment)
      (processes (fun _ : Fin 3 => cardJob 0) startedUp) s ∧
      s.log.any (heard isSagaFailed) = true ∧ s.log.any (heard isToldSettled) = true ∧
      s.log.any (heard isCompletedReport) = true :=
    Run.exists_of_exec (approach 0 ++ takeAndFail 0 ++ approach 1 ++ takeAndCharge 1 ++
      approach 2 ++ [.answer 2 .resolve, .answer 2 .resolve,
        .answer 2 (.status ⟨"txn_1", .settled⟩)] ++ captureAndPost 1 ++
      [.answer 2 .resolve, .answer 2 .resolve, .answer 1 (.env none), .answer 1 .resolve,
        .answer 1 .resolve]) (by decide +kernel)
  obtain ⟨s, h, hfailed, htold, hcompleted⟩ := hrun
  exact ⟨s, h, hfailed, htold, hcompleted, one_verdict (by intro c; rfl) h⟩

/-- Two overlapping calls, the first with no attempts left: the second is told that the
charge is settled and reports COMPLETED; then the capture of the first fails, its saga
voids the charge, and it reports FAILED. -/
theorem two_verdicts_reachable :
    ∃ s, Run (fun s a => Steady s a ∧ SettledOnceCharged s a)
        (processes (fun c : Fin 2 => if c = 0 then cardJob 2 else cardJob 0) startedUp) s ∧
      s.log.any (heard isVoid) = true ∧
      ¬ NeverBoth s.log ∧ ¬ CompensatedNotCompleted s.log :=
  Run.exists_of_exec (approach 0 ++ takeAndCharge 0 ++ approach 1 ++
      [.answer 1 .resolve, .answer 1 .resolve, .answer 1 (.status ⟨"txn_1", .settled⟩),
        .answer 1 .resolve, .answer 1 .resolve, .answer 0 (.env (some "capture"))] ++
      List.replicate 5 (.answer 0 .resolve)) (by decide +kernel)

end PaymentQueue
