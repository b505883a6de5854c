import PaymentQueue.Verdicts

/-!
# PaymentQueue.Durable

Is a reported completion in the repository?

Four ways lead to the report of COMPLETED, and only the saga writes the record. A contender
reports what the gateway told it, whether or not the saga that charged has got as far as
the record (`completed_unrecorded_reachable`); and a saga that throws when its result is
cached sets the record back and leaves the result. In runs where nobody does either
(`KeepsRecord`), whatever makes a call certain of the completion (`Stage.certain`) comes
with a completed record, and the record stays (`completed_durable`). Keys may expire,
calls may crash and stores may fail.
-/

namespace PaymentQueue

open Async Stage

/-- The operation reports that the payment is completed. -/
def Op.reportsCompletion : Op → Bool
  | emit (.statusChanged _ .completed _ _) => true
  | _ => false

namespace Stage

/-- Certain that the payment is completed: the call has seen a result, a completed record
or a settled charge, or has written the record. -/
def certain (g : Stage) : Bool := g.knowing || g.posted || g.isSettled

/-- A saga that has cached its result and has steps to go, or the report. -/
def publishing : Stage → Bool
  | .stored | .notifying | .notified => true
  | _ => false

/-- The ledger entry is still to be reversed. -/
def reversing : Stage → Bool
  | .unwinding todo _ _ => todo.contains .reverseLedger
  | _ => false

variable {job : Job} {g g' : Stage} {o : Op} {r : o.Ret}

/-- A call becomes certain by a cached result, a completed record or a settled charge. -/
theorem Edge.certain_of (h : Edge job g o r g') (hg' : g'.certain = true) :
    g.certain = true ∨
      (∃ v, (⟨o, r⟩ : ProcEvent) = ⟨.getResult job.data.idempotencyKey, .ok (some v)⟩) ∨
      (∃ v : Option PaymentRecord, v.map (·.status) = some .completed ∧
        (⟨o, r⟩ : ProcEvent) = ⟨.getStatus job.data.id, .ok v⟩) ∨
      (∃ txn, (⟨o, r⟩ : ProcEvent) = ⟨.upsertStatus job.data.id ⟨.completed, txn⟩, .ok ()⟩) ∨
      isToldSettled ⟨o, r⟩ = true := by
  simp only [certain, Bool.or_eq_true] at hg' ⊢
  rcases hg' with (hknow | hposted) | hsettled
  · rcases h.knowing_of hknow with hg | hst | hhit
    · exact Or.inl (Or.inl (Or.inl hg))
    · rcases h.of_isStored hst with hg | hg
      · exact Or.inl (Or.inl (Or.inr hg))
      · exact Or.inl (Or.inr hg)
    · exact Or.inr (Or.inl hhit)
  · exact Or.inr (Or.inr ((h.posted_of hposted).imp id Or.inl))
  · rw [h.isSettled_eq, Bool.or_eq_true, Bool.and_eq_true] at hsettled
    rcases hsettled with htold | ⟨-, hg⟩
    · exact Or.inr (Or.inr (Or.inr (Or.inr htold)))
    · exact Or.inl (Or.inr hg)

theorem Edge.publishing_of (h : Edge job g o r g') (hg' : g'.publishing = true) :
    g.publishing = true ∨ isStored ⟨o, r⟩ = true := by
  cases h
  all_goals simp_all [publishing, isStored]

/-- The ledger entry comes to be reversed when a saga throws that has cached its result. -/
theorem Edge.reversing_of (h : Edge job g o r g') (hg' : g'.reversing = true) :
    g.reversing = true ∨ (g.publishing = true ∧ g.running = true ∧ g'.running = false ∧
      endsSaga ⟨o, r⟩ = false ∧ isCompletedReport ⟨o, r⟩ = false) := by
  cases h
  all_goals simp_all [reversing, publishing, running, endsSaga, isCompletedReport]

/-- A record is written as completed, or as the ledger entry is reversed. -/
theorem Edge.reversing_of_upsertStatus {id : String} {record : PaymentRecord}
    {r : Except Thrown Unit} (h : Edge job g (.upsertStatus id record) r g')
    (hne : record.status ≠ .completed) : g.reversing = true := by
  cases h
  case reverseLedger => simp [reversing]
  all_goals exact absurd rfl hne

theorem Edge.certain_of_reports (h : Edge job g o r g') (ho : o.reportsCompletion = true) :
    g.certain = true := by
  cases h
  all_goals simp_all [certain, knowing, Op.reportsCompletion]

end Stage

/-- What the world does on its own leaves the records alone, and can take a result away. -/
theorem World.standing_move {w w' : World} {m : Move} {p : Payment}
    (h : w.move m = some w') :
    (w'.standing p).record = (w.standing p).record ∧
      ((w'.standing p).result ≠ none → (w.standing p).result ≠ none) := by
  cases m with
  | tick ms =>
      obtain rfl := Option.some.inj h
      exact ⟨rfl, id⟩
  | expire key =>
      simp only [World.move, Option.map_eq_some_iff, Redis.expire] at h
      obtain ⟨redis, hredis, rfl⟩ := h
      refine ⟨rfl, fun hres => ?_⟩
      split at hredis
      · split at hredis
        · obtain rfl := Option.some.inj hredis
          by_cases hkey : IdempotencyService.resultKey p.idempotencyKey = key
          · simp [World.standing, IdempotencyService.getResult, Redis.del, hkey] at hres
          · simpa [World.standing, IdempotencyService.getResult, Redis.del, hkey] using hres
        · exact absurd hredis (by simp)
      · exact absurd hredis (by simp)

variable {ι : Type} [DecidableEq ι]

/-! ### The record of a reported completion -/

/-- Call `c` is about to report that the payment is completed. -/
def aboutToComplete (s : State ι) (c : ι) : Bool :=
  (s.thread c).awaiting.any Op.reportsCompletion

/-- Whoever is about to report the completion of `p` finds it in the repository. -/
def CompletionRecorded (p : Payment) (s : State ι) : Prop :=
  ∀ c, aboutToComplete s c = true → (s.world.standing p).recordedCompleted

instance [Fintype ι] (p : Payment) : DecidablePred (CompletionRecorded (ι := ι) p) :=
  fun _ => inferInstanceAs (Decidable (∀ _, _))

/-- The event of call `c` does not put the record of `p` in doubt. -/
structure KeepsRecord (p : Payment) (s : State ι) (c : ι) (ev : ProcEvent) : Prop where
  /-- A contender is told that the charge is settled only when the record says so. -/
  told : isToldSettled ev = true → (s.world.standing p).recordedCompleted
  /-- No step of a saga throws once the saga has cached its result. -/
  throws : sagaThrows (eventsOf c s.log) ev = true →
    (eventsOf c s.log).any isStored = true → isCompletedReport ev = true

instance (p : Payment) (s : State ι) (c : ι) (ev : ProcEvent) :
    Decidable (KeepsRecord p s c ev) :=
  decidable_of_iff ((isToldSettled ev = true → (s.world.standing p).recordedCompleted) ∧
    (sagaThrows (eventsOf c s.log) ev = true →
      (eventsOf c s.log).any isStored = true → isCompletedReport ev = true))
    ⟨fun h => ⟨h.1, h.2⟩, fun h => ⟨h.told, h.throws⟩⟩

/-- Runs whose steps do not put the record of `p` in doubt. -/
def recordRuns (p : Payment) : Guard system ι Thrown Unit
  | s, .answer c a => ∀ ev ∈ s.received c a, KeepsRecord p s c ev
  | _, _ => True

instance (p : Payment) (s : State ι) : DecidablePred (recordRuns p s)
  | .answer _ _ => inferInstanceAs (Decidable (∀ _ ∈ _, _))
  | .begin _ | .crash _ _ | .move _ => .isTrue trivial

/-! ### What keeps the record -/

/-- What keeps the record of a payment that is completed. -/
structure RecordInv (p : Payment) (s : State ι) (σ : ι → Stage) : Prop where
  history : ∀ c, (σ c).SagaHistory (eventsOf c s.log)
  published : ∀ c, (σ c).publishing = true → (eventsOf c s.log).any isStored = true
  /-- No ledger entry is ever reversed. -/
  kept : ∀ c, (σ c).reversing = false
  recorded : ∀ c, (σ c).certain = true → (s.world.standing p).recordedCompleted
  cached : (s.world.standing p).result ≠ none → (s.world.standing p).recordedCompleted

namespace RecordInv

variable {p : Payment} {s : State ι} {σ : ι → Stage} {job : Job} {c : ι}
variable {o : Op} {r : o.Ret} {w : World} {g : Stage}

/-- A completed record outlives every operation. -/
theorem record_kept (h : RecordInv p s σ) (hT : Edge job (σ c) o r g)
    (ht : (s.world.standing p).Step o r (w.standing p))
    (hrec : (s.world.standing p).recordedCompleted) :
    (w.standing p).recordedCompleted := by
  rcases ht.recorded_kept hrec with hrec' | ⟨id, record, u, hne, ⟨⟩⟩
  · exact hrec'
  · have := hT.reversing_of_upsertStatus hne
    simp [h.kept c] at this

/-- A result is cached for a completed record. -/
theorem step_cached (h : RecordInv p s σ) (hT : Edge job (σ c) o r g)
    (ht : (s.world.standing p).Step o r (w.standing p))
    (hres : (w.standing p).result ≠ none) : (w.standing p).recordedCompleted := by
  refine h.record_kept hT ht ?_
  by_cases hres₀ : (s.world.standing p).result = none
  · refine h.recorded c ?_
    rcases hT.of_isStored (ht.result_new hres₀ hres) with hposted | hsettled
    · simp [certain, hposted]
    · simp [certain, hsettled]
  · exact h.cached hres₀

/-- A call that becomes certain does so with a completed record. -/
theorem step_recorded (h : RecordInv p s σ) (hT : Edge job (σ c) o r g)
    (ht : (s.world.standing p).Step o r (w.standing p)) (hkeep : KeepsRecord p s c ⟨o, r⟩)
    (hg : g.certain = true) : (w.standing p).recordedCompleted := by
  have hkept := h.record_kept hT ht
  rcases hT.certain_of hg with hc | ⟨v, ⟨⟩⟩ | ⟨v, hv, ⟨⟩⟩ | ⟨txn, ⟨⟩⟩ | htold
  · exact hkept (h.recorded c hc)
  · obtain ⟨hv, -⟩ := ht
    exact hkept (h.cached (by simp [← hv]))
  · obtain ⟨rfl, -⟩ := ht
    exact hkept hv
  · simp [Standing.recordedCompleted, show w.standing p = _ from ht]
  · exact hkept (hkeep.told htold)

/-- Nobody comes to reverse the ledger entry. -/
theorem step_kept (h : RecordInv p s σ) (hT : Edge job (σ c) o r g)
    (hkeep : KeepsRecord p s c ⟨o, r⟩) : g.reversing = false := by
  by_contra hg
  rcases hT.reversing_of (by simpa using hg) with hrev | ⟨hpub, hrun, hstop, hends, hrep⟩
  · simp [h.kept c] at hrev
  rcases hT.running_or (h.history c).running hrun with hrun' | hends' | hthrows
  · simp [hstop] at hrun'
  · simp [hends] at hends'
  · simp [hkeep.throws hthrows (h.published c hpub)] at hrep

theorem reply (h : RecordInv p s σ) (hT : Edge job (σ c) o r g)
    (ht : (s.world.standing p).Step o r (w.standing p)) (hkeep : KeepsRecord p s c ⟨o, r⟩)
    (t : Thread effects Thrown Unit) :
    RecordInv p ⟨Function.update s.thread c t, w, .reply c ⟨o, r⟩ :: s.log⟩
      (Function.update σ c g) where
  history := forall_update_events (P := fun _ (g : Stage) evs => g.SagaHistory evs)
    ((h.history c).step hT) fun d _ => h.history d
  published := by
    refine forall_update_events
      (P := fun _ (g : Stage) evs => g.publishing = true → evs.any isStored = true)
      (fun hg => ?_) fun d _ => h.published d
    rcases hT.publishing_of hg with hpub | hst
    · simp [h.published c hpub]
    · simp [hst]
  kept := forall_update (P := fun _ (g : Stage) => g.reversing = false)
    (h.step_kept hT hkeep) fun d _ => h.kept d
  recorded := forall_update
    (P := fun _ (g : Stage) => g.certain = true → (w.standing p).recordedCompleted)
    (h.step_recorded hT ht hkeep) fun d _ hd => h.record_kept hT ht (h.recorded d hd)
  cached := h.step_cached hT ht

/-- An entry that is no reply, after which every completed record is still there and every
result was so before. -/
theorem other (h : RecordInv p s σ) {e : LogEntry ι} (he : ∀ c, Entry.eventOf c e = none)
    (hrec : (s.world.standing p).recordedCompleted → (w.standing p).recordedCompleted)
    (hcached : (w.standing p).result ≠ none → (w.standing p).recordedCompleted)
    (t : ι → Thread effects Thrown Unit) : RecordInv p ⟨t, w, e :: s.log⟩ σ where
  history c := by simpa [eventsOf_cons, he c] using h.history c
  published c := by simpa [eventsOf_cons, he c] using h.published c
  kept := h.kept
  recorded c hc := hrec (h.recorded c hc)
  cached := hcached

end RecordInv

variable {jobs : ι → Job} {p : Payment} {w : World}

/-- **COMPLETED is durable.** In every run of calls of one payment in which no contender is
told of a settled charge before its record, and no saga throws with its result cached, the
completion is reported only when the repository says so. -/
theorem completed_durable (hjobs : ∀ c, (jobs c).data = p)
    (hw : (w.standing p).result ≠ none → (w.standing p).recordedCompleted) {s : State ι}
    (h : Run (recordRuns p) (processes jobs w) s) : CompletionRecorded p s := by
  have h₀ : RecordInv p (processes jobs w) (fun _ => .entering) := by
    refine ⟨fun c => ⟨by simp [processes, Config.start], by simp [running]⟩, ?_, ?_, ?_, hw⟩
    all_goals simp [publishing, reversing, certain, knowing, posted, isSettled]
  have hstep : ∀ {s : State ι} {σ a} {s' : State ι} {σ'}, RecordInv p s σ →
      recordRuns p s a → TStep (fun c => Edge (jobs c)) s σ a s' σ' → RecordInv p s' σ' := by
    intro s σ a s' σ' hI hG hT
    cases hT with
    | begin hc => exact hI.other (fun _ => rfl) id hI.cached _
    | @answer c a o k r w g hc hw hT =>
        have hawait : (s.thread c).awaiting = some o := by rw [hc]; rfl
        exact hI.reply hT (World.standing_perform (hjobs c ▸ hT.concerns) hw)
          (hG _ (received_eq hawait hw)) _
    | crash hc => exact hI.other (fun _ => rfl) id hI.cached _
    | @lost c a o k r w g hc hw hT =>
        have ht := World.standing_perform (hjobs c ▸ hT.concerns) hw
        exact hI.other (fun _ => rfl) (hI.record_kept hT ht) (hI.step_cached hT ht) _
    | @move m w hm =>
        obtain ⟨hrec, hres⟩ := World.standing_move (p := p) hm
        have hkept : (s.world.standing p).recordedCompleted →
            (w.standing p).recordedCompleted := by
          simp [Standing.recordedCompleted, hrec]
        exact hI.other (fun _ => rfl) hkept (fun hres' => hkept (hI.cached (hres hres'))) _
  obtain ⟨σ, hat, hI⟩ := Run.staged (fun c => process_follows (jobs c)) h₀
    (fun _ _ hI hG hT _ => hstep hI hG hT) h
  intro c hc
  obtain ⟨o, ho, hrep⟩ := (Option.any_eq_true _ _).mp hc
  obtain ⟨r⟩ := (inferInstance : Nonempty o.Ret)
  obtain ⟨g, hT⟩ := hat.edge ho r
  exact hI.recorded c (hT.certain_of_reports hrep)

/-- A contender is told of the charge between the record and the result of the first call,
and a third call finds the result cached. -/
theorem completed_durable_contended :
    ∃ s, Run (recordRuns cardPayment) (processes (fun _ : Fin 3 => cardJob 0) startedUp) s ∧
      (∀ c, aboutToComplete s c = true) ∧ CompletionRecorded cardPayment s := by
  have hrun : ∃ s, Run (recordRuns cardPayment)
      (processes (fun _ : Fin 3 => cardJob 0) startedUp) s ∧
      ∀ c, aboutToComplete s c = true :=
    Run.exists_of_exec (approach 0 ++ takeAndCharge 0 ++ approach 1 ++
      (captureAndPost 0).take 3 ++ [.answer 1 .resolve, .answer 1 .resolve,
        .answer 1 (.status ⟨"txn_1", .settled⟩), .answer 1 .resolve, .answer 0 .resolve,
        .answer 0 (.env none), .answer 0 .resolve] ++ (approach 2).take 7) (by decide +kernel)
  obtain ⟨s, h, habout⟩ := hrun
  exact ⟨s, h, habout, completed_durable (by intro c; rfl) (by decide) h⟩

/-- Two overlapping calls: the gateway tells the second that the charge of the first is
settled, and it is about to report COMPLETED while the repository has no record. -/
theorem completed_unrecorded_reachable :
    ∃ s, Run (fun s a => NoCrash s a ∧ NoExpiry s a ∧ StoresUp s a)
        (processes (fun _ : Fin 2 => cardJob 0) startedUp) s ∧
      (s.world.standing cardPayment).record = none ∧ ¬ CompletionRecorded cardPayment s :=
  Run.exists_of_exec (approach 0 ++ takeAndCharge 0 ++ approach 1 ++
    [.answer 1 .resolve, .answer 1 .resolve, .answer 1 (.status ⟨"txn_1", .settled⟩),
      .answer 1 .resolve]) (by decide +kernel)

end PaymentQueue
