import PaymentQueue.Sequential

/-!
# PaymentQueue.CachedSuccess

May a payment whose money was returned still be reported completed?

The ledger step caches the success before the saga is over. When `notifyCustomer` then
throws, the saga voids the charge and resets the record, but nothing takes the cached
success back, and the next attempt reports it (`returned_reported_reachable`).
Everything that makes a call report success without a saga (a cached result, a completed
record, a lock another call left behind) is gone whenever money has been returned
(`ReportInv.clean`, `ReportInv.free`), as long as no step throws that comes after the
cached success (`returned_never_reported`).
-/

namespace PaymentQueue

open Async Stage

variable {ι : Type}

/-- `status_changed` COMPLETED is emitted. -/
def completedReported : LogEntry ι → Bool
  | .reply _ ⟨.emit (.statusChanged _ .completed _ _), _⟩ => true
  | _ => false

/-- The saga returns money: `voidAuthorization` or `refund`. -/
def moneyReturned : LogEntry ι → Bool
  | .reply _ ⟨.voidAuthorization _, _⟩ | .reply _ ⟨.refund _, _⟩ => true
  | _ => false

/-- `gateway.process` succeeds. -/
def chargeAccepted : LogEntry ι → Bool
  | .reply _ ⟨.gatewayProcess _, .ok v⟩ => v.success
  | _ => false

/-- Money was returned, and no charge has succeeded since. -/
abbrev Returned (log : List (LogEntry ι)) : Prop :=
  Pending moneyReturned chargeAccepted log

/-- COMPLETED is never emitted while the last thing that happened to the money is that
it was returned. -/
def ReturnedNeverReported (log : List (LogEntry ι)) : Prop :=
  Throughout (fun e before => completedReported e = true → ¬ Returned before) log

instance : DecidablePred (ReturnedNeverReported (ι := ι)) :=
  fun _ => inferInstanceAs (Decidable (Throughout _ _))

/-- The operations of the saga's steps that can fail on their own, and the lookup at the
gateway. -/
def Op.canFail : Op → Bool
  | .gatewayProcess _ | .gatewayGetStatus _ _ | .emit (.notify _) => true
  | _ => false

/-- Nothing rejects but the work of a saga step and the lookup at the gateway. -/
def OnlyStepsFail (s : State ι) : Action system ι → Prop
  | .answer c a =>
      a.rejects = true → (s.thread c).awaiting.all Op.canFail = true
  | _ => True

instance (s : State ι) : DecidablePred (OnlyStepsFail s)
  | .answer _ _ => inferInstanceAs (Decidable (_ → _))
  | .begin _ | .move _ | .crash _ _ => .isTrue trivial

/-- The latest answer is that of a successful `storeResult`. -/
def justStored : List (LogEntry ι) → Bool
  | .reply _ ⟨.storeResult _ _, .ok _⟩ :: _ => true
  | .reply _ _ :: _ => false
  | _ :: before => justStored before
  | [] => false

/-- The `notify` step, which follows the cached success, throws nothing that starts the
compensations: not the injected failure, and nothing but nullish values. -/
def NotifyHolds (s : State ι) : Action system ι → Prop
  | .answer c (.reject e) =>
      (s.thread c).awaiting.any (fun o => o matches .emit (.notify _)) = true →
      e.nullish = true
  | .answer c (.env v) =>
      (s.thread c).awaiting = some .sagaFailStep → justStored s.log = true →
      v ≠ some "notify"
  | _ => True

instance (s : State ι) : DecidablePred (NotifyHolds s)
  | .answer _ (.reject _) => inferInstanceAs (Decidable (_ → _))
  | .answer _ (.env _) => inferInstanceAs (Decidable (_ → _ → _))
  | .answer _ .resolve | .answer _ (.response _) | .answer _ (.status _)
  | .begin _ | .move _ | .crash _ _ => .isTrue trivial

/-- Attempts that do not overlap, crash or see a key expire, and in which only the work
of a saga step fails. -/
def StepwiseFailures [DecidableEq ι] (s : State ι) (a : Action system ι) : Prop :=
  Sequential s a ∧ NoCrash s a ∧ NoExpiry s a ∧ OnlyStepsFail s a

instance [DecidableEq ι] [Fintype ι] (s : State ι) : DecidablePred (StepwiseFailures s) :=
  fun _ => inferInstanceAs (Decidable (_ ∧ _))

/-- Such attempts, in which the `notify` step holds. -/
abbrev notifyHolding [DecidableEq ι] : Guard system ι Thrown Unit :=
  fun s a => StepwiseFailures s a ∧ NotifyHolds s a

/-! ### Where the money is, at each stage -/

namespace Stage

/-- At these stages the last thing that happened to the money, if anything, is a
charge: the call has charged and not unwound, or has been told of a success. -/
def sound : Stage → Bool
  | .backfilling | .reporting | .reported | .contending | .asking | .settled
  | .reconciled | .authorized | .captured | .posting | .written | .stored | .notifying
  | .notified | .succeeded | .recorded => true
  | .unwinding _ _ kept | .failed _ kept => !kept
  | .burying permanent kept | .buried permanent kept | .announced permanent kept =>
      permanent && !kept
  | _ => false

/-- At these stages neither store says that the payment is completed. -/
def unposted : Stage → Bool
  | .clear | .locked | .authorized | .captured | .posting => true
  | .unwinding _ _ kept => kept
  | _ => false

variable {job : Job} {g g' : Stage} {o : Op} {r : o.Ret}

/-- How a call gets to a sound stage: by a charge, by a success it is told of, by a lock
it finds taken, or from another sound stage. -/
theorem Edge.sound_of (h : Edge job g o r g') (hg' : g'.sound = true) :
    g.sound = true ∨
      (∃ q v, (⟨o, r⟩ : Event effects) = ⟨.gatewayProcess q, .ok v⟩ ∧ v.success = true) ∨
      (∃ v, (⟨o, r⟩ : Event effects) =
        ⟨.getResult job.data.idempotencyKey, .ok (some v)⟩) ∨
      (∃ v, (⟨o, r⟩ : Event effects) = ⟨.getStatus job.data.id, .ok v⟩ ∧
        v.map (·.status) = some .completed) ∨
      (g = .clear ∧
        (⟨o, r⟩ : Event effects) = ⟨.acquireLock job.data.idempotencyKey, .ok false⟩) := by
  cases h
  case charge v hv => exact Or.inr (Or.inl ⟨_, v, rfl, hv⟩)
  case hit v => exact Or.inr (Or.inr (Or.inl ⟨v, rfl⟩))
  case dbHit v hv => exact Or.inr (Or.inr (Or.inr (Or.inl ⟨v, rfl, hv⟩)))
  case contend => exact Or.inr (Or.inr (Or.inr (Or.inr ⟨rfl, rfl⟩)))
  all_goals simp_all [sound]

/-- Results are stored at sound stages only. -/
theorem Edge.sound_storeResult {key : String} {v : GatewayResponse}
    {r : Except Thrown Unit} (h : Edge job g (.storeResult key v) r g') :
    g.sound = true := by
  cases h <;> rfl

/-- The completed record is written at a sound stage. -/
theorem Edge.sound_upsertCompleted {id : String} {txn : Option String}
    {r : Except Thrown Unit} (h : Edge job g (.upsertStatus id ⟨.completed, txn⟩) r g') :
    g.sound = true := by
  cases h <;> rfl

/-- COMPLETED is emitted at sound stages only. -/
theorem Edge.sound_reported {id : String} {reason : Option String} {corr : String}
    {r : Except Thrown Unit}
    (h : Edge job g (.emit (.statusChanged id .completed reason corr)) r g') :
    g.sound = true := by
  cases h <;> rfl

/-- A holder that holds no more has released the lock, or stored its result. -/
theorem Edge.gives_up (h : Edge job g o r g') (hg : g.holds = true)
    (hg' : g'.holds = false) :
    (∃ key u, (⟨o, r⟩ : Event effects) = ⟨.releaseLock key, .ok u⟩) ∨
      g'.sound = true := by
  cases h
  case unlock => exact Or.inl ⟨_, _, rfl⟩
  case unlockPermanent => exact Or.inl ⟨_, _, rfl⟩
  case store => exact Or.inr rfl
  all_goals simp_all [holds]

/-- How a call gets to an unposted stage, when its own writes do not fail: by finding
no completed record, or from another unposted stage without posting anything. -/
theorem Edge.unposted_of (h : Edge job g o r g') (hg' : g'.unposted = true)
    (hfail : o.Rejected r = true → o.canFail = true) :
    (g.unposted = true ∧ (∀ key v, o ≠ .storeResult key v) ∧
      ∀ id txn, o ≠ .upsertStatus id ⟨.completed, txn⟩) ∨
    (g = .missed ∧ ∃ v, (⟨o, r⟩ : Event effects) = ⟨.getStatus job.data.id, .ok v⟩ ∧
      v.map (·.status) ≠ some .completed) := by
  cases h
  case dbMiss v hv => exact Or.inr ⟨rfl, v, rfl, hv⟩
  case writeErr => exact absurd (hfail rfl) (by simp [Op.canFail])
  case storeErr => exact absurd (hfail rfl) (by simp [Op.canFail])
  all_goals simp_all [unposted]

/-- A call has missed the cached result because there is none. -/
theorem Edge.missed_of (h : Edge job g o r .missed) :
    (⟨o, r⟩ : Event effects) = ⟨.getResult job.data.idempotencyKey, .ok none⟩ := by
  generalize hg' : Stage.missed = g' at h
  cases h
  case miss => rfl
  all_goals exact absurd hg' (by simp)

/-- The handling of a failure fails only when one of its own operations does. -/
theorem Edge.aborted_of {kept : Bool} (h : Edge job g o r (.aborted kept)) :
    o.Rejected r = true ∧ o.canFail = false := by
  generalize hg' : Stage.aborted kept = g' at h
  cases h
  all_goals first
    | exact ⟨rfl, rfl⟩
    | exact absurd hg' (by simp)

/-- A call gets to `stored` by storing its result. -/
theorem Edge.stored_of (h : Edge job g o r .stored) :
    ∃ v, (⟨o, r⟩ : Event effects) = ⟨.storeResult job.data.idempotencyKey v, .ok ()⟩ := by
  generalize hg' : Stage.stored = g' at h
  cases h
  case store v => exact ⟨v, rfl⟩
  all_goals exact absurd hg' (by simp)

/-- A call unwinds after its cached success because the `notify` step threw, or because
it unwound already. -/
theorem Edge.unwinding_of {todo : List Undo} {err : Thrown}
    (h : Edge job g o r (.unwinding todo err false)) :
    todo = [] ∨ (∃ x todo' err', g = .unwinding (x :: todo') err' false) ∨
      (g = .stored ∧ (⟨o, r⟩ : Event effects) = ⟨.sagaFailStep, some "notify"⟩) ∨
      (∃ id e, (⟨o, r⟩ : Event effects) = ⟨.emit (.notify id), .error e⟩ ∧
        e.nullish = false) := by
  generalize hg' : Stage.unwinding todo err false = g' at h
  cases h
  case notifyInjected => exact Or.inr (Or.inr (Or.inl ⟨rfl, rfl⟩))
  case notifyEmitErr e =>
    cases he : e.nullish with
    | true =>
        rw [unwind, undone_of_nullish he] at hg'
        exact Or.inl (unwinding.inj hg').1
    | false => exact Or.inr (Or.inr (Or.inr ⟨_, e, rfl, he⟩))
  case reverseLedger todo' err' kept r =>
    have hkept : kept = false := by
      have := congrArg holds hg'
      simpa [holds] using this.symm
    exact Or.inr (Or.inl ⟨_, todo', err', by rw [hkept]⟩)
  case refund =>
    obtain ⟨rfl, rfl, rfl⟩ := unwinding.inj hg'
    exact Or.inr (Or.inl ⟨_, _, _, rfl⟩)
  case voidAuthorization =>
    obtain ⟨rfl, rfl, rfl⟩ := unwinding.inj hg'
    exact Or.inr (Or.inl ⟨_, _, _, rfl⟩)
  case freeFailed => exact Or.inl (unwinding.inj hg').1
  case completeErr => exact Or.inl (unwinding.inj hg').1
  all_goals exact absurd hg' (by simp)

end Stage

namespace Standing

variable {t t' : Standing} {o : Op} {r : o.Ret}

/-- Neither store says that the payment is completed. -/
def Unposted (t : Standing) : Prop := t.result = none ∧ ¬ t.recordedCompleted

/-- The stores come to say so by a stored result or a completed record only. -/
theorem Step.unposted (h : t.Step o r t') (ht : t.Unposted)
    (hstore : ∀ key v, o ≠ .storeResult key v)
    (hupsert : ∀ id txn, o ≠ .upsertStatus id ⟨.completed, txn⟩) : t'.Unposted := by
  unfold Step at h
  split at h
  case h_5 => exact absurd rfl (hstore _ _)
  case h_7 id record _ =>
    subst h
    refine ⟨ht.1, fun hrec => ?_⟩
    obtain ⟨status, txn⟩ := record
    obtain rfl : status = .completed := by simpa [recordedCompleted] using hrec
    exact hupsert id txn rfl
  all_goals simp_all [Unposted, recordedCompleted]

/-- The lock is taken by a successful `acquireLock` only. -/
theorem Step.locked_of (h : t.Step o r t') (ht' : t'.locked = true) :
    t.locked = true ∨ ∃ key, (⟨o, r⟩ : Event effects) = ⟨.acquireLock key, .ok true⟩ := by
  unfold Step at h
  split at h
  case h_2 _ key b =>
    cases b with
    | true => exact Or.inr ⟨key, rfl⟩
    | false => exact Or.inl (by simpa using h.1)
  all_goals simp_all

end Standing


/-- What is true of a payment whose money has been returned. -/
structure ReportInv (t : Standing) (g : Option Stage) (log : List (LogEntry ι)) : Prop where
  /-- Neither store says that it is completed. -/
  clean : Returned log → t.Unposted
  /-- No lock was left behind by an earlier attempt. -/
  free : Returned log → (∀ g', g = some g' → g'.holds = false) → t.locked = false
  sound : ∀ g', g = some g' → g'.sound = true → ¬ Returned log
  missed : g = some .missed → t.result = none
  unposted : ∀ g', g = some g' → g'.unposted = true → t.Unposted
  stored : g = some .stored → justStored log = true
  /-- After the cached success nothing is compensated. -/
  nothingToUndo : ∀ todo err, g = some (.unwinding todo err false) → todo = []
  intact : ∀ kept, g ≠ some (.aborted kept)
  safe : ReturnedNeverReported log

namespace ReportInv

variable {t t' : Standing} {g g' : Stage} {log : List (LogEntry ι)} {job : Job}
variable {c : ι} {o : Op} {r : o.Ret}

/-- Money is returned by a call that holds the lock, with nothing posted. -/
theorem of_moneyReturned (h : ReportInv t (some g) log) (hT : Edge job g o r g')
    (hret : moneyReturned (.reply c ⟨o, r⟩ : LogEntry ι) = true) :
    o.isStore = false ∧ g.sound = false ∧ g.unposted = true ∧ g'.sound = false ∧
      g'.holds = true := by
  have key : ∀ {x todo err kept}, g = .unwinding (x :: todo) err kept → kept = true := by
    intro x todo err kept heq
    subst heq
    by_contra hkept
    obtain rfl : kept = false := by simpa using hkept
    exact absurd (h.nothingToUndo _ _ rfl) (by simp)
  cases hT
  case refund => obtain rfl := key rfl; exact ⟨rfl, rfl, rfl, rfl, rfl⟩
  case voidAuthorization => obtain rfl := key rfl; exact ⟨rfl, rfl, rfl, rfl, rfl⟩
  all_goals exact absurd hret (by simp [moneyReturned])

/-- Money that counts as returned after an answer was returned by it, or before it
and not charged again by it. -/
theorem returned_reply (hret : Returned (.reply c ⟨o, r⟩ :: log)) :
    moneyReturned (.reply c ⟨o, r⟩ : LogEntry ι) = true ∨
    (Returned log ∧ ∀ q v, (⟨o, r⟩ : Event effects) = ⟨.gatewayProcess q, .ok v⟩ →
      v.success = false) := by
  rcases pending_cons.mp hret with hA | ⟨hR, hlog⟩
  · exact Or.inl hA
  · refine Or.inr ⟨hlog, fun q v heq => ?_⟩
    simpa [heq, chargeAccepted] using hR

theorem step_clean (h : ReportInv t (some g) log) (hT : Edge job g o r g')
    (ht : t.Step o r t') (hret : Returned (.reply c ⟨o, r⟩ :: log)) : t'.Unposted := by
  rcases returned_reply hret with hA | ⟨hlog, -⟩
  · obtain ⟨ho, -, hg, -⟩ := h.of_moneyReturned hT hA
    obtain rfl := ht.of_not_store ho
    exact h.unposted g rfl hg
  · refine ht.unposted (h.clean hlog) ?_ ?_
    · intro key v heq
      subst heq
      exact h.sound g rfl hT.sound_storeResult hlog
    · intro id txn heq
      subst heq
      exact h.sound g rfl hT.sound_upsertCompleted hlog

theorem step_sound (h : ReportInv t (some g) log) (hT : Edge job g o r g')
    (ht : t.Step o r t') (hg' : g'.sound = true) :
    ¬ Returned (.reply c ⟨o, r⟩ :: log) := by
  intro hret
  rcases returned_reply hret with hA | ⟨hlog, hcharge⟩
  · obtain ⟨-, -, -, hg, -⟩ := h.of_moneyReturned hT hA
    simp [hg'] at hg
  · rcases hT.sound_of hg' with hg | ⟨q, v, heq, hv⟩ | ⟨v, ⟨⟩⟩ | ⟨v, ⟨⟩, hv⟩ | ⟨rfl, ⟨⟩⟩
    · exact h.sound g rfl hg hlog
    · simp [hcharge q v heq] at hv
    · simp [Standing.Step, (h.clean hlog).1] at ht
    · exact (h.clean hlog).2 (by rw [Standing.recordedCompleted, ← ht.1]; exact hv)
    · have hfree := h.free hlog (by rintro _ ⟨⟩; rfl)
      simp [Standing.Step, hfree] at ht

theorem step_free (h : ReportInv t (some g) log) (hT : Edge job g o r g')
    (ht : t.Step o r t') (hret : Returned (.reply c ⟨o, r⟩ :: log))
    (hg' : g'.holds = false) : t'.locked = false := by
  rcases returned_reply hret with hA | ⟨hlog, -⟩
  · obtain ⟨-, -, -, -, hg⟩ := h.of_moneyReturned hT hA
    simp [hg'] at hg
  · cases hg : g.holds with
    | true =>
        rcases hT.gives_up hg hg' with ⟨key, u, ⟨⟩⟩ | hsound
        · obtain rfl := ht
          rfl
        · exact absurd hret (h.step_sound hT ht hsound)
    | false =>
        have hfree := h.free hlog (by rintro _ ⟨⟩; exact hg)
        by_contra hl
        rcases ht.locked_of (by simpa using hl) with hl | ⟨key, ⟨⟩⟩
        · simp [hfree] at hl
        · cases hT with
          | acquire => simp [holds] at hg'

theorem step_unposted (h : ReportInv t (some g) log) (hT : Edge job g o r g')
    (ht : t.Step o r t') (hfail : o.Rejected r = true → o.canFail = true)
    (hg' : g'.unposted = true) : t'.Unposted := by
  rcases hT.unposted_of hg' hfail with ⟨hg, hstore, hupsert⟩ | ⟨rfl, v, ⟨⟩, hv⟩
  · exact ht.unposted (h.unposted g rfl hg) hstore hupsert
  · obtain ⟨hrec, rfl⟩ := ht
    exact ⟨h.missed rfl, by rwa [Standing.recordedCompleted, ← hrec]⟩

theorem reply (h : ReportInv t (some g) log) (hT : Edge job g o r g') (ht : t.Step o r t')
    (hfail : o.Rejected r = true → o.canFail = true)
    (hinject : justStored log = true →
      (⟨o, r⟩ : Event effects) ≠ ⟨.sagaFailStep, some "notify"⟩)
    (hnotify : ∀ id e, (⟨o, r⟩ : Event effects) = ⟨.emit (.notify id), .error e⟩ →
      e.nullish = true) :
    ReportInv t' (some g') (.reply c ⟨o, r⟩ :: log) where
  clean := h.step_clean hT ht
  free hret hg' := h.step_free hT ht hret (hg' g' rfl)
  sound _ hg' hsound := by
    obtain rfl := Option.some.inj hg'
    exact h.step_sound hT ht hsound
  missed hg' := by
    obtain rfl := Option.some.inj hg'
    obtain ⟨⟨⟩⟩ := hT.missed_of
    obtain ⟨hres, rfl⟩ := ht
    exact hres.symm
  unposted _ hg' hun := by
    obtain rfl := Option.some.inj hg'
    exact h.step_unposted hT ht hfail hun
  stored hg' := by
    obtain rfl := Option.some.inj hg'
    obtain ⟨v, ⟨⟩⟩ := hT.stored_of
    rfl
  nothingToUndo todo err hg' := by
    obtain rfl := Option.some.inj hg'
    rcases hT.unwinding_of with hnil | ⟨x, todo', err', rfl⟩ | ⟨rfl, heq⟩ | ⟨id, e, heq, he⟩
    · exact hnil
    · exact absurd (h.nothingToUndo _ _ rfl) (by simp)
    · exact absurd heq (hinject (h.stored rfl))
    · simp [hnotify id e heq] at he
  intact kept hg' := by
    obtain rfl := Option.some.inj hg'
    obtain ⟨hrej, hcan⟩ := hT.aborted_of
    simp [hfail hrej] at hcan
  safe := by
    refine throughout_cons.mpr ⟨fun hrep hret => ?_, h.safe⟩
    have hsound : g.sound = true := by
      unfold completedReported at hrep
      split at hrep
      · next heq =>
        simp only [Entry.reply.injEq] at heq
        obtain ⟨-, ⟨⟩⟩ := heq
        exact hT.sound_reported
      · exact absurd hrep (by simp)
    exact h.sound g rfl hsound hret

/-- An entry about no operation changes nothing. -/
theorem skip {g? : Option Stage} (h : ReportInv t g? log) {e : LogEntry ι}
    (he : quiet e = true) : ReportInv t g? (e :: log) := by
  have hA : moneyReturned e = false ∧ chargeAccepted e = false ∧
      completedReported e = false ∧ justStored (e :: log) = justStored log := by
    rcases quiet_iff.mp he with ⟨c, rfl⟩ | ⟨ms, rfl⟩ <;> exact ⟨rfl, rfl, rfl, rfl⟩
  obtain ⟨hA, hR, hC, hJ⟩ := hA
  have hret : Returned (e :: log) → Returned log := (pending_skip hA hR).mp
  exact
    { clean := fun hr => h.clean (hret hr)
      free := fun hr => h.free (hret hr)
      sound := fun g hg hs hr => h.sound g hg hs (hret hr)
      missed := h.missed
      unposted := h.unposted
      stored := fun hg => hJ ▸ h.stored hg
      nothingToUndo := h.nothingToUndo
      intact := h.intact
      safe := throughout_cons.mpr ⟨fun hrep => by simp [hC] at hrep, h.safe⟩ }

/-- A new attempt begins where the stages before it have left nothing behind. -/
theorem start (h : ReportInv t none log) : ReportInv t (some .entering) log where
  clean := h.clean
  free hret _ := h.free hret (by simp)
  sound _ hg hs := by
    obtain rfl := Option.some.inj hg
    exact absurd hs (by simp [Stage.sound])
  missed hg := absurd hg (by simp)
  unposted _ hg hu := by
    obtain rfl := Option.some.inj hg
    exact absurd hu (by simp [Stage.unposted])
  stored hg := absurd hg (by simp)
  nothingToUndo _ _ hg := absurd hg (by simp)
  intact _ hg := absurd hg (by simp)
  safe := h.safe

/-- An attempt that has ended holds no lock. -/
theorem finish {res : Except Thrown Unit} (h : ReportInv t (some g) log)
    (hend : Ends job g res) : ReportInv t none log where
  clean := h.clean
  free hret _ := by
    refine h.free hret ?_
    intro _ heq
    cases heq
    cases g with
    | announced permanent kept =>
        cases res <;> simp_all [Ends, holds]
    | aborted kept => exact absurd rfl (h.intact kept)
    | _ => cases res <;> first | rfl | exact hend.elim
  sound := by simp
  missed := by simp
  unposted := by simp
  stored := by simp
  nothingToUndo := by simp
  intact := by simp
  safe := h.safe

end ReportInv

section

variable [DecidableEq ι] {jobs : ι → Job} {p : Payment} {w : World}

theorem reportInv_preserved :
    PreservedOneByOne (notifyHolding (ι := ι)) jobs p ReportInv where
  begin h := h.start.skip rfl
  ended h hend := h.finish hend
  tick h := h.skip rfl
  expire _ hG := absurd hG.1.2.2.1 id
  crash _ hG := absurd hG.1.2.1 id
  reply {s c a o r w' g g'} h hG hc hw hT ht := by
    have hdet : ∀ v, (⟨o, r⟩ : Event effects) = ⟨.sagaFailStep, v⟩ → a = .env v := by
      intro v heq
      cases heq
      cases a <;> simp_all [World.perform]
    have hrej : ∀ id e, (⟨o, r⟩ : Event effects) = ⟨.emit (.notify id), .error e⟩ →
        a = .reject e := by
      intro id e heq
      cases heq
      cases a <;> simp_all [World.perform]
    refine h.reply hT ht (fun hr => ?_) (fun hj heq => ?_) (fun id e heq => ?_)
    · simpa [hc] using hG.1.2.2.2 (World.rejected_eq hw ▸ hr)
    · obtain rfl := hdet _ heq
      cases heq
      exact hG.2 hc hj rfl
    · obtain rfl := hrej _ _ heq
      cases heq
      exact hG.2 (by simp [hc])
  lost _ hG := absurd hG.1.2.1 id

/-- **What was returned is not reported completed.** In every run of attempts one by one
in which only the work of a saga step fails: as long as nothing thrown after the cached
success starts the compensations, COMPLETED is emitted only if, since money was last
returned, a charge has succeeded. -/
theorem returned_never_reported (hjobs : ∀ c, (jobs c).data = p) {s : State ι}
    (h : Run notifyHolding (processes jobs w) s) : ReturnedNeverReported s.log := by
  have h₀ : ReportInv (ι := ι) (w.standing p) none [] := by
    constructor <;> simp [ReturnedNeverReported]
  obtain ⟨g, hI⟩ := run_sequential hjobs (fun hG => hG.1.1)
    (fun hG => hG.1.2.2.1.between) reportInv_preserved h₀ h
  exact hI.safe

/-- An attempt is compensated after its charge; the next one completes. -/
theorem returned_never_reported_after_retry :
    ∃ s, Run notifyHolding (processes (fun c : Fin 2 => cardJob c) startedUp) s ∧
      (s.log.any moneyReturned && s.log.any completedReported) = true ∧
      ReturnedNeverReported s.log := by
  have hrun : ∃ s, Run notifyHolding
      (processes (fun c : Fin 2 => cardJob c) startedUp) s ∧
      (s.log.any moneyReturned && s.log.any completedReported) = true :=
    Run.exists_of_exec (approach 0 ++ takeAndCharge 0 ++
      .answer 0 (.env (some "capture")) :: List.replicate 4 (.answer 0 .resolve) ++
      approach 1 ++ takeAndCharge 1 ++ captureAndPost 1 ++
      [.answer 1 (.env none), .answer 1 .resolve, .answer 1 .resolve]) (by decide +kernel)
  obtain ⟨s, h, hboth⟩ := hrun
  exact ⟨s, h, hboth, returned_never_reported (by intro c; rfl) h⟩

/-- The notification fails after the success was cached: the saga returns the money, and
the next attempt reports the cached success. -/
theorem returned_reported_reachable :
    ∃ s, Run StepwiseFailures (processes (fun c : Fin 2 => cardJob c) startedUp) s ∧
      ¬ ReturnedNeverReported s.log :=
  Run.exists_of_exec (approach 0 ++ takeAndCharge 0 ++ captureAndPost 0 ++
    .answer 0 (.env (some "notify")) :: List.replicate 6 (.answer 0 .resolve) ++
    approach 1) (by decide +kernel)

end

end PaymentQueue
