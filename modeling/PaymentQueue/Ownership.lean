import PaymentQueue.UnderWay

/-!
# PaymentQueue.Ownership

Whose lock does a call delete?

The lock carries no owner token, and there are three places that delete it. A call that
never held the lock deletes it with the result it stores (from the reconciliation, or
when it writes a completed record back to Redis), under the saga of its owner
(`lock_stolen_reachable`). And a call whose own ledger step has already deleted the lock
is still to notify, and deletes the lock once more if that fails; whoever acquires the
lock in the meantime runs a second saga beside it. These two are the only ways
(`lock_ownership`).
-/

namespace PaymentQueue

open Async Stage

variable {ι : Type} [DecidableEq ι]

/-! ### The owner of the lock -/

/-- The event deletes the lock. -/
def deletesLock (ev : ProcEvent) : Bool := isReleased ev || isStored ev

/-- Whose `acquireLock` set the lock, if it is set. -/
def lockOwner : List (LogEntry ι) → Option ι
  | [] => none
  | .reply c ev :: log =>
      if isLockAcquired ev then some c else if deletesLock ev then none else lockOwner log
  | _ :: log => lockOwner log

/-- Whenever a call deletes the lock, the lock is absent or was set by that call's own
`acquireLock`. -/
def OwnDeletes (log : List (LogEntry ι)) : Prop :=
  Throughout (fun e before => ∀ c, answered c deletesLock e = true →
    lockOwner before = none ∨ lockOwner before = some c) log

instance [Fintype ι] : DecidablePred (OwnDeletes (ι := ι)) :=
  fun _ => inferInstanceAs (Decidable (Throughout _ _))

/-! ### When the lock is respected -/

/-- The call reports the completion, or releases the lock. -/
def closesLock : ProcEvent → Bool
  | ⟨.emit (.statusChanged _ .completed _ _), .ok _⟩ | ⟨.releaseLock _, .ok _⟩ => true
  | _ => false

/-- The call has given up its lock with its stored result, but its saga is not over, or
the `catch` is still to delete the lock again. -/
def overdue (s : State ι) (c : ι) : Bool :=
  let evs := eventsOf c s.log
  (s.thread c).inFlight && evs.any isLockAcquired && evs.any isStored && !evs.any closesLock

/-- A call that has not acquired the lock stores a result only while there is no lock, and
the lock is acquired only while no other call is overdue. -/
def LockRespected (key : String) (s : State ι) : Action system ι → Prop
  | .answer c a =>
      ((s.received c a).any isStored = true →
        (eventsOf c s.log).any isLockAcquired = true ∨
          IdempotencyService.hasLock s.world.redis key = false) ∧
      ((s.received c a).any isLockAcquired = true → ∀ d, overdue s d = false)
  | _ => True

instance [Fintype ι] (key : String) (s : State ι) : DecidablePred (LockRespected key s)
  | .answer _ _ => inferInstanceAs (Decidable (_ ∧ _))
  | .begin _ | .crash _ _ | .move _ => .isTrue trivial

/-- No crash, and no expiry. -/
abbrev Steady (s : State ι) (a : Action system ι) : Prop := NoCrash s a ∧ NoExpiry s a

/-- Steady runs that respect the lock of a key. -/
abbrev respectfulRuns (key : String) : Guard system ι Thrown Unit :=
  fun s a => Steady s a ∧ LockRespected key s a

/-! ### What a step does to the lock -/

namespace Stage

/-- The call holds the lock, or may delete it once more. -/
def involved (g : Stage) : Bool := g.holds || g.late

variable {job : Job} {g g' : Stage} {o : Op} {r : o.Ret}

/-- A step acquires the lock, deletes it for a call involved with it, stores the result of
a call that has never had it, or does not concern it. -/
theorem Edge.lock_cases (h : Edge job g o r g') :
    (isLockAcquired ⟨o, r⟩ = true ∧ deletesLock ⟨o, r⟩ = false ∧ g' = .locked) ∨
    (isLockAcquired ⟨o, r⟩ = false ∧ deletesLock ⟨o, r⟩ = true ∧ g.involved = true ∧
      g'.holds = false) ∨
    (isLockAcquired ⟨o, r⟩ = false ∧ deletesLock ⟨o, r⟩ = true ∧ isStored ⟨o, r⟩ = true ∧
      g.lockless = true ∧ g'.involved = false) ∨
    (isLockAcquired ⟨o, r⟩ = false ∧ deletesLock ⟨o, r⟩ = false ∧ g'.holds = g.holds ∧
      (g'.late = true → g.late = true)) := by
  cases h
  case unlock herr kept => cases kept <;> simp [isLockAcquired, deletesLock, isReleased,
    isStored, involved, holds, late]
  case unlockPermanent kept => cases kept <;> simp [isLockAcquired, deletesLock, isReleased,
    isStored, involved, holds, late]
  all_goals simp [isLockAcquired, deletesLock, isReleased, isStored, involved, holds, late,
    lockless]

/-- What a call involved with the lock has gone through, and what a call without it has
not. -/
structure LockHistory (g : Stage) (evs : List ProcEvent) : Prop where
  lockless : g.lockless = true →
    evs.any isLockAcquired = false ∧ evs.any closesLock = false
  involved : g.involved = true →
    evs.any isLockAcquired = true ∧ evs.any closesLock = false
  late : g.late = true → evs.any isStored = true

theorem Edge.lockless_of (h : Edge job g o r g') (hg' : g'.lockless = true) :
    g.lockless = true ∧ isLockAcquired ⟨o, r⟩ = false ∧ closesLock ⟨o, r⟩ = false := by
  cases h
  all_goals simp_all [lockless, isLockAcquired, closesLock]

theorem Edge.involved_of (h : Edge job g o r g') (hg' : g'.involved = true) :
    closesLock ⟨o, r⟩ = false ∧
      (g.involved = true ∨ (g = .clear ∧ isLockAcquired ⟨o, r⟩ = true)) := by
  cases h
  all_goals simp_all [involved, holds, late, isLockAcquired, closesLock]

theorem LockHistory.step {evs : List ProcEvent} (h : g.LockHistory evs)
    (hT : Edge job g o r g') : g'.LockHistory (evs ++ [⟨o, r⟩]) := by
  refine ⟨fun hg' => ?_, fun hg' => ?_, fun hg' => ?_⟩
  · obtain ⟨hg, hacq, hclose⟩ := hT.lockless_of hg'
    simp [h.lockless hg, hacq, hclose]
  · obtain ⟨hclose, hg | ⟨rfl, hacq⟩⟩ := hT.involved_of hg'
    · simp [h.involved hg, hclose]
    · simp [h.lockless rfl, hacq, hclose]
  · rcases hT.late_of hg' with hg | ⟨v, heq⟩
    · simp [h.late hg]
    · simp [heq, isStored]

/-- A call involved with the lock is not over, unless it is about to leave the lock to its
expiry. -/
theorem Ends.not_late {r : Except Thrown Unit} (h : Ends job g r) : g.late = false := by
  cases g with
  | done | dropped | refused | turnedAway | aborted _ | unlocked _ => rfl
  | announced permanent kept =>
      cases r with
      | ok _ =>
          obtain rfl : permanent = false := h
          rfl
      | error e => exact h.elim
  | _ => exact h.elim

end Stage

/-- What an operation does to the lock of its payment. -/
theorem Standing.Step.locked_eq {t t' : Standing} {o : Op} {r : o.Ret} (h : t.Step o r t') :
    t'.locked = (isLockAcquired ⟨o, r⟩ || (!deletesLock ⟨o, r⟩ && t.locked)) ∧
      (isLockAcquired ⟨o, r⟩ = true → t.locked = false) := by
  cases o with
  | acquireLock key =>
      rcases r with e | _ | _
      all_goals simp_all [Step, isLockAcquired, deletesLock, isReleased, isStored]
  | releaseLock key | storeResult key v | upsertStatus id record | getResult key | hasLock key
  | getStatus id =>
      cases r
      all_goals simp_all [Step, isLockAcquired, deletesLock, isReleased, isStored]
  | _ =>
      obtain rfl := h.of_not_store rfl
      simp [isLockAcquired, deletesLock, isReleased, isStored]

/-! ### The lock is its owner's -/

/-- What makes the lock its owner's. -/
structure LockInv (key : String) (s : State ι) (σ : ι → Stage) : Prop where
  locked : IdempotencyService.hasLock s.world.redis key = (lockOwner s.log).isSome
  owner : ∀ c, lockOwner s.log = some c ↔ (σ c).holds = true
  exclusive : AtMostOne Stage.involved σ
  history : ∀ c, (σ c).LockHistory (eventsOf c s.log)
  underWay : Agrees σ s.log
  safe : OwnDeletes s.log

namespace LockInv

variable {key : String} {s : State ι} {σ : ι → Stage} {jobs : ι → Job}

/-- A late call in flight is overdue. -/
theorem overdue (h : LockInv key s σ) (hat : AtStages jobs s σ)
    (halive : ∀ c, s.thread c ≠ .crashed) {c : ι} (hc : (σ c).late = true) :
    overdue s c = true := by
  have hflight : (s.thread c).inFlight = true := by
    refine inFlight_of_stage hat (halive c) (fun hent => ?_) fun r hr => ?_
    · simp [hent, late] at hc
    · simp [hr.not_late] at hc
  have hinv : (σ c).involved = true := by simp [involved, hc]
  obtain ⟨hacq, hclose⟩ := (h.history c).involved hinv
  simp [PaymentQueue.overdue, hflight, hacq, hclose, (h.history c).late hc]

/-- Nobody is involved with a lock that is acquired. -/
theorem of_acquire (h : LockInv key s σ) (hat : AtStages jobs s σ)
    (halive : ∀ c, s.thread c ≠ .crashed) (hfree : lockOwner s.log = none)
    (hdue : ∀ d, PaymentQueue.overdue s d = false) (d : ι) : (σ d).involved = false := by
  have hholds : (σ d).holds = false := by
    have := (h.owner d).not.mp (by simp [hfree])
    simpa using this
  have hlate : (σ d).late = false := by
    by_contra hd
    have := h.overdue hat halive (by simpa using hd)
    simp [hdue d] at this
  simp [involved, hholds, hlate]

/-- A call that is involved with the lock deletes its own lock, or none. -/
theorem owner_of_involved (h : LockInv key s σ) {c : ι} (hc : (σ c).involved = true) :
    lockOwner s.log = none ∨ lockOwner s.log = some c := by
  cases hown : lockOwner s.log with
  | none => exact Or.inl rfl
  | some d =>
      have hd : (σ d).involved = true := by simp [involved, (h.owner d).mp hown]
      obtain rfl := h.exclusive d c hd hc
      exact Or.inr rfl

section

variable {c : ι} {o : Op} {r : o.Ret} {g : Stage}

/-- A call that has never had the lock stores its result when there is none. -/
theorem free_of_foreign (h : LockInv key s σ)
    (hstore : isStored ⟨o, r⟩ = true → (eventsOf c s.log).any isLockAcquired = true ∨
      IdempotencyService.hasLock s.world.redis key = false)
    (hst : isStored ⟨o, r⟩ = true) (hlockless : (σ c).lockless = true) :
    lockOwner s.log = none := by
  rcases hstore hst with hacq | hfree
  · simp [((h.history c).lockless hlockless).1] at hacq
  · rw [h.locked] at hfree
    simpa using hfree

theorem step_owner (h : LockInv key s σ) (hT : Edge (jobs c) (σ c) o r g)
    (hnobody : isLockAcquired ⟨o, r⟩ = true → ∀ d, (σ d).involved = false)
    (hforeign : isStored ⟨o, r⟩ = true → (σ c).lockless = true → lockOwner s.log = none) :
    ∀ d, lockOwner (.reply c ⟨o, r⟩ :: s.log) = some d ↔
      (Function.update σ c g d).holds = true := by
  have howner : lockOwner (.reply c ⟨o, r⟩ :: s.log) = if isLockAcquired ⟨o, r⟩ then some c
      else if deletesLock ⟨o, r⟩ then none else lockOwner s.log := rfl
  rw [howner]
  rcases hT.lock_cases with ⟨hacq, -, rfl⟩ | ⟨hacq, hdel, hinv, hg⟩ |
    ⟨hacq, hdel, hst, hlockless, hg⟩ | ⟨hacq, hdel, hg, -⟩
  · simp only [hacq, ↓reduceIte]
    refine forall_update (P := fun d (g : Stage) => some c = some d ↔ g.holds = true)
      (by simp [holds]) fun d hd => ?_
    have hd' := hnobody hacq d
    simp only [involved, Bool.or_eq_false_iff] at hd'
    simp [hd'.1, Ne.symm hd]
  · simp only [hacq, hdel, Bool.false_eq_true, ↓reduceIte]
    refine forall_update (P := fun d (g : Stage) => none = some d ↔ g.holds = true)
      (by simp [hg]) fun d hd => ?_
    have hd' : (σ d).holds = false := by
      by_contra hholds
      exact hd (h.exclusive d c (by simp_all [involved]) hinv)
    simp [hd']
  · simp only [hacq, hdel, Bool.false_eq_true, ↓reduceIte]
    simp only [involved, Bool.or_eq_false_iff] at hg
    refine forall_update (P := fun d (g : Stage) => none = some d ↔ g.holds = true)
      (by simp [hg.1]) fun d _ => ?_
    have := h.owner d
    simpa [hforeign hst hlockless] using this
  · simp only [hacq, hdel, Bool.false_eq_true, ↓reduceIte]
    exact forall_update
      (P := fun d (g : Stage) => lockOwner s.log = some d ↔ g.holds = true)
      (by rw [hg]; exact h.owner c) fun d _ => h.owner d

theorem step_exclusive (h : LockInv key s σ) (hT : Edge (jobs c) (σ c) o r g)
    (hnobody : isLockAcquired ⟨o, r⟩ = true → ∀ d, (σ d).involved = false) :
    AtMostOne Stage.involved (Function.update σ c g) := by
  refine h.exclusive.update fun hg => ?_
  rcases hT.lock_cases with ⟨hacq, -, -⟩ | ⟨-, -, hinv, -⟩ | ⟨-, -, -, -, hg'⟩ |
    ⟨-, -, hg', hlate⟩
  · exact Or.inr (hnobody hacq)
  · exact Or.inl hinv
  · simp [hg'] at hg
  · left
    simp only [involved, Bool.or_eq_true, hg'] at hg ⊢
    exact hg.imp id hlate

theorem step_safe (h : LockInv key s σ) (hT : Edge (jobs c) (σ c) o r g)
    (hforeign : isStored ⟨o, r⟩ = true → (σ c).lockless = true → lockOwner s.log = none) :
    OwnDeletes (.reply c ⟨o, r⟩ :: s.log) := by
  refine throughout_cons.mpr ⟨fun d hd => ?_, h.safe⟩
  obtain ⟨rfl, hdel⟩ := of_answered_reply hd
  rcases hT.lock_cases with ⟨-, hdel', -⟩ | ⟨-, -, hinv, -⟩ | ⟨-, -, hst, hlockless, -⟩ |
    ⟨-, hdel', -⟩
  · simp [hdel] at hdel'
  · exact h.owner_of_involved hinv
  · exact Or.inl (hforeign hst hlockless)
  · simp [hdel] at hdel'

theorem reply (h : LockInv key s σ) (hat : AtStages jobs s σ)
    (halive : ∀ c, s.thread c ≠ .crashed) {a : Answer} {w : World}
    {thread : ι → Thread effects Thrown Unit} (hkey : (jobs c).data.idempotencyKey = key)
    (hc : (s.thread c).awaiting = some o) (hw : s.world.perform o a = some (r, w))
    (hT : Edge (jobs c) (σ c) o r g) (hG : LockRespected key s (.answer c a)) :
    LockInv key ⟨thread, w, .reply c ⟨o, r⟩ :: s.log⟩ (Function.update σ c g) := by
  have hstep := (World.standing_perform hT.concerns hw).locked_eq
  simp only [World.standing, hkey] at hstep
  obtain ⟨hlocked', hfree⟩ := hstep
  simp only [LockRespected, received_eq hc hw, Option.any_some] at hG
  obtain ⟨hstore, halone⟩ := hG
  have hnobody : isLockAcquired ⟨o, r⟩ = true → ∀ d, (σ d).involved = false := by
    intro hacq
    have hnone : lockOwner s.log = none := by
      have := hfree hacq
      rw [h.locked] at this
      simpa using this
    exact h.of_acquire hat halive hnone (halone hacq)
  have hforeign := h.free_of_foreign (c := c) hstore
  constructor
  case locked =>
    rw [hlocked', h.locked]
    simp only [lockOwner]
    cases isLockAcquired ⟨o, r⟩ <;> cases deletesLock ⟨o, r⟩ <;> simp
  case owner => exact h.step_owner hT hnobody hforeign
  case exclusive => exact h.step_exclusive hT hnobody
  case history =>
    exact forall_update_events (P := fun _ (g : Stage) evs => g.LockHistory evs)
      ((h.history c).step hT) fun d _ => h.history d
  case underWay => exact h.underWay.reply hT.working_eq
  case safe => exact h.step_safe hT hforeign

end

theorem quiet (h : LockInv key s σ) {e : LogEntry ι} (he : quiet e = true)
    {thread : ι → Thread effects Thrown Unit} {w : World} (hw : w.redis = s.world.redis) :
    LockInv key ⟨thread, w, e :: s.log⟩ σ := by
  have hside : lockOwner (e :: s.log) = lockOwner s.log ∧
      (∀ c f, answered c f e = false) ∧ ∀ c, eventsOf c (e :: s.log) = eventsOf c s.log := by
    rcases quiet_iff.mp he with ⟨c, rfl⟩ | ⟨ms, rfl⟩
    · exact ⟨rfl, fun _ _ => rfl, by simp⟩
    · exact ⟨rfl, fun _ _ => rfl, by simp⟩
  obtain ⟨howner, hanswered, hevents⟩ := hside
  constructor
  case locked => simpa only [hw, howner] using h.locked
  case owner => simpa only [howner] using h.owner
  case exclusive => exact h.exclusive
  case history => simpa only [hevents] using h.history
  case underWay => exact h.underWay.quiet he
  case safe => exact throughout_cons.mpr ⟨fun c hc => by simp [hanswered] at hc, h.safe⟩

end LockInv

/-- **The lock is its owner's.** In every steady run of any number of overlapping calls with
one idempotency key, in which nobody stores a result under another call's lock or acquires
the lock while another call is overdue: a call deletes no lock but its own, and at most one
saga is under way. -/
theorem lock_ownership {jobs : ι → Job} {key : String} {w : World}
    (hkey : ∀ c, (jobs c).data.idempotencyKey = key)
    (hfree : IdempotencyService.hasLock w.redis key = false) {s : State ι}
    (h : Run (respectfulRuns key) (processes jobs w) s) :
    OwnDeletes s.log ∧ ∀ c d, UnderWay c s.log → UnderWay d s.log → c = d := by
  have h₀ : LockInv key (processes jobs w) (fun _ => .entering) := by
    refine ⟨hfree, ?_, ?_, ?_, ?_, throughout_nil⟩
    · simp [processes, Config.start, lockOwner, holds]
    · simp [AtMostOne, involved, holds, late]
    · exact fun c => ⟨fun _ => ⟨rfl, rfl⟩, by simp [involved, holds, late], by simp [late]⟩
    · simp [Tracks, processes, Config.start, working]
  have hstep : ∀ {s : State ι} {σ a} {s' : State ι} {σ'},
      Run (respectfulRuns key) (processes jobs w) s → AtStages jobs s σ → LockInv key s σ →
      respectfulRuns key s a → TStep (fun c => Edge (jobs c)) s σ a s' σ' →
      LockInv key s' σ' := by
    intro s σ a s' σ' hrun hat hI hG hT
    cases hT with
    | begin => exact hI.quiet rfl rfl
    | answer hc hw hT =>
        exact hI.reply hat (alive_of_run (fun hG => hG.1.1) hrun) (hkey _) (by rw [hc]; rfl) hw
          hT hG.2
    | crash | lost => exact hG.1.1.elim
    | @move m w hw =>
        cases m with
        | tick ms =>
            obtain rfl := Option.some.inj hw
            exact hI.quiet rfl rfl
        | expire key => exact hG.1.2.elim
  obtain ⟨σ, -, hI⟩ := Run.staged (fun c => process_follows (jobs c)) h₀
    (fun hrun hat hI hG hT _ => hstep hrun hat hI hG hT) h
  refine ⟨hI.safe, fun c d hc hd => hI.exclusive c d ?_ ?_⟩
  · exact holds_or_late_of_working ((hI.underWay c).mp hc)
  · exact holds_or_late_of_working ((hI.underWay d).mp hd)

/-- Two overlapping calls, the second of which reconciles after the first has succeeded. -/
theorem lock_ownership_reconciled :
    ∃ s, Run (respectfulRuns cardPayment.idempotencyKey)
        (processes (fun _ : Fin 2 => cardJob 0) startedUp) s ∧
      (∀ c, s.log.any (answered c deletesLock) = true) ∧
      OwnDeletes s.log ∧ ∀ c d, UnderWay c s.log → UnderWay d s.log → c = d := by
  have hrun : ∃ s, Run (respectfulRuns cardPayment.idempotencyKey)
      (processes (fun _ : Fin 2 => cardJob 0) startedUp) s ∧
      (∀ c, s.log.any (answered c deletesLock) = true) :=
    Run.exists_of_exec (approach 0 ++ takeAndCharge 0 ++ approach 1 ++
      [.answer 1 .resolve, .answer 1 .resolve, .answer 1 (.status ⟨"txn_1", .settled⟩)] ++
      captureAndPost 0 ++ [.answer 1 .resolve]) (by decide +kernel)
  obtain ⟨s, h, hdel⟩ := hrun
  exact ⟨s, h, hdel, lock_ownership (by intro c; rfl) rfl h⟩

/-- Two overlapping calls: while the first runs its saga, the second is told that the charge
is settled and deletes the first one's lock with the result it stores. -/
theorem lock_stolen_reachable :
    ∃ s, Run Steady (processes (fun _ : Fin 2 => cardJob 0) startedUp) s ∧
      ¬ OwnDeletes s.log :=
  Run.exists_of_exec (approach 0 ++ takeAndCharge 0 ++ approach 1 ++
    [.answer 1 .resolve, .answer 1 .resolve, .answer 1 (.status ⟨"txn_1", .settled⟩),
      .answer 1 .resolve]) (by decide +kernel)

end PaymentQueue
