import PaymentQueue.Holding

/-!
# PaymentQueue.UnderWay

When is a saga of the payment under way?

From the log, a call's saga is under way from its successful `acquireLock` until, after its
last step, it has reported the completion or, after its last compensation, the `catch` of
`process` is entered (`UnderWay`). From the stages, it is so exactly while the call is at
one of `Stage.working`.
-/

namespace PaymentQueue

open Async

variable {ι : Type} [DecidableEq ι]

/-- The saga of call `c` is under way: from its successful `acquireLock` to its last saga
step or compensation, and on to what follows at once. -/
abbrev UnderWay (c : ι) (log : List (LogEntry ι)) : Prop :=
  Pending (answered c isLockAcquired) (answered c endsSaga) log

namespace Stage

/-- The stages of a saga under way. -/
def working : Stage → Bool
  | .locked | .authorized | .captured | .posting | .written | .stored | .notifying
  | .notified | .unwinding _ _ _ => true
  | _ => false

/-- Before the lock is acquired, or without ever acquiring it. -/
def lockless : Stage → Bool
  | .entering | .lookedUp _ | .gated | .admitted | .allowed | .checking | .missed | .clear
  | .backfilling | .contending | .asking | .settled => true
  | _ => false

variable {job : Job} {g g' : Stage} {o : Op} {r : o.Ret}

/-- A saga gets under way with the lock, and stays so until its end. -/
theorem Edge.working_eq (h : Edge job g o r g') :
    g'.working = (isLockAcquired ⟨o, r⟩ || (!endsSaga ⟨o, r⟩ && g.working)) := by
  cases h
  all_goals simp [working, isLockAcquired, endsSaga]

theorem holds_or_late_of_working (h : g.working = true) : (g.holds || g.late) = true := by
  cases g with
  | unwinding todo err kept => cases kept <;> simp [holds, late]
  | _ => simp_all [working, holds, late]

end Stage

section

variable {σ : ι → Stage} {c : ι} {g : Stage} {ev : ProcEvent} {log : List (LogEntry ι)}

/-- The log and the stages agree on the calls for which an `A` has not been followed by an
`R`: they are at the stages in `P`. -/
def Tracks (A R : ProcEvent → Bool) (P : Stage → Bool) (σ : ι → Stage)
    (log : List (LogEntry ι)) : Prop :=
  ∀ c, Pending (answered c A) (answered c R) log ↔ P (σ c) = true

variable {A R : ProcEvent → Bool} {P : Stage → Bool}

theorem Tracks.reply (h : Tracks A R P σ log) (hP : P g = (A ev || (!R ev && P (σ c)))) :
    Tracks A R P (Function.update σ c g) (.reply c ev :: log) := by
  intro d
  by_cases hd : d = c
  · subst hd
    simp [pending_cons, hP, h d]
  · rw [pending_skip (answered_reply_of_ne hd) (answered_reply_of_ne hd)]
    simpa [hd] using h d

theorem Tracks.quiet (h : Tracks A R P σ log) {e : LogEntry ι} (he : quiet e = true) :
    Tracks A R P σ (e :: log) := by
  intro d
  rcases quiet_iff.mp he with ⟨c, rfl⟩ | ⟨ms, rfl⟩
  all_goals
    rw [pending_skip rfl rfl]
    exact h d

/-- The log and the stages agree on which sagas are under way. -/
abbrev Agrees (σ : ι → Stage) (log : List (LogEntry ι)) : Prop :=
  Tracks isLockAcquired endsSaga Stage.working σ log

end

end PaymentQueue
