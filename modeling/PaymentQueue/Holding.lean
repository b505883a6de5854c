import PaymentQueue.Environment

/-!
# PaymentQueue.Holding

Which stages hold the idempotency lock, and what can take the lock away.

The lock has no owner token. A call counts as holding it from its own successful
`acquireLock` until it stores a result or releases the lock (`Stage.holds`); from then
on it may still delete the lock a second time (`Stage.late`). There is one holder at a
time as long as the lock is not acquired over a cached result (`SoleHolder`).
-/

namespace PaymentQueue

open Async

namespace Stage

/-- The call has acquired the lock and has not yet given it up. -/
def holds : Stage → Bool
  | .locked | .authorized | .captured | .posting | .written => true
  | .unwinding _ _ kept | .failed _ kept | .aborted kept => kept
  | .burying permanent kept | .buried permanent kept | .announced permanent kept =>
      permanent && kept
  | _ => false

/-- The call has given up the lock with its stored result, and may delete it again. -/
def late : Stage → Bool
  | .stored | .notifying | .notified => true
  | .unwinding _ _ kept | .failed _ kept => !kept
  | .burying permanent kept | .buried permanent kept | .announced permanent kept =>
      permanent && !kept
  | _ => false

variable {job : Job} {g g' : Stage} {o : Op} {r : o.Ret}

/-- A call comes to hold the lock by a successful `acquireLock`, and in no other way. -/
theorem Edge.holds_of (h : Edge job g o r g') (hg' : g'.holds = true) :
    g.holds = true ∨ (g = .clear ∧ g' = .locked ∧
      (⟨o, r⟩ : Event effects) = ⟨.acquireLock job.data.idempotencyKey, .ok true⟩) := by
  cases h
  case acquire => exact Or.inr ⟨rfl, rfl, rfl⟩
  all_goals simp_all [holds]

/-- A call becomes late by storing its result, and in no other way. -/
theorem Edge.late_of (h : Edge job g o r g') (hg' : g'.late = true) :
    g.late = true ∨ ∃ v,
      (⟨o, r⟩ : Event effects) = ⟨.storeResult job.data.idempotencyKey v, .ok ()⟩ := by
  cases h
  case store v => exact Or.inr ⟨v, rfl⟩
  all_goals simp_all [late]

/-- A call gets to the lock by acquiring it, and waits there for a slot. -/
theorem Edge.locked_of (h : Edge job g o r .locked) :
    (g = .locked ∧ ((∃ id, o = .semaphoreAcquire id) ∨ ∃ id n, o = .semaphoreGranted id n)) ∨
      (g = .clear ∧
        (⟨o, r⟩ : Event effects) = ⟨.acquireLock job.data.idempotencyKey, .ok true⟩) := by
  generalize hg' : Stage.locked = g' at h
  cases h
  case slot => exact Or.inl ⟨rfl, Or.inl ⟨_, rfl⟩⟩
  case granted => exact Or.inl ⟨rfl, Or.inr ⟨_, _, rfl⟩⟩
  case acquire => exact Or.inr ⟨rfl, rfl⟩
  all_goals simp_all

/-- The gateway is asked to charge under the lock. -/
theorem Edge.of_gatewayProcess {q : Payment} {r : Except Thrown GatewayResponse}
    (h : Edge job g (.gatewayProcess q) r g') : g = .locked := by
  cases h <;> rfl

/-- Only a call that holds the lock or is late releases it, and then it is neither. -/
theorem Edge.of_releaseLock {key : String} {u : Unit}
    (h : Edge job g (.releaseLock key) (.ok u) g') :
    (g.holds = true ∨ g.late = true) ∧ g'.holds = false ∧ g'.late = false := by
  cases h with
  | unlock herr kept => cases kept <;> simp [holds, late]
  | unlockPermanent kept => cases kept <;> simp [holds, late]

end Stage

namespace Standing

variable {t t' : Standing} {o : Op} {r : o.Ret}

/-- A cached result stays, as long as nothing expires. -/
theorem Step.result_kept (h : t.Step o r t') (ht : t'.result = none) :
    t.result = none := by
  unfold Step at h
  split at h <;> simp_all

/-- The lock goes when it is released or when a result is stored. -/
theorem Step.unlocked (h : t.Step o r t') (ht : t.locked = true)
    (ht' : t'.locked = false) :
    (∃ key u, (⟨o, r⟩ : Event effects) = ⟨.releaseLock key, .ok u⟩) ∨
      t'.result.isSome = true := by
  unfold Step at h
  split at h
  case h_3 => exact Or.inl ⟨_, _, rfl⟩
  all_goals simp_all

/-- What is neither on Redis nor on the repository leaves the standing alone. -/
theorem Step.of_not_store (h : t.Step o r t') (ho : o.isStore = false) : t' = t := by
  unfold Step at h
  split at h <;> first | exact h | exact absurd ho (by simp [Op.isStore])

/-- A successful `acquireLock` takes a free lock. -/
theorem Step.of_acquireLock {key : String}
    (h : t.Step (.acquireLock key) (.ok true) t') :
    t.locked = false ∧ t'.locked = true := by
  obtain ⟨hb, rfl⟩ := h
  exact ⟨by simpa using hb, rfl⟩

/-- Storing a result caches it. -/
theorem Step.of_storeResult {key : String} {v : GatewayResponse} {u : Unit}
    (h : t.Step (.storeResult key v) (.ok u) t') : t'.result = some v := by
  obtain rfl := h
  rfl

end Standing

/-! ### One holder -/

variable {ι : Type}

/-- What keeps a second call from the lock, as long as nobody acquires it while a result
is cached. -/
structure SoleHolder (t : Standing) (σ : ι → Stage) : Prop where
  exclusive : AtMostOne Stage.holds σ
  /-- Without a cached result, the holder's lock is in place. -/
  inPlace : t.result = none → ∀ c, (σ c).holds = true → t.locked = true
  /-- A late call has left a cached result. -/
  cached : ∀ c, (σ c).late = true → t.result ≠ none

namespace SoleHolder

variable {t t' : Standing} {σ : ι → Stage} {job : Job} {c : ι} {o : Op} {r : o.Ret}
variable {g : Stage}

theorem start : SoleHolder t (fun _ : ι => .entering) :=
  ⟨by simp [AtMostOne, Stage.holds], by simp [Stage.holds], by simp [Stage.late]⟩

/-- Whoever acquires the lock finds no holder. -/
theorem of_acquire (h : SoleHolder t σ) (hlock : t.locked = false)
    (hres : t.result = none) (d : ι) : (σ d).holds = false := by
  by_contra hd
  have := h.inPlace hres d (by simpa using hd)
  simp [hlock] at this

theorem step [DecidableEq ι] (h : SoleHolder t σ) (hT : Stage.Edge job (σ c) o r g)
    (ht : t.Step o r t')
    (hfresh : (⟨o, r⟩ : Event effects) = ⟨.acquireLock job.data.idempotencyKey, .ok true⟩ →
      t.result = none) :
    SoleHolder t' (Function.update σ c g) := by
  -- a new holder finds no other, and its lock is in place
  have hholds : g.holds = true →
      (σ c).holds = true ∨ (∀ d, (σ d).holds = false) ∧ t'.locked = true := by
    intro hg
    rcases hT.holds_of hg with hh | ⟨-, -, ⟨⟩⟩
    · exact Or.inl hh
    · obtain ⟨hl, hl'⟩ := ht.of_acquireLock
      exact Or.inr ⟨h.of_acquire hl (hfresh rfl), hl'⟩
  -- the lock of a holder goes only by its own release, or for a cached result
  have hlocked : t'.result = none → t.locked = true → t'.locked = true ∨
      ((∀ d, (σ d).holds = true → d = c) ∧ g.holds = false) := by
    intro hres' hl
    by_contra hcon
    simp only [not_or, Bool.not_eq_true] at hcon
    rcases ht.unlocked hl hcon.1 with ⟨key, u, ⟨⟩⟩ | hsome
    · obtain ⟨hh | hh, hg, -⟩ := hT.of_releaseLock
      · exact hcon.2 ⟨fun d hd => h.exclusive d c hd hh, hg⟩
      · exact h.cached c hh (ht.result_kept hres')
    · simp [hres'] at hsome
  refine ⟨h.exclusive.update fun hg => (hholds hg).imp id (·.1), fun hres' => ?_, ?_⟩
  · have hres := ht.result_kept hres'
    refine forall_update (P := fun _ g => Stage.holds g = true → t'.locked = true) ?_ ?_
    · intro hg
      rcases hholds hg with hh | ⟨-, hl'⟩
      · refine (hlocked hres' (h.inPlace hres c hh)).resolve_right ?_
        simp [hg]
      · exact hl'
    · intro d hd hh
      exact (hlocked hres' (h.inPlace hres d hh)).resolve_right fun hall => hd (hall.1 d hh)
  · refine forall_update (P := fun _ g => Stage.late g = true → t'.result ≠ none) ?_ ?_
    · intro hg
      rcases hT.late_of hg with hl | ⟨v, ⟨⟩⟩
      · exact fun hres' => h.cached c hl (ht.result_kept hres')
      · simp [ht.of_storeResult]
    · intro d _ hl hres'
      exact h.cached d hl (ht.result_kept hres')

end SoleHolder

end PaymentQueue
