import Mathlib.Algebra.Order.Field.Rat
import Mathlib.Tactic.Linarith
import Mathlib.Tactic.Positivity

/-!
# PaymentQueue.CircuitBreaker

The per-gateway circuit breaker of `payment/circuit-breaker.ts`.

Every method that reads the clock takes the reading as an argument (`Date.now()`,
in milliseconds). A method makes at most one transition, so the calls of
`onStateChange` can be read off the states before and after it.
-/

namespace PaymentQueue

/-- `CircuitState`. -/
inductive CircuitState
  /-- Normal operation. -/
  | closed
  /-- Failing fast, not calling the gateway. -/
  | open
  /-- Trial requests to test recovery. -/
  | halfOpen
  deriving DecidableEq, Repr

/-- `CircuitBreakerOptions`. -/
structure CircuitBreakerOptions where
  /-- Consecutive failures to trip. -/
  failureThreshold : Nat
  /-- Failure rate over the window that trips it. -/
  failureRateThreshold : ℚ
  /-- Rolling window of recent outcomes to consider. -/
  windowSize : Nat
  /-- How long to stay open before trying half-open. -/
  openDurationMs : ℚ
  /-- Number of trial requests allowed while half-open. -/
  halfOpenTrialCount : Nat

/-- `DEFAULTS`. -/
def CircuitBreakerOptions.defaults : CircuitBreakerOptions where
  failureThreshold := 5
  failureRateThreshold := 1 / 2
  windowSize := 20
  openDurationMs := 30000
  halfOpenTrialCount := 3

/-- `CircuitBreaker`. -/
structure CircuitBreaker where
  opts : CircuitBreakerOptions := .defaults
  state : CircuitState := .closed
  consecutiveFailures : Nat := 0
  /-- Recent outcomes, oldest first; `true` is a success. -/
  outcomes : List Bool := []
  openedAt : Int := 0
  halfOpenInFlight : Nat := 0
  halfOpenSuccesses : Nat := 0

namespace CircuitBreaker

variable (b : CircuitBreaker)

/-- `failureRate`. -/
def failureRate : ℚ :=
  if b.outcomes.length = 0 then 0
  else (b.outcomes.filter (fun o => !o)).length / b.outcomes.length

/-- `pushOutcome`. -/
def pushOutcome (success : Bool) : CircuitBreaker :=
  let outcomes := b.outcomes ++ [success]
  { b with
    outcomes := if outcomes.length > b.opts.windowSize then outcomes.tail else outcomes }

/-- `transition`, less the `onStateChange` call. -/
def transition (target : CircuitState) : CircuitBreaker := { b with state := target }

/-- The last part of `canAttempt`: let a limited number of trials through. -/
def admitTrial : Bool × CircuitBreaker :=
  if b.halfOpenInFlight ≥ b.opts.halfOpenTrialCount then (false, b)
  else (true, { b with halfOpenInFlight := b.halfOpenInFlight + 1 })

/-- `canAttempt`. -/
def canAttempt (now : Int) : Bool × CircuitBreaker :=
  match b.state with
  | .closed => (true, b)
  | .open =>
      if ((now - b.openedAt : Int) : ℚ) ≥ b.opts.openDurationMs then
        { b.transition .halfOpen with
          halfOpenInFlight := 0, halfOpenSuccesses := 0 }.admitTrial
      else (false, b)
  | .halfOpen => b.admitTrial

/-- `recordSuccess`. -/
def recordSuccess : CircuitBreaker :=
  let b := { b with consecutiveFailures := 0 }.pushOutcome true
  match b.state with
  | .halfOpen =>
      let b := { b with halfOpenSuccesses := b.halfOpenSuccesses + 1 }
      if b.halfOpenSuccesses ≥ b.opts.halfOpenTrialCount then b.transition .closed else b
  | _ => b

/-- `recordFailure`. -/
def recordFailure (now : Int) : CircuitBreaker :=
  let b := { b with consecutiveFailures := b.consecutiveFailures + 1 }.pushOutcome false
  match b.state with
  -- any failure during a trial re-opens at once
  | .halfOpen => { b.transition .open with openedAt := now }
  | _ =>
      if b.consecutiveFailures ≥ b.opts.failureThreshold ∨
          (b.outcomes.length ≥ b.opts.windowSize ∧
            b.failureRate ≥ b.opts.failureRateThreshold) then
        { b.transition .open with openedAt := now }
      else b

/-- `severity`: 0 (healthy) to 1 (open). -/
def severity : ℚ :=
  match b.state with
  | .open => 1
  | .halfOpen => 3 / 5
  | .closed => min 1 (b.failureRate * (3 / 2))

/-! ### What each method can do to the state -/

@[simp] theorem pushOutcome_state (s : Bool) : (b.pushOutcome s).state = b.state := rfl
@[simp] theorem pushOutcome_opts (s : Bool) : (b.pushOutcome s).opts = b.opts := rfl
@[simp] theorem pushOutcome_openedAt (s : Bool) :
    (b.pushOutcome s).openedAt = b.openedAt := rfl
@[simp] theorem pushOutcome_inFlight (s : Bool) :
    (b.pushOutcome s).halfOpenInFlight = b.halfOpenInFlight := rfl
@[simp] theorem pushOutcome_successes (s : Bool) :
    (b.pushOutcome s).halfOpenSuccesses = b.halfOpenSuccesses := rfl

@[simp] theorem canAttempt_opts (now : Int) : (b.canAttempt now).2.opts = b.opts := by
  simp only [canAttempt, admitTrial]
  repeat' split
  all_goals rfl

@[simp] theorem recordSuccess_opts : b.recordSuccess.opts = b.opts := by
  simp only [recordSuccess]
  repeat' split
  all_goals rfl

@[simp] theorem recordFailure_opts (now : Int) : (b.recordFailure now).opts = b.opts := by
  simp only [recordFailure]
  repeat' split
  all_goals rfl

/-- A half-open breaker that has begun to try out the gateway. -/
abbrev tryOut : CircuitBreaker :=
  { b.transition .halfOpen with halfOpenInFlight := 0, halfOpenSuccesses := 0 }

theorem admitTrial_cases :
    (b.opts.halfOpenTrialCount ≤ b.halfOpenInFlight ∧ b.admitTrial = (false, b)) ∨
    (b.halfOpenInFlight < b.opts.halfOpenTrialCount ∧
      b.admitTrial = (true, { b with halfOpenInFlight := b.halfOpenInFlight + 1 })) := by
  rcases le_or_gt b.opts.halfOpenTrialCount b.halfOpenInFlight with hle | hlt
  · exact Or.inl ⟨hle, if_pos hle⟩
  · exact Or.inr ⟨hlt, if_neg (by omega)⟩

@[simp] theorem admitTrial_state : b.admitTrial.2.state = b.state := by
  unfold admitTrial
  split <;> rfl

@[simp] theorem admitTrial_successes :
    b.admitTrial.2.halfOpenSuccesses = b.halfOpenSuccesses := by
  unfold admitTrial
  split <;> rfl

section

variable {b : CircuitBreaker} {now : Int}

theorem canAttempt_of_closed (hb : b.state = .closed) : b.canAttempt now = (true, b) := by
  rw [canAttempt, hb]

theorem canAttempt_of_early (hb : b.state = .open)
    (h : ((now - b.openedAt : Int) : ℚ) < b.opts.openDurationMs) :
    b.canAttempt now = (false, b) := by
  rw [canAttempt, hb]
  exact if_neg (not_le.mpr h)

theorem canAttempt_of_elapsed (hb : b.state = .open)
    (h : b.opts.openDurationMs ≤ ((now - b.openedAt : Int) : ℚ)) :
    b.canAttempt now = b.tryOut.admitTrial := by
  rw [canAttempt, hb]
  exact if_pos h

theorem canAttempt_of_halfOpen (hb : b.state = .halfOpen) :
    b.canAttempt now = b.admitTrial := by
  rw [canAttempt, hb]

end

theorem canAttempt_cases (now : Int) :
    (b.state = .closed ∧ b.canAttempt now = (true, b)) ∨
    (b.state = .open ∧ ((now - b.openedAt : Int) : ℚ) < b.opts.openDurationMs ∧
      b.canAttempt now = (false, b)) ∨
    (b.state = .open ∧ b.opts.openDurationMs ≤ ((now - b.openedAt : Int) : ℚ) ∧
      b.canAttempt now = b.tryOut.admitTrial) ∨
    (b.state = .halfOpen ∧ b.canAttempt now = b.admitTrial) := by
  cases hb : b.state with
  | closed => exact Or.inl ⟨rfl, canAttempt_of_closed hb⟩
  | halfOpen => exact Or.inr (Or.inr (Or.inr ⟨rfl, canAttempt_of_halfOpen hb⟩))
  | «open» =>
      rcases lt_or_ge ((now - b.openedAt : Int) : ℚ) b.opts.openDurationMs with hlt | hle
      · exact Or.inr (Or.inl ⟨rfl, hlt, canAttempt_of_early hb hlt⟩)
      · exact Or.inr (Or.inr (Or.inl ⟨rfl, hle, canAttempt_of_elapsed hb hle⟩))

theorem recordSuccess_cases :
    (b.state ≠ .halfOpen ∧ b.recordSuccess.state = b.state ∧
      b.recordSuccess.openedAt = b.openedAt ∧
      b.recordSuccess.halfOpenInFlight = b.halfOpenInFlight) ∨
    (b.state = .halfOpen ∧ b.halfOpenSuccesses + 1 < b.opts.halfOpenTrialCount ∧
      b.recordSuccess.state = .halfOpen ∧ b.recordSuccess.openedAt = b.openedAt ∧
      b.recordSuccess.halfOpenInFlight = b.halfOpenInFlight ∧
      b.recordSuccess.halfOpenSuccesses = b.halfOpenSuccesses + 1) ∨
    (b.state = .halfOpen ∧ b.opts.halfOpenTrialCount ≤ b.halfOpenSuccesses + 1 ∧
      b.recordSuccess.state = .closed) := by
  simp only [recordSuccess]
  cases hb : b.state with
  | closed | «open» => simp
  | halfOpen =>
      rcases le_or_gt b.opts.halfOpenTrialCount (b.halfOpenSuccesses + 1) with hle | hlt
      · simp [hle, transition]
      · simp [hlt, not_le.mpr hlt]

/-- After a failure the breaker is open as of now, or it was not half open and stays as it
was. -/
theorem recordFailure_cases (now : Int) :
    ((b.recordFailure now).state = .open ∧ (b.recordFailure now).openedAt = now) ∨
    (b.state ≠ .halfOpen ∧ (b.recordFailure now).state = b.state ∧
      (b.recordFailure now).openedAt = b.openedAt ∧
      (b.recordFailure now).halfOpenInFlight = b.halfOpenInFlight) := by
  simp only [recordFailure]
  split
  · exact Or.inl ⟨rfl, rfl⟩
  · next hb =>
    split
    · exact Or.inl ⟨rfl, rfl⟩
    · exact Or.inr ⟨hb, rfl, rfl, rfl⟩

theorem recordFailure_of_halfOpen {b : CircuitBreaker} (hb : b.state = .halfOpen) (now : Int) :
    (b.recordFailure now).state = .open ∧ (b.recordFailure now).openedAt = now :=
  (b.recordFailure_cases now).resolve_right fun hother => hother.1 hb

/-! ### The severity -/

theorem failureRate_nonneg : 0 ≤ b.failureRate := by
  unfold failureRate
  split
  · exact le_rfl
  · positivity

theorem failureRate_eq_zero_iff {b : CircuitBreaker} :
    b.failureRate = 0 ↔ false ∉ b.outcomes := by
  have hfailures : (b.outcomes.filter fun o => !o) = [] ↔ false ∉ b.outcomes := by
    rw [List.filter_eq_nil_iff]
    simp [Bool.forall_bool]
  rw [← hfailures, failureRate]
  split
  · next hnone => simp [List.length_eq_zero_iff.mp hnone]
  · next hsome =>
    rw [div_eq_zero_iff, or_iff_left (by exact_mod_cast hsome), Nat.cast_eq_zero,
      List.length_eq_zero_iff]

theorem severity_mem : 0 ≤ b.severity ∧ b.severity ≤ 1 := by
  have hrate := b.failureRate_nonneg
  unfold severity
  split
  · exact ⟨zero_le_one, le_rfl⟩
  · constructor <;> linarith
  · exact ⟨le_min zero_le_one (by positivity), min_le_left _ _⟩

theorem severity_of_closed {b : CircuitBreaker} (hb : b.state = .closed) :
    b.severity = min 1 (b.failureRate * (3 / 2)) := by
  rw [severity, hb]

/-- A closed breaker has a severity of zero exactly when no failure is in its window. -/
theorem severity_eq_zero_iff {b : CircuitBreaker} (hb : b.state = .closed) :
    b.severity = 0 ↔ false ∉ b.outcomes := by
  rw [severity_of_closed hb, ← failureRate_eq_zero_iff]
  constructor
  · intro h
    rcases min_choice 1 (b.failureRate * (3 / 2)) with hmin | hmin
    · linarith
    · linarith
  · intro h
    rw [h, zero_mul]
    exact min_eq_right zero_le_one

/-! ### Accounting for trials

A half-open breaker counts the trials it admits and the successes reported to it, and no
trial is ever taken off the count. So it stays usable only if every trial is accounted
for: by a success, or by a call that still owes its report. -/

/-- At time `now`, with `owed` reports still to come, every trial is accounted for. -/
structure Accounted (now : Int) (owed : Nat) : Prop where
  opened : b.state = .open → b.openedAt ≤ now
  trials : b.state = .halfOpen → b.halfOpenInFlight ≤ b.halfOpenSuccesses + owed
  unfinished : b.state = .halfOpen → b.halfOpenSuccesses < b.opts.halfOpenTrialCount

variable {b} {now : Int} {owed : Nat}

theorem Accounted.of_new {opts : CircuitBreakerOptions} :
    ({ opts := opts } : CircuitBreaker).Accounted now owed :=
  ⟨by simp, by simp, by simp⟩

theorem Accounted.mono (h : b.Accounted now owed) {now' : Int} {owed' : Nat}
    (hnow : now ≤ now') (howed : owed ≤ owed') : b.Accounted now' owed' :=
  ⟨fun hb => (h.opened hb).trans hnow, fun hb => (h.trials hb).trans (by omega), h.unfinished⟩

/-- A breaker that is not half open owes nothing to anyone. -/
theorem Accounted.of_not_halfOpen (h : b.Accounted now owed) (hb : b.state ≠ .halfOpen)
    (owed' : Nat) : b.Accounted now owed' :=
  ⟨h.opened, fun hb' => absurd hb' hb, fun hb' => absurd hb' hb⟩

/-- A trial that is admitted owes a report. -/
theorem Accounted.admitTrial (h : b.Accounted now owed) (hb : b.state = .halfOpen) :
    b.admitTrial.2.Accounted now (if b.admitTrial.1 then owed + 1 else owed) := by
  rcases b.admitTrial_cases with ⟨-, heq⟩ | ⟨-, heq⟩
  · rw [heq, if_neg Bool.false_ne_true]
    exact h
  · rw [heq, if_pos rfl]
    have := h.trials hb
    refine ⟨h.opened, fun _ => ?_, h.unfinished⟩
    show b.halfOpenInFlight + 1 ≤ b.halfOpenSuccesses + (owed + 1)
    omega

/-- An attempt that is admitted owes a report. -/
theorem Accounted.canAttempt (h : b.Accounted now owed) (hk : 1 ≤ b.opts.halfOpenTrialCount)
    (later : Int) :
    (b.canAttempt later).2.Accounted now
      (if (b.canAttempt later).1 then owed + 1 else owed) := by
  rcases b.canAttempt_cases later with ⟨hb, heq⟩ | ⟨-, -, heq⟩ | ⟨-, -, heq⟩ | ⟨hb, heq⟩
  · rw [heq]
    exact h.of_not_halfOpen (by simp [hb]) _
  · rw [heq]
    exact h
  · have htryOut : b.tryOut.Accounted now owed :=
      ⟨by simp [transition], fun _ => Nat.zero_le _, fun _ => hk⟩
    rw [heq]
    exact htryOut.admitTrial rfl
  · rw [heq]
    exact h.admitTrial hb

/-- A reported success takes the place of a report that was owed. -/
theorem Accounted.recordSuccess (h : b.Accounted now (owed + 1)) :
    b.recordSuccess.Accounted now owed := by
  rcases b.recordSuccess_cases with ⟨hb, hb', hat, -⟩ | ⟨hb, hlt, hb', -, htrials, hsucc⟩ |
    ⟨-, -, hb'⟩
  · exact ⟨by rw [hb', hat]; exact h.opened, by simp [hb', hb], by simp [hb', hb]⟩
  · have := h.trials hb
    refine ⟨by simp [hb'], fun _ => ?_, fun _ => ?_⟩
    · rw [htrials, hsucc]
      omega
    · rwa [hsucc, recordSuccess_opts]
  · exact ⟨by simp [hb'], by simp [hb'], by simp [hb']⟩

/-- After a failure nothing is owed: it re-opens a half-open breaker. -/
theorem Accounted.recordFailure (h : b.Accounted now owed) (owed' : Nat) :
    (b.recordFailure now).Accounted now owed' := by
  rcases b.recordFailure_cases now with ⟨hb', hat⟩ | ⟨hb, hb', hat, -⟩
  · exact ⟨fun _ => hat.le, by simp [hb'], by simp [hb']⟩
  · exact ⟨by rw [hb', hat]; exact h.opened, by simp [hb', hb], by simp [hb', hb]⟩

/-- A breaker to which no report is owed admits an attempt, once `openDurationMs` has
elapsed since it opened. -/
theorem Accounted.admits_of_elapsed (h : b.Accounted now 0)
    (hk : 1 ≤ b.opts.halfOpenTrialCount) {later : Int}
    (helapsed : b.state = .open → b.opts.openDurationMs ≤ ((later - b.openedAt : Int) : ℚ)) :
    (b.canAttempt later).1 = true := by
  rcases b.canAttempt_cases later with ⟨-, heq⟩ | ⟨hb, hlt, -⟩ | ⟨-, -, heq⟩ | ⟨hb, heq⟩
  · rw [heq]
  · exact absurd (helapsed hb) (not_le.mpr hlt)
  · rcases b.tryOut.admitTrial_cases with ⟨hused, -⟩ | ⟨-, hadm⟩
    · exact absurd hused (by simp [transition]; omega)
    · rw [heq, hadm]
  · rcases b.admitTrial_cases with ⟨hused, -⟩ | ⟨-, hadm⟩
    · have := h.trials hb
      have := h.unfinished hb
      omega
    · rw [heq, hadm]

theorem Accounted.admits (h : b.Accounted now 0) (hk : 1 ≤ b.opts.halfOpenTrialCount)
    {later : Int} (helapsed : b.opts.openDurationMs ≤ ((later - now : Int) : ℚ)) :
    (b.canAttempt later).1 = true := by
  refine h.admits_of_elapsed hk fun hb => ?_
  have hopened := h.opened hb
  refine helapsed.trans ?_
  exact_mod_cast by omega

/-- A half-open breaker that has used up its trials refuses every attempt, at any time. -/
theorem refuses_of_used_up (hb : b.state = .halfOpen)
    (hused : b.opts.halfOpenTrialCount ≤ b.halfOpenInFlight) (later : Int) :
    b.canAttempt later = (false, b) := by
  unfold canAttempt
  split <;> simp_all [admitTrial]

end CircuitBreaker

end PaymentQueue
