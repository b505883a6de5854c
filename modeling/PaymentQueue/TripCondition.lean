import PaymentQueue.Async.Window
import PaymentQueue.LoadShedding

/-!
# PaymentQueue.TripCondition

When does a closed breaker trip?

The breaker keeps a window of the latest outcomes and a count of the failures in a row,
both updated report by report. Read off the whole record of outcomes, reported in whatever
state, the window is the end of the record (`outcomes_eq`), the count is the length of its
trailing run of failures (`consecutiveFailures_eq`), and a closed breaker opens on a failure
exactly when the record then warrants it (`trip_condition`).
-/

namespace PaymentQueue

open Async

namespace CircuitBreaker

/-- The outcome the call reports, if it reports one; `true` is a success. -/
def Call.outcome : Call → Option Bool
  | canAttempt _ => none
  | recordSuccess _ => some true
  | recordFailure _ => some false

/-- All outcomes reported in a history of calls, oldest first. -/
def recorded (cs : List Call) : List Bool := cs.filterMap Call.outcome

/-- The length of the longest run of failures at the end of a record. -/
def trailingFailures (record : List Bool) : Nat := (record.rtakeWhile fun o => !o).length

/-- The fraction of failures among some outcomes. -/
def failedFraction (outcomes : List Bool) : ℚ := outcomes.count false / outcomes.length

/-- The record warrants that a closed breaker opens: it ends in `failureThreshold` failures
or more, or it fills the window and too many of the outcomes in the window are failures. -/
def Warrants (opts : CircuitBreakerOptions) (record : List Bool) : Prop :=
  opts.failureThreshold ≤ trailingFailures record ∨
  (opts.windowSize ≤ record.length ∧
    opts.failureRateThreshold ≤ failedFraction (record.rtake opts.windowSize))

/-! ### The record and its end -/

section

variable {record : List Bool} {cs : List Call} {c : Call}

theorem recorded_append_singleton :
    recorded (cs ++ [c]) = recorded cs ++ c.outcome.toList := by
  cases h : c.outcome <;> simp [recorded, h]

@[simp] theorem trailingFailures_success : trailingFailures (record ++ [true]) = 0 := by
  rw [trailingFailures, List.rtakeWhile_concat_neg _ _ _ (by decide)]
  rfl

@[simp] theorem trailingFailures_failure :
    trailingFailures (record ++ [false]) = trailingFailures record + 1 := by
  rw [trailingFailures, List.rtakeWhile_concat_pos _ _ _ (by decide), List.length_append]
  rfl

end

/-! ### What the breaker keeps of the record -/

section

variable {b : CircuitBreaker} {opts : CircuitBreakerOptions}

@[simp] theorem canAttempt_outcomes (now : Int) :
    (b.canAttempt now).2.outcomes = b.outcomes := by
  simp only [canAttempt, admitTrial]
  repeat' split
  all_goals rfl

@[simp] theorem canAttempt_consecutiveFailures (now : Int) :
    (b.canAttempt now).2.consecutiveFailures = b.consecutiveFailures := by
  simp only [canAttempt, admitTrial]
  repeat' split
  all_goals rfl

theorem recordSuccess_outcomes :
    b.recordSuccess.outcomes = (b.pushOutcome true).outcomes := by
  simp only [recordSuccess]
  repeat' split
  all_goals rfl

@[simp] theorem recordSuccess_consecutiveFailures :
    b.recordSuccess.consecutiveFailures = 0 := by
  simp only [recordSuccess]
  repeat' split
  all_goals rfl

theorem recordFailure_outcomes (now : Int) :
    (b.recordFailure now).outcomes = (b.pushOutcome false).outcomes := by
  simp only [recordFailure]
  repeat' split
  all_goals rfl

@[simp] theorem recordFailure_consecutiveFailures (now : Int) :
    (b.recordFailure now).consecutiveFailures = b.consecutiveFailures + 1 := by
  simp only [recordFailure]
  repeat' split
  all_goals rfl

/-- The failure rate of a breaker is that of its window. -/
theorem failureRate_eq (b : CircuitBreaker) : b.failureRate = failedFraction b.outcomes := by
  have hcount : (b.outcomes.filter fun o => !o).length = b.outcomes.count false := by
    rw [List.count, List.countP_eq_length_filter]
    congr 2
    funext o
    cases o <;> rfl
  rw [failureRate, failedFraction, hcount]
  split
  · next hnone => simp [hnone]
  · rfl

/-- The breaker has kept of the record what it needs. -/
structure Keeps (record : List Bool) (b : CircuitBreaker) : Prop where
  outcomes : b.outcomes = record.rtake b.opts.windowSize
  consecutiveFailures : b.consecutiveFailures = trailingFailures record

variable {record : List Bool} {c : Call}

theorem Keeps.pushOutcome (h : Keeps record b) (o : Bool) :
    (b.pushOutcome o).outcomes = (record ++ [o]).rtake b.opts.windowSize := by
  rw [← slide_rtake, ← h.outcomes]
  rfl

theorem Keeps.next (h : Keeps record b) (c : Call) :
    Keeps (record ++ c.outcome.toList) (object.next b c) := by
  cases c with
  | canAttempt now =>
      refine ⟨?_, ?_⟩
      · show (b.canAttempt now).2.outcomes = _
        rw [canAttempt_outcomes, h.outcomes, next_opts]
        simp [Call.outcome]
      · show (b.canAttempt now).2.consecutiveFailures = _
        rw [canAttempt_consecutiveFailures, h.consecutiveFailures]
        simp [Call.outcome]
  | recordSuccess now =>
      refine ⟨?_, ?_⟩
      · show b.recordSuccess.outcomes = _
        rw [recordSuccess_outcomes, h.pushOutcome, next_opts]
        rfl
      · show b.recordSuccess.consecutiveFailures = _
        rw [recordSuccess_consecutiveFailures]
        simp [Call.outcome]
  | recordFailure now =>
      refine ⟨?_, ?_⟩
      · show (b.recordFailure now).outcomes = _
        rw [recordFailure_outcomes, h.pushOutcome, next_opts]
        rfl
      · show (b.recordFailure now).consecutiveFailures = _
        rw [recordFailure_consecutiveFailures, h.consecutiveFailures]
        simp [Call.outcome]

theorem Keeps.after (h : Keeps record b) (cs : List Call) :
    Keeps (record ++ recorded cs) (object.after b cs) := by
  induction cs using List.reverseRecOn with
  | nil => simpa [recorded] using h
  | append_singleton cs c ih =>
      rw [Object.after_append_singleton, recorded_append_singleton, ← List.append_assoc]
      exact ih.next c

theorem keeps_new : Keeps [] { opts := opts } := ⟨by simp, by simp [trailingFailures]⟩

theorem keeps_after (cs : List Call) : Keeps (recorded cs) (object.after { opts := opts } cs) :=
  keeps_new.after cs

/-! ### A closed breaker -/

/-- The breaker as a failure leaves it, before it decides whether to open. -/
abbrev afterFailure (b : CircuitBreaker) : CircuitBreaker :=
  { b with consecutiveFailures := b.consecutiveFailures + 1 }.pushOutcome false

/-- The test of `recordFailure` on what the breaker keeps is the one on the record. -/
theorem Keeps.trips_iff (h : Keeps record b) :
    (b.afterFailure.consecutiveFailures ≥ b.opts.failureThreshold ∨
      (b.afterFailure.outcomes.length ≥ b.opts.windowSize ∧
        b.afterFailure.failureRate ≥ b.opts.failureRateThreshold)) ↔
      Warrants b.opts (record ++ [false]) := by
  have hcount : b.afterFailure.consecutiveFailures = trailingFailures (record ++ [false]) := by
    rw [trailingFailures_failure, ← h.consecutiveFailures]
    rfl
  have hwindow : b.afterFailure.outcomes = (record ++ [false]).rtake b.opts.windowSize :=
    h.pushOutcome false
  have hfull : b.opts.windowSize ≤ b.afterFailure.outcomes.length ↔
      b.opts.windowSize ≤ (record ++ [false]).length := by
    rw [hwindow, length_rtake]
    omega
  rw [ge_iff_le, ge_iff_le, ge_iff_le, hfull, failureRate_eq, hwindow, hcount]
  rfl

/-- A breaker that is not half open and is told of a failure opens as of now if the record
then warrants it, whether it was open before or not, and otherwise only keeps the outcome. -/
theorem Keeps.recordFailure_cases (h : Keeps record b) (hb : b.state ≠ .halfOpen)
    (now : Int) :
    (Warrants b.opts (record ++ [false]) ∧
      b.recordFailure now = { b.afterFailure.transition .open with openedAt := now }) ∨
    (¬ Warrants b.opts (record ++ [false]) ∧ b.recordFailure now = b.afterFailure) := by
  have hpushed : b.afterFailure.state ≠ .halfOpen := hb
  by_cases hwarr : Warrants b.opts (record ++ [false])
  · refine Or.inl ⟨hwarr, ?_⟩
    rw [recordFailure]
    split
    · next hhalf => exact absurd hhalf hpushed
    · exact if_pos (h.trips_iff.mpr hwarr)
  · refine Or.inr ⟨hwarr, ?_⟩
    rw [recordFailure]
    split
    · next hhalf => exact absurd hhalf hpushed
    · exact if_neg (mt h.trips_iff.mp hwarr)

/-- A closed breaker that is told of a failure opens if the record then warrants it, and
stays closed otherwise. -/
theorem Keeps.recordFailure_closed (h : Keeps record b) (hb : b.state = .closed) (now : Int) :
    (Warrants b.opts (record ++ [false]) ∧ (b.recordFailure now).state = .open) ∨
    (¬ Warrants b.opts (record ++ [false]) ∧ (b.recordFailure now).state = .closed) := by
  rcases h.recordFailure_cases (by simp [hb]) now with ⟨hwarr, heq⟩ | ⟨hwarr, heq⟩
  · exact Or.inl ⟨hwarr, by rw [heq]; rfl⟩
  · exact Or.inr ⟨hwarr, by rw [heq]; exact hb⟩

/-- No other call takes a closed breaker out of CLOSED. -/
theorem next_closed (hb : b.state = .closed) (hc : ∀ now, c ≠ .recordFailure now) :
    (object.next b c).state = .closed := by
  cases c with
  | canAttempt now =>
      show (b.canAttempt now).2.state = _
      rcases b.canAttempt_cases now with ⟨-, heq⟩ | ⟨hopen, -⟩ | ⟨hopen, -⟩ | ⟨hhalf, -⟩
      · rwa [heq]
      · exact absurd hopen (by simp [hb])
      · exact absurd hopen (by simp [hb])
      · exact absurd hhalf (by simp [hb])
  | recordSuccess now =>
      show b.recordSuccess.state = _
      rcases b.recordSuccess_cases with ⟨-, hb', -⟩ | ⟨hhalf, -⟩ | ⟨-, -, hb'⟩
      · rwa [hb']
      · exact absurd hhalf (by simp [hb])
      · exact hb'
  | recordFailure now => exact absurd rfl (hc now)

end

/-- **The trip condition.** After any history of calls: the window holds the latest outcomes
of the whole record, `windowSize` of them or all there are; the count is the length of the
record's trailing run of failures; and if the breaker is CLOSED, the next call takes it to
OPEN exactly if it reports a failure after which the record warrants that, and otherwise
leaves it CLOSED. -/
theorem trip_condition (opts : CircuitBreakerOptions) (cs : List Call) :
    let b := object.after { opts := opts } cs
    b.outcomes = (recorded cs).rtake (min (recorded cs).length opts.windowSize) ∧
    b.consecutiveFailures = trailingFailures (recorded cs) ∧
    (b.state = .closed → ∀ c,
      ((object.next b c).state = .open ↔
        (∃ now, c = .recordFailure now) ∧ Warrants opts (recorded (cs ++ [c]))) ∧
      ((object.next b c).state = .open ∨ (object.next b c).state = .closed)) := by
  intro b
  have hopts : b.opts = opts := object_opts
  have hkeeps : Keeps (recorded cs) b := keeps_after cs
  refine ⟨?_, hkeeps.consecutiveFailures, fun hb c => ?_⟩
  · rw [hkeeps.outcomes, hopts, List.rtake, List.rtake]
    congr 1
    omega
  rw [recorded_append_singleton]
  by_cases hc : ∃ now, c = .recordFailure now
  · obtain ⟨now, rfl⟩ := hc
    have hstep := hkeeps.recordFailure_closed hb now
    rw [hopts] at hstep
    rcases hstep with ⟨hwarr, hopen⟩ | ⟨hwarr, hclosed⟩
    · exact ⟨⟨fun _ => ⟨⟨now, rfl⟩, hwarr⟩, fun _ => hopen⟩, Or.inl hopen⟩
    · refine ⟨⟨fun hopen => ?_, fun hcond => absurd hcond.2 hwarr⟩, Or.inr hclosed⟩
      exact absurd (hclosed.symm.trans hopen) (by decide)
  · have hclosed := next_closed hb fun now h => hc ⟨now, h⟩
    refine ⟨⟨fun hopen => ?_, fun hcond => absurd hcond.1 hc⟩, Or.inr hclosed⟩
    exact absurd (hclosed.symm.trans hopen) (by decide)

/-- A window of three outcomes, of which the breaker tolerates one failure: it opens on the
second one, although a success was reported in between. -/
theorem trip_condition_rate :
    let opts : CircuitBreakerOptions :=
      { failureThreshold := 5, failureRateThreshold := 3 / 5, windowSize := 3,
        openDurationMs := 1000, halfOpenTrialCount := 1 }
    let cs : List Call := [.recordSuccess 0, .recordFailure 1, .recordSuccess 2]
    let b := object.after { opts := opts } cs
    b.outcomes = [true, false, true] ∧ b.consecutiveFailures = 0 ∧ b.state = .closed ∧
      (object.next b (.recordFailure 3)).state = .open := by
  intro opts cs b
  obtain ⟨houtcomes, hcount, htrip⟩ := trip_condition opts cs
  have hb : b.state = .closed := by decide +kernel
  refine ⟨houtcomes.trans (by decide), hcount.trans (by decide), hb, ?_⟩
  exact (htrip hb (.recordFailure 3)).1.mpr ⟨⟨3, rfl⟩, Or.inr ⟨by decide, by decide +kernel⟩⟩

end CircuitBreaker

end PaymentQueue
