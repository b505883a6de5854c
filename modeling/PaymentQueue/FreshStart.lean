import Mathlib.Tactic.NormNum
import PaymentQueue.TripCondition

/-!
# PaymentQueue.FreshStart

Does a breaker that has recovered start afresh?

When a breaker goes from HALF_OPEN to CLOSED its count of failures in a row is zero, and what
it counts in the other states is overwritten when it enters them. Its window of outcomes is
left as it was. So it behaves as a new breaker does (`Alike`) as long as the two windows,
where they differ, differ in successes only: `Match` is the relation that a call preserves. It
holds exactly if no failure was in the window at the time, and if the window is so short
that it has been filled anew by the time its contents matter (`fresh_start_iff`).
-/

namespace PaymentQueue

namespace CircuitBreaker

open Async

/-- The calls `ds` leave both breakers in the same state and with the same severity, and each
of them is answered alike. -/
structure Alike (b b' : CircuitBreaker) (ds : List Call) : Prop where
  state : (object.after b ds).state = (object.after b' ds).state
  severity : (object.after b ds).severity = (object.after b' ds).severity
  log : object.log b ds = object.log b' ds

/-- The window of a breaker that closes with this record holds no failure, and either it holds
no more than one outcome, or every failure trips the breaker and the trials that close it
again, with the failure before them, fill the window. -/
def Fresh (opts : CircuitBreakerOptions) (record : List Bool) : Prop :=
  false ∉ record.rtake opts.windowSize ∧
  (opts.windowSize ≤ 1 ∨
    (opts.failureThreshold ≤ 1 ∧ opts.windowSize ≤ max 1 opts.halfOpenTrialCount + 1))

/-! ### Records that continue one without failures at its end -/

section

variable {before record : List Bool} {opts : CircuitBreakerOptions}

/-- What came before a success does not count towards the failures at the end. -/
theorem trailingFailures_append (h : trailingFailures before = 0) :
    trailingFailures (before ++ record) = trailingFailures record := by
  induction record using List.reverseRecOn with
  | nil => rw [List.append_nil, h, trailingFailures, List.rtakeWhile_nil, List.length_nil]
  | append_singleton record o ih =>
      rw [← List.append_assoc]
      cases o with
      | true => rw [trailingFailures_success, trailingFailures_success]
      | false => rw [trailingFailures_failure, trailingFailures_failure, ih]

/-- With a threshold of one, a failure always warrants opening. -/
theorem warrants_of_threshold (h : opts.failureThreshold ≤ 1) :
    Warrants opts (record ++ [false]) := by
  rw [Warrants, trailingFailures_failure]
  exact Or.inl (by omega)

/-- Whether a failure warrants opening does not depend on what came before. -/
theorem warrants_append_iff (htrailing : trailingFailures before = 0)
    (h : opts.failureThreshold ≤ 1 ∨ opts.windowSize ≤ record.length + 1) :
    Warrants opts (before ++ record ++ [false]) ↔ Warrants opts (record ++ [false]) := by
  rcases h with hone | hfull
  · exact iff_of_true (warrants_of_threshold hone) (warrants_of_threshold hone)
  · have hlen : opts.windowSize ≤ (record ++ [false]).length := by simpa using hfull
    rw [Warrants, Warrants, List.append_assoc, trailingFailures_append htrailing,
      rtake_append_of_le hlen, List.length_append]
    exact or_congr_right (and_congr_left fun _ => iff_of_true (by omega) hlen)

end

/-! ### A breaker and a new one -/

/-- The breakers agree on what their state makes use of. In CLOSED, where they look at their
windows, either nothing but successes has been recorded or the window has been filled anew. -/
structure Match (record : List Bool) (b b' : CircuitBreaker) : Prop where
  opts : b'.opts = b.opts
  state : b'.state = b.state
  opened : b.state = .open → b'.openedAt = b.openedAt ∧ 1 ≤ record.length
  trials : b.state = .halfOpen → b'.halfOpenInFlight = b.halfOpenInFlight ∧
    b'.halfOpenSuccesses = b.halfOpenSuccesses ∧ b.halfOpenSuccesses + 1 ≤ record.length
  closed : b.state = .closed → false ∉ record ∨ b.opts.windowSize ≤ record.length

section

variable {record : List Bool} {b b' : CircuitBreaker}

theorem Match.admitTrial (h : Match record b b') (hb : b.state = .halfOpen) :
    b.admitTrial.1 = b'.admitTrial.1 ∧ Match record b.admitTrial.2 b'.admitTrial.2 := by
  obtain ⟨hflight, hsucc, hlen⟩ := h.trials hb
  have hopts := h.opts
  rcases b.admitTrial_cases with ⟨hused, heq⟩ | ⟨hfree, heq⟩
  · rcases b'.admitTrial_cases with ⟨-, heq'⟩ | ⟨hfree', -⟩
    · rw [heq, heq']
      exact ⟨rfl, h⟩
    · rw [hopts] at hfree'
      omega
  · rcases b'.admitTrial_cases with ⟨hused', -⟩ | ⟨-, heq'⟩
    · rw [hopts] at hused'
      omega
    · rw [heq, heq']
      refine ⟨rfl, hopts, h.state, fun hopen => ?_, fun _ => ⟨?_, hsucc, hlen⟩, fun hc => ?_⟩
      · exact absurd (hb.symm.trans hopen) (by decide)
      · exact congrArg (· + 1) hflight
      · exact absurd (hb.symm.trans hc) (by decide)

theorem Match.canAttempt (h : Match record b b') (now : Int) :
    (b.canAttempt now).1 = (b'.canAttempt now).1 ∧
      Match record (b.canAttempt now).2 (b'.canAttempt now).2 := by
  have hstate := h.state
  cases hb : b.state with
  | closed =>
      rw [hb] at hstate
      rw [canAttempt_of_closed hb, canAttempt_of_closed hstate]
      exact ⟨rfl, h⟩
  | «open» =>
      rw [hb] at hstate
      obtain ⟨hat, hlen⟩ := h.opened hb
      have hsame : b'.opts.openDurationMs = b.opts.openDurationMs := by rw [h.opts]
      rcases lt_or_ge ((now - b.openedAt : Int) : ℚ) b.opts.openDurationMs with hlt | hle
      · rw [canAttempt_of_early hb hlt, canAttempt_of_early hstate (by rwa [hat, hsame])]
        exact ⟨rfl, h⟩
      · rw [canAttempt_of_elapsed hb hle, canAttempt_of_elapsed hstate (by rwa [hat, hsame])]
        have htryOut : Match record b.tryOut b'.tryOut :=
          ⟨h.opts, rfl, by simp [transition], fun _ => ⟨rfl, rfl, by simpa using hlen⟩,
            by simp [transition]⟩
        exact htryOut.admitTrial rfl
  | halfOpen =>
      rw [hb] at hstate
      rw [canAttempt_of_halfOpen hb, canAttempt_of_halfOpen hstate]
      exact h.admitTrial hb

theorem Match.recordSuccess (h : Match record b b')
    (hsize : b.opts.windowSize ≤ max 1 b.opts.halfOpenTrialCount + 1) :
    Match (record ++ [true]) b.recordSuccess b'.recordSuccess := by
  have hstate := h.state
  have hopts : b'.recordSuccess.opts = b.recordSuccess.opts := by simp [h.opts]
  rcases b.recordSuccess_cases with ⟨hb, hs, hat, -⟩ | ⟨hb, hlt, hs, -, htrials, hsucc⟩ |
    ⟨hb, hle, hs⟩
  · rcases b'.recordSuccess_cases with ⟨-, hs', hat', -⟩ | ⟨hb', -⟩ | ⟨hb', -⟩
    · refine ⟨hopts, by rw [hs, hs', hstate], fun hopen => ?_, fun hhalf => ?_, fun hc => ?_⟩
      · rw [hs] at hopen
        obtain ⟨heq, hlen⟩ := h.opened hopen
        exact ⟨by rw [hat, hat', heq], by simp⟩
      · exact absurd (hs.symm.trans hhalf) hb
      · rw [hs] at hc
        rcases h.closed hc with hclean | hfull
        · exact Or.inl (by simpa using hclean)
        · exact Or.inr (by simpa using hfull.trans (Nat.le_succ _))
    · exact absurd (hstate.symm.trans hb') hb
    · exact absurd (hstate.symm.trans hb') hb
  all_goals obtain ⟨heqFlight, heqSucc, hlen⟩ := h.trials hb
  · rcases b'.recordSuccess_cases with ⟨hb', -⟩ | ⟨-, -, hs', -, htrials', hsucc'⟩ | ⟨-, hle', -⟩
    · exact absurd (hstate.trans hb) hb'
    · refine ⟨hopts, by rw [hs, hs'], by simp [hs], fun _ => ⟨?_, ?_, ?_⟩, by simp [hs]⟩
      · rw [htrials, htrials', heqFlight]
      · rw [hsucc, hsucc', heqSucc]
      · simpa [hsucc] using hlen
    · rw [h.opts, heqSucc] at hle'
      omega
  · rcases b'.recordSuccess_cases with ⟨hb', -⟩ | ⟨-, hlt', -⟩ | ⟨-, -, hs'⟩
    · exact absurd (hstate.trans hb) hb'
    · rw [h.opts, heqSucc] at hlt'
      omega
    · -- the trials that close it, and the failure before them
      refine ⟨hopts, by rw [hs, hs'], by simp [hs], by simp [hs], fun _ => Or.inr ?_⟩
      simp only [recordSuccess_opts, List.length_append, List.length_singleton]
      omega

variable {before : List Bool}

/-- The breaker has kept what it needs of `before` and of `record`, the new one of `record`. -/
structure Twins (before record : List Bool) (b b' : CircuitBreaker) : Prop where
  keeps : Keeps (before ++ record) b
  keeps' : Keeps record b'
  agree : Match record b b'

theorem Twins.recordFailure (h : Twins before record b b')
    (htrailing : trailingFailures before = 0)
    (hsize : b.opts.windowSize ≤ 1 ∨ b.opts.failureThreshold ≤ 1) (now : Int) :
    Match (record ++ [false]) (b.recordFailure now) (b'.recordFailure now) := by
  have hstate := h.agree.state
  have hopts := h.agree.opts
  by_cases hb : b.state = .halfOpen
  · obtain ⟨hs, hat⟩ := recordFailure_of_halfOpen hb now
    obtain ⟨hs', hat'⟩ := recordFailure_of_halfOpen (hstate.trans hb) now
    exact ⟨by simp [hopts], by rw [hs, hs'], fun _ => ⟨by rw [hat, hat'], by simp⟩,
      by simp [hs], by simp [hs]⟩
  · have hwarr : Warrants b.opts (before ++ record ++ [false]) ↔
        Warrants b'.opts (record ++ [false]) := by
      rw [hopts]
      exact warrants_append_iff htrailing (hsize.symm.imp_right fun hw => by omega)
    rcases h.keeps.recordFailure_cases hb now with ⟨htrip, heq⟩ | ⟨hno, heq⟩
    · rcases h.keeps'.recordFailure_cases (hstate ▸ hb) now with ⟨-, heq'⟩ | ⟨hno', -⟩
      · rw [heq, heq']
        exact ⟨hopts, rfl, fun _ => ⟨rfl, by simp⟩, by simp [transition],
          by simp [transition]⟩
      · exact absurd (hwarr.mp htrip) hno'
    · rcases h.keeps'.recordFailure_cases (hstate ▸ hb) now with ⟨htrip', -⟩ | ⟨-, heq'⟩
      · exact absurd (hwarr.mpr htrip') hno
      · -- with a threshold of one it would have tripped
        have hw : b.opts.windowSize ≤ 1 :=
          hsize.resolve_right fun hone => hno (warrants_of_threshold hone)
        rw [heq, heq']
        refine ⟨hopts, hstate, fun hopen => ⟨(h.agree.opened hopen).1, by simp⟩,
          fun hhalf => absurd hhalf hb, fun _ => Or.inr ?_⟩
        simpa using hw.trans (Nat.le_add_left 1 _)

/-- A call is answered alike, and preserves the relation. -/
theorem Twins.next (h : Twins before record b b') (htrailing : trailingFailures before = 0)
    (hfresh : b.opts.windowSize ≤ 1 ∨ (b.opts.failureThreshold ≤ 1 ∧
      b.opts.windowSize ≤ max 1 b.opts.halfOpenTrialCount + 1)) (c : Call) :
    (object.run b c).1 = (object.run b' c).1 ∧
      Twins before (record ++ c.outcome.toList) (object.next b c) (object.next b' c) := by
  have hkeeps : Keeps (before ++ (record ++ c.outcome.toList)) (object.next b c) := by
    rw [← List.append_assoc]
    exact h.keeps.next c
  have hkeeps' := h.keeps'.next c
  cases c with
  | canAttempt now =>
      obtain ⟨hret, hmatch⟩ := h.agree.canAttempt now
      refine ⟨hret, hkeeps, hkeeps', ?_⟩
      rw [show (Call.canAttempt now).outcome.toList = [] from rfl, List.append_nil]
      exact hmatch
  | recordSuccess now =>
      exact ⟨rfl, hkeeps, hkeeps', h.agree.recordSuccess (by omega)⟩
  | recordFailure now =>
      exact ⟨rfl, hkeeps, hkeeps', h.recordFailure htrailing (hfresh.imp_right And.left) now⟩

/-- Two breakers so related are equally severe. -/
theorem Twins.severity_eq (h : Twins before record b b')
    (hclean : false ∉ before.rtake b.opts.windowSize) : b.severity = b'.severity := by
  unfold severity
  rw [h.agree.state]
  cases hb : b.state with
  | «open» | halfOpen => rfl
  | closed =>
      have hrate : b.failureRate = b'.failureRate := by
        rcases h.agree.closed hb with hnone | hfull
        · have hwindow : false ∉ b.outcomes := by
            rw [h.keeps.outcomes]
            exact fun hmem => (mem_rtake_append hmem).elim hclean hnone
          have hwindow' : false ∉ b'.outcomes := by
            rw [h.keeps'.outcomes]
            exact fun hmem => hnone (List.mem_of_mem_drop hmem)
          rw [failureRate_eq_zero_iff.mpr hwindow, failureRate_eq_zero_iff.mpr hwindow']
        · rw [failureRate_eq, failureRate_eq, h.keeps.outcomes, h.keeps'.outcomes,
            h.agree.opts, rtake_append_of_le hfull]
      rw [hrate]

variable {opts : CircuitBreakerOptions}

/-- A closed breaker that is fresh is like a new one from then on. -/
theorem alike_of_fresh (hkeeps : Keeps before b) (hopts : b.opts = opts)
    (hb : b.state = .closed) (htrailing : trailingFailures before = 0)
    (hfresh : Fresh opts before) (ds : List Call) : Alike b { opts := opts } ds := by
  have hstart : Twins before (recorded []) b { opts := opts } :=
    ⟨by simpa [recorded] using hkeeps, keeps_new,
      ⟨hopts.symm, hb.symm, by simp [hb], by simp [hb], fun _ => Or.inl (by simp [recorded])⟩⟩
  obtain ⟨hlog, htwins, hopts'⟩ := Object.simulates (o := object) (p := object)
    (R := fun _ _ => True)
    (I := fun ds b b' => Twins before (recorded ds) b b' ∧ b.opts = opts)
    ⟨hstart, hopts⟩ (fun ds c b b' _ h => by
      obtain ⟨htwins, rfl⟩ := h
      obtain ⟨hret, hnext⟩ := htwins.next htrailing hfresh.2 c
      exact ⟨hret, by rwa [recorded_append_singleton], next_opts⟩)
    (List.pairwise_of_forall fun _ _ => trivial : ds.Pairwise fun _ _ => True)
  refine ⟨htwins.agree.state.symm, htwins.severity_eq ?_, hlog⟩
  rw [hopts']
  exact hfresh.1

end

/-! ### Where a breaker that has recovered shows -/

section

variable {b b' : CircuitBreaker} {before record : List Bool} {opts : CircuitBreakerOptions}

/-- When a single failure has been recorded and the window not been filled since, the successes
from before make the difference. -/
theorem severity_lt (hkeeps : Keeps (before ++ record) b) (hkeeps' : Keeps record b')
    (hopts : b'.opts = b.opts) (hb : b.state = .closed) (hb' : b'.state = .closed)
    (hbefore : before ≠ []) (hclean : false ∉ before.rtake b.opts.windowSize)
    (hone : record.count false = 1) (hroom : record.length < b.opts.windowSize) :
    b.severity < b'.severity := by
  have hlen : 1 ≤ record.length := hone ▸ List.count_le_length
  -- the new breaker has exactly the record in its window
  have hwindow' : b'.outcomes = record := by
    rw [hkeeps'.outcomes, hopts, List.rtake, Nat.sub_eq_zero_of_le hroom.le, List.drop_zero]
  have hcount : b.outcomes.count false = 1 := by
    rw [hkeeps.outcomes, List.rtake, List.drop_append, List.count_append,
      List.length_append, show before.length + record.length - b.opts.windowSize -
        before.length = 0 by omega, List.drop_zero, hone, List.count_eq_zero_of_not_mem]
    exact fun hmem => hclean (List.drop_subset_drop_left _ (by omega) hmem)
  have hlonger : record.length + 1 ≤ b.outcomes.length := by
    have hpos := List.length_pos_of_ne_nil hbefore
    rw [hkeeps.outcomes, length_rtake, List.length_append]
    omega
  have hrate : b.failureRate = 1 / b.outcomes.length := by
    rw [failureRate_eq, failedFraction, hcount, Nat.cast_one]
  have hrate' : b'.failureRate = 1 / record.length := by
    rw [failureRate_eq, failedFraction, hwindow', hone, Nat.cast_one]
  have hlonger' : (record.length : ℚ) + 1 ≤ b.outcomes.length := by exact_mod_cast hlonger
  have hlen' : (1 : ℚ) ≤ record.length := by exact_mod_cast hlen
  have hlt : (1 : ℚ) / b.outcomes.length < 1 / record.length :=
    one_div_lt_one_div_of_lt (by linarith) (by linarith)
  have hhalf : (1 : ℚ) / b.outcomes.length ≤ 1 / 2 :=
    one_div_le_one_div_of_le (by norm_num) (by linarith)
  rw [severity, severity, hb, hb', hrate, hrate']
  show min 1 _ < min 1 _
  rw [min_eq_right (by linarith)]
  exact lt_min (by linarith) (by linarith)

/-- A half-open breaker counts the successes reported to it. -/
theorem halfOpen_after_successes {n : Nat} (hb : b.state = .halfOpen)
    (hzero : b.halfOpenSuccesses = 0) (now : Int) (hn : n < max 1 b.opts.halfOpenTrialCount) :
    (object.after b (List.replicate n (.recordSuccess now))).state = .halfOpen ∧
      (object.after b (List.replicate n (.recordSuccess now))).halfOpenSuccesses = n := by
  induction n with
  | zero => exact ⟨hb, hzero⟩
  | succ n ih =>
      obtain ⟨hhalf, hsucc⟩ := ih (by omega)
      rw [List.replicate_succ', Object.after_append_singleton]
      rcases recordSuccess_cases (object.after b (List.replicate n (.recordSuccess now))) with
        ⟨hno, -⟩ | ⟨-, -, hs', -, -, hsucc'⟩ | ⟨-, hle, -⟩
      · exact absurd hhalf hno
      · exact ⟨hs', hsucc'.trans (congrArg (· + 1) hsucc)⟩
      · rw [object_opts, hsucc] at hle
        omega

/-- It closes after `halfOpenTrialCount` of them, or after the first if there are to be none. -/
theorem closed_after_successes (hb : b.state = .halfOpen) (hzero : b.halfOpenSuccesses = 0)
    (now : Int) :
    (object.after b (List.replicate (max 1 b.opts.halfOpenTrialCount)
      (.recordSuccess now))).state = .closed := by
  obtain ⟨k, hk⟩ : ∃ k, max 1 b.opts.halfOpenTrialCount = k + 1 :=
    ⟨max 1 b.opts.halfOpenTrialCount - 1, by omega⟩
  obtain ⟨hhalf, hsucc⟩ := halfOpen_after_successes hb hzero now (show k < _ by omega)
  rw [hk, List.replicate_succ', Object.after_append_singleton]
  rcases recordSuccess_cases (object.after b (List.replicate k (.recordSuccess now))) with
    ⟨hno, -⟩ | ⟨-, hlt, -⟩ | ⟨-, -, hs'⟩
  · exact absurd hhalf hno
  · rw [object_opts, hsucc] at hlt
    omega
  · exact hs'

/-- A failure, and the trials that close the breaker again if it has tripped. -/
def probe (opts : CircuitBreakerOptions) (now : Int) : List Call :=
  if opts.failureThreshold ≤ 1 then
    [.recordFailure now, .canAttempt (now + max 0 ⌈opts.openDurationMs⌉)] ++
      List.replicate (max 1 opts.halfOpenTrialCount)
        (.recordSuccess (now + max 0 ⌈opts.openDurationMs⌉))
  else [.recordFailure now]

theorem probe_inOrder (c : Call) : InOrder (c :: probe opts c.now) := by
  have hlater : c.now ≤ c.now + max 0 ⌈opts.openDurationMs⌉ := by omega
  unfold probe
  split
  · simp [InOrder, List.pairwise_replicate, Call.now] at hlater ⊢
  · simp [InOrder, Call.now]

theorem recorded_probe (now : Int) : recorded (probe opts now) =
    false :: List.replicate (if opts.failureThreshold ≤ 1 then max 1 opts.halfOpenTrialCount
      else 0) true := by
  unfold probe
  split
  · rw [recorded, List.filterMap_append, List.filterMap_replicate_of_some
      (show (Call.recordSuccess _).outcome = some true from rfl)]
    rfl
  · rfl

/-- A new breaker with a window of more than one outcome is closed after the probe. -/
theorem closed_after_probe (hw : 1 < opts.windowSize) (now : Int) :
    (object.after { opts := opts } (probe opts now)).state = .closed := by
  have hnew : Keeps [] ({ opts := opts } : CircuitBreaker) := keeps_new
  have hfailure := hnew.recordFailure_cases (by simp) now
  unfold probe
  split
  · next hone =>
    rcases hfailure with ⟨-, htrip⟩ | ⟨hno, -⟩
    · generalize hb : ({ opts := opts } : CircuitBreaker).recordFailure now = b at htrip
      have hopts : b.opts = opts := by rw [← hb, recordFailure_opts]
      have helapsed : b.opts.openDurationMs ≤
          ((now + max 0 ⌈opts.openDurationMs⌉ - b.openedAt : Int) : ℚ) := by
        have hceil : opts.openDurationMs ≤ (max 0 ⌈opts.openDurationMs⌉ : Int) :=
          (Int.le_ceil _).trans (by exact_mod_cast le_max_right _ _)
        rw [hopts, htrip]
        simpa using hceil
      have hopen : b.state = .open := by rw [htrip]; rfl
      have htried : (b.canAttempt (now + max 0 ⌈opts.openDurationMs⌉)).2.state = .halfOpen ∧
          (b.canAttempt (now + max 0 ⌈opts.openDurationMs⌉)).2.halfOpenSuccesses = 0 := by
        rw [canAttempt_of_elapsed hopen helapsed, admitTrial_state, admitTrial_successes]
        exact ⟨rfl, rfl⟩
      have hclosed := closed_after_successes htried.1 htried.2
        (now + max 0 ⌈opts.openDurationMs⌉)
      rw [canAttempt_opts, hopts] at hclosed
      rw [← hb] at hclosed
      exact hclosed
    · exact absurd (warrants_of_threshold hone) hno
  · next hmany =>
    rcases hfailure with ⟨⟨htrailing⟩ | ⟨hfull, -⟩, -⟩ | ⟨-, heq⟩
    · rw [trailingFailures_failure] at htrailing
      exact absurd htrailing hmany
    · exact absurd hfull (by simpa using hw)
    · rw [Object.after_cons, Object.after_nil]
      show (({ opts := opts } : CircuitBreaker).recordFailure now).state = _
      rw [heq]
      rfl

/-- A breaker that has recovered, but is not fresh, is told apart from a new one at once or by
the probe. -/
theorem fresh_of_alike (hkeeps : Keeps before b) (hopts : b.opts = opts)
    (hb : b.state = .closed) (hbefore : before ≠ []) {now : Int}
    (hnil : Alike b { opts := opts } []) (hprobe : Alike b { opts := opts } (probe opts now)) :
    Fresh opts before := by
  have hzero : b.severity = 0 := hnil.severity.trans (by simp [severity, failureRate])
  have hclean : false ∉ before.rtake opts.windowSize := by
    rw [← hopts, ← hkeeps.outcomes]
    exact (severity_eq_zero_iff hb).mp hzero
  refine ⟨hclean, ?_⟩
  by_contra hnot
  push Not at hnot
  obtain ⟨hw, hroom⟩ := hnot
  have hnew := closed_after_probe hw now
  refine absurd hprobe.severity (ne_of_lt (severity_lt (hkeeps.after _) (keeps_after _) ?_
    (hprobe.state.trans hnew) hnew hbefore ?_ ?_ ?_))
  · rw [object_opts, object_opts, hopts]
  · rwa [object_opts, hopts]
  · rw [recorded_probe, List.count_cons_self, List.count_replicate]
    rfl
  · rw [object_opts, hopts, recorded_probe, List.length_cons, List.length_replicate]
    split
    · next hone => exact hroom hone
    · exact hw

end

/-- A call that takes a breaker from HALF_OPEN to CLOSED is a reported success. -/
theorem outcome_of_recovery {b : CircuitBreaker} {c : Call} (hb : b.state = .halfOpen)
    (hclosed : (object.next b c).state = .closed) : c.outcome = some true := by
  cases c with
  | canAttempt now =>
      have hstays : (b.canAttempt now).2.state = .halfOpen := by
        rw [canAttempt_of_halfOpen hb, admitTrial_state, hb]
      exact absurd (hclosed.symm.trans hstays) (by decide)
  | recordSuccess now => rfl
  | recordFailure now =>
      have hopens : (b.recordFailure now).state = .open := (recordFailure_of_halfOpen hb now).1
      exact absurd (hclosed.symm.trans hopens) (by decide)

/-- **A fresh start.** A call `c` takes a breaker from HALF_OPEN to CLOSED. From then on it is
like a new breaker, whatever calls follow, exactly if it is fresh: no failure is among the
last `windowSize` outcomes reported up to `c`, and `windowSize` is at most 1, or
`failureThreshold` is at most 1 and `windowSize` at most `max 1 halfOpenTrialCount + 1`. It
comes to the same if the calls are to be made in the order of time. -/
theorem fresh_start_iff {opts : CircuitBreakerOptions} {cs : List Call} {c : Call}
    (hhalf : (object.after { opts := opts } cs).state = .halfOpen)
    (hclosed : (object.after { opts := opts } (cs ++ [c])).state = .closed) :
    let b := object.after { opts := opts } (cs ++ [c])
    ((∀ ds, Alike b { opts := opts } ds) ↔ Fresh opts (recorded (cs ++ [c]))) ∧
    ((∀ ds, InOrder (c :: ds) → Alike b { opts := opts } ds) ↔
      Fresh opts (recorded (cs ++ [c]))) := by
  intro b
  have hopts : b.opts = opts := object_opts
  have hkeeps : Keeps (recorded (cs ++ [c])) b := keeps_after _
  have hrecord : recorded (cs ++ [c]) = recorded cs ++ [true] := by
    rw [Object.after_append_singleton] at hclosed
    rw [recorded_append_singleton, outcome_of_recovery hhalf hclosed]
    rfl
  have hne : recorded (cs ++ [c]) ≠ [] := by simp [hrecord]
  have htrailing : trailingFailures (recorded (cs ++ [c])) = 0 := by
    rw [hrecord, trailingFailures_success]
  have hsuff : Fresh opts (recorded (cs ++ [c])) → ∀ ds, Alike b { opts := opts } ds :=
    alike_of_fresh hkeeps hopts hclosed htrailing
  have hnec : (∀ ds, InOrder (c :: ds) → Alike b { opts := opts } ds) →
      Fresh opts (recorded (cs ++ [c])) := fun hall =>
    fresh_of_alike hkeeps hopts hclosed hne (hall [] (by simp [InOrder]))
      (hall _ (probe_inOrder c))
  exact ⟨⟨fun hall => hnec fun ds _ => hall ds, hsuff⟩, hnec, fun hfresh ds _ => hsuff hfresh ds⟩

/-- A breaker that trips on any failure and looks at two outcomes is like a new one after a
failure and two trials. -/
theorem fresh_start_iff_short :
    let opts : CircuitBreakerOptions :=
      { failureThreshold := 1, failureRateThreshold := 1 / 2, windowSize := 2,
        openDurationMs := 50, halfOpenTrialCount := 2 }
    Alike (object.after { opts := opts }
      [.recordFailure 0, .canAttempt 60, .recordSuccess 61, .recordSuccess 62])
      { opts := opts } [.recordSuccess 70, .recordFailure 80, .canAttempt 140] := by
  intro opts
  exact (@fresh_start_iff opts [.recordFailure 0, .canAttempt 60, .recordSuccess 61]
    (.recordSuccess 62) (by decide +kernel) (by decide +kernel)).1.mpr
      ⟨by decide, Or.inr ⟨by decide, by decide⟩⟩ _

/-- With the default options: five failures, and three successful trials half a minute later.
The breaker is CLOSED with a severity of 15/16, and of the next twelve outcomes the last one
opens it, where it leaves a new breaker CLOSED. -/
theorem fresh_start_stale :
    let trials : List Call := List.replicate 5 (.recordFailure 0) ++
      List.replicate 3 (.canAttempt 30000) ++ List.replicate 2 (.recordSuccess 30100)
    let b := object.after {} (trials ++ [.recordSuccess 30100])
    let burst : List Call := List.replicate 4 (.recordFailure 40000) ++ [.recordSuccess 40000]
    let ds := burst ++ burst ++ List.replicate 2 (.recordFailure 40000)
    (object.after {} trials).state = .halfOpen ∧ b.state = .closed ∧
      b.severity = 15 / 16 ∧ ({} : CircuitBreaker).severity = 0 ∧
      (object.after b ds).state = .open ∧ (object.after {} ds).state = .closed := by
  decide +kernel

end CircuitBreaker

end PaymentQueue
