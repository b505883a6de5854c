import PaymentQueue.LatencyIsolation
import PaymentQueue.RecentLatency

/-!
# PaymentQueue.Alerts

`checkAlerts` of `monitoring/metrics-collector.service.ts`, which `recordOutcome` calls when
it has counted an outcome: when does the collector raise an alert?

The success rate is taken over all outcomes since the start, so the failures that it takes to
notice an outage grow with the successes before it, by one for every nine (`rate_alert_iff`).
The P99 is taken over the latest 5000 latencies, and is over its ceiling exactly if a
hundredth of these are, rounded up (`latency_alert_iff`).

An alert is the line that is logged, as the values that stand in it.
-/

namespace PaymentQueue

open Async

/-- An alert that `checkAlerts` logs. -/
inductive Alert
  | successRate (gatewayId : String) (successRate : ℚ)
  | p99Latency (gatewayId : String) (p99 : ℚ)
  deriving DecidableEq, Repr

/-- `alertThresholds`, as far as they are read. -/
structure AlertThresholds where
  successRateFloor : ℚ := 9 / 10
  p99LatencyCeilingMs : ℚ := 5000

/-- `checkAlerts`: what it logs. -/
def checkAlerts (gatewayId : String) (counters : GatewayCounters)
    (thresholds : AlertThresholds := {}) : List Alert :=
  let total := counters.succeeded + counters.failed
  if total < 20 then []
  else
    let successRate : ℚ := counters.succeeded / total
    let rateAlert :=
      if successRate < thresholds.successRateFloor then [.successRate gatewayId successRate]
      else []
    let latencyAlert :=
      match counters.latency.percentile 99 with
      | some p99 => if p99 > thresholds.p99LatencyCeilingMs then [.p99Latency gatewayId p99] else []
      | none => []
    rateAlert ++ latencyAlert

namespace MetricsCollector

/-- What the listener of the event logs. -/
def alertsAt (m : MetricsCollector) (e : PaymentEvent) : List Alert :=
  match e with
  | .started _ _ _ => []
  | .completed _ gatewayId _ _ | .failed _ gatewayId _ _ =>
      checkAlerts gatewayId ((m.hear e).getOrCreate gatewayId)

/-- The successes of a gateway. -/
def successes (g : String) (es : List PaymentEvent) : Nat :=
  es.countP fun
    | .completed _ gatewayId _ _ => gatewayId == g
    | _ => false

/-- The failures of a gateway. -/
def failures (g : String) (es : List PaymentEvent) : Nat :=
  es.countP fun
    | .failed _ gatewayId _ _ => gatewayId == g
    | _ => false

variable {g : String} {es bs : List PaymentEvent} {e : PaymentEvent}

theorem successes_append : successes g (es ++ bs) = successes g es + successes g bs :=
  List.countP_append

theorem failures_append : failures g (es ++ bs) = failures g es + failures g bs :=
  List.countP_append

/-! ### The counters -/

/-- The counters of a gateway count its outcomes. -/
theorem counts_heard (g : String) (es : List PaymentEvent) :
    ((heard es).getOrCreate g).succeeded = successes g es ∧
      ((heard es).getOrCreate g).failed = failures g es := by
  induction es using List.reverseRecOn with
  | nil => exact ⟨rfl, rfl⟩
  | append_singleton es e ih =>
      rw [heard_append_singleton, successes_append, failures_append, ← ih.1, ← ih.2]
      cases e with
      | started jobId gatewayId now => exact ⟨rfl, rfl⟩
      | completed jobId gatewayId stopped now =>
          obtain ⟨hsucceeded, hfailed⟩ :=
            @counts_recordOutcome (heard es) g gatewayId jobId true stopped now
          simp [hear, onCompleted, hsucceeded, hfailed, successes, failures, List.countP_cons,
            @eq_comm _ gatewayId]
      | failed jobId gatewayId stopped now =>
          obtain ⟨hsucceeded, hfailed⟩ :=
            @counts_recordOutcome (heard es) g gatewayId jobId false stopped now
          simp [hear, onFailed, hsucceeded, hfailed, successes, failures, List.countP_cons,
            @eq_comm _ gatewayId]

/-- An outcome is followed by `checkAlerts`. -/
theorem alertsAt_eq (he : e.isOutcome g = true) :
    (heard es).alertsAt e = checkAlerts g ((heard (es ++ [e])).getOrCreate g) := by
  cases e with
  | started => simp [PaymentEvent.isOutcome] at he
  | completed jobId gatewayId stopped now | failed jobId gatewayId stopped now =>
      obtain rfl : gatewayId = g := by simpa [PaymentEvent.isOutcome] using he
      rw [heard_append_singleton, alertsAt]

theorem mem_checkAlerts {c : GatewayCounters} {thresholds : AlertThresholds} {alert : Alert} :
    alert ∈ checkAlerts g c thresholds ↔ 20 ≤ c.succeeded + c.failed ∧
      ((alert = .successRate g (c.succeeded / (c.succeeded + c.failed : Nat)) ∧
          (c.succeeded / (c.succeeded + c.failed : Nat) : ℚ) < thresholds.successRateFloor) ∨
        ∃ p99, c.latency.percentile 99 = some p99 ∧ thresholds.p99LatencyCeilingMs < p99 ∧
          alert = .p99Latency g p99) := by
  unfold checkAlerts
  by_cases htotal : c.succeeded + c.failed < 20
  · simp [htotal]
  · simp only [htotal, if_false, not_lt.mp htotal, true_and, List.mem_append]
    refine or_congr ?_ ?_
    · split <;> simp_all
    · cases hp : c.latency.percentile 99 with
      | none => simp
      | some p99 => by_cases hover : p99 > thresholds.p99LatencyCeilingMs <;> simp_all

/-! ### The success rate -/

/-- The rate is under nine tenths if nine times the failures are more than the successes. -/
theorem rate_lt_iff {succeeded failed : Nat} (h : 0 < succeeded + failed) :
    (succeeded / (succeeded + failed : Nat) : ℚ) < 9 / 10 ↔ succeeded < 9 * failed := by
  have htotal : (0 : ℚ) < (succeeded + failed : Nat) := by exact_mod_cast h
  rw [div_lt_iff₀ htotal]
  constructor
  · intro hlt
    have hlt' : (succeeded : ℚ) < (9 * failed : Nat) := by
      push_cast at hlt ⊢
      linarith
    exact_mod_cast hlt'
  · intro hlt
    have hlt' : (succeeded : ℚ) < (9 * failed : Nat) := by exact_mod_cast hlt
    push_cast at hlt' ⊢
    linarith

/-- `checkAlerts` complains of the success rate. -/
abbrev RateAlert (g : String) (alerts : List Alert) : Prop := ∃ r, .successRate g r ∈ alerts

theorem rateAlert_checkAlerts {c : GatewayCounters} : RateAlert g (checkAlerts g c) ↔
    20 ≤ c.succeeded + c.failed ∧ c.succeeded < 9 * c.failed := by
  constructor
  · rintro ⟨r, hmem⟩
    obtain ⟨htotal, ⟨-, hrate⟩ | ⟨p99, -, -, heq⟩⟩ := mem_checkAlerts.mp hmem
    · exact ⟨htotal, (rate_lt_iff (by omega)).mp hrate⟩
    · cases heq
  · rintro ⟨htotal, hlt⟩
    exact ⟨_, mem_checkAlerts.mpr ⟨htotal, Or.inl ⟨rfl, (rate_lt_iff (by omega)).mpr hlt⟩⟩⟩

/-- After any events, an outcome of the gateway raises the alert according to the counts. -/
theorem rateAlert_at (he : e.isOutcome g = true) : RateAlert g ((heard es).alertsAt e) ↔
    20 ≤ successes g (es ++ [e]) + failures g (es ++ [e]) ∧
      successes g (es ++ [e]) < 9 * failures g (es ++ [e]) := by
  obtain ⟨hsucceeded, hfailed⟩ := counts_heard g (es ++ [e])
  rw [alertsAt_eq he, rateAlert_checkAlerts, hsucceeded, hfailed]

/-- **When an outage is noticed.** After any events with `s` successes and `f` failures of a
gateway, and any further events: if these have no success of it, the `k`-th failure among them
raises the alert on the success rate exactly from `k = max (20 - s - f) (s / 9 + 1 - f)` on;
and if they have no failure of it, the `k`-th success still raises it exactly if there are
twenty outcomes and `k < 9 * f - s`. -/
theorem rate_alert_iff {g : String} (es bs : List PaymentEvent) {e : PaymentEvent}
    (he : e.isOutcome g = true) :
    (successes g (bs ++ [e]) = 0 →
      (RateAlert g ((heard (es ++ bs)).alertsAt e) ↔
        max (20 - (successes g es + failures g es)) (successes g es / 9 + 1 - failures g es) ≤
          failures g (bs ++ [e]))) ∧
    (failures g (bs ++ [e]) = 0 →
      (RateAlert g ((heard (es ++ bs)).alertsAt e) ↔
        20 ≤ successes g es + failures g es + successes g (bs ++ [e]) ∧
          successes g (bs ++ [e]) < 9 * failures g es - successes g es)) := by
  constructor
  · intro hnone
    rw [rateAlert_at he, List.append_assoc, successes_append, failures_append, hnone]
    omega
  · intro hnone
    rw [rateAlert_at he, List.append_assoc, successes_append, failures_append, hnone]
    omega

/-- After 200 payments in a row, the alert is raised at the 23rd failure. -/
theorem rate_alert_iff_outage :
    let completed := PaymentEvent.completed "idem_1" "stripe" 0 1000
    let failed := PaymentEvent.failed "idem_2" "stripe" 0 2000
    let es := List.replicate 200 completed
    ¬ RateAlert "stripe" ((heard (es ++ List.replicate 21 failed)).alertsAt failed) ∧
      RateAlert "stripe" ((heard (es ++ List.replicate 22 failed)).alertsAt failed) := by
  intro completed failed es
  have hfailed : failed.isOutcome "stripe" = true := rfl
  exact ⟨fun hmem => absurd
      (((rate_alert_iff es (List.replicate 21 failed) hfailed).1 (by decide)).mp hmem)
      (by decide +kernel),
    ((rate_alert_iff es (List.replicate 22 failed) hfailed).1 (by decide)).mpr (by decide +kernel)⟩

/-! ### The latencies -/

/-- The latencies of a gateway that the events have recorded, in order. -/
def latencies (g : String) (es : List PaymentEvent) : List ℚ :=
  (List.range es.length).flatMap fun n =>
    ((es[n]?.filter (·.isOutcome g)).bind ((heard (es.take n)).latencyOf ·)).toList

theorem latencies_append_singleton : latencies g (es ++ [e]) = latencies g es ++
    if e.isOutcome g then ((heard es).latencyOf e).toList else [] := by
  rw [latencies, List.length_append, List.length_singleton, List.range_succ, List.flatMap_append]
  congr 1
  · refine List.flatMap_congr fun n hn => ?_
    rw [List.mem_range] at hn
    rw [List.getElem?_append_left hn, List.take_append_of_le_length hn.le]
  · cases he : e.isOutcome g <;> simp [he, Option.filter]

theorem recordLatency_latency (m : MetricsCollector) (c : GatewayCounters) :
    (m.recordLatency c e.jobId e.stopped).latency =
      c.latency.recordAll (m.latencyOf e).toList := by
  unfold recordLatency latencyOf
  cases m.startedAt e.jobId <;> rfl

/-- An outcome of the gateway records its latency in the gateway's window, if there is one. -/
theorem latency_hear (m : MetricsCollector) : ((m.hear e).getOrCreate g).latency =
    (m.getOrCreate g).latency.recordAll
      (if e.isOutcome g then (m.latencyOf e).toList else []) := by
  by_cases hg : e.gatewayId = g
  · subst hg
    cases hout : e.isOutcome e.gatewayId with
    | false =>
        cases e with
        | started => rfl
        | completed | failed => simp [PaymentEvent.isOutcome, PaymentEvent.gatewayId] at hout
    | true =>
        rw [if_pos rfl, ← recordLatency_latency]
        cases e with
        | started => simp [PaymentEvent.isOutcome] at hout
        | completed | failed =>
            simp [hear, onCompleted, onFailed, recordOutcome, getOrCreate,
              PaymentEvent.gatewayId, PaymentEvent.jobId, PaymentEvent.stopped]
  · have hnot : e.isOutcome g = false := by
      cases e <;> simp_all [PaymentEvent.isOutcome, PaymentEvent.gatewayId]
    rw [getOrCreate_hear_of_ne hg, hnot]
    rfl

/-- The window of a gateway holds the latencies of its outcomes. -/
theorem latency_heard (g : String) (es : List PaymentEvent) :
    ((heard es).getOrCreate g).latency = LatencyWindow.recorded 5000 (latencies g es) := by
  induction es using List.reverseRecOn with
  | nil => rfl
  | append_singleton es e ih =>
      rw [heard_append_singleton, latency_hear, ih, latencies_append_singleton,
        LatencyWindow.recorded, LatencyWindow.recorded, LatencyWindow.recordAll,
        LatencyWindow.recordAll, LatencyWindow.recordAll, List.foldl_append]

/-- The window of a gateway, as a list. -/
theorem samples_heard (g : String) (es : List PaymentEvent) :
    ((heard es).getOrCreate g).latency.samples = (latencies g es).rtake 5000 := by
  rw [latency_heard, LatencyWindow.samples_recorded]

/-- The P99 of a window is over `v` if a hundredth of the samples is, rounded up. -/
theorem p99_gt_iff {w : LatencyWindow} {v : ℚ} (hw : w.samples ≠ []) :
    (∃ p99, w.percentile 99 = some p99 ∧ v < p99) ↔
      w.samples.length ≤ 100 * w.samples.countP (v < ·) := by
  obtain ⟨i, hidx, hi, heq⟩ := LatencyWindow.percentile_eq hw (p := 99) (by norm_num)
  have hlen : 0 < w.samples.length := List.length_pos_iff.mpr hw
  have hfloor : ⌊(99 / 100 : ℚ) * w.samples.length⌋ =
      ((99 * w.samples.length / 100 : Nat) : Int) := by
    have hdiv := Rat.floor_natCast_div_natCast (99 * w.samples.length) 100
    push_cast at hdiv ⊢
    rw [← hdiv]
    congr 1
    ring
  rw [quantileIndex, hfloor] at hidx
  have hperm := List.perm_insertionSort (· ≤ ·) w.samples
  have hcount := lt_getElem_iff List.sortedLE_insertionSort hi (v := v)
  rw [hperm.length_eq, hperm.countP_eq] at hcount
  rw [heq]
  simp only [Option.some.injEq, exists_eq_left', hcount]
  omega

theorem latencyAlert_checkAlerts {c : GatewayCounters} :
    (∃ p99, Alert.p99Latency g p99 ∈ checkAlerts g c) ↔
      20 ≤ c.succeeded + c.failed ∧ c.latency.samples ≠ [] ∧
        c.latency.samples.length ≤ 100 * c.latency.samples.countP (5000 < ·) := by
  have halert : (∃ p99, Alert.p99Latency g p99 ∈ checkAlerts g c) ↔
      20 ≤ c.succeeded + c.failed ∧
        ∃ p99, c.latency.percentile 99 = some p99 ∧ 5000 < p99 := by
    simp [mem_checkAlerts]
  rw [halert]
  refine and_congr_right fun _ => ?_
  by_cases hw : c.latency.samples = []
  · simp [LatencyWindow.percentile, hw]
  · rw [p99_gt_iff hw, and_iff_right hw]

/-- **When slow payments are noticed.** After any events, an outcome of the gateway raises the
alert on the P99 exactly if there are twenty outcomes, and of the latest latencies of the
gateway, 5000 or all there are, at least one and one in a hundred are over 5 s. -/
theorem latency_alert_iff {g : String} (es : List PaymentEvent) {e : PaymentEvent}
    (he : e.isOutcome g = true) :
    (∃ p99, Alert.p99Latency g p99 ∈ (heard es).alertsAt e) ↔
      20 ≤ successes g (es ++ [e]) + failures g (es ++ [e]) ∧
        (latencies g (es ++ [e])).rtake 5000 ≠ [] ∧
        ((latencies g (es ++ [e])).rtake 5000).length ≤
          100 * ((latencies g (es ++ [e])).rtake 5000).countP (5000 < ·) := by
  obtain ⟨hsucceeded, hfailed⟩ := counts_heard g (es ++ [e])
  rw [alertsAt_eq he, latencyAlert_checkAlerts, hsucceeded, hfailed, samples_heard]

/-- A payment that takes 6 s, the first of twenty whose start is known. -/
theorem latency_alert_iff_slow :
    let es := List.replicate 19 (PaymentEvent.completed "idem_1" "stripe" 0 1000) ++
      [.started "idem_2" "stripe" 2000]
    ∃ p99, Alert.p99Latency "stripe" p99 ∈
      (heard es).alertsAt (.completed "idem_2" "stripe" 8000 8000) := by
  intro es
  exact (latency_alert_iff es rfl).mpr (by decide +kernel)

end MetricsCollector

end PaymentQueue
