import Mathlib.Data.List.Sort
import Mathlib.Data.Rat.Floor
import Mathlib.Logic.Function.Basic

/-!
# PaymentQueue.MetricsCollector

`MetricsCollectorService` of `monitoring/metrics-collector.service.ts`, in exact arithmetic:
the counters of every gateway, fed from the events `payment.started`, `payment.completed`
and `payment.failed`, and the snapshot that is taken of them.

Every method takes its clock readings as arguments, in the order in which it makes them.
The alerts of `checkAlerts` are in `PaymentQueue.Alerts`.
-/

namespace PaymentQueue

/-- `LatencyWindow`. -/
structure LatencyWindow where
  samples : List ℚ := []
  maxSize : Nat := 5000

namespace LatencyWindow

variable (w : LatencyWindow)

/-- `record`. -/
def record (ms : ℚ) : LatencyWindow :=
  let samples := w.samples ++ [ms]
  { w with samples := if samples.length > w.maxSize then samples.tail else samples }

/-- `percentile`; there is none for a `p` below zero, of a window that is not empty. -/
def percentile (p : ℚ) : Option ℚ :=
  if w.samples.length = 0 then some 0
  else
    let sorted := w.samples.insertionSort (· ≤ ·)
    let idx := min ((sorted.length : Int) - 1) ⌊p / 100 * sorted.length⌋
    if idx < 0 then none else sorted[idx.toNat]?

end LatencyWindow

/-- `GatewayCounters`. -/
structure GatewayCounters where
  succeeded : Nat := 0
  failed : Nat := 0
  latency : LatencyWindow := {}
  recentTimestamps : List Int := []

/-- `MetricsSnapshot`. -/
structure MetricsSnapshot where
  gatewayId : String
  tps : ℚ
  successRate : ℚ
  p95LatencyMs : Option ℚ
  p99LatencyMs : Option ℚ
  totalProcessed : Nat

/-- The state of `MetricsCollectorService`. -/
structure MetricsCollector where
  counters : String → Option GatewayCounters := fun _ => none
  /-- When the processing of a job started, by job id. -/
  startTimes : String → Option Int := fun _ => none

namespace MetricsCollector

variable (m : MetricsCollector)

/-- `markStart`, and the listener of `payment.started`. -/
def markStart (jobId : String) (now : Int) : MetricsCollector :=
  { m with startTimes := Function.update m.startTimes jobId (some now) }

/-- `getOrCreate`: the counters. -/
def getOrCreate (gatewayId : String) : GatewayCounters := (m.counters gatewayId).getD {}

/-- `startTimes.get`, as its truth value is tested: a start at time `0` is none. -/
def startedAt (jobId : String) : Option Int := (m.startTimes jobId).filter (· ≠ 0)

/-- The latency of the job, if its start is known. -/
def recordLatency (c : GatewayCounters) (jobId : String) (stopped : Int) : GatewayCounters :=
  match m.startedAt jobId with
  | some startedAt => { c with latency := c.latency.record ((stopped - startedAt : Int) : ℚ) }
  | none => c

/-- The time of an outcome, and of those before it no more than 60 s ago. -/
def recordTimestamp (recentTimestamps : List Int) (now : Int) : List Int :=
  let cutoff := now - 60000
  (recentTimestamps ++ [now]).dropWhile (· < cutoff)

/-- `recordOutcome`. It reads the clock when the job stopped, if its start is known, and
`now` for the time of the outcome. -/
def recordOutcome (gatewayId jobId : String) (success : Bool) (stopped now : Int) :
    MetricsCollector :=
  let c := m.recordLatency (m.getOrCreate gatewayId) jobId stopped
  let c :=
    { c with
      succeeded := c.succeeded + if success then 1 else 0
      failed := c.failed + if success then 0 else 1
      recentTimestamps := recordTimestamp c.recentTimestamps now }
  { counters := Function.update m.counters gatewayId (some c)
    startTimes :=
      if (m.startedAt jobId).isSome then Function.update m.startTimes jobId none
      else m.startTimes }

/-- `onCompleted`. -/
def onCompleted (jobId gatewayId : String) (stopped now : Int) : MetricsCollector :=
  m.recordOutcome gatewayId jobId true stopped now

/-- `onFailed`. -/
def onFailed (jobId gatewayId : String) (stopped now : Int) : MetricsCollector :=
  m.recordOutcome gatewayId jobId false stopped now

/-- `snapshot`; it creates the counters if there are none. -/
def snapshot (gatewayId : String) : MetricsSnapshot × MetricsCollector :=
  let c := m.getOrCreate gatewayId
  let total := c.succeeded + c.failed
  ({ gatewayId := gatewayId
     tps := (c.recentTimestamps.length : ℚ) / 60
     successRate := if total = 0 then 1 else (c.succeeded : ℚ) / total
     p95LatencyMs := c.latency.percentile 95
     p99LatencyMs := c.latency.percentile 99
     totalProcessed := total },
   { m with counters := Function.update m.counters gatewayId (some c) })

/-! ### What an outcome counts -/

section

variable {m : MetricsCollector} {g gatewayId jobId : String} {success : Bool} {stopped now : Int}

theorem recordLatency_counts (m : MetricsCollector) (c : GatewayCounters) (jobId : String)
    (stopped : Int) :
    (m.recordLatency c jobId stopped).succeeded = c.succeeded ∧
      (m.recordLatency c jobId stopped).failed = c.failed := by
  unfold recordLatency
  split <;> exact ⟨rfl, rfl⟩

/-- An outcome of a gateway counts for that gateway, as a success or as a failure. -/
theorem counts_recordOutcome :
    ((m.recordOutcome gatewayId jobId success stopped now).getOrCreate g).succeeded =
      (m.getOrCreate g).succeeded + (if g = gatewayId ∧ success = true then 1 else 0) ∧
    ((m.recordOutcome gatewayId jobId success stopped now).getOrCreate g).failed =
      (m.getOrCreate g).failed + (if g = gatewayId ∧ success = false then 1 else 0) := by
  by_cases hg : g = gatewayId
  · subst hg
    have hcounts := recordLatency_counts m (m.getOrCreate g) jobId stopped
    cases success <;> simpa [recordOutcome, getOrCreate] using hcounts
  · simp [recordOutcome, getOrCreate, hg]

end

end MetricsCollector

end PaymentQueue
