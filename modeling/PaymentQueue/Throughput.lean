import PaymentQueue.Async.Window
import PaymentQueue.MetricsCollector

/-!
# PaymentQueue.Throughput

Is the throughput in a snapshot that of the last minute?

The collector keeps the times of a gateway's outcomes, and prunes those older than a minute
when it records one. `snapshot` does not prune: it counts the outcomes of the minute up to
the latest outcome (`recentTimestamps_heard`), however long ago that was. That is the
throughput of the last minute if and only if none of them has become older than a minute
since (`tps_iff`).
-/

namespace PaymentQueue

open Async

/-- An event on the bus that the collector listens to, with the clock readings that its
listener makes. -/
inductive PaymentEvent
  | started (jobId gatewayId : String) (now : Int)
  | completed (jobId gatewayId : String) (stopped now : Int)
  | failed (jobId gatewayId : String) (stopped now : Int)
  deriving DecidableEq

namespace PaymentEvent

/-- The job the event is about. -/
def jobId : PaymentEvent → String
  | started jobId _ _ | completed jobId _ _ _ | failed jobId _ _ _ => jobId

/-- The gateway the event names. -/
def gatewayId : PaymentEvent → String
  | started _ gatewayId _ | completed _ gatewayId _ _ | failed _ gatewayId _ _ => gatewayId

/-- When the event is heard. -/
def now : PaymentEvent → Int
  | started _ _ now | completed _ _ _ now | failed _ _ _ now => now

/-- The event is the outcome of a job of the gateway. -/
def isOutcome (g : String) : PaymentEvent → Bool
  | started _ _ _ => false
  | completed _ gatewayId _ _ | failed _ gatewayId _ _ => gatewayId == g

end PaymentEvent

namespace MetricsCollector

/-- What the listener of the event does. -/
def hear (m : MetricsCollector) : PaymentEvent → MetricsCollector
  | .started jobId _ now => m.markStart jobId now
  | .completed jobId gatewayId stopped now => m.onCompleted jobId gatewayId stopped now
  | .failed jobId gatewayId stopped now => m.onFailed jobId gatewayId stopped now

/-- A new collector that has heard the events, in order. -/
def heard (es : List PaymentEvent) : MetricsCollector := es.foldl hear {}

/-- The times of the gateway's outcomes. -/
def outcomeTimes (g : String) (es : List PaymentEvent) : List Int :=
  (es.filter (·.isOutcome g)).map (·.now)

variable {m : MetricsCollector} {g : String} {es : List PaymentEvent} {e : PaymentEvent}

@[simp] theorem heard_nil : heard [] = {} := rfl

@[simp] theorem heard_append_singleton : heard (es ++ [e]) = (heard es).hear e :=
  List.foldl_concat ..

theorem outcomeTimes_append_singleton : outcomeTimes g (es ++ [e]) =
    outcomeTimes g es ++ if e.isOutcome g then [e.now] else [] := by
  cases h : e.isOutcome g <;> simp [outcomeTimes, h]

theorem recordLatency_recentTimestamps (c : GatewayCounters) (jobId : String) (stopped : Int) :
    (m.recordLatency c jobId stopped).recentTimestamps = c.recentTimestamps := by
  unfold recordLatency
  split <;> rfl

/-- Only an outcome of the gateway changes its timestamps. -/
theorem recentTimestamps_hear :
    ((m.hear e).getOrCreate g).recentTimestamps =
      if e.isOutcome g then recordTimestamp (m.getOrCreate g).recentTimestamps e.now
      else (m.getOrCreate g).recentTimestamps := by
  have houtcome : ∀ gatewayId jobId success stopped now,
      ((m.recordOutcome gatewayId jobId success stopped now).getOrCreate g).recentTimestamps =
        if gatewayId == g then recordTimestamp (m.getOrCreate g).recentTimestamps now
        else (m.getOrCreate g).recentTimestamps := by
    intro gatewayId jobId success stopped now
    by_cases hg : gatewayId = g
    · subst hg
      simp [recordOutcome, getOrCreate, recordLatency_recentTimestamps]
    · simp [recordOutcome, getOrCreate, hg, Ne.symm hg]
  cases e with
  | started jobId gatewayId now => rfl
  | completed jobId gatewayId stopped now => exact houtcome gatewayId jobId true stopped now
  | failed jobId gatewayId stopped now => exact houtcome gatewayId jobId false stopped now

/-- The collector has kept the outcomes of the minute up to the latest one. -/
theorem recentTimestamps_heard (hes : (es.map (·.now)).Pairwise (· ≤ ·)) :
    ((heard es).getOrCreate g).recentTimestamps =
      (outcomeTimes g es).filter fun t =>
        decide (∀ last ∈ (outcomeTimes g es).getLast?, last - 60000 ≤ t) := by
  induction es using List.reverseRecOn with
  | nil => rfl
  | append_singleton es e ih =>
      rw [List.map_append, List.pairwise_append] at hes
      have ih := ih hes.1
      rw [heard_append_singleton, recentTimestamps_hear, outcomeTimes_append_singleton]
      split
      · next houtcome =>
        have hsub : (outcomeTimes g es).Sublist (es.map (·.now)) :=
          List.filter_sublist.map _
        have hle : ∀ t ∈ outcomeTimes g es, t ≤ e.now :=
          fun t ht => hes.2.2 t (hsub.subset ht) e.now (by simp)
        have hsorted : (outcomeTimes g es ++ [e.now]).Pairwise (· ≤ ·) := by
          refine List.pairwise_append.mpr ⟨hes.1.sublist hsub, by simp, ?_⟩
          simpa using hle
        rw [recordTimestamp, ih, dropWhile_lt (hsorted.sublist
          (List.filter_sublist.append_right _)), List.filter_append, List.filter_append,
          List.filter_filter]
        congr 1
        · -- what is pruned now was too old before, or is too old now
          refine List.filter_congr fun t ht => ?_
          simp only [List.getLast?_append, List.getLast?_singleton, Option.some_or,
            Option.mem_def, Option.some.injEq, forall_eq', Bool.and_eq_left_iff_imp,
            decide_eq_true_eq]
          intro hrecent last hlast
          have := hle last (List.mem_of_getLast? hlast)
          omega
        · simp
      · rw [List.append_nil, ih]

/-- **The throughput of the last minute.** After any events in order, of any gateways, the
`tps` of a snapshot taken of a gateway at any later time is the number of the gateway's
outcomes in the minute before, divided by 60, if and only if the outcomes that were no more
than a minute older than its latest one are no more than a minute old. -/
theorem tps_iff {es : List PaymentEvent} (hes : (es.map (·.now)).Pairwise (· ≤ ·)) (g : String)
    {s : Int} (hs : ∀ e ∈ es, e.now ≤ s) :
    ((heard es).snapshot g).1.tps =
        ((outcomeTimes g es).filter fun t => s - 60000 ≤ t ∧ t ≤ s).length / 60 ↔
      ∀ last ∈ (outcomeTimes g es).getLast?, ∀ t ∈ outcomeTimes g es,
        last - 60000 ≤ t → s - 60000 ≤ t := by
  have hle : ∀ t ∈ outcomeTimes g es, t ≤ s := by
    intro t ht
    obtain ⟨e, he, rfl⟩ := List.mem_map.mp ht
    exact hs e (List.mem_of_mem_filter he)
  have htps : ((heard es).snapshot g).1.tps =
      (((heard es).getOrCreate g).recentTimestamps.length : ℚ) / 60 := rfl
  rw [htps, div_left_inj' (by norm_num), Nat.cast_inj, recentTimestamps_heard hes,
    length_filter_eq_iff]
  · constructor
    · intro h last hlast t ht hrecent
      have hall : ∀ last' ∈ (outcomeTimes g es).getLast?, last' - 60000 ≤ t := by
        intro last' hlast'
        rwa [Option.mem_unique hlast' hlast]
      exact (of_decide_eq_true (h t ht (decide_eq_true hall))).1
    · intro h t ht hrecent
      obtain ⟨last, hlast⟩ := Option.ne_none_iff_exists'.mp
        (mt List.getLast?_eq_none_iff.mp (List.ne_nil_of_mem ht))
      exact decide_eq_true ⟨h last hlast t ht (of_decide_eq_true hrecent last hlast), hle t ht⟩
  · intro t ht hminute
    refine decide_eq_true fun last hlast => ?_
    have := (of_decide_eq_true hminute).1
    have := hle last (List.mem_of_getLast? hlast)
    omega

/-- Two payments within a minute, and a snapshot at the end of it. -/
theorem tps_iff_minute :
    ((heard [.completed "idem_1" "stripe" 0 1000, .failed "idem_2" "stripe" 0 30000]).snapshot
      "stripe").1.tps = 2 / 60 := by
  refine ((tps_iff (by decide) "stripe" (s := 61000) (by decide)).mpr (by decide)).trans ?_
  norm_num [outcomeTimes, PaymentEvent.isOutcome, PaymentEvent.now]

/-- One payment, and a snapshot an hour later that still counts it. -/
theorem tps_stale :
    let es : List PaymentEvent := [.completed "idem_1" "stripe" 0 1000]
    let s : Int := 3600000
    ((heard es).snapshot "stripe").1.tps = 1 / 60 ∧
      ((outcomeTimes "stripe" es).filter fun t => s - 60000 ≤ t ∧ t ≤ s).length / (60 : ℚ) = 0 := by
  decide +kernel

end MetricsCollector

end PaymentQueue
