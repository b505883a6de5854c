import PaymentQueue.Throughput

/-!
# PaymentQueue.LatencyIsolation

Do the metrics of one gateway depend on the events of another?

The counters are kept by gateway, but the times at which jobs have started are kept by job
id alone, and a job id is unique only within a queue: two gateways can have a job of the same
id. An event of the other gateway then overwrites the start, or takes it away. The latencies
of a gateway are those it would have alone exactly if the start of each of its jobs, as of
their outcomes, is what its own events have left (`isolation_iff`).
-/

namespace PaymentQueue

open Async

/-- The start of its job that is known after the event. A start at time `0` counts as none. -/
def PaymentEvent.startLeft : PaymentEvent → Option Int
  | started _ _ now => (some now).filter (· ≠ 0)
  | completed _ _ _ _ | failed _ _ _ _ => none

/-- When the job stopped, for the event of an outcome. -/
def PaymentEvent.stopped : PaymentEvent → Int
  | started _ _ now => now
  | completed _ _ stopped _ | failed _ _ stopped _ => stopped

namespace MetricsCollector

/-- The start of the job that the events have left: that of the latest event about it. -/
def startOf (jobId : String) (es : List PaymentEvent) : Option Int :=
  (es.filter (·.jobId = jobId)).getLast?.bind (·.startLeft)

/-- The events of the gateway alone. -/
def ownEvents (g : String) (es : List PaymentEvent) : List PaymentEvent :=
  es.filter (·.gatewayId = g)

/-- The latency that is recorded for an outcome, if one is. -/
def latencyOf (m : MetricsCollector) (e : PaymentEvent) : Option ℚ :=
  (m.startedAt e.jobId).map fun startedAt => ((e.stopped - startedAt : Int) : ℚ)

/-- At each outcome of the gateway, the start of the job is what the gateway's own events
have left. -/
def StartsOwn (g : String) (es : List PaymentEvent) : Prop :=
  ∀ n, ∀ _ : n < es.length, es[n].isOutcome g = true →
    startOf es[n].jobId (es.take n) = startOf es[n].jobId (ownEvents g (es.take n))

instance (g : String) (es : List PaymentEvent) : Decidable (StartsOwn g es) :=
  inferInstanceAs (Decidable (∀ n, ∀ _ : n < es.length, _ → _))

variable {m : MetricsCollector} {g jobId : String} {es : List PaymentEvent} {e : PaymentEvent}

/-! ### The starts -/

theorem startOf_append_singleton : startOf jobId (es ++ [e]) =
    if e.jobId = jobId then e.startLeft else startOf jobId es := by
  by_cases h : e.jobId = jobId <;> simp [startOf, h]

/-- An event settles the start of its own job, and of no other. -/
theorem startedAt_hear :
    (m.hear e).startedAt jobId = if e.jobId = jobId then e.startLeft else m.startedAt jobId := by
  have houtcome : ∀ gatewayId jobId' success stopped now,
      (m.recordOutcome gatewayId jobId' success stopped now).startedAt jobId =
        if jobId' = jobId then none else m.startedAt jobId := by
    intro gatewayId jobId' success stopped now
    by_cases hj : jobId' = jobId
    · subst hj
      rw [if_pos rfl, startedAt, recordOutcome]
      cases hstart : m.startedAt jobId' with
      | none => simpa [startedAt, hstart] using hstart
      | some start => simp
    · have hne : jobId ≠ jobId' := fun h => hj h.symm
      have hkept : (m.recordOutcome gatewayId jobId' success stopped now).startTimes jobId =
          m.startTimes jobId := by
        cases hstart : (m.startedAt jobId').isSome <;> simp [recordOutcome, hstart, hne]
      rw [if_neg hj, startedAt, hkept, startedAt]
  cases e with
  | started jobId' gatewayId now =>
      by_cases hj : jobId' = jobId
      · subst hj
        simp [hear, markStart, startedAt, PaymentEvent.jobId, PaymentEvent.startLeft]
      · have hne : jobId ≠ jobId' := fun h => hj h.symm
        simp [hear, markStart, startedAt, PaymentEvent.jobId, hj, Function.update_of_ne hne]
  | completed jobId' gatewayId stopped now => exact houtcome gatewayId jobId' true stopped now
  | failed jobId' gatewayId stopped now => exact houtcome gatewayId jobId' false stopped now

/-- The collector knows the starts that the events have left. -/
theorem startedAt_heard (jobId : String) (es : List PaymentEvent) :
    (heard es).startedAt jobId = startOf jobId es := by
  induction es using List.reverseRecOn with
  | nil => rfl
  | append_singleton es e ih =>
      rw [heard_append_singleton, startedAt_hear, startOf_append_singleton, ih]

/-! ### The counters of one gateway -/

theorem ownEvents_append_singleton : ownEvents g (es ++ [e]) =
    ownEvents g es ++ if e.gatewayId = g then [e] else [] := by
  by_cases h : e.gatewayId = g <;> simp [ownEvents, h]

/-- An event of another gateway leaves the counters alone. -/
theorem getOrCreate_hear_of_ne (h : e.gatewayId ≠ g) :
    (m.hear e).getOrCreate g = m.getOrCreate g := by
  have hne : g ≠ e.gatewayId := fun heq => h heq.symm
  cases e with
  | started jobId gatewayId now => rfl
  | completed jobId gatewayId stopped now | failed jobId gatewayId stopped now =>
      simp [hear, onCompleted, onFailed, recordOutcome, getOrCreate,
        show g ≠ gatewayId from hne]

/-- What an event does to the counters of its gateway depends on these, and on the start of
its job if it is an outcome. -/
theorem getOrCreate_hear_congr {m' : MetricsCollector}
    (hcounters : m.getOrCreate g = m'.getOrCreate g)
    (hstart : e.isOutcome g = true → m.startedAt e.jobId = m'.startedAt e.jobId) :
    (m.hear e).getOrCreate g = (m'.hear e).getOrCreate g := by
  by_cases hg : e.gatewayId = g
  case neg => rw [getOrCreate_hear_of_ne hg, getOrCreate_hear_of_ne hg, hcounters]
  have houtcome : ∀ jobId success stopped now, m.startedAt jobId = m'.startedAt jobId →
      (m.recordOutcome g jobId success stopped now).getOrCreate g =
        (m'.recordOutcome g jobId success stopped now).getOrCreate g := by
    intro jobId success stopped now hstart
    have hlatency : m.recordLatency (m.getOrCreate g) jobId stopped =
        m'.recordLatency (m'.getOrCreate g) jobId stopped := by
      rw [recordLatency, recordLatency, hstart, hcounters]
    simp only [recordOutcome, hlatency]
    simp [getOrCreate]
  cases e with
  | started jobId gatewayId now => exact hcounters
  | completed jobId gatewayId stopped now =>
      obtain rfl : gatewayId = g := hg
      exact houtcome jobId true stopped now (hstart (by simp [PaymentEvent.isOutcome]))
  | failed jobId gatewayId stopped now =>
      obtain rfl : gatewayId = g := hg
      exact houtcome jobId false stopped now (hstart (by simp [PaymentEvent.isOutcome]))

theorem StartsOwn.of_append (h : StartsOwn g (es ++ [e])) : StartsOwn g es := by
  intro n hn houtcome
  have hn' : n < (es ++ [e]).length := by simp; omega
  have hget : (es ++ [e])[n] = es[n] := List.getElem_append_left hn
  have := h n hn' (by rwa [hget])
  rwa [hget, List.take_append_of_le_length hn.le] at this

theorem StartsOwn.last (h : StartsOwn g (es ++ [e])) (houtcome : e.isOutcome g = true) :
    startOf e.jobId es = startOf e.jobId (ownEvents g es) := by
  have := h es.length (by simp) (by simpa using houtcome)
  simpa using this

/-- Then the gateway's counters are what they would be without the others. -/
theorem StartsOwn.getOrCreate_eq (h : StartsOwn g es) :
    (heard es).getOrCreate g = (heard (ownEvents g es)).getOrCreate g := by
  induction es using List.reverseRecOn with
  | nil => rfl
  | append_singleton es e ih =>
      have hsame := ih h.of_append
      rw [heard_append_singleton, ownEvents_append_singleton]
      by_cases hg : e.gatewayId = g
      · rw [if_pos hg, heard_append_singleton]
        refine getOrCreate_hear_congr hsame fun houtcome => ?_
        rw [startedAt_heard, startedAt_heard, h.last houtcome]
      · rw [if_neg hg, List.append_nil, getOrCreate_hear_of_ne hg, hsame]

/-- **Isolation of the latencies.** In every history of events: each outcome of the gateway
records the latency that it would record if the gateway were alone, if and only if the start
of its job is then what the gateway's own events have left; and then a snapshot of the
gateway is the same as without the events of the others. -/
theorem isolation_iff (g : String) (es : List PaymentEvent) :
    ((∀ n, ∀ h : n < es.length, es[n].isOutcome g = true →
        (heard (es.take n)).latencyOf es[n] = (heard (ownEvents g (es.take n))).latencyOf es[n]) ↔
      StartsOwn g es) ∧
    (StartsOwn g es → ((heard es).snapshot g).1 = ((heard (ownEvents g es)).snapshot g).1) := by
  constructor
  · refine forall_congr' fun n => forall_congr' fun hn => forall_congr' fun _ => ?_
    rw [latencyOf, latencyOf, startedAt_heard, startedAt_heard]
    refine ⟨fun heq => ?_, fun heq => by rw [heq]⟩
    refine Option.map_injective (fun a b hab => ?_) heq
    have : es[n].stopped - a = es[n].stopped - b := by exact_mod_cast hab
    omega
  · intro h
    simp only [snapshot, h.getOrCreate_eq]

/-- Jobs of the same id on two gateways, one after the other. -/
theorem isolation_iff_apart :
    let es : List PaymentEvent :=
      [.started "idem_1" "stripe" 1000, .completed "idem_1" "stripe" 1400 1400,
        .started "idem_1" "adyen" 2000, .failed "idem_1" "adyen" 2900 2900]
    ((heard es).snapshot "stripe").1 = ((heard (ownEvents "stripe" es)).snapshot "stripe").1 := by
  intro es
  exact (isolation_iff "stripe" es).2 (by decide)

/-- The same two jobs at the same time: the latency of `stripe` is measured from the start on
`adyen`. -/
theorem latency_mixed :
    let es : List PaymentEvent :=
      [.started "idem_1" "stripe" 1000, .started "idem_1" "adyen" 1300,
        .completed "idem_1" "stripe" 1400 1400]
    ((heard es).snapshot "stripe").1.p99LatencyMs = some 100 ∧
      ((heard (ownEvents "stripe" es)).snapshot "stripe").1.p99LatencyMs = some 400 := by
  decide +kernel

end MetricsCollector

end PaymentQueue
