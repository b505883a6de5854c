import PaymentQueue.Async.Object
import PaymentQueue.Throughput
import PaymentQueue.Types

/-!
# PaymentQueue.Dashboard

`DashboardGateway` of `monitoring/dashboard.gateway.ts`, with the `fullDashboardPayload` and
`collectMetrics` that it awaits at every tick.

A tick asks Redis for the counts of one queue after the other and may take longer than the two
seconds to the next tick, so ticks overlap and overtake one another. The timer runs exactly
while a client is connected (`one_heartbeat`), and what is emitted is in order all the same
(`ticks_in_order`): the numbers of the gateways are read when the counts are there.
-/

namespace PaymentQueue

open Async

/-- `QueueMetricsSnapshot`. -/
structure QueueMetricsSnapshot where
  queueName : String
  waiting : Nat
  active : Nat
  delayed : Nat
  failed : Nat
  completed : Nat
  avgLatencyMs : Nat := 0

/-- What `getJobCounts` resolves with: the counts that there are. -/
structure JobCounts where
  waiting : Option Nat := none
  active : Option Nat := none
  delayed : Option Nat := none
  failed : Option Nat := none
  completed : Option Nat := none

/-- The snapshot that `collectMetrics` pushes for a queue. -/
def JobCounts.snapshot (counts : JobCounts) (queueName : String) : QueueMetricsSnapshot where
  queueName := queueName
  waiting := counts.waiting.getD 0
  active := counts.active.getD 0
  delayed := counts.delayed.getD 0
  failed := counts.failed.getD 0
  completed := counts.completed.getD 0

/-- The payload of `metrics:tick`. -/
structure DashboardPayload where
  timestamp : Int
  gateways : List MetricsSnapshot
  queues : List QueueMetricsSnapshot

/-- The dashboard's gateway, with what it looks at. -/
structure Dashboard where
  /-- The clients connected to the namespace. -/
  sockets : List String := []
  heartbeat : Option Nat := none
  /-- The intervals that are running. -/
  intervals : List Nat := []
  /-- The intervals ever set. -/
  created : Nat := 0
  /-- The ticks in `collectMetrics`, each awaiting the counts of its next queue. -/
  collecting : List (List QueueMetricsSnapshot) := []
  /-- The ticks that have the counts of all queues, in the order in which they go on. -/
  collected : List (List QueueMetricsSnapshot) := []
  /-- The payloads about to be emitted, in this order. -/
  payloads : List DashboardPayload := []
  emitted : List DashboardPayload := []
  metrics : MetricsCollector := {}
  /-- The keys of the collector's counters, in the order in which they were set. -/
  gatewayIds : List String := []
  /-- The keys of `QueueManagerService.queues`. -/
  queues : List String := []
  now : Int := 0

namespace Dashboard

variable (d : Dashboard)

/-- `startHeartbeat`. -/
def startHeartbeat : Dashboard :=
  { d with
    heartbeat := some d.created
    intervals := d.intervals ++ [d.created]
    created := d.created + 1 }

/-- `handleConnection`. -/
def handleConnection : Dashboard := if d.heartbeat.isNone then d.startHeartbeat else d

/-- `handleDisconnect`. -/
def handleDisconnect : Dashboard :=
  match d.heartbeat with
  | some interval =>
      if d.sockets.length = 0 then
        { d with intervals := d.intervals.erase interval, heartbeat := none }
      else d
  | none => d

/-- A tick calls `collectMetrics`, up to its first `await`. -/
def tick : Dashboard :=
  if d.queues.length = 0 then { d with collected := d.collected ++ [[]] }
  else { d with collecting := d.collecting ++ [[]] }

/-- `collectMetrics` hears from Redis and goes on to the next queue, if there is one. A
rejection is nobody's to handle; the tick is over. -/
def counted (k : Nat) (res : Except Thrown JobCounts) : Dashboard :=
  match d.collecting[k]? with
  | some snapshots =>
      match res, d.queues[snapshots.length]? with
      | .ok counts, some queueName =>
          let snapshots := snapshots ++ [counts.snapshot queueName]
          if snapshots.length < d.queues.length then
            { d with collecting := d.collecting.set k snapshots }
          else
            { d with
              collecting := d.collecting.eraseIdx k
              collected := d.collected ++ [snapshots] }
      | _, _ => { d with collecting := d.collecting.eraseIdx k }
  | none => d

/-- `allSnapshots`. -/
def allSnapshots : List MetricsSnapshot := d.gatewayIds.map fun g => (d.metrics.snapshot g).1

/-- `fullDashboardPayload`, after its `await`. -/
def fullDashboardPayload (queueMetrics : List QueueMetricsSnapshot) : DashboardPayload where
  timestamp := d.now
  gateways := d.allSnapshots
  queues := queueMetrics

/-- The next tick that has its counts makes its payload. -/
def build : Dashboard :=
  match d.collected with
  | queueMetrics :: collected =>
      { d with
        collected := collected
        payloads := d.payloads ++ [d.fullDashboardPayload queueMetrics] }
  | [] => d

/-- The next payload is emitted. -/
def emit : Dashboard :=
  match d.payloads with
  | payload :: payloads => { d with payloads := payloads, emitted := d.emitted ++ [payload] }
  | [] => d

/-- The collector hears an event; the first outcome of a gateway sets its counters. -/
def hear (e : PaymentEvent) : Dashboard :=
  { d with
    metrics := d.metrics.hear e
    gatewayIds :=
      if e.isOutcome e.gatewayId = true ∧ e.gatewayId ∉ d.gatewayIds then
        d.gatewayIds ++ [e.gatewayId]
      else d.gatewayIds }

end Dashboard

/-- What can happen next. -/
inductive DashboardCall
  | connect (client : String)
  | disconnect (client : String)
  /-- The timer of an interval fires. -/
  | fire (interval : Nat)
  /-- Redis answers the tick number `k` of those that await counts. -/
  | counted (k : Nat) (res : Except Thrown JobCounts)
  | build
  | emit
  | hear (e : PaymentEvent)
  /-- A queue is set. -/
  | register (queueName : String)
  | wait (ms : Nat)

namespace Dashboard

/-- Socket.io adds a client before it says so, and removes it before it says so. -/
def next (d : Dashboard) : DashboardCall → Dashboard
  | .connect client => { d with sockets := d.sockets ++ [client] }.handleConnection
  | .disconnect client => { d with sockets := d.sockets.erase client }.handleDisconnect
  | .fire _ => d.tick
  | .counted k res => d.counted k res
  | .build => d.build
  | .emit => d.emit
  | .hear e => d.hear e
  | .register queueName => { d with queues := d.queues ++ [queueName] }
  | .wait ms => { d with now := d.now + ms }

/-- A client connects and disconnects in turn, and only a running interval fires. -/
def Possible (d : Dashboard) : DashboardCall → Prop
  | .connect client => client ∉ d.sockets
  | .disconnect client => client ∈ d.sockets
  | .fire interval => interval ∈ d.intervals
  | .register queueName => queueName ∉ d.queues
  | _ => True

instance (d : Dashboard) : (c : DashboardCall) → Decidable (d.Possible c)
  | .connect _ | .register _ => inferInstanceAs (Decidable (¬ _))
  | .disconnect client => inferInstanceAs (Decidable (client ∈ d.sockets))
  | .fire interval => inferInstanceAs (Decidable (interval ∈ d.intervals))
  | .counted _ _ | .build | .emit | .hear _ | .wait _ => inferInstanceAs (Decidable True)

/-- The dashboard's gateway as an object. -/
def object : Object Dashboard DashboardCall fun _ => Unit where
  run d c := ((), d.next c)

/-- The states a new dashboard comes to. -/
abbrev Reachable (d : Dashboard) : Prop := object.Reached Possible {} d

variable {d : Dashboard} {c : DashboardCall}

theorem counters_hear (m : MetricsCollector) (e : PaymentEvent) (g : String) :
    ((m.hear e).counters g).isSome = ((m.counters g).isSome || e.isOutcome g) := by
  have houtcome : ∀ gatewayId jobId success stopped now,
      ((m.recordOutcome gatewayId jobId success stopped now).counters g).isSome =
        ((m.counters g).isSome || gatewayId == g) := by
    intro gatewayId jobId success stopped now
    by_cases hg : g = gatewayId
    · simp [MetricsCollector.recordOutcome, hg]
    · simp [MetricsCollector.recordOutcome, hg, Ne.symm hg]
  cases e with
  | started => simp [MetricsCollector.hear, MetricsCollector.markStart, PaymentEvent.isOutcome]
  | completed => exact houtcome ..
  | failed => exact houtcome ..

/-- The gateways of the snapshots are those that have counters. -/
theorem mem_gatewayIds (h : d.Reachable) (g : String) :
    g ∈ d.gatewayIds ↔ (d.metrics.counters g).isSome = true := by
  induction h with
  | start => simp
  | @step d c _ _ ih =>
      cases c with
      | hear e =>
          have hid : e.isOutcome g = true ↔ e.isOutcome e.gatewayId = true ∧ e.gatewayId = g := by
            cases e <;> simp [PaymentEvent.isOutcome, PaymentEvent.gatewayId]
          simp only [object, Object.next, next, hear, counters_hear, Bool.or_eq_true, ← ih, hid]
          split <;> grind
      | connect | disconnect | fire | build | emit | counted =>
          simp only [object, Object.next, next, handleConnection, startHeartbeat,
            handleDisconnect, tick, build, emit, counted]
          grind
      | register | wait => exact ih

/-! ### The timer -/

/-- One interval is running while a client is connected, and none when there is none. -/
structure OneHeartbeat (d : Dashboard) : Prop where
  intervals : d.intervals = d.heartbeat.toList
  running : d.heartbeat.isSome = true ↔ d.sockets ≠ []

theorem OneHeartbeat.connect (h : d.OneHeartbeat) (client : String) :
    (d.next (.connect client)).OneHeartbeat := by
  have hrunning := h.running
  cases hb : d.heartbeat with
  | none => exact ⟨by simp [next, handleConnection, startHeartbeat, hb, h.intervals],
      by simp [next, handleConnection, startHeartbeat, hb]⟩
  | some interval => exact ⟨by simp [next, handleConnection, hb, h.intervals],
      by simp [next, handleConnection, hb]⟩

theorem OneHeartbeat.disconnect (h : d.OneHeartbeat) {client : String}
    (hmem : client ∈ d.sockets) : (d.next (.disconnect client)).OneHeartbeat := by
  have hrunning := h.running
  obtain ⟨interval, hb⟩ : ∃ interval, d.heartbeat = some interval :=
    Option.isSome_iff_exists.mp (hrunning.mpr (List.ne_nil_of_mem hmem))
  by_cases hlast : d.sockets.erase client = []
  · exact ⟨by simp [next, handleDisconnect, hb, hlast, h.intervals],
      by simp [next, handleDisconnect, hb, hlast]⟩
  · exact ⟨by simp [next, handleDisconnect, hb, hlast, h.intervals],
      by simp [next, handleDisconnect, hb, hlast]⟩

/-- Nothing but clients starts and stops the timer. -/
theorem OneHeartbeat.of_eq {d' : Dashboard} (h : d.OneHeartbeat) (hs : d'.sockets = d.sockets)
    (hb : d'.heartbeat = d.heartbeat) (hi : d'.intervals = d.intervals) : d'.OneHeartbeat :=
  ⟨by rw [hi, hb, h.intervals], by rw [hb, hs, h.running]⟩

theorem oneHeartbeat (h : d.Reachable) : d.OneHeartbeat := by
  induction h with
  | start => exact ⟨rfl, by simp⟩
  | @step d c _ hc ih =>
      cases c with
      | connect client => exact ih.connect client
      | disconnect client => exact ih.disconnect hc
      | fire | build | emit | counted =>
          refine ih.of_eq ?_ ?_ ?_ <;>
            simp only [object, Object.next, next, tick, build, emit, counted] <;> grind
      | hear e | register queueName | wait ms => exact ih.of_eq rfl rfl rfl

/-! ### What is read only grows -/

/-- The outcomes of a gateway that the dashboard counts. -/
def total (d : Dashboard) (g : String) : Nat := (d.metrics.snapshot g).1.totalProcessed

/-- Nothing that is read of `d` is more than what is read of `d'`. -/
structure Grows (d d' : Dashboard) : Prop where
  now : d.now ≤ d'.now
  gatewayIds : d.gatewayIds <+: d'.gatewayIds
  total : ∀ g, d.total g ≤ d'.total g
  queues : d.queues <+: d'.queues

theorem Grows.of_eq {d' : Dashboard} (hnow : d'.now = d.now)
    (hids : d'.gatewayIds = d.gatewayIds) (hmetrics : d'.metrics = d.metrics)
    (hqueues : d'.queues = d.queues) : d.Grows d' :=
  ⟨hnow.ge, hids ▸ List.prefix_rfl, fun g => by rw [Dashboard.total, Dashboard.total, hmetrics],
    hqueues ▸ List.prefix_rfl⟩

/-- An event takes nothing from what has been counted. -/
theorem total_hear (d : Dashboard) (e : PaymentEvent) (g : String) :
    d.total g ≤ (d.hear e).total g := by
  have houtcome : ∀ gatewayId jobId success stopped now, d.total g ≤ (total
      { d with metrics := d.metrics.recordOutcome gatewayId jobId success stopped now } g) := by
    intro gatewayId jobId success stopped now
    have hcounts := @MetricsCollector.counts_recordOutcome d.metrics g gatewayId jobId success
      stopped now
    simp only [total, MetricsCollector.snapshot, hcounts]
    omega
  cases e with
  | started => exact le_rfl
  | completed => exact houtcome ..
  | failed => exact houtcome ..

theorem grows_next (d : Dashboard) (c : DashboardCall) : d.Grows (d.next c) := by
  cases c with
  | connect | disconnect | fire | build | emit | counted =>
      refine .of_eq ?_ ?_ ?_ ?_ <;>
        simp only [next, handleConnection, startHeartbeat, handleDisconnect, tick, build, emit,
          counted] <;> grind
  | hear e =>
      refine ⟨le_rfl, ?_, d.total_hear e, List.prefix_rfl⟩
      simp only [next, hear]
      split
      · exact List.prefix_append _ _
      · exact List.prefix_rfl
  | register queueName =>
      exact ⟨le_rfl, List.prefix_rfl, fun _ => le_rfl, List.prefix_append _ _⟩
  | wait ms => exact ⟨by simp [next], List.prefix_rfl, fun _ => le_rfl, List.prefix_rfl⟩

/-! ### What is emitted is in order -/

/-- The queues of a list of snapshots. -/
abbrev names (queueMetrics : List QueueMetricsSnapshot) : List String :=
  queueMetrics.map (·.queueName)

end Dashboard

/-- One payload is not later than another: not its time, the gateways, their totals or the
queues. -/
structure DashboardPayload.Before (p q : DashboardPayload) : Prop where
  timestamp : p.timestamp ≤ q.timestamp
  gateways : p.gateways.map (·.gatewayId) <+: q.gateways.map (·.gatewayId)
  total : ∀ a ∈ p.gateways, ∀ b ∈ q.gateways, a.gatewayId = b.gatewayId →
    a.totalProcessed ≤ b.totalProcessed
  queues : Dashboard.names p.queues <+: Dashboard.names q.queues

namespace Dashboard

variable {d : Dashboard} {c : DashboardCall}

/-- What a payload says of the gateways has been so. -/
structure Behind (p : DashboardPayload) (d : Dashboard) : Prop where
  timestamp : p.timestamp ≤ d.now
  gateways : p.gateways.map (·.gatewayId) <+: d.gatewayIds
  total : ∀ a ∈ p.gateways, a.totalProcessed ≤ d.total a.gatewayId

theorem Behind.grows {p : DashboardPayload} {d' : Dashboard} (h : Behind p d)
    (hgrows : d.Grows d') : Behind p d' :=
  ⟨h.timestamp.trans hgrows.now, h.gateways.trans hgrows.gatewayIds,
    fun a ha => (h.total a ha).trans (hgrows.total _)⟩

theorem allSnapshots_gatewayId (d : Dashboard) :
    d.allSnapshots.map (·.gatewayId) = d.gatewayIds := by
  simp [allSnapshots, Function.comp_def, MetricsCollector.snapshot]

theorem total_of_mem {a : MetricsSnapshot} (h : a ∈ d.allSnapshots) :
    a.totalProcessed = d.total a.gatewayId := by
  obtain ⟨g, -, rfl⟩ := List.mem_map.mp h
  rfl

theorem behind_fullDashboardPayload (queueMetrics : List QueueMetricsSnapshot) :
    Behind (d.fullDashboardPayload queueMetrics) d :=
  ⟨le_rfl, (allSnapshots_gatewayId d) ▸ List.prefix_rfl, fun _ ha => (total_of_mem ha).le⟩

/-- The payloads made so far. -/
def made (d : Dashboard) : List DashboardPayload := d.emitted ++ d.payloads

/-- A payload is made of what there is, or none is. -/
theorem made_next (d : Dashboard) (c : DashboardCall) : (d.next c).made = d.made ∨
    ∃ queueMetrics collected, d.collected = queueMetrics :: collected ∧
      (d.next c).made = d.made ++ [d.fullDashboardPayload queueMetrics] := by
  cases c with
  | build =>
      cases hcol : d.collected with
      | nil => exact Or.inl (by simp [next, build, hcol])
      | cons queueMetrics collected => exact Or.inr ⟨_, _, rfl, by simp [next, build, hcol, made]⟩
  | emit =>
      refine Or.inl ?_
      cases hpay : d.payloads <;> simp [next, emit, hpay, made]
  | connect | disconnect | fire | counted =>
      refine Or.inl ?_
      simp only [next, handleConnection, startHeartbeat, handleDisconnect, tick, counted]
      grind [made]
  | hear | register | wait => exact Or.inl rfl

/-- The ticks in `collectMetrics` have asked for the queues in turn. -/
def InTurn (d : Dashboard) : Prop :=
  ∀ t ∈ d.collecting, names t = d.queues.take t.length ∧ t.length < d.queues.length

/-- The answer for the next queue. -/
theorem names_snoc {t : List QueueMetricsSnapshot} {counts : JobCounts} {queueName : String}
    (ht : names t = d.queues.take t.length) (hq : d.queues[t.length]? = some queueName) :
    names (t ++ [counts.snapshot queueName]) =
      d.queues.take (t ++ [counts.snapshot queueName]).length := by
  simp [ht, List.take_add_one, hq, JobCounts.snapshot]

theorem InTurn.next (h : d.InTurn) (c : DashboardCall) : (d.next c).InTurn := by
  have hless : ∀ {d' : Dashboard}, d'.queues = d.queues →
      (∀ t ∈ d'.collecting, t ∈ d.collecting) → d'.InTurn :=
    fun hq hsub t ht => hq ▸ h t (hsub t ht)
  cases c with
  | fire interval =>
      simp only [Dashboard.next, tick]
      split
      · exact hless rfl fun t ht => ht
      · next hne =>
        intro t ht
        rcases List.mem_append.mp ht with ht | ht
        · exact h t ht
        · obtain rfl := List.mem_singleton.mp ht
          exact ⟨rfl, List.length_pos_iff.mpr (by simpa using hne)⟩
  | counted k res =>
      simp only [Dashboard.next, counted]
      split
      · next t hk =>
        split
        · next counts queueName hq =>
          split
          · next hmore =>
            intro t' ht'
            rcases List.mem_or_eq_of_mem_set ht' with ht' | rfl
            · exact h t' ht'
            · exact ⟨names_snoc (h t (List.mem_of_getElem? hk)).1 hq, hmore⟩
          · exact hless rfl fun t' ht' => List.mem_of_mem_eraseIdx ht'
        · exact hless rfl fun t' ht' => List.mem_of_mem_eraseIdx ht'
      · exact h
  | register queueName =>
      intro t ht
      obtain ⟨hnames, hlt⟩ := h t ht
      simp only [Dashboard.next, List.length_append]
      exact ⟨by rw [hnames, List.take_append_of_le_length hlt.le], by omega⟩
  | connect | disconnect | build | emit =>
      refine hless ?_ ?_ <;>
        simp only [Dashboard.next, handleConnection, startHeartbeat, handleDisconnect, build,
          emit] <;> grind
  | hear | wait => exact hless rfl fun t ht => ht

/-- The queues that the ticks have counted so far, of those that have counted all. -/
def asked (d : Dashboard) : List (List String) :=
  d.made.map (names ·.queues) ++ d.collected.map names

/-- A tick goes on when it has counted all the queues there are. -/
theorem asked_next (h : d.InTurn) (c : DashboardCall) :
    (d.next c).asked = d.asked ∨ (d.next c).asked = d.asked ++ [d.queues] := by
  cases c with
  | fire interval =>
      simp only [next, tick]
      split
      · next hnone =>
        obtain hnil : d.queues = [] := List.length_eq_zero_iff.mp hnone
        exact Or.inr (by simp [asked, made, hnil])
      · exact Or.inl rfl
  | counted k res =>
      simp only [next, counted]
      split
      · next t hk =>
        split
        · next counts queueName hq =>
          split
          · exact Or.inl rfl
          · next hlast =>
            have hall := @names_snoc d t counts queueName (h t (List.mem_of_getElem? hk)).1 hq
            rw [List.take_of_length_le (by omega)] at hall
            exact Or.inr (by simp [asked, made, ← hall])
        · exact Or.inl rfl
      · exact Or.inl rfl
  | build =>
      refine Or.inl ?_
      cases hcol : d.collected <;> simp [next, build, hcol, asked, made, fullDashboardPayload]
  | emit =>
      refine Or.inl ?_
      cases hpay : d.payloads <;> simp [next, emit, hpay, asked, made]
  | connect | disconnect =>
      refine Or.inl ?_
      simp only [next, handleConnection, startHeartbeat, handleDisconnect]
      grind [asked, made]
  | hear | register | wait => exact Or.inl rfl

theorem inTurn (h : d.Reachable) : d.InTurn := by
  induction h with
  | start => simp [InTurn]
  | step _ _ ih => exact ih.next _

/-- The payloads made are in order, as far as the gateways go. -/
theorem made_pairwise (h : d.Reachable) : d.made.Pairwise fun p q => p.timestamp ≤ q.timestamp ∧
    p.gateways.map (·.gatewayId) <+: q.gateways.map (·.gatewayId) ∧
    ∀ a ∈ p.gateways, ∀ b ∈ q.gateways, a.gatewayId = b.gatewayId →
      a.totalProcessed ≤ b.totalProcessed := by
  refine (h.readings (o := object) (L := made) (B := Behind) rfl
    (fun d c p _ _ hp => hp.grows (d.grows_next c)) fun d c _ _ => ?_).1
  rcases d.made_next c with heq | ⟨queueMetrics, collected, -, heq⟩
  · exact Or.inl heq
  · refine Or.inr ⟨_, heq, (behind_fullDashboardPayload _).grows (d.grows_next c), fun p hp => ?_⟩
    refine ⟨hp.timestamp, (allSnapshots_gatewayId d) ▸ hp.gateways, fun a ha b hb hab => ?_⟩
    rw [total_of_mem hb, ← hab]
    exact hp.total a ha

/-- The lists of queues asked for are in order. -/
theorem asked_pairwise (h : d.Reachable) : d.asked.Pairwise (· <+: ·) := by
  refine (h.readings (o := object) (L := asked) (B := fun l d => l <+: d.queues) rfl
    (fun d c l _ _ hl => hl.trans (d.grows_next c).queues) fun d c hd _ => ?_).1
  rcases asked_next (inTurn hd) c with heq | heq
  · exact Or.inl heq
  · exact Or.inr ⟨_, heq, (d.grows_next c).queues, fun l hl => hl⟩

/-- **The dashboard's ticks.** Whatever connects, disconnects, happens and is answered, in
whatever order: one interval is running while a client is connected, and none otherwise; and
each payload emitted is in everything at or after the ones before it, although a tick may have
been overtaken by a later one. -/
theorem ticks_in_order (h : d.Reachable) :
    d.OneHeartbeat ∧ d.emitted.Pairwise DashboardPayload.Before := by
  refine ⟨oneHeartbeat h, ?_⟩
  have hmade := (List.pairwise_append.mp (made_pairwise h)).1
  have hasked := (List.pairwise_append.mp (asked_pairwise h)).1
  rw [made, List.map_append] at hasked
  have hqueues := List.pairwise_map.mp (List.pairwise_append.mp hasked).1
  refine (hmade.and hqueues).imp ?_
  rintro p q ⟨⟨htime, hids, htotal⟩, hnames⟩
  exact ⟨htime, hids, htotal, hnames⟩

/-- The first tick is late with its counts, and the second goes on before it. -/
def overtaken : List DashboardCall :=
  [.connect "a", .register "payments-stripe-high", .fire 0, .wait 2000, .fire 0,
    .counted 1 (.ok { waiting := some 3 }), .build, .emit,
    .hear (.completed "job_1" "stripe" 1 1), .counted 0 (.ok {}), .wait 1, .build, .emit]

/-- The late counts come with the totals of the moment. -/
theorem ticks_in_order_overtaken : ∃ d : Dashboard,
    d.emitted.map (fun p => (p.timestamp, p.gateways.map (·.totalProcessed),
      p.queues.map (·.waiting))) = [(2000, [], [3]), (2001, [1], [0])] ∧
    d.OneHeartbeat ∧ d.emitted.Pairwise DashboardPayload.Before := by
  have hrun : ∃ d, object.Reached Possible {} d ∧
      d.emitted.map (fun p => (p.timestamp, p.gateways.map (·.totalProcessed),
        p.queues.map (·.waiting))) = [(2000, [], [3]), (2001, [1], [0])] :=
    Object.Reached.exists_of_allowed overtaken (by decide +kernel) (by decide +kernel)
  obtain ⟨d, h, hemitted⟩ := hrun
  exact ⟨d, hemitted, ticks_in_order h⟩

end Dashboard

end PaymentQueue
