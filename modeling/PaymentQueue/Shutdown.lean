import PaymentQueue.DelayedQueue

/-!
# PaymentQueue.Shutdown

Several instances of the service over one Redis, each of which may start, make calls, shut
down and end.

`shutdown` pauses every queue that its instance has registered. BullMQ keeps the pause in
Redis, under the name of the queue: it stops the workers of all instances, lasts longer than
the instance that made it, and nothing in the service resumes a queue. So a pause that is
under way is as good as a pause (`Kept`), and the queues that an instance takes jobs from
stay available as long as no other instance that shuts down shares one of them, and no worker
is attached to a queue that was paused before (`available_of_reached`).
-/

namespace PaymentQueue

open Async

/-! ### Instances over one Redis -/

/-- An instance of the application. -/
structure Instance where
  service : QueueService := {}
  /-- The queues it has told to pause, with no answer yet. -/
  pausing : List String := []

/-- The queues that a running instance takes jobs from. -/
def Instance.serving (inst : Instance) : List String :=
  if inst.service.shuttingDown then [] else inst.service.workers.map (·.queue)

/-- The instances, and what Redis keeps for them. -/
structure Cluster (ι : Type) where
  instances : ι → Option Instance := fun _ => none
  jobs : List QueuedJob := []
  /-- The flag that `Queue.pause` sets, by the name of the queue. -/
  paused : String → Bool := fun _ => false

/-- What can happen in a cluster. -/
inductive ClusterStep (ι : Type)
  | start (i : ι)
  | call (i : ι) (c : ServiceCall)
  | shutdown (i : ι)
  /-- Redis sets the flag of a queue that the instance has told to pause. -/
  | pause (i : ι) (name : String)
  /-- The process ends, at the end of its shutdown or before. -/
  | exit (i : ι)

namespace Cluster

variable {ι : Type}

section

variable (c : Cluster ι) (i : ι)

/-- `i` is there and not shutting down. -/
def running : Bool := (c.instances i).any fun inst => !inst.service.shuttingDown

/-- The queues that `i` takes jobs from. -/
def serving : List String := (c.instances i).elim [] Instance.serving

/-- The queues that `i` has told to pause. -/
def pausing : List String := (c.instances i).elim [] Instance.pausing

/-- `i` has registered this queue. -/
def registered (name : String) : Bool :=
  (c.instances i).any fun inst => inst.service.manager.has name

end

/-- Every queue that a running instance takes jobs from is not paused. -/
def Available (c : Cluster ι) : Prop := ∀ i, ∀ name ∈ c.serving i, c.paused name = false

/-- The step neither pauses a queue that another instance takes jobs from, nor starts to take
jobs from a queue that is paused or about to be. -/
def Guarded (c : Cluster ι) : ClusterStep ι → Prop
  | .shutdown i => c.running i = true → ∀ j, j ≠ i → ∀ name ∈ c.serving j,
      c.registered i name = false
  | .call i (.attachWorker g p _) => c.running i = true → c.registered i (queueName g p) = true →
      c.paused (queueName g p) = false ∧ ∀ j, queueName g p ∉ c.pausing j
  | _ => True

/-- No pause under way is of a queue that an instance takes jobs from either. -/
def Kept (c : Cluster ι) : Prop :=
  ∀ i, ∀ name ∈ c.serving i, c.paused name = false ∧ ∀ j, name ∉ c.pausing j

section

variable {c : Cluster ι} {i : ι} {inst : Instance}

theorem Kept.available (h : c.Kept) : c.Available := fun i name hname => (h i name hname).1

theorem serving_of_some (hi : c.instances i = some inst) : c.serving i = inst.serving := by
  simp [serving, hi]

theorem pausing_of_some (hi : c.instances i = some inst) : c.pausing i = inst.pausing := by
  simp [pausing, hi]

theorem running_of_some (hi : c.instances i = some inst) :
    c.running i = !inst.service.shuttingDown := by
  simp [running, hi]

theorem registered_of_some (hi : c.instances i = some inst) (name : String) :
    c.registered i name = inst.service.manager.has name := by
  simp [registered, hi]

theorem Kept.not_serving (h : c.Kept) (hi : c.instances i = some inst) {name : String}
    (hname : name ∈ inst.pausing) (j : ι) : name ∉ c.serving j :=
  fun hj => (h j name hj).2 i ((pausing_of_some hi).symm ▸ hname)

end

variable [DecidableEq ι]

/-- Replace an instance. -/
def put (c : Cluster ι) (i : ι) (inst : Option Instance) : Cluster ι :=
  { c with instances := Function.update c.instances i inst }

/-- What a step does; one that is impossible does nothing. -/
def step (refusal : String → Option Thrown) (c : Cluster ι) : ClusterStep ι → Cluster ι
  | .start i =>
      match c.instances i with
      | none => c.put i (some {})
      | some _ => c
  | .call i call =>
      match c.instances i with
      | none => c
      | some inst =>
          let d := (deployment refusal).next ⟨inst.service, c.jobs⟩ call
          { c.put i (some { inst with service := d.service }) with jobs := d.jobs }
  | .shutdown i =>
      match c.instances i with
      | none => c
      | some inst =>
          let res := inst.service.shutdown
          c.put i (some ⟨res.2, inst.pausing ++ res.1⟩)
  | .pause i name =>
      match c.instances i with
      | none => c
      | some inst =>
          if name ∈ inst.pausing then
            { c.put i (some { inst with pausing := inst.pausing.erase name }) with
              paused := Function.update c.paused name true }
          else c
  | .exit i => c.put i none

/-- The cluster as an object. -/
def object (refusal : String → Option Thrown) :
    Object (Cluster ι) (ClusterStep ι) (fun _ => Unit) where
  run c a := ((), c.step refusal a)

variable {c : Cluster ι} {i j : ι} {inst : Instance} {name : String}
variable {refusal : String → Option Thrown}

/-! ### What a step leaves -/

@[simp] theorem serving_put (o : Option Instance) :
    (c.put i o).serving j = if j = i then o.elim [] Instance.serving else c.serving j := by
  unfold serving put
  by_cases hj : j = i
  · rw [if_pos hj, hj]
    simp
  · simp [hj]

@[simp] theorem pausing_put (o : Option Instance) :
    (c.put i o).pausing j = if j = i then o.elim [] Instance.pausing else c.pausing j := by
  unfold pausing put
  by_cases hj : j = i
  · rw [if_pos hj, hj]
    simp
  · simp [hj]

/-- An instance may be replaced by one that takes jobs from available queues, and tells no
queue to pause that another takes jobs from. -/
theorem Kept.put (h : c.Kept) {o : Option Instance}
    (hserving : ∀ name ∈ o.elim [] Instance.serving, c.paused name = false ∧
      (∀ j, name ∉ c.pausing j) ∧ name ∉ o.elim [] Instance.pausing)
    (hpausing : ∀ name ∈ o.elim [] Instance.pausing, ∀ j, j ≠ i → name ∉ c.serving j) :
    (c.put i o).Kept := by
  intro k name hname
  rw [serving_put] at hname
  have hpaused : (c.put i o).paused name = c.paused name := rfl
  simp only [hpaused, pausing_put]
  split at hname
  · obtain ⟨hfree, hother, hown⟩ := hserving name hname
    refine ⟨hfree, fun j => ?_⟩
    split
    · exact hown
    · exact hother j
  · next hk =>
    refine ⟨(h k name hname).1, fun j => ?_⟩
    split
    · exact fun hmem => hpausing name hmem k hk hname
    · exact (h k name hname).2 j

/-- A call may start to take jobs from one more queue, if it attaches a worker to it. -/
theorem serving_next {d : Deployment} {call : ServiceCall} {pausing : List String}
    (pausing' : List String)
    (h : name ∈ Instance.serving ⟨((deployment refusal).next d call).service, pausing⟩) :
    name ∈ Instance.serving ⟨d.service, pausing'⟩ ∨
      ∃ g p concurrency, call = .attachWorker g p concurrency ∧ name = queueName g p ∧
        d.service.shuttingDown = false ∧ d.service.manager.has name = true := by
  cases call with
  | enqueue payment delayMs =>
      simp only [Object.next, deployment] at h
      cases hres : d.service.manager.enqueue payment delayMs <;> rw [hres] at h <;> exact Or.inl h
  | moveToDeadLetter payment reason =>
      simp only [Object.next, deployment] at h
      cases hres : d.service.deadLetter payment reason <;> rw [hres] at h <;> exact Or.inl h
  | registerGateway now gatewayId rateLimit =>
      left
      simp only [Object.next, deployment, Instance.serving,
        QueueService.workers_registerGateway] at h
      exact h
  | attachWorker g p concurrency =>
      simp only [Object.next, deployment, QueueService.attachWorker] at h
      cases hhas : d.service.manager.has (queueName g p) with
      | false =>
          rw [hhas] at h
          exact Or.inl h
      | true =>
          cases hdown : d.service.shuttingDown with
          | true => simp [hhas, Instance.serving, hdown] at h
          | false =>
              simp only [hhas, Instance.serving, hdown, Bool.not_true, Bool.false_eq_true,
                ↓reduceIte, List.map_append, List.mem_append] at h
              rcases h with h | h
              · left
                simpa [Instance.serving, hdown] using h
              · obtain rfl : name = queueName g p := by simpa using h
                exact Or.inr ⟨g, p, concurrency, rfl, rfl, rfl, hhas⟩

/-! ### What guarded steps keep -/

theorem kept_start (h : c.Kept) : (c.step refusal (.start i)).Kept := by
  rw [step]
  split
  · exact h.put (by simp [Instance.serving]) (by simp)
  · exact h

theorem kept_exit (h : c.Kept) : (c.step refusal (.exit i)).Kept :=
  h.put (by simp) (by simp)

theorem kept_call {call : ServiceCall} (hg : c.Guarded (.call i call)) (h : c.Kept) :
    (c.step refusal (.call i call)).Kept := by
  rw [step]
  split
  · exact h
  · next inst hi =>
    refine h.put (fun name hname => ?_) (fun name hname j _ => h.not_serving hi hname j)
    · rw [← pausing_of_some hi]
      rcases serving_next inst.pausing hname with
        hold | ⟨g, p, concurrency, rfl, rfl, hdown, hhas⟩
      · rw [← serving_of_some hi] at hold
        exact ⟨(h i name hold).1, (h i name hold).2, (h i name hold).2 i⟩
      · have hrun : c.running i = true := by
          rw [running_of_some hi, hdown]
          rfl
        have hreg := (registered_of_some hi (queueName g p)).trans hhas
        obtain ⟨hfree, hother⟩ := hg hrun hreg
        exact ⟨hfree, hother, hother i⟩

theorem kept_shutdown (hg : c.Guarded (.shutdown i)) (h : c.Kept) :
    (c.step refusal (.shutdown i)).Kept := by
  rw [step]
  split
  · exact h
  · next inst hi =>
    cases hdown : inst.service.shuttingDown with
    | true =>
        refine h.put ?_ ?_
        · simp [QueueService.shutdown, Instance.serving, hdown]
        · simp only [QueueService.shutdown, hdown, ↓reduceIte, List.append_nil, Option.elim_some]
          exact fun name hname j _ => h.not_serving hi hname j
    | false =>
        refine h.put ?_ ?_
        · simp [QueueService.shutdown, Instance.serving, hdown]
        · simp only [QueueService.shutdown, hdown, Bool.false_eq_true, ↓reduceIte,
            Option.elim_some, List.mem_append]
          rintro name (hname | hname) j hji
          · exact h.not_serving hi hname j
          · intro hj
            have hfree := hg (by rw [running_of_some hi, hdown]; rfl) j hji name hj
            rw [registered_of_some hi, ← Bool.not_eq_true, QueueService.has_iff] at hfree
            exact hfree hname

theorem kept_pause (h : c.Kept) : (c.step refusal (.pause i name)).Kept := by
  rw [step]
  split
  · exact h
  · next inst hi =>
    split
    · next hname =>
      have hput : (c.put i (some { inst with pausing := inst.pausing.erase name })).Kept := by
        refine h.put (fun name' hname' => ?_) (fun name' hname' j _ => ?_)
        · have hold : name' ∈ c.serving i := (serving_of_some hi).symm ▸ hname'
          refine ⟨(h i name' hold).1, (h i name' hold).2, fun hmem => ?_⟩
          exact h.not_serving hi (List.mem_of_mem_erase hmem) i hold
        · exact h.not_serving hi (List.mem_of_mem_erase hname') j
      intro j name' hname'
      refine ⟨?_, (hput j name' hname').2⟩
      have hold : name' ∈ c.serving j := by
        have hmem : name' ∈ (c.put i (some { inst with
          pausing := inst.pausing.erase name })).serving j := hname'
        rw [serving_put] at hmem
        split at hmem
        · next hji =>
          rw [hji, serving_of_some hi]
          exact hmem
        · exact hmem
      have hne : name' ≠ name := by
        rintro rfl
        exact h.not_serving hi hname j hold
      show Function.update c.paused name true name' = false
      rw [Function.update_of_ne hne]
      exact (h j name' hold).1
    · exact h

theorem kept_step {a : ClusterStep ι} (hg : c.Guarded a) (h : c.Kept) :
    (c.step refusal a).Kept := by
  cases a with
  | start i => exact kept_start h
  | call i call => exact kept_call hg h
  | shutdown i => exact kept_shutdown hg h
  | pause i name => exact kept_pause h
  | exit i => exact kept_exit h

/-! ### What other steps lead to -/

/-- Redis may set the flag of every queue that is told to pause; nobody stops taking jobs from
it for that. -/
theorem pause_spec (refusal : String → Option Thrown) (j : ι) (h : name ∈ c.pausing i) :
    (c.step refusal (.pause i name)).paused name = true ∧
      (c.step refusal (.pause i name)).serving j = c.serving j := by
  cases hi : c.instances i with
  | none => simp [pausing, hi] at h
  | some inst =>
      have hname : name ∈ inst.pausing := pausing_of_some hi ▸ h
      simp only [step, hi, hname, ↓reduceIte, Function.update_self, true_and]
      show (c.put i (some { inst with pausing := inst.pausing.erase name })).serving j = _
      rw [serving_put]
      split
      · next hji =>
        rw [hji, serving_of_some hi]
        rfl
      · rfl

/-- A queue that is told to pause while an instance takes jobs from it will not stay
available. -/
theorem not_available_of_pausing (refusal : String → Option Thrown)
    (hname : name ∈ c.serving j) (h : name ∈ c.pausing i) :
    ¬ (c.step refusal (.pause i name)).Available := by
  obtain ⟨hpaused, hserving⟩ := pause_spec refusal j h
  intro havail
  have hfree := havail j name (hserving ▸ hname)
  exact absurd (hfree.symm.trans hpaused) (by decide)

theorem shutdown_unguarded (refusal : String → Option Thrown) (hg : ¬ c.Guarded (.shutdown i)) :
    ∃ j name, name ∈ (c.step refusal (.shutdown i)).serving j ∧
      name ∈ (c.step refusal (.shutdown i)).pausing i := by
  simp only [Guarded, not_forall, Bool.not_eq_false] at hg
  obtain ⟨hrun, j, hji, name, hname, hreg⟩ := hg
  refine ⟨j, name, ?_⟩
  cases hi : c.instances i with
  | none => simp [running, hi] at hrun
  | some inst =>
      rw [running_of_some hi, Bool.not_eq_true'] at hrun
      rw [registered_of_some hi, QueueService.has_iff] at hreg
      simp only [step, hi, serving_put, if_neg hji, pausing_put, ↓reduceIte, Option.elim_some,
        QueueService.shutdown, hrun, Bool.false_eq_true, List.mem_append]
      exact ⟨hname, Or.inr hreg⟩

theorem attachWorker_unguarded (refusal : String → Option Thrown) {g : String} {p : Priority}
    {concurrency : Int} (hg : ¬ c.Guarded (.call i (.attachWorker g p concurrency))) :
    let c' := c.step refusal (.call i (.attachWorker g p concurrency))
    queueName g p ∈ c'.serving i ∧
      (c'.paused (queueName g p) = true ∨ ∃ j, queueName g p ∈ c'.pausing j) := by
  simp only [Guarded, not_forall] at hg
  obtain ⟨hrun, hreg, hg⟩ := hg
  cases hi : c.instances i with
  | none => simp [running, hi] at hrun
  | some inst =>
      rw [running_of_some hi, Bool.not_eq_true'] at hrun
      rw [registered_of_some hi] at hreg
      have hstep : c.step refusal (.call i (.attachWorker g p concurrency)) =
          c.put i (some { inst with service := { inst.service with
            workers := inst.service.workers ++ [⟨queueName g p, g, p, concurrency⟩] } }) := by
        simp [step, hi, Object.next, deployment, QueueService.attachWorker, hreg, put]
      simp only [hstep, serving_put, pausing_put, ↓reduceIte, Option.elim_some]
      refine ⟨by simp [Instance.serving, hrun], ?_⟩
      rw [not_and_or, Bool.not_eq_false, not_forall] at hg
      refine hg.imp id fun hpausing => ?_
      obtain ⟨j, hj⟩ := hpausing
      refine ⟨j, ?_⟩
      rw [not_not] at hj
      split
      · next hji =>
        rw [hji, pausing_of_some hi] at hj
        exact hj
      · exact hj

/-- In every state that guarded steps lead to, the queues that running instances take jobs
from are not paused; and a step that is not guarded leads to a state where one is, at once or
when Redis sets a flag. -/
theorem available_of_reached (refusal : String → Option Thrown)
    (h : (object refusal).Reached Guarded {} c) :
    c.Available ∧
      ∀ a, ¬ c.Guarded a → ∃ as, ¬ ((object refusal).after c (a :: as)).Available := by
  constructor
  · have hkept : c.Kept := by
      induction h with
      | start => exact fun i name hname => absurd hname List.not_mem_nil
      | step _ hg ih => exact kept_step hg ih
    exact hkept.available
  · intro a hg
    cases a with
    | start i => exact absurd trivial hg
    | pause i name => exact absurd trivial hg
    | exit i => exact absurd trivial hg
    | shutdown i =>
        obtain ⟨j, name, hserving, hpausing⟩ := shutdown_unguarded refusal hg
        exact ⟨[.pause i name], not_available_of_pausing refusal hserving hpausing⟩
    | call i call =>
        cases call with
        | registerGateway => exact absurd trivial hg
        | enqueue => exact absurd trivial hg
        | moveToDeadLetter => exact absurd trivial hg
        | attachWorker g p concurrency =>
            obtain ⟨hserving, hpaused | ⟨j, hpausing⟩⟩ :=
              attachWorker_unguarded refusal hg
            · refine ⟨[], fun havail => ?_⟩
              exact absurd ((havail i _ hserving).symm.trans hpaused) (by decide)
            · exact ⟨[.pause j (queueName g p)],
                not_available_of_pausing refusal hserving hpausing⟩

/-! ### Two instances -/

instance (c : Cluster Bool) : (a : ClusterStep Bool) → Decidable (c.Guarded a)
  | .shutdown i =>
      inferInstanceAs (Decidable (c.running i = true → ∀ j, j ≠ i → ∀ name ∈ c.serving j,
        c.registered i name = false))
  | .call i (.attachWorker g p _) =>
      inferInstanceAs (Decidable (c.running i = true → c.registered i (queueName g p) = true →
        c.paused (queueName g p) = false ∧ ∀ j, queueName g p ∉ c.pausing j))
  | .call _ (.registerGateway _ _ _) => .isTrue trivial
  | .call _ (.enqueue _ _) => .isTrue trivial
  | .call _ (.moveToDeadLetter _ _) => .isTrue trivial
  | .start _ => .isTrue trivial
  | .pause _ _ => .isTrue trivial
  | .exit _ => .isTrue trivial

/-- One instance for each of two gateways; the first shuts down. -/
def apart : List (ClusterStep Bool) :=
  [.start false, .call false (.registerGateway 0 "stripe" none),
    .call false (.attachWorker "stripe" .high 25), .start true,
    .call true (.registerGateway 0 "paypal" none), .call true (.attachWorker "paypal" .high 10),
    .shutdown false, .pause false "payments-stripe-high"]

theorem available_apart :
    ∃ c : Cluster Bool, (object fun _ => none).Reached Guarded {} c ∧
      (c.paused "payments-stripe-high" = true ∧ c.serving true = ["payments-paypal-high"]) ∧
      c.Available := by
  obtain ⟨c, hreached, hc⟩ := Object.Reached.exists_of_allowed (o := object fun _ => none)
    (G := Guarded) (s := {}) (P := fun c : Cluster Bool =>
      c.paused "payments-stripe-high" = true ∧ c.serving true = ["payments-paypal-high"])
    apart (by decide +kernel) (by decide +kernel)
  exact ⟨c, hreached, hc, (available_of_reached _ hreached).1⟩

/-- A rolling deployment: the new instance takes jobs before the old one shuts down, and its
queue is paused for good. -/
theorem paused_by_rollout :
    ¬ ((object fun _ => none).after ({} : Cluster Bool)
      [.start false, .call false (.registerGateway 0 "stripe" none),
        .call false (.attachWorker "stripe" .high 25), .start true,
        .call true (.registerGateway 0 "stripe" none),
        .call true (.attachWorker "stripe" .high 25),
        .shutdown false, .pause false "payments-stripe-high", .exit false]).Available := by
  intro havail
  have hfree := havail true "payments-stripe-high" (by decide +kernel)
  exact absurd hfree (by decide +kernel)

end Cluster

end PaymentQueue
