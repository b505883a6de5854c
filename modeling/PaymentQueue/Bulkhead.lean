import PaymentQueue.QueueService

/-!
# PaymentQueue.Bulkhead

Gateways do not share queues.

A queue is known by its name, and a name is read back to one gateway and one priority,
whatever the gateway's id is made of: the last letter tells the priority, and what is left
between the fixed parts is the id (`queueName_inj`). The registry adds that a queue is made
once and kept, so a worker sees the payments of its own gateway and priority and no others
(`bulkhead`).
-/

namespace PaymentQueue

open Async

/-! ### Names -/

theorem toList_queueName (gatewayId : String) (p : Priority) :
    (queueName gatewayId p).toList =
      "payments-".toList ++ gatewayId.toList ++ "-".toList ++ p.text.toList := by
  have h : queueName gatewayId p = "payments-" ++ gatewayId ++ "-" ++ p.text := rfl
  rw [h, String.toList_append, String.toList_append, String.toList_append]

/-- The last letter of a name is that of its priority. -/
theorem getLast?_queueName (gatewayId : String) (p : Priority) :
    (queueName gatewayId p).toList.getLast? = p.text.toList.getLast? := by
  rw [toList_queueName, List.getLast?_append_of_ne_nil]
  cases p <;> decide

/-- A name is the name of one gateway and one priority. -/
theorem queueName_inj {g g' : String} {p p' : Priority} (h : queueName g p = queueName g' p') :
    g = g' ∧ p = p' := by
  have hlast : p.text.toList.getLast? = p'.text.toList.getLast? := by
    rw [← getLast?_queueName g, h, getLast?_queueName]
  have hp : p = p' := by
    cases p <;> cases p' <;> first | rfl | exact absurd hlast (by decide)
  subst hp
  have hlist := congrArg String.toList h
  rw [toList_queueName, toList_queueName] at hlist
  refine ⟨String.toList_injective ?_, rfl⟩
  exact List.append_cancel_left
    (List.append_cancel_right (List.append_cancel_right hlist))

/-- No gateway has the name of a special queue. -/
theorem queueName_not_special (g : String) (p : Priority) :
    queueName g p ∉ ["payments-dlq", "payments-scheduled"] := by
  have hlast := getLast?_queueName g p
  intro hmem
  simp only [List.mem_cons, List.not_mem_nil, or_false] at hmem
  rcases hmem with hname | hname
  all_goals
    rw [hname] at hlast
    cases p <;> exact absurd hlast (by decide)

/-! ### The registry -/

namespace QueueService

variable {s : QueueService} {refusal : String → Option Thrown} {name : String}
variable {queue : ManagedQueue} {g : String} {p : Priority}

/-- The queue of a gateway and a priority is registered for exactly these. -/
theorem Named.of_queueName (h : Named (queueName g p, queue)) : queue = ⟨g, .priority p⟩ := by
  generalize hname : queueName g p = name at h
  cases h with
  | gateway g' p' =>
      obtain ⟨rfl, rfl⟩ := queueName_inj hname
      rfl
  | special hspecial => exact absurd (hname ▸ hspecial) (queueName_not_special g p)

theorem InOrder.get_queueName (h : s.InOrder) (hhas : s.manager.has (queueName g p) = true) :
    s.manager.get (queueName g p) = some ⟨g, .priority p⟩ := by
  obtain ⟨entry, hmem, hname⟩ := List.any_eq_true.mp hhas
  have hfound : (s.manager.queues.find? fun entry => entry.1 == queueName g p).isSome = true :=
    List.find?_isSome.mpr ⟨entry, hmem, hname⟩
  obtain ⟨⟨name, queue⟩, hfind⟩ := Option.isSome_iff_exists.mp hfound
  obtain rfl : name = queueName g p := by simpa using List.find?_some hfind
  have hnamed := h.named _ (List.mem_of_find?_eq_some hfind)
  rw [QueueManager.get, hfind, hnamed.of_queueName]
  rfl

/-- One queue was made under every name in the registry, and none under another. -/
theorem InOrder.count_created (h : s.InOrder) (name : String) :
    s.created.count name = if s.manager.has name = true then 1 else 0 := by
  split
  · next hhas => exact List.count_eq_one_of_mem h.nodup (h.has_iff.mp hhas)
  · next hhas =>
    rw [h.has_iff] at hhas
    exact List.count_eq_zero_of_not_mem hhas

end QueueService

/-! ### Histories -/

/-- The job is in a special queue, or was enqueued without delay and is in the queue of its
own gateway and priority. -/
def Placed (cs : List ServiceCall) (job : QueuedJob) : Prop :=
  job.queue ∈ ["payments-dlq", "payments-scheduled"] ∨
    (job.queue = queueName job.data.gatewayId job.data.priority ∧
      ∃ delayMs, .enqueue job.data delayMs ∈ cs ∧ QueueManager.delayed delayMs = false)

section

variable {refusal : String → Option Thrown} {cs cs' : List ServiceCall} {d : Deployment}
variable {c : ServiceCall} {jobs : List QueuedJob} {job : QueuedJob}

theorem mem_addJob {job' : QueuedJob} (h : job' ∈ addJob jobs job) :
    job' ∈ jobs ∨ job' = job := by
  unfold addJob at h
  split at h
  · exact Or.inl h
  · simpa using h

theorem Placed.mono (h : Placed cs job) : Placed (cs ++ cs') job := by
  refine h.imp id fun ⟨hqueue, delayMs, hmem, hd⟩ => ⟨hqueue, delayMs, ?_, hd⟩
  exact List.mem_append_left _ hmem

/-- What is added is placed by its call. -/
theorem placed_adding {res : Except Thrown QueuedJob} (hd : ∀ job ∈ d.jobs, Placed cs job)
    (hres : ∀ job, res = .ok job → Placed cs job) : ∀ job ∈ (d.adding res).jobs, Placed cs job := by
  cases res with
  | error e => exact hd
  | ok new =>
      intro job hmem
      rcases mem_addJob hmem with h | rfl
      · exact hd job h
      · exact hres _ rfl

theorem placed_next (h : ∀ job ∈ d.jobs, Placed cs job) :
    ∀ job ∈ ((deployment refusal).next d c).jobs, Placed (cs ++ [c]) job := by
  have hkeep : ∀ job ∈ d.jobs, Placed (cs ++ [c]) job := fun job hmem => (h job hmem).mono
  cases c with
  | registerGateway | attachWorker => exact hkeep
  | enqueue payment delayMs =>
      refine placed_adding hkeep fun job hadd => ?_
      obtain ⟨rfl, -, -, ⟨-, hqueue, -⟩ | ⟨hd, hqueue, -⟩⟩ := QueueManager.enqueue_spec hadd
      · exact Or.inl (by simp [hqueue])
      · exact Or.inr ⟨hqueue, delayMs, by simp, hd⟩
  | moveToDeadLetter payment reason =>
      refine placed_adding hkeep fun job hadd => Or.inl ?_
      unfold QueueService.deadLetter at hadd
      split at hadd
      · obtain rfl := Except.ok.inj hadd
        simp
      · exact absurd hadd (by simp)

theorem adding_service {res : Except Thrown QueuedJob} : (d.adding res).service = d.service := by
  cases res <;> rfl

theorem inOrder_next (h : d.service.InOrder) :
    ((deployment refusal).next d c).service.InOrder := by
  cases c with
  | registerGateway => exact h.registerGateway
  | attachWorker => exact h.attachWorker
  | enqueue | moveToDeadLetter =>
      simp only [Object.next, deployment, adding_service]
      exact h

theorem extends_next : d.service.Extends ((deployment refusal).next d c).service := by
  cases c with
  | registerGateway => exact QueueService.extends_registerGateway
  | attachWorker => exact QueueService.extends_attachWorker
  | enqueue | moveToDeadLetter =>
      simp only [Object.next, deployment, adding_service]
      exact .refl _

theorem inOrder_after (h : d.service.InOrder) :
    ((deployment refusal).after d cs).service.InOrder :=
  (deployment refusal).induct d cs (V := fun _ => True)
    (I := fun d : Deployment => d.service.InOrder) (fun _ _ _ h => inOrder_next h) h
    fun _ _ => trivial

theorem extends_after : d.service.Extends ((deployment refusal).after d cs).service :=
  (deployment refusal).induct d cs (V := fun _ => True)
    (I := fun d' : Deployment => d.service.Extends d'.service)
    (fun _ _ _ h => h.trans extends_next) (.refl _) fun _ _ => trivial

theorem placed_after : ∀ job ∈ ((deployment refusal).after {} cs).jobs, Placed cs job :=
  (deployment refusal).induct_history {} cs (R := fun _ _ => True)
    (I := fun cs (d : Deployment) => ∀ job ∈ d.jobs, Placed cs job) (by simp)
    (fun _ _ _ h => placed_next h) (List.pairwise_of_forall fun _ _ => trivial)

end

/-- **Bulkheads.** A queue name stands for one gateway and one priority and is never that of
a special queue. So after any calls of the service, whatever names BullMQ refuses: one queue
was made for every registered name; later calls leave a gateway's rate limiter the object it
is; what is enqueued without delay is added to the queue registered for its own gateway and
priority; and a worker finds in its queue, now and later, only payments enqueued without
delay for the gateway and priority it was attached for. -/
theorem bulkhead :
    (∀ g g' p p', queueName g p = queueName g' p' → g = g' ∧ p = p') ∧
    (∀ g p, queueName g p ≠ "payments-dlq" ∧ queueName g p ≠ "payments-scheduled") ∧
    ∀ (refusal : String → Option Thrown) (cs cs' : List ServiceCall),
      let d := (deployment refusal).after {} cs
      let d' := (deployment refusal).after d cs'
      (∀ name, d.service.created.count name =
        if d.service.manager.has name = true then 1 else 0) ∧
      (∀ g i, d.service.rateLimiters g = some i →
        d'.service.rateLimiters g = some i ∧ d'.service.buckets[i]? = d.service.buckets[i]?) ∧
      (∀ payment delayMs job, QueueManager.delayed delayMs = false →
        d.service.manager.enqueue payment delayMs = .ok job →
        job.queue = queueName payment.gatewayId payment.priority ∧
          d.service.manager.get job.queue =
            some ⟨payment.gatewayId, .priority payment.priority⟩) ∧
      (∀ g p concurrency w, (d.service.attachWorker g p concurrency).1 = .ok w →
        ∀ job ∈ d'.jobs, job.queue = w.queue →
          job.data.gatewayId = g ∧ job.data.priority = p ∧
            ∃ delayMs, .enqueue job.data delayMs ∈ cs ++ cs' ∧
              QueueManager.delayed delayMs = false) := by
  refine ⟨fun g g' p p' => queueName_inj, fun g p => ?_, fun refusal cs cs' => ?_⟩
  · have hnot := queueName_not_special g p
    simpa using hnot
  intro d d'
  have horder : d.service.InOrder := inOrder_after QueueService.inOrder_empty
  have hext : d.service.Extends d'.service := extends_after
  refine ⟨horder.count_created, fun g i hg => ?_, fun payment delayMs job hd hadd => ?_,
    fun g p concurrency w hw job hmem hqueue => ?_⟩
  · refine ⟨hext.rateLimiters hg, ?_⟩
    have hi := horder.limiter hg
    rw [List.getElem?_eq_getElem hi]
    exact List.prefix_iff_getElem?.mp hext.buckets i hi
  · obtain ⟨-, -, hhas, ⟨hd', -⟩ | ⟨-, hqueue, -⟩⟩ := QueueManager.enqueue_spec hadd
    · exact absurd (hd.symm.trans hd') (by decide)
    · rw [hqueue] at hhas ⊢
      exact ⟨rfl, horder.get_queueName hhas⟩
  · obtain ⟨-, hworker⟩ := QueueService.attachWorker_eq_ok.mp hw
    have hname : w.queue = queueName g p := by rw [hworker]
    have hafter : d' = (deployment refusal).after {} (cs ++ cs') :=
      ((deployment refusal).after_append {} cs cs').symm
    rcases placed_after job (hafter ▸ hmem) with hspecial | ⟨hown, hcall⟩
    · rw [hqueue, hname] at hspecial
      exact absurd hspecial (queueName_not_special g p)
    · obtain ⟨hg, hp⟩ := queueName_inj (hown.symm.trans (hqueue.trans hname))
      exact ⟨hg, hp, hcall⟩

end PaymentQueue
