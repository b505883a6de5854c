import Mathlib.Data.Finset.Card
import PaymentQueue.DelayedQueue

/-!
# PaymentQueue.QueueDedup

How many jobs can there be for one idempotency key?

The key is the job id, and BullMQ does not add a job id twice to one queue. So the queues
that hold the key form a set, to which every payment that lands adds the queue it chose
(`holders_next`). The key has as many jobs as different queues were chosen: one at most if
and only if the calls agreed on the queue (`one_job_iff`).
-/

namespace PaymentQueue

open Async

/-- The queues that hold a job of the key, in the order it was added to them. -/
def holders (key : String) (jobs : List QueuedJob) : List String :=
  (jobs.filter fun job => job.opts.jobId == key).map (·.queue)

/-- The queue that `enqueue` chooses. -/
def chosenQueue (payment : Payment) (delayMs : Option Int) : String :=
  if QueueManager.delayed delayMs then "payments-scheduled"
  else queueName payment.gatewayId payment.priority

/-- Two calls of `enqueue` agree: both have a delay, or neither has and they are for the same
gateway and priority. -/
def Agree (payment payment' : Payment) (delayMs delayMs' : Option Int) : Prop :=
  (QueueManager.delayed delayMs = true ∧ QueueManager.delayed delayMs' = true) ∨
    (QueueManager.delayed delayMs = false ∧ QueueManager.delayed delayMs' = false ∧
      payment.gatewayId = payment'.gatewayId ∧ payment.priority = payment'.priority)

/-- The call enqueues a payment with this key, or has nothing to do with the key. -/
def ServiceCall.Shares (key : String) : ServiceCall → Prop
  | enqueue payment _ => payment.idempotencyKey = key
  | moveToDeadLetter payment _ => "dlq:" ++ payment.idempotencyKey ≠ key
  | _ => True

/-- In the history `cs` this payment is enqueued while the queue it chooses is registered. -/
def Lands (refusal : String → Option Thrown) (d : Deployment) (cs : List ServiceCall)
    (payment : Payment) (delayMs : Option Int) : Prop :=
  ∃ pre, pre ++ [.enqueue payment delayMs] <+: cs ∧
    ((deployment refusal).after d pre).service.manager.has (chosenQueue payment delayMs) = true

section

variable {key name : String} {jobs : List QueuedJob} {job : QueuedJob} {d : Deployment}

theorem agree_iff {payment payment' : Payment} {delayMs delayMs' : Option Int} :
    Agree payment payment' delayMs delayMs' ↔
      chosenQueue payment delayMs = chosenQueue payment' delayMs' := by
  unfold Agree chosenQueue
  cases QueueManager.delayed delayMs <;> cases QueueManager.delayed delayMs'
  · simp only [Bool.false_eq_true, ↓reduceIte, false_and, true_and, false_or]
    constructor
    · intro h
      rw [h.1, h.2]
    · exact queueName_inj
  · have hne := queueName_not_special payment.gatewayId payment.priority
    simp only [List.mem_cons, not_or] at hne
    simp [hne.2.1]
  · have hne := queueName_not_special payment'.gatewayId payment'.priority
    simp only [List.mem_cons, not_or] at hne
    simp [Ne.symm hne.2.1]
  · simp

theorem count_holders : jobs.countP (fun job => job.opts.jobId == key) =
    (holders key jobs).length := by
  rw [holders, List.length_map, List.countP_eq_length_filter]

theorem mem_holders :
    name ∈ holders key jobs ↔ ∃ job ∈ jobs, job.opts.jobId = key ∧ job.queue = name := by
  simp [holders, and_assoc]

/-- A job of another key leaves the holders of this one alone. -/
theorem holders_addJob_of_ne (h : job.opts.jobId ≠ key) :
    holders key (addJob jobs job) = holders key jobs := by
  unfold addJob
  split
  · rfl
  · simp [holders, h]

/-- A job of the key adds its queue to the holders, unless it is one. -/
theorem holders_addJob (jobs : List QueuedJob) (h : job.opts.jobId = key) :
    holders key (addJob jobs job) =
      if job.queue ∈ holders key jobs then holders key jobs
      else holders key jobs ++ [job.queue] := by
  have hmem : (jobs.any fun j => j.queue == job.queue && j.opts.jobId == job.opts.jobId) = true ↔
      job.queue ∈ holders key jobs := by
    rw [mem_holders, List.any_eq_true]
    simp [h, and_comm]
  unfold addJob
  simp only [hmem]
  split
  · rfl
  · simp [holders, h]

end

section

variable {refusal : String → Option Thrown} {key : String} {d : Deployment}
variable {cs : List ServiceCall} {c : ServiceCall} {payment : Payment} {delayMs : Option Int}

theorem not_lands_nil : ¬ Lands refusal d [] payment delayMs := by
  rintro ⟨pre, hpre, -⟩
  simp at hpre

theorem Lands.mem (h : Lands refusal d cs payment delayMs) :
    .enqueue payment delayMs ∈ cs := by
  obtain ⟨pre, hpre, -⟩ := h
  exact hpre.subset (List.mem_append_right _ (List.mem_singleton_self _))

theorem lands_append_singleton :
    Lands refusal d (cs ++ [c]) payment delayMs ↔
      Lands refusal d cs payment delayMs ∨
        c = .enqueue payment delayMs ∧ ((deployment refusal).after d cs).service.manager.has
          (chosenQueue payment delayMs) = true := by
  constructor
  · rintro ⟨pre, hpre, hhas⟩
    rw [List.prefix_concat_iff] at hpre
    rcases hpre with heq | hpre
    · obtain ⟨rfl, hc⟩ := List.append_inj' heq rfl
      exact Or.inr ⟨(List.singleton_inj.mp hc).symm, hhas⟩
    · exact Or.inl ⟨pre, hpre, hhas⟩
  · rintro (⟨pre, hpre, hhas⟩ | ⟨rfl, hhas⟩)
    · exact ⟨pre, hpre.trans (List.prefix_append _ _), hhas⟩
    · exact ⟨cs, List.prefix_rfl, hhas⟩

/-- A payment whose queue is registered is accepted, and goes there. -/
theorem enqueue_registered {q : QueueManager}
    (h : q.has (chosenQueue payment delayMs) = true) :
    ∃ job, q.enqueue payment delayMs = .ok job ∧ job.queue = chosenQueue payment delayMs ∧
      job.opts.jobId = payment.idempotencyKey := by
  unfold chosenQueue at h ⊢
  unfold QueueManager.enqueue
  split at h
  · next hd => simp [hd, h]
  · next hd => simp [hd, h]

theorem enqueue_unregistered {q : QueueManager}
    (h : q.has (chosenQueue payment delayMs) = false) :
    ∃ e, q.enqueue payment delayMs = .error e := by
  unfold chosenQueue at h
  unfold QueueManager.enqueue
  split at h
  · next hd => simp [hd, h]
  · next hd => simp [hd, h]

/-- What the holders of the key have to do with the calls so far: they are the queues that
payments were enqueued to, each once. -/
structure Holders (refusal : String → Option Thrown) (key : String) (d : Deployment)
    (cs : List ServiceCall) (d' : Deployment) : Prop where
  nodup : (holders key d'.jobs).Nodup
  mem_iff : ∀ name, name ∈ holders key d'.jobs ↔
    ∃ payment delayMs, Lands refusal d cs payment delayMs ∧ chosenQueue payment delayMs = name

/-- A call that enqueues nothing leaves the holders as they were. -/
theorem Holders.skip {d' : Deployment}
    (h : Holders refusal key d cs ((deployment refusal).after d cs))
    (hc : ∀ payment delayMs, c = .enqueue payment delayMs →
      ((deployment refusal).after d cs).service.manager.has
        (chosenQueue payment delayMs) = false)
    (hd : holders key d'.jobs = holders key ((deployment refusal).after d cs).jobs) :
    Holders refusal key d (cs ++ [c]) d' where
  nodup := hd ▸ h.nodup
  mem_iff name := by
    rw [hd, h.mem_iff]
    refine exists_congr fun payment => exists_congr fun delayMs => and_congr_left' ?_
    rw [lands_append_singleton, or_iff_left]
    rintro ⟨hceq, hhas⟩
    exact absurd ((hc payment delayMs hceq).symm.trans hhas) (by decide)

/-- A payment that is enqueued adds the queue it chooses to the holders. -/
theorem holders_next (hc : c.Shares key)
    (h : Holders refusal key d cs ((deployment refusal).after d cs)) :
    Holders refusal key d (cs ++ [c])
      ((deployment refusal).next ((deployment refusal).after d cs) c) := by
  generalize hd' : (deployment refusal).after d cs = d' at h ⊢
  cases c with
  | registerGateway now gatewayId rateLimit => exact (hd' ▸ h).skip (by simp) (by rw [hd']; rfl)
  | attachWorker gatewayId p concurrency => exact (hd' ▸ h).skip (by simp) (by rw [hd']; rfl)
  | moveToDeadLetter payment reason =>
      refine (hd' ▸ h).skip (by simp) ?_
      show holders key (d'.adding (d'.service.deadLetter payment reason)).jobs = _
      rw [hd']
      unfold QueueService.deadLetter
      split
      · exact holders_addJob_of_ne hc
      · rfl
  | enqueue payment delayMs =>
      cases hhas : d'.service.manager.has (chosenQueue payment delayMs) with
      | false =>
          obtain ⟨e, herror⟩ := enqueue_unregistered hhas
          refine (hd' ▸ h).skip ?_ ?_
          · rintro payment' delayMs' heq
            obtain ⟨rfl, rfl⟩ := ServiceCall.enqueue.inj heq
            rw [hd']
            exact hhas
          · rw [hd']
            simp only [Object.next, deployment, herror, Deployment.adding]
      | true =>
          obtain ⟨job, hok, hqueue, hid⟩ := enqueue_registered hhas
          have hnext : (deployment refusal).next d' (.enqueue payment delayMs) =
              { d' with jobs := addJob d'.jobs job } := by
            simp only [Object.next, deployment, hok, Deployment.adding]
          have hadd := holders_addJob d'.jobs (hid.trans hc)
          -- the names that the history landed on, of which the last may be new
          have hlands : ∀ name, (∃ payment' delayMs',
              Lands refusal d (cs ++ [.enqueue payment delayMs]) payment' delayMs' ∧
                chosenQueue payment' delayMs' = name) ↔
              name ∈ holders key d'.jobs ∨ name = job.queue := by
            intro name
            rw [h.mem_iff, hqueue]
            constructor
            · rintro ⟨payment', delayMs', hland, rfl⟩
              rcases lands_append_singleton.mp hland with hland | ⟨heq, -⟩
              · exact Or.inl ⟨payment', delayMs', hland, rfl⟩
              · obtain ⟨rfl, rfl⟩ := ServiceCall.enqueue.inj heq
                exact Or.inr rfl
            · rintro (⟨payment', delayMs', hland, rfl⟩ | rfl)
              · exact ⟨payment', delayMs', lands_append_singleton.mpr (Or.inl hland), rfl⟩
              · exact ⟨payment, delayMs,
                  lands_append_singleton.mpr (Or.inr ⟨rfl, hd' ▸ hhas⟩), rfl⟩
          rw [hnext]
          refine ⟨?_, fun name => ?_⟩
          · rw [hadd]
            split
            · exact h.nodup
            · next hnew =>
              exact List.nodup_append'.mpr ⟨h.nodup, List.nodup_singleton _, by simpa⟩
          · rw [hlands, hadd]
            split
            · next hmem =>
              constructor
              · exact Or.inl
              · rintro (hname | rfl)
                · exact hname
                · exact hmem
            · rw [List.mem_append, List.mem_singleton]

/-- So it is in every history: the queues that hold the key are the ones it was enqueued to. -/
theorem holders_after (refusal : String → Option Thrown)
    (hd : d.jobs.countP (fun job => job.opts.jobId == key) = 0)
    (hcs : ∀ c ∈ cs, c.Shares key) :
    Holders refusal key d cs ((deployment refusal).after d cs) := by
  have hnone : holders key d.jobs = [] := by
    rw [count_holders] at hd
    exact List.eq_nil_of_length_eq_zero hd
  have hstart : Holders refusal key d [] d := by
    refine ⟨hnone ▸ List.nodup_nil, fun name => ?_⟩
    rw [hnone]
    simp [not_lands_nil]
  induction cs using List.reverseRecOn with
  | nil => exact hstart
  | append_singleton cs c ih =>
      rw [Object.after_append_singleton]
      exact holders_next (hcs c (by simp)) (ih fun c' hc' => hcs c' (List.mem_append_left _ hc'))

end

/-- A list without duplicates has at most one element if all of its elements are the same. -/
theorem length_le_one_iff {l : List String} (h : l.Nodup) :
    l.length ≤ 1 ↔ ∀ a ∈ l, ∀ b ∈ l, a = b := by
  rw [← List.toFinset_card_of_nodup h, Finset.card_le_one]
  simp only [List.mem_toFinset]

/-- Of a key that has no job yet, there is at most one job over all queues if and only if the
calls that enqueue it agree on where: all of them with a delay, or all of them without and
for one gateway and priority. -/
theorem one_job_iff (refusal : String → Option Thrown) (key : String) (d : Deployment)
    (cs : List ServiceCall) (hd : d.jobs.countP (fun job => job.opts.jobId == key) = 0)
    (hcs : ∀ c ∈ cs, c.Shares key) :
    ((deployment refusal).after d cs).jobs.countP (fun job => job.opts.jobId == key) ≤ 1 ↔
      ∀ payment payment' delayMs delayMs', Lands refusal d cs payment delayMs →
        Lands refusal d cs payment' delayMs' → Agree payment payment' delayMs delayMs' := by
  have hholders := holders_after refusal hd hcs
  rw [count_holders, length_le_one_iff hholders.nodup]
  constructor
  · intro hall payment payment' delayMs delayMs' hland hland'
    rw [agree_iff]
    exact hall _ ((hholders.mem_iff _).mpr ⟨payment, delayMs, hland, rfl⟩)
      _ ((hholders.mem_iff _).mpr ⟨payment', delayMs', hland', rfl⟩)
  · intro hagree name hname name' hname'
    obtain ⟨payment, delayMs, hland, rfl⟩ := (hholders.mem_iff _).mp hname
    obtain ⟨payment', delayMs', hland', rfl⟩ := (hholders.mem_iff _).mp hname'
    exact agree_iff.mp (hagree payment payment' delayMs delayMs' hland hland')

/-- A payment that is enqueued twice over is one job. -/
theorem one_job_resubmitted :
    ((deployment fun _ => none).after {} (stripeWired ++
      [.enqueue cardPayment none, .enqueue cardPayment none])).jobs.countP
        (fun job => job.opts.jobId == cardPayment.idempotencyKey) ≤ 1 := by
  refine (one_job_iff _ cardPayment.idempotencyKey {} _ rfl ?_).mpr ?_
  · simp [stripeWired, ServiceCall.Shares]
  · intro payment payment' delayMs delayMs' hland hland'
    have hmem := hland.mem
    have hmem' := hland'.mem
    simp only [stripeWired, List.mem_append, List.mem_cons, List.not_mem_nil, or_false,
      or_self, reduceCtorEq, false_or, ServiceCall.enqueue.injEq] at hmem hmem'
    rw [hmem.1, hmem.2, hmem'.1, hmem'.2]
    exact Or.inr ⟨rfl, rfl, rfl, rfl⟩

/-- A client that gets no answer tries again with more priority: two jobs of one key. -/
theorem two_jobs_escalated :
    ((deployment fun _ => none).after {} (stripeWired ++
      [.enqueue cardPayment none,
        .enqueue { cardPayment with priority := .high } none])).jobs.countP
      (fun job => job.opts.jobId == cardPayment.idempotencyKey) = 2 := by
  decide +kernel

end PaymentQueue
