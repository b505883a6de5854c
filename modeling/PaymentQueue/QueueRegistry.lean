import PaymentQueue.Bulkhead

/-!
# PaymentQueue.QueueRegistry

Does the registry of queues agree with its keys?

`registerGateway` makes the queues of a gateway under the names of their priorities, and
`ensureSpecialQueues` the two special ones, for which it tells the dead-letter queue by a name
with a colon that no queue has. So that queue is entered as a scheduled one, like the queue
next to it. All other entries agree with their keys (`matchesKey_iff`), and the registry as a
whole does as long as no registration has come to the special queues (`faithful_iff`).
-/

namespace PaymentQueue

open Async

/-- The key of an entry is the one its gateway and priority are to have. -/
def MatchesKey : String × ManagedQueue → Prop
  | (name, ⟨gatewayId, .priority p⟩) => name = queueName gatewayId p
  | (name, ⟨_, .dlq⟩) => name = "payments-dlq"
  | (name, ⟨_, .scheduled⟩) => name = "payments-scheduled"

instance : DecidablePred MatchesKey
  | (_, ⟨_, .priority _⟩) | (_, ⟨_, .dlq⟩) | (_, ⟨_, .scheduled⟩) =>
      inferInstanceAs (Decidable (_ = _))

/-- Every entry matches its key, and no two are for the same gateway and priority. -/
structure QueueManager.Faithful (q : QueueManager) : Prop where
  agrees : ∀ entry ∈ q.queues, MatchesKey entry
  unique : (q.queues.map (·.2)).Nodup

/-- The call registers a gateway, and BullMQ takes the names of its queues and that of the
dead-letter queue. -/
def ServiceCall.Registers (refusal : String → Option Thrown) : ServiceCall → Prop
  | registerGateway _ gatewayId _ =>
      (∀ p, refusal (queueName gatewayId p) = none) ∧ refusal "payments-dlq" = none
  | _ => False

/-- The queues of a gateway, as `registerGateway` goes through them. -/
abbrev gatewayQueues (gatewayId : String) : List (String × ManagedQueue) :=
  [.high, .normal, .low].map fun priority =>
    (queueName gatewayId priority, ⟨gatewayId, .priority priority⟩)

theorem forall_gatewayQueues {gatewayId : String} (P : String → Prop) :
    (∀ entry ∈ gatewayQueues gatewayId, P entry.1) ↔ ∀ p, P (queueName gatewayId p) := by
  rw [List.forall_mem_map]
  exact ⟨fun h p => h p (by cases p <;> simp), fun h p _ => h p⟩

theorem queueName_ne_dlq (gatewayId : String) (p : Priority) :
    queueName gatewayId p ≠ "payments-dlq" :=
  fun h => queueName_not_special gatewayId p (by simp [h])

/-! ### Which queues are there -/

namespace QueueService

variable {refusal : String → Option Thrown} {s : QueueService} {name : String}
variable {queues : List (String × ManagedQueue)} {queue : ManagedQueue}

/-- BullMQ has taken the names of all queues that are there. -/
def Taken (refusal : String → Option Thrown) (s : QueueService) : Prop :=
  ∀ name, s.manager.has name = true → refusal name = none

@[simp] theorem has_addQueue {name' : String} : (s.addQueue name queue).manager.has name' =
    (s.manager.has name' || name == name') := by
  simp [addQueue, QueueManager.set, QueueManager.has]

theorem extends_ensureQueues : s.Extends (s.ensureQueues refusal queues).2 :=
  ensureQueues_induct (P := s.Extends) (fun _ _ _ _ _ h => h.trans extends_addQueue) (.refl s)

/-- A loop over queues makes these and no others. -/
theorem has_of_ensureQueues
    (h : (s.ensureQueues refusal queues).2.manager.has name = true) :
    s.manager.has name = true ∨ name ∈ queues.map (·.1) := by
  refine ensureQueues_induct (P := fun s' => s'.manager.has name = true →
    s.manager.has name = true ∨ name ∈ queues.map (·.1)) ?_ Or.inl h
  intro s' name' queue hmem _ ih hhas
  rw [has_addQueue, Bool.or_eq_true, beq_iff_eq] at hhas
  rcases hhas with hhas | rfl
  · exact ih hhas
  · exact Or.inr (List.mem_map_of_mem hmem)

/-- When the names of all queues so far were taken, a loop goes through if the names in it
are; and either way it makes queues whose names are taken. -/
theorem ensureQueues_spec (queues : List (String × ManagedQueue)) (hs : s.Taken refusal) :
    (s.ensureQueues refusal queues).2.Taken refusal ∧
      ((s.ensureQueues refusal queues).1 = .ok () ↔
        ∀ entry ∈ queues, refusal entry.1 = none) := by
  induction queues generalizing s with
  | nil => exact ⟨hs, iff_of_true rfl (by simp)⟩
  | cons entry rest ih =>
      obtain ⟨name, queue⟩ := entry
      rw [ensureQueues, ensureQueue]
      cases hhas : s.manager.has name with
      | true =>
          obtain ⟨htaken, hok⟩ := ih hs
          refine ⟨htaken, ?_⟩
          simp [hs name hhas, hok]
      | false =>
          -- a refused name ends the loop
          cases hrefuse : refusal name with
          | some e => exact ⟨hs, iff_of_false (by simp) (by simp [hrefuse])⟩
          | none =>
              have hs' : (s.addQueue name queue).Taken refusal := by
                intro name' hhas'
                rw [has_addQueue, Bool.or_eq_true, beq_iff_eq] at hhas'
                rcases hhas' with hhas' | rfl
                · exact hs name' hhas'
                · exact hrefuse
              obtain ⟨htaken, hok⟩ := ih hs'
              refine ⟨htaken, ?_⟩
              simp [hrefuse, hok]

/-- The first queue of a loop is there afterwards if it was, or if its name is taken. -/
theorem has_ensureQueues_head (hs : s.Taken refusal) :
    (s.ensureQueues refusal ((name, queue) :: queues)).2.manager.has name = true ↔
      refusal name = none := by
  constructor
  · exact fun h => (ensureQueues_spec _ hs).1 name h
  · intro hrefuse
    rw [ensureQueues, ensureQueue]
    cases hhas : s.manager.has name with
    | true => exact extends_ensureQueues.has hhas
    | false =>
        simp only [hrefuse]
        exact extends_ensureQueues.has (by simp)

theorem manager_ensureRateLimiter {now : Int} {gatewayId : String}
    {rateLimit : Option (ℚ × ℚ)} :
    (s.ensureRateLimiter now gatewayId rateLimit).manager = s.manager := by
  unfold ensureRateLimiter
  split <;> rfl

/-- A registration that is not refused comes to the special queues, of which the dead-letter
queue is the first. -/
theorem registerGateway_spec {now : Int} {gatewayId : String} {rateLimit : Option (ℚ × ℚ)}
    (hs : s.Taken refusal) :
    (s.registerGateway refusal now gatewayId rateLimit).2.Taken refusal ∧
      ((s.registerGateway refusal now gatewayId rateLimit).2.manager.has "payments-dlq" = true ↔
        s.manager.has "payments-dlq" = true ∨
          (ServiceCall.registerGateway now gatewayId rateLimit).Registers refusal) := by
  obtain ⟨htaken, hok⟩ := ensureQueues_spec (gatewayQueues gatewayId) hs
  have hold : (s.ensureQueues refusal (gatewayQueues gatewayId)).2.manager.has
      "payments-dlq" = true ↔ s.manager.has "payments-dlq" = true := by
    refine ⟨fun h => (has_of_ensureQueues h).resolve_right fun hmem => ?_,
      extends_ensureQueues.has⟩
    obtain ⟨entry, hentry, hname⟩ := List.mem_map.mp hmem
    exact (forall_gatewayQueues (· ≠ "payments-dlq")).mpr (queueName_ne_dlq gatewayId)
      entry hentry hname
  rw [forall_gatewayQueues (refusal · = none)] at hok
  rw [registerGateway]
  split
  · next s' hloop =>
    rw [hloop] at htaken hok
    have hlimited : (s'.ensureRateLimiter now gatewayId rateLimit).Taken refusal := by
      intro name hname
      rw [manager_ensureRateLimiter] at hname
      exact htaken name hname
    refine ⟨(ensureQueues_spec _ hlimited).1, (has_ensureQueues_head hlimited).trans ?_⟩
    exact ⟨fun hrefuse => Or.inr ⟨hok.mp rfl, hrefuse⟩, fun h => h.elim (hs _) And.right⟩
  · next e s' hloop =>
    -- the special queues are not reached
    rw [hloop] at htaken hok hold
    refine ⟨htaken, hold.trans (or_iff_left fun hreg => ?_).symm⟩
    exact absurd (hok.mpr hreg.1) (by simp)

/-! ### Which entries match their keys -/

/-- An entry of the registry matches its key, unless it is that of the dead-letter queue. -/
theorem Named.matchesKey_iff {entry : String × ManagedQueue} (h : Named entry) :
    MatchesKey entry ↔ entry.1 ≠ "payments-dlq" := by
  cases h with
  | gateway gatewayId p => exact iff_of_true rfl (queueName_ne_dlq gatewayId p)
  | special hname =>
      simp only [List.mem_cons, List.not_mem_nil, or_false] at hname
      rcases hname with rfl | rfl
      · exact iff_of_false (by decide) (by simp)
      · exact iff_of_true rfl (by decide)

/-- The metadata of an entry that matches its key determines the key. -/
theorem key_eq_of_matchesKey {entry entry' : String × ManagedQueue} (h : MatchesKey entry)
    (h' : MatchesKey entry') (hsame : entry.2 = entry'.2) : entry = entry' := by
  obtain ⟨name, gatewayId, kind⟩ := entry
  obtain ⟨name', gatewayId', kind'⟩ := entry'
  obtain ⟨rfl, rfl⟩ := ManagedQueue.mk.inj hsame
  cases kind with
  | priority p | dlq | scheduled => rw [show name = _ from h, show name' = _ from h']

/-- A registry in order agrees with its keys as long as it has no dead-letter queue. -/
theorem InOrder.faithful_iff_has (h : s.InOrder) :
    s.manager.Faithful ↔ s.manager.has "payments-dlq" ≠ true := by
  constructor
  · intro hfaithful hhas
    obtain ⟨entry, hmem, hname⟩ := List.mem_map.mp (QueueService.has_iff.mp hhas)
    exact (h.named entry hmem).matchesKey_iff.mp (hfaithful.agrees entry hmem) hname
  · intro hnone
    have hagrees : ∀ entry ∈ s.manager.queues, MatchesKey entry := by
      intro entry hmem
      refine (h.named entry hmem).matchesKey_iff.mpr fun hname => hnone ?_
      exact QueueService.has_iff.mpr (hname ▸ List.mem_map_of_mem hmem)
    refine ⟨hagrees, ?_⟩
    -- the keys differ, and each entry determines its key
    have hnodup : s.manager.queues.Nodup := List.Nodup.of_map (·.1) (h.keys ▸ h.nodup)
    exact hnodup.map_on fun entry hentry entry' hentry' =>
      key_eq_of_matchesKey (hagrees entry hentry) (hagrees entry' hentry')

end QueueService

/-! ### Histories -/

variable {refusal : String → Option Thrown} {cs : List ServiceCall} {d : Deployment}
variable {c : ServiceCall}

theorem registers_next (h : d.service.Taken refusal) :
    ((deployment refusal).next d c).service.Taken refusal ∧
      (((deployment refusal).next d c).service.manager.has "payments-dlq" = true ↔
        d.service.manager.has "payments-dlq" = true ∨ c.Registers refusal) := by
  cases c with
  | registerGateway now gatewayId rateLimit => exact QueueService.registerGateway_spec h
  | attachWorker gatewayId p concurrency =>
      have hmanager : (d.service.attachWorker gatewayId p concurrency).2.manager =
          d.service.manager := by
        unfold QueueService.attachWorker
        simp only
        split <;> rfl
      simp only [Object.next, deployment, QueueService.Taken, hmanager]
      exact ⟨h, (or_iff_left id).symm⟩
  | enqueue payment delayMs | moveToDeadLetter payment reason =>
      simp only [Object.next, deployment, adding_service]
      exact ⟨h, (or_iff_left id).symm⟩

/-- There is a dead-letter queue as soon as a registration has gone through. -/
theorem registers_after :
    ((deployment refusal).after {} cs).service.Taken refusal ∧
      (((deployment refusal).after {} cs).service.manager.has "payments-dlq" = true ↔
        ∃ c ∈ cs, c.Registers refusal) := by
  refine (deployment refusal).induct_history {} cs (R := fun _ _ => True)
    (I := fun cs (d : Deployment) => d.service.Taken refusal ∧
      (d.service.manager.has "payments-dlq" = true ↔ ∃ c ∈ cs, c.Registers refusal))
    ⟨by simp [QueueService.Taken, QueueManager.has], by simp [QueueManager.has]⟩ ?_
    (List.pairwise_of_forall fun _ _ => trivial)
  rintro cs c _ ⟨htaken, hhas⟩
  obtain ⟨htaken', hhas'⟩ := registers_next (c := c) htaken
  refine ⟨htaken', hhas'.trans ?_⟩
  rw [hhas]
  simp [or_and_right, exists_or]

/-- **The registry and its keys.** After any calls of the service, with any gateway ids and
options, whatever names BullMQ refuses: every entry agrees with its key, and no two entries
are for the same gateway and priority, if and only if no registration has gone through so
far; and the only entry that ever disagrees is that of the dead-letter queue. -/
theorem faithful_iff (refusal : String → Option Thrown) (cs : List ServiceCall) :
    let q := ((deployment refusal).after {} cs).service.manager
    (q.Faithful ↔ ∀ c ∈ cs, ¬ c.Registers refusal) ∧
      ∀ entry ∈ q.queues, MatchesKey entry ↔ entry.1 ≠ "payments-dlq" := by
  intro q
  have horder : ((deployment refusal).after {} cs).service.InOrder :=
    inOrder_after QueueService.inOrder_empty
  refine ⟨?_, fun entry hmem => (horder.named entry hmem).matchesKey_iff⟩
  rw [horder.faithful_iff_has, ne_eq, registers_after.2]
  push Not
  rfl

/-- A single registration enters the dead-letter queue as a scheduled one, the same as the
queue of the delayed payments. -/
theorem dlq_scheduled :
    let q :=
      ((deployment fun _ => none).after {} [.registerGateway 0 "stripe" none]).service.manager
    q.get "payments-dlq" = some ⟨"*", .scheduled⟩ ∧
      q.get "payments-scheduled" = some ⟨"*", .scheduled⟩ ∧
      (∃ entry ∈ q.queues, ¬ MatchesKey entry) ∧ ¬ (q.queues.map (·.2)).Nodup := by
  decide +kernel

end PaymentQueue
