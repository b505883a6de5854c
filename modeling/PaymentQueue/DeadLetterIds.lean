import PaymentQueue.GivingUp
import PaymentQueue.QueueService

/-!
# PaymentQueue.DeadLetterIds

Can every payment that was enqueued be dead-lettered?

Both `enqueue` and `moveToDeadLetter` choose the id of the job they add: the idempotency key,
and the key behind `dlq:`. BullMQ is strict about such ids. It takes no integer, and a colon
only in an id of exactly three parts, the form its own repeated jobs have. The prefix adds
one part to the key, and an accepted key has one part or three: no dead-letter id is ever
accepted (`deadLetter_rejected`). The add of `moveToDeadLetter` therefore rejects whenever it
is reached, and the payment stays where it is (`never_deadLettered`).
-/

namespace PaymentQueue

open Async

/-! ### Custom job ids -/

/-- The id is the decimal form of an integer. -/
def IsInteger (jobId : String) : Prop := ∃ n : ℤ, jobId = toString n

/-- The integer whose decimal form the id would have to be. -/
def parseInt (jobId : String) : ℤ :=
  match jobId.toList with
  | '-' :: ds => -(Nat.ofDigitChars 10 ds 0 : ℤ)
  | ds => Nat.ofDigitChars 10 ds 0

theorem parseInt_toString (n : ℤ) : parseInt (toString n) = n := by
  rw [Int.toString_eq_repr, Int.repr_eq_if]
  split
  · next hn =>
    have hds : n.toNat.repr.toList = Nat.toDigits 10 n.toNat := by simp
    rw [parseInt, hds]
    split
    · next ds hminus =>
      -- no number begins with a minus sign unless it is negative
      have hdigit := Nat.isDigit_of_mem_toDigits (by decide) (by decide)
        (hminus ▸ List.mem_cons_self : '-' ∈ Nat.toDigits 10 n.toNat)
      exact absurd hdigit (by decide)
    · rw [Nat.ofDigitChars_ten_toDigits, Int.toNat_of_nonneg hn]
  · next hn =>
    have hds : ("-" ++ (-n).toNat.repr).toList = '-' :: Nat.toDigits 10 (-n).toNat := by simp
    rw [parseInt, hds]
    simp only [Nat.ofDigitChars_ten_toDigits]
    omega

instance : DecidablePred IsInteger := fun jobId =>
  decidable_of_iff (jobId = toString (parseInt jobId)) <| by
    constructor
    · intro h
      exact ⟨_, h⟩
    · rintro ⟨n, rfl⟩
      rw [parseInt_toString]

/-- `jobId.split(':')`. -/
def idParts (jobId : String) : List (List Char) := jobId.toList.splitOn ':'

/-- The custom ids that BullMQ's `Queue.add` accepts. -/
def ValidJobId (jobId : String) : Prop :=
  ¬ IsInteger jobId ∧ (':' ∈ jobId.toList → (idParts jobId).length = 3)

instance : DecidablePred ValidJobId := fun _ => inferInstanceAs (Decidable (_ ∧ (_ → _)))

example : ValidJobId "idem_1" ∧ ValidJobId "repeat:idem:1" ∧ ¬ ValidJobId "-42" ∧
    ¬ ValidJobId "dlq:idem_1" := by decide +kernel

/-- The id that `moveToDeadLetter` builds. -/
def deadLetterId (key : String) : String := "dlq:" ++ key

theorem deadLetterId_injective : Function.Injective deadLetterId := by
  intro key key' h
  have hlist := congrArg String.toList h
  simp only [deadLetterId, String.toList_append, List.append_cancel_left_eq] at hlist
  exact String.toList_injective hlist

/-- The prefix is a part of its own. -/
theorem idParts_deadLetterId (key : String) :
    idParts (deadLetterId key) = "dlq".toList :: idParts key := by
  have hlist : (deadLetterId key).toList = "dlq".toList ++ ':' :: key.toList := by
    simp [deadLetterId]
  rw [idParts, hlist, List.splitOn_append_cons_self,
    List.splitOn_eq_singleton (by decide), List.singleton_append, idParts]

/-- An accepted key has one part or three. -/
theorem ValidJobId.length_idParts {key : String} (h : ValidJobId key) :
    (idParts key).length = 1 ∨ (idParts key).length = 3 := by
  by_cases hcolon : ':' ∈ key.toList
  · exact Or.inr (h.2 hcolon)
  · exact Or.inl (by rw [idParts, List.splitOn_eq_singleton hcolon, List.length_singleton])

/-- The dead-letter id of an accepted key has two parts or four. -/
theorem ValidJobId.deadLetterId {key : String} (h : ValidJobId key) :
    ¬ ValidJobId (deadLetterId key) := by
  intro hvalid
  have hcolon : ':' ∈ (PaymentQueue.deadLetterId key).toList := by
    simp [PaymentQueue.deadLetterId]
  have hparts := hvalid.2 hcolon
  rw [idParts_deadLetterId, List.length_cons] at hparts
  rcases h.length_idParts with h | h
  · omega
  · omega

/-! ### The adds that choose such ids -/

/-- `Queue.add`, where `rejection` says with what error an id is refused, if it is. -/
def queueAdd (rejection : String → Option Thrown) (job : QueuedJob) :
    Except Thrown QueuedJob :=
  match rejection job.opts.jobId with
  | some e => .error e
  | none => .ok job

/-- Some service enqueues the payment, at once or with a delay. -/
def Enqueuable (rejection : String → Option Thrown) (payment : Payment) : Prop :=
  ∃ (q : QueueManager) (delayMs : Option Int) (job : QueuedJob),
    (q.enqueue payment delayMs).bind (queueAdd rejection) = .ok job

/-- A refused id is not added to the dead-letter queue. Any add may fail. -/
def addsBy (rejection : String → Option Thrown) : ProcEvent → Bool
  | ⟨.deadLetterAdd _ jobId, .ok _⟩ => (rejection jobId).isNone
  | _ => true

variable {rejection : String → Option Thrown} {payment : Payment} {job : Job}
variable {tr : List ProcEvent} {res : Except Thrown Unit}

/-- A payment that is enqueued has an accepted key. -/
theorem Enqueuable.accepted (h : Enqueuable rejection payment) :
    rejection payment.idempotencyKey = none := by
  obtain ⟨q, delayMs, job, hadd⟩ := h
  cases hjob : q.enqueue payment delayMs with
  | error e => simp [hjob, Except.bind] at hadd
  | ok job' =>
      obtain ⟨-, hid, -⟩ := QueueManager.enqueue_spec hjob
      rw [hjob] at hadd
      simp only [Except.bind, queueAdd, hid] at hadd
      split at hadd
      · exact absurd hadd (by simp)
      · next hnone => exact hnone

/-- An id that cannot be added ends the call before the dead letter is announced. -/
theorem moveToDeadLetter_rejects {reason : Option String}
    (hrefused : rejection (deadLetterId payment.idempotencyKey) ≠ none)
    (hadds : ∀ ev ∈ tr, addsBy rejection ev = true)
    (h : Exec (moveToDeadLetter payment reason) tr res) :
    ∃ e, res = .error e ∧ tr = [⟨.deadLetterAdd { payment with failureReason := reason }
      (deadLetterId payment.idempotencyKey), .error e⟩] := by
  obtain ⟨r, tr', rfl, hrest⟩ := Exec.await_iff.mp h
  cases r with
  | ok _ => exact absurd (Option.isNone_iff_eq_none.mp (hadds _ List.mem_cons_self)) hrefused
  | error e =>
      have hthrow : Exec (.throw e : Proc Unit) tr' res := hrest
      obtain ⟨rfl, rfl⟩ := Exec.throw_iff.mp hthrow
      exact ⟨e, rfl, rfl⟩

theorem of_isDeadLettered {ev : ProcEvent} (h : isDeadLettered ev = true) :
    ∃ p jobId u, ev = ⟨.deadLetterAdd p jobId, .ok u⟩ := by
  unfold isDeadLettered at h
  split at h
  · exact ⟨_, _, _, rfl⟩
  · exact absurd h (by simp)

/-- If the operation adds a dead letter, then under this id. -/
def Op.BuriesUnder (jobId : String) : Op → Prop
  | deadLetterAdd _ id => id = jobId
  | _ => True

theorem Stage.Edge.buriesUnder {g g' : Stage} {o : Op} {r : o.Ret} (h : Stage.Edge job g o r g') :
    o.BuriesUnder (deadLetterId job.data.idempotencyKey) := by
  cases h <;> trivial

/-- A call adds dead letters under no other id than that of its payment. -/
theorem process_deadLetterId (h : Exec (process job) tr res) {p : Payment} {jobId : String}
    {r : Except Thrown Unit} (hmem : ⟨.deadLetterAdd p jobId, r⟩ ∈ tr) :
    jobId = deadLetterId job.data.idempotencyKey := by
  obtain ⟨g, hpath, -⟩ := (process_follows job).path h
  exact hpath.forall_mem (P := fun ev : ProcEvent =>
    ev.op.BuriesUnder (deadLetterId job.data.idempotencyKey)) Stage.Edge.buriesUnder _ hmem

/-! ### No dead letter -/

section

variable (hrule : ∀ jobId, rejection jobId = none ↔ ValidJobId jobId)
include hrule

/-- BullMQ refuses the dead-letter id of every key it has accepted. -/
theorem rejection_deadLetterId {key : String} (h : rejection key = none) :
    rejection (deadLetterId key) ≠ none :=
  fun hnone => ((hrule key).mp h).deadLetterId ((hrule _).mp hnone)

/-- No call puts a payment that could be enqueued into the dead-letter queue. It throws when
the saga has failed. -/
theorem process_never_deadLettered (henqueue : Enqueuable rejection job.data)
    (hadds : ∀ ev ∈ tr, addsBy rejection ev = true) (h : Exec (process job) tr res) :
    tr.any isDeadLettered = false ∧
      ∀ e, sagaOutcome job.data tr = some (.error e) → Attempt.threw ⟨tr, res⟩ = true := by
  have hdead : tr.any isDeadLettered = false := by
    rw [List.any_eq_false]
    intro ev hmem hdead
    obtain ⟨p, jobId, u, rfl⟩ := of_isDeadLettered hdead
    have hnone := Option.isNone_iff_eq_none.mp (hadds _ hmem)
    rw [process_deadLetterId h hmem] at hnone
    exact rejection_deadLetterId hrule henqueue.accepted hnone
  refine ⟨hdead, fun e hsaga => ?_⟩
  obtain ⟨hburied, hleft⟩ := (process_outcome h).of_failed hsaga
  refine hleft ?_
  by_contra hopen
  simp [hdead] at hburied
  exact hopen hburied

/-- **No dead letter.** Of a job whose payment could be enqueued no attempt ever puts the
payment into the dead-letter queue, and every attempt whose saga failed throws. -/
theorem never_deadLettered {job : QueuedJob} {runs : List Tried}
    (henqueue : Enqueuable rejection job.data) (h : job.Runs runs)
    (hadds : ∀ out ∈ runs, ∀ ev ∈ out.events, addsBy rejection ev = true) :
    deadLettered runs = false ∧ ∀ out ∈ runs, ∀ e,
      sagaOutcome job.data out.events = some (.error e) → out.threw = true := by
  have hattempt : ∀ out ∈ runs, out.events.any isDeadLettered = false ∧
      ∀ e, sagaOutcome job.data out.events = some (.error e) → out.threw = true := by
    intro out hout
    obtain ⟨k, hk⟩ := List.mem_iff_getElem?.mp hout
    have hattempt : Enqueuable rejection (job.attempt (0 + k)).data := henqueue
    exact process_never_deadLettered hrule hattempt (hadds out hout) (h.executed hk)
  refine ⟨?_, fun out hout => (hattempt out hout).2⟩
  rw [deadLettered, List.any_eq_false]
  exact fun out hout => by simp [(hattempt out hout).1]

end

/-- **Dead-letter ids.** BullMQ refuses the dead-letter id of every key that it accepts as the
id of an enqueued job. Distinct keys have distinct dead-letter ids, but `moveToDeadLetter`
rejects for every payment that could be enqueued. -/
theorem deadLetter_rejected {rejection : String → Option Thrown}
    (hrule : ∀ jobId, rejection jobId = none ↔ ValidJobId jobId) :
    (∀ key, rejection key = none → rejection (deadLetterId key) ≠ none) ∧
      (∀ key key', deadLetterId key = deadLetterId key' → key = key') ∧
      ∀ payment, Enqueuable rejection payment →
        (∀ (s : QueueService) reason, ∃ e,
          (s.deadLetter payment reason).bind (queueAdd rejection) = .error e) ∧
        ∀ reason tr res, (∀ ev ∈ tr, addsBy rejection ev = true) →
          Exec (moveToDeadLetter payment reason) tr res → ∃ e, res = .error e := by
  refine ⟨fun key => rejection_deadLetterId hrule, fun key key' h =>
    deadLetterId_injective h, fun payment henqueue => ⟨fun s reason => ?_, ?_⟩⟩
  · rw [QueueService.deadLetter]
    split
    · obtain ⟨e, he⟩ := Option.ne_none_iff_exists'.mp
        (rejection_deadLetterId hrule henqueue.accepted)
      rw [deadLetterId] at he
      exact ⟨e, by simp [Except.bind, queueAdd, he]⟩
    · exact ⟨_, rfl⟩
  · intro reason tr res hadds h
    obtain ⟨e, he, -⟩ := moveToDeadLetter_rejects
      (rejection_deadLetterId hrule henqueue.accepted) hadds h
    exact ⟨e, he⟩

/-! ### A card payment -/

/-- BullMQ, refusing what it has to. -/
def refusesIds (jobId : String) : Option Thrown :=
  if ValidJobId jobId then none else some (.error "custom job id refused")

theorem refusesIds_rule (jobId : String) : refusesIds jobId = none ↔ ValidJobId jobId := by
  by_cases h : ValidJobId jobId <;> simp [refusesIds, h]

theorem enqueuable_cardPayment : Enqueuable refusesIds cardPayment := by
  refine ⟨stripeQueues, none, cardQueued 3, ?_⟩
  rw [enqueue_cardPayment]
  decide +kernel

/-- The dead-letter id of an accepted key is refused, and with it the dead letter. -/
theorem deadLetter_rejected_card :
    refusesIds "idem_1" = none ∧ refusesIds (deadLetterId "idem_1") ≠ none ∧
      ∃ e, (QueueService.deadLetter
        ((deployment fun _ => none).after {} [.registerGateway 0 "stripe" none]).service
        cardPayment (some "exhausted retries")).bind (queueAdd refusesIds) = .error e := by
  obtain ⟨hid, -, hcard⟩ := deadLetter_rejected refusesIds_rule
  have haccepted : refusesIds "idem_1" = none := by decide +kernel
  exact ⟨haccepted, hid _ haccepted, (hcard cardPayment enqueuable_cardPayment).1 _ _⟩

/-- The charge of the last attempt fails. The payment, which was enqueued, is reported failed,
but BullMQ refuses its dead-letter id: the call throws, and there is no dead letter. -/
theorem dead_letter_id_refused :
    Enqueuable refusesIds cardPayment ∧ refusesIds (deadLetterId "idem_1") ≠ none ∧
      ∃ tr res w', Exec (process (cardJob 2)) tr res ∧ system.Answers startedUp tr w' ∧
        (tr.any isFailedReport = true ∧ tr.any isBurialReject = true ∧
          tr.all (addsBy refusesIds) = true ∧ tr.any isDeadLettered = false ∧
          w'.deadLetters = [] ∧ Attempt.threw ⟨tr, res⟩ = true) :=
  ⟨enqueuable_cardPayment, by decide +kernel,
    Machine.exists_of_solo (chargeFails ++ [.resolve, .reject (.error "custom job id refused")])
      (by decide +kernel)⟩

end PaymentQueue
