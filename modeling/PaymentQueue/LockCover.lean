import PaymentQueue.Breakers
import PaymentQueue.Concurrency

/-!
# PaymentQueue.LockCover

Does the lock outlive the wait for a slot?

A call takes its lock before it queues for a slot of the gateway, so the 120 s of the lock
run while other payments are charged. Behind a full house and as many others in the queue as
there are slots, the wait can take longer than the lock lasts, and a second call for the
same key acquires it (`lock_outwaited_reachable`). A call that joins behind fewer others
than there are slots is served in time: of the sagas that were running when it joined, more
than wait before it, and each of them ends within 120 s of that moment
(`lock_covers_wait`, from `Slots.Covered`).
-/

namespace PaymentQueue

open Async

variable {ι : Type} [DecidableEq ι]

/-! ### Time in a log -/

/-- The time that passes with a log entry. -/
def ticked : LogEntry ι → Nat
  | .move (.tick ms) => ms
  | _ => 0

/-- The time that passes in a log, in milliseconds. -/
def elapsed (log : List (LogEntry ι)) : Nat := (log.map ticked).sum

/-- How long ago call `c` was last answered with an event in `f`. -/
def age (c : ι) (f : ProcEvent → Bool) (log : List (LogEntry ι)) : Nat :=
  elapsed (since (answered c f) log)

/-- How long ago call `c` acquired its lock. -/
abbrev lockAge (c : ι) (log : List (LogEntry ι)) : Nat := age c isLockAcquired log

/-- A slot is given to the call: at once, or when its ticket has been called. The saga
starts. -/
def takesSlot : ProcEvent → Bool
  | ⟨.semaphoreAcquire _, t⟩ => t.isNone
  | ⟨.semaphoreGranted _ _, _⟩ => true
  | _ => false

/-- The slot is given back: the saga is over. -/
def givesSlotBack : ProcEvent → Bool
  | ⟨.semaphoreRelease _, _⟩ => true
  | _ => false

/-- The saga of call `c` runs. -/
abbrev SagaRuns (c : ι) (log : List (LogEntry ι)) : Prop :=
  Pending (answered c takesSlot) (answered c givesSlotBack) log

/-- How long ago the saga of call `c` started. -/
abbrev sagaAge (c : ι) (log : List (LogEntry ι)) : Nat := age c takesSlot log

section

variable {c d : ι} {f : ProcEvent → Bool} {ev : ProcEvent} {log : List (LogEntry ι)}

theorem age_reply_of (h : f ev = true) : age c f (.reply c ev :: log) = 0 := by
  simp [age, h, elapsed]

theorem age_reply_of_not (h : answered d f (.reply c ev) = false) :
    age d f (.reply c ev :: log) = age d f log := by
  rw [age, since_cons_of_not h]
  simp [age, elapsed, ticked]

@[simp] theorem age_begun : age d f (.begun c :: log) = age d f log := by
  rw [age, since_cons_of_not rfl]
  simp [age, elapsed, ticked]

@[simp] theorem age_move {m : Move} :
    age d f (.move m :: log) = ticked (.move m : LogEntry ι) + age d f log := by
  rw [age, since_cons_of_not rfl]
  simp [age, elapsed]

end

/-! ### The lock at the time of the charge -/

/-- `LOCK_TTL_SEC`, in milliseconds. -/
def lockTtlMs : Nat := 120000

/-- The event acquires the lock of the key. -/
def takesLockOf (key : String) : ProcEvent → Bool
  | ⟨.acquireLock k, .ok b⟩ => b && k == key
  | _ => false

/-- The event deletes the lock of the key. -/
def deletesLockOf (key : String) : ProcEvent → Bool
  | ⟨.releaseLock k, .ok _⟩ | ⟨.storeResult k _, .ok _⟩ => k == key
  | _ => false

/-- The gateway is asked to charge. -/
def Op.charges : Op → Bool
  | gatewayProcess _ => true
  | _ => false

/-- Call `c` has just invoked `gateway.process`. -/
def justCharges (s : State ι) (c : ι) : Bool :=
  (s.thread c).awaiting.any Op.charges && s.log.head?.any (answered c fun _ => true)

/-- What is logged of the key since call `c` acquired its lock. -/
def sinceLock (c : ι) (f : ProcEvent → Bool) (log : List (LogEntry ι)) : Bool :=
  (since (answered c isLockAcquired) log).any (heard f)

/-- When a call of the gateway invokes `gateway.process`, its lock has not expired; so
unless the lock has been deleted, it is in place, and no second call has acquired it. -/
def LockCovers (jobs : ι → Job) (gatewayId : String) (s : State ι) : Prop :=
  ∀ c, (jobs c).data.gatewayId = gatewayId → justCharges s c = true →
    let key := (jobs c).data.idempotencyKey
    lockAge c s.log < lockTtlMs ∧
      (sinceLock c (deletesLockOf key) s.log = false →
        (Redis.liveEntry s.world.now
          (s.world.redis (IdempotencyService.lockKey key))).isSome = true ∧
        sinceLock c (takesLockOf key) s.log = false)

instance [Fintype ι] (jobs : ι → Job) (gatewayId : String) :
    DecidablePred (LockCovers jobs gatewayId) :=
  fun _ => inferInstanceAs (Decidable (∀ _, _ → _ → _ ∧ (_ → _ ∧ _)))

/-! ### What is assumed of the runs -/

/-- Synchronous operations: they answer before anything else can happen. -/
def Op.synchronous : Op → Bool
  | lookupGateway _ | lookupRateLimiter _ | canAttempt _ | recordSuccess _ | recordFailure _
  | tryConsume _ | msUntilAvailable _ | emit _ | semaphoreAcquire _ | semaphoreRelease _
  | sagaFailStep => true
  | _ => false

/-- Call `c` goes on at once: it is in the middle of synchronous code, or has been called
from the queue. -/
def due (s : State ι) (c : ι) : Bool :=
  match (s.thread c).awaiting with
  | some (.semaphoreGranted g t) => !(s.world.semaphore g).any (t ∈ ·.waiters)
  | some o => o.synchronous
  | none => false

/-- Time passes only while no call is due. -/
def Prompt (s : State ι) : Action system ι → Prop
  | .move (.tick _) => ∀ c, due s c = false
  | _ => True

/-- Every saga ends less than 120 s after its start. -/
def SagasEnd (s : State ι) : Action system ι → Prop
  | .move (.tick ms) => ∀ c, SagaRuns c s.log → sagaAge c s.log + ms < lockTtlMs
  | _ => True

/-- A call asks for a slot of the gateway only while fewer calls wait for one than it has
slots. -/
def ShortQueue (gatewayId : String) (s : State ι) : Action system ι → Prop
  | .answer c _ => (s.thread c).awaiting = some (.semaphoreAcquire gatewayId) →
      ∀ sem ∈ s.world.semaphore gatewayId, (sem.waiters.length : Int) < sem.max
  | _ => True

instance [Fintype ι] (s : State ι) : DecidablePred (Prompt s)
  | .move (.tick _) => inferInstanceAs (Decidable (∀ _, _))
  | .move (.expire _) | .begin _ | .answer _ _ | .crash _ _ => .isTrue trivial

instance [Fintype ι] (s : State ι) : DecidablePred (SagasEnd s)
  | .move (.tick _) => inferInstanceAs (Decidable (∀ _, _ → _))
  | .move (.expire _) | .begin _ | .answer _ _ | .crash _ _ => .isTrue trivial

instance (gatewayId : String) (s : State ι) : DecidablePred (ShortQueue gatewayId s)
  | .answer _ _ => inferInstanceAs (Decidable (_ → ∀ _ ∈ _, _))
  | .move _ | .begin _ | .crash _ _ => .isTrue trivial

/-- Runs in which no call dies, every saga ends in time, and no call joins a queue as long
as the gateway has slots. -/
abbrev coverRuns (gatewayId : String) : Guard system ι Thrown Unit :=
  fun s a => NoCrash s a ∧ Prompt s a ∧ SagasEnd s a ∧ ShortQueue gatewayId s a

/-! ### What a call does with its lock and slot -/

namespace SlotStage

/-- The call has acquired its lock, and its saga has not started. -/
def underLock : SlotStage → Bool
  | .locked | .waiting _ => true
  | _ => false

variable {job : Job} {x x' : SlotStage} {o : Op} {r : o.Ret}

/-- A saga runs from the slot's being taken to its being given back. -/
theorem Edge.inSlot_iff (h : Edge job x o r x') : x'.inSlot = true ↔
    takesSlot ⟨o, r⟩ = true ∨ (givesSlotBack ⟨o, r⟩ = false ∧ x.inSlot = true) := by
  cases h with
  | before ho | work ho | after ho =>
      cases o <;> simp_all [Op.elsewhere, takesSlot, givesSlotBack, inSlot]
  | _ => simp [takesSlot, givesSlotBack, inSlot]

/-- The lock is acquired by a call that is away. -/
theorem Edge.of_isLockAcquired (h : Edge job x o r x') (hl : isLockAcquired ⟨o, r⟩ = true) :
    x = .away ∧ x' = .locked ∧
      (⟨o, r⟩ : ProcEvent) = ⟨.acquireLock job.data.idempotencyKey, .ok true⟩ := by
  cases h with
  | before ho | work ho | after ho => cases o <;> simp_all [Op.elsewhere, isLockAcquired]
  | @refused r hr =>
      cases r with
      | error e => simp [isLockAcquired] at hl
      | ok b => exact absurd (congrArg Except.ok hl) hr
  | lock => exact ⟨rfl, rfl, rfl⟩
  | _ => simp [isLockAcquired] at hl

/-- A call comes to be under its lock by acquiring it, and stays so by joining the queue. -/
theorem Edge.underLock_of (h : Edge job x o r x') (hx : x'.underLock = true) :
    (x' = .locked ∧ (⟨o, r⟩ : ProcEvent) = ⟨.acquireLock job.data.idempotencyKey, .ok true⟩) ∨
      (x = .locked ∧ ∃ t, x' = .waiting t ∧
        (⟨o, r⟩ : ProcEvent) = ⟨.semaphoreAcquire job.data.gatewayId, some t⟩) := by
  cases h with
  | lock => exact Or.inl ⟨rfl, rfl⟩
  | join t => exact Or.inr ⟨rfl, t, rfl, rfl⟩
  | _ => simp [underLock] at hx

/-- A call takes its seat from under its lock. -/
theorem Edge.of_seated (h : Edge job x o r .seated) :
    x.underLock = true ∧ ((⟨o, r⟩ : ProcEvent) = ⟨.semaphoreAcquire job.data.gatewayId, none⟩ ∨
      ∃ t, x = .waiting t ∧
        (⟨o, r⟩ : ProcEvent) = ⟨.semaphoreGranted job.data.gatewayId t, ()⟩) := by
  generalize hx : SlotStage.seated = x' at h
  cases h with
  | enter => exact ⟨rfl, Or.inl rfl⟩
  | grant t => exact ⟨rfl, Or.inr ⟨t, rfl, rfl⟩⟩
  | _ => simp at hx

theorem Edge.of_semaphoreAcquire {g : String} {t : Option Nat}
    (h : Edge job x (.semaphoreAcquire g) t x') : x = .locked := by
  cases h with
  | before ho | work ho | after ho => simp [Op.elsewhere] at ho
  | enter | join => rfl

theorem Edge.of_locked (h : Edge job .locked o r x') :
    o = .semaphoreAcquire job.data.gatewayId := by
  cases h <;> rfl

theorem Edge.of_takesSlot (h : Edge job x o r x') (ht : takesSlot ⟨o, r⟩ = true) :
    x.inSlot = false := by
  cases h with
  | before ho | work ho | after ho => cases o <;> simp_all [Op.elsewhere, takesSlot]
  | charge | leave => simp [takesSlot] at ht
  | _ => rfl

theorem Edge.of_givesSlotBack (h : Edge job x o r x') (hg : givesSlotBack ⟨o, r⟩ = true) :
    o = .semaphoreRelease job.data.gatewayId := by
  cases h with
  | before ho | work ho | after ho => cases o <;> simp_all [Op.elsewhere, givesSlotBack]
  | leave => rfl
  | _ => simp [givesSlotBack] at hg

end SlotStage

open IdempotencyService in
/-- What an operation does to the lock of a key: it deletes it, takes it when it is free,
or leaves it alone. -/
theorem World.lock_perform {w w' : World} {o : Op} {a : Answer} {r : o.Ret}
    (h : w.perform o a = some (r, w')) (key : String) :
    deletesLockOf key ⟨o, r⟩ = true ∨
      (takesLockOf key ⟨o, r⟩ = true ∧ w.redis (lockKey key) = none ∧
        w'.redis (lockKey key) = some ⟨.str "1", w.now + lockTtlMs⟩) ∨
      (takesLockOf key ⟨o, r⟩ = false ∧ w'.redis (lockKey key) = w.redis (lockKey key)) := by
  have hother : ∀ {k}, ¬ k = key → lockKey key ≠ lockKey k :=
    fun hk heq => hk (lockKey_injective heq).symm
  cases o with
  | acquireLock k =>
      cases a <;> simp only [perform, reduceCtorEq, Option.some.injEq, Prod.mk.injEq] at h
      all_goals obtain ⟨rfl, rfl⟩ := h
      · by_cases hk : k = key
        · subst hk
          cases hr : w.redis (lockKey k) <;>
            simp [takesLockOf, acquireLock, Redis.setExNx, Redis.setEx, hr, lockTtlMs,
              lockTtlSec]
        · cases hr : w.redis (lockKey k) <;>
            simp [takesLockOf, acquireLock, Redis.setExNx, Redis.setEx, hr, hk, hother hk]
      · exact Or.inr (Or.inr ⟨rfl, rfl⟩)
  | releaseLock k | storeResult k v =>
      cases a <;> simp only [perform, reduceCtorEq, Option.some.injEq, Prod.mk.injEq] at h
      all_goals obtain ⟨rfl, rfl⟩ := h
      · by_cases hk : k = key
        · simp [deletesLockOf, hk]
        · simp [takesLockOf, releaseLock, storeResult, Redis.del, Redis.setEx, hother hk,
            lockKey_ne_resultKey]
      · exact Or.inr (Or.inr ⟨rfl, rfl⟩)
  | _ => exact Or.inr (Or.inr ⟨rfl, by rw [(perform_frame h).redis rfl]⟩)

/-! ### What keeps the lock -/

/-- Unless it has been deleted, the lock that call `c` acquired for the key is in place, and
no second call has acquired it. -/
def LockInPlace (key : String) (w : World) (c : ι) (log : List (LogEntry ι)) : Prop :=
  sinceLock c (deletesLockOf key) log = false →
    (∃ v, w.redis (IdempotencyService.lockKey key) =
      some ⟨v, w.now + lockTtlMs - lockAge c log⟩) ∧
    sinceLock c (takesLockOf key) log = false

section

variable {c d : ι} {f : ProcEvent → Bool} {ev : ProcEvent} {log : List (LogEntry ι)}

theorem sinceLock_reply_of (h : isLockAcquired ev = true) :
    sinceLock c f (.reply c ev :: log) = false := by
  simp [sinceLock, h]

theorem sinceLock_reply_of_not (h : answered d isLockAcquired (.reply c ev) = false) :
    sinceLock d f (.reply c ev :: log) = (f ev || sinceLock d f log) := by
  simp [sinceLock, h, heard]

@[simp] theorem sinceLock_begun : sinceLock d f (.begun c :: log) = sinceLock d f log := by
  rw [sinceLock, since_cons_of_not rfl]
  simp [sinceLock, heard]

@[simp] theorem sinceLock_move {m : Move} :
    sinceLock d f (.move m :: log) = sinceLock d f log := by
  rw [sinceLock, since_cons_of_not rfl]
  simp [sinceLock, heard]

variable {key : String} {w w' : World}

/-- The lock of a call survives what other calls do, and what it does itself. -/
theorem LockInPlace.reply {o : Op} {a : Answer} {r : o.Ret} (h : LockInPlace key w d log)
    (hw : w.perform o a = some (r, w'))
    (hacq : answered d isLockAcquired (.reply c ⟨o, r⟩) = false) :
    LockInPlace key w' d (.reply c ⟨o, r⟩ :: log) := by
  intro hdel
  rw [sinceLock_reply_of_not hacq, Bool.or_eq_false_iff] at hdel
  obtain ⟨⟨v, hredis⟩, hsecond⟩ := h hdel.2
  have hage : lockAge d (.reply c ⟨o, r⟩ :: log) = lockAge d log := age_reply_of_not hacq
  rw [hage, sinceLock_reply_of_not hacq, hsecond, (World.breaker_perform hw key).1]
  rcases World.lock_perform hw key with hdel' | ⟨-, hnone, -⟩ | ⟨htake, hsame⟩
  · simp [hdel.1] at hdel'
  · simp [hredis] at hnone
  · exact ⟨⟨v, hsame.trans hredis⟩, by simp [htake]⟩

/-- The lock of a call is in place when it has just been acquired. -/
theorem LockInPlace.acquired {a : Answer} (hw : w.perform (.acquireLock key) a =
    some (.ok true, w')) :
    LockInPlace key w' c (.reply c ⟨.acquireLock key, .ok true⟩ :: log) := by
  intro _
  have hage : lockAge c (.reply c ⟨.acquireLock key, .ok true⟩ :: log) = 0 := age_reply_of rfl
  rw [hage, sinceLock_reply_of rfl, (World.breaker_perform hw key).1]
  rcases World.lock_perform hw key with hdel | ⟨-, -, hset⟩ | ⟨htake, -⟩
  · simp [deletesLockOf] at hdel
  · exact ⟨⟨_, by simpa using hset⟩, rfl⟩
  · simp [takesLockOf] at htake

/-- Time passes, and keys expire: not the lock of a call that is younger than its TTL. -/
theorem LockInPlace.move {m : Move} (h : LockInPlace key w d log) (hm : w.move m = some w')
    (hlt : lockAge d log < lockTtlMs) : LockInPlace key w' d (.move m :: log) := by
  intro hdel
  rw [sinceLock_move] at hdel
  obtain ⟨⟨v, hredis⟩, hsecond⟩ := h hdel
  refine ⟨⟨v, ?_⟩, by simpa using hsecond⟩
  cases m with
  | tick ms =>
      obtain rfl := Option.some.inj hm
      simp only [age_move, ticked, hredis]
      congr 2
      push_cast
      ring
  | expire key' =>
      simp only [World.move, Option.map_eq_some_iff, Redis.expire] at hm
      obtain ⟨redis, hexp, rfl⟩ := hm
      have hne : IdempotencyService.lockKey key ≠ key' := by
        intro heq
        rw [← heq, hredis] at hexp
        have hle : ¬ w.now + lockTtlMs - lockAge d log ≤ w.now := by omega
        simp [hle] at hexp
      cases hkey' : w.redis key' with
      | none => simp [hkey'] at hexp
      | some e =>
          simp only [hkey', Option.ite_none_right_eq_some, Option.some.injEq] at hexp
          obtain ⟨-, rfl⟩ := hexp
          simp [Redis.del, hne, hredis, ticked]

end

/-- How long call `d` has had its slot: no time, if it has only been called. -/
def held (σ : ι → SlotStage) (log : List (LogEntry ι)) (d : ι) : Nat :=
  if (σ d).inSlot then sagaAge d log else 0

/-- What keeps the locks of the calls that wait for a slot of the gateway. -/
structure CoverInv (jobs : ι → Job) (gatewayId : String) (m : Nat) (s : State ι)
    (σ : ι → SlotStage) (sem : GatewaySemaphore) (q : Slots ι) : Prop where
  slots : SlotInv jobs gatewayId m s σ sem q
  runs : ∀ c, SagaRuns c s.log ↔ (σ c).inSlot = true
  inTime : ∀ c, (σ c).inSlot = true → sagaAge c s.log < lockTtlMs
  /-- A call asks for its slot as soon as it has the lock. -/
  fresh : ∀ c, σ c = .locked → lockAge c s.log = 0
  covered : q.Covered (held σ s.log) fun c => lockAge c s.log
  /-- A call that is called from the queue is so in time. -/
  called : ∀ c, OnGateway jobs gatewayId c → (σ c).ticket.isSome = true → c ∉ q.queue →
    lockAge c s.log < lockTtlMs
  lock : ∀ c, OnGateway jobs gatewayId c → (σ c).underLock = true →
    LockInPlace (jobs c).data.idempotencyKey s.world c s.log

namespace CoverInv

variable {jobs : ι → Job} {gatewayId : String} {m : Nat} {s : State ι} {σ : ι → SlotStage}
variable {sem : GatewaySemaphore} {q : Slots ι} {c : ι} {o : Op} {r : o.Ret} {w : World}
variable {x : SlotStage} {a : Answer}

theorem held_lt (h : CoverInv jobs gatewayId m s σ sem q) (d : ι) :
    held σ s.log d < lockTtlMs := by
  unfold held
  split
  · next hd => exact h.inTime d hd
  · decide

/-- Nobody waits until its lock has expired. -/
theorem lockAge_lt (h : CoverInv jobs gatewayId m s σ sem q)
    (hon : OnGateway jobs gatewayId c) (hc : (σ c).underLock = true) :
    lockAge c s.log < lockTtlMs := by
  cases hx : σ c with
  | locked =>
      rw [h.fresh c hx]
      decide
  | waiting t =>
      by_cases hq : c ∈ q.queue
      · exact h.covered.lt (fun d _ => h.held_lt d) hq
      · exact h.called c hon (by simp [hx]) hq
  | _ => simp [hx, SlotStage.underLock] at hc

/-- A call in the queue is not answered an acquisition of its lock. -/
theorem lockAge_reply (hT : SlotStage.Edge (jobs c) (σ c) o r x) {d : ι}
    (hd : (σ d).hasAsked = true) :
    lockAge d (.reply c ⟨o, r⟩ :: s.log) = lockAge d s.log := by
  refine age_reply_of_not ?_
  by_contra hacq
  obtain ⟨rfl, hl⟩ := of_answered_reply (by simpa using hacq)
  obtain ⟨haway, -, -⟩ := hT.of_isLockAcquired hl
  simp [haway, SlotStage.hasAsked] at hd

theorem step_runs (h : CoverInv jobs gatewayId m s σ sem q)
    (hT : SlotStage.Edge (jobs c) (σ c) o r x) (d : ι) :
    SagaRuns d (.reply c ⟨o, r⟩ :: s.log) ↔ (Function.update σ c x d).inSlot = true := by
  by_cases hd : d = c
  · subst hd
    rw [SagaRuns, pending_cons, answered_reply_self, answered_reply_self, Function.update_self,
      hT.inSlot_iff, ← h.runs d]
  · rw [SagaRuns, pending_skip (answered_reply_of_ne hd) (answered_reply_of_ne hd),
      Function.update_of_ne hd]
    exact h.runs d

theorem step_inTime (h : CoverInv jobs gatewayId m s σ sem q)
    (hT : SlotStage.Edge (jobs c) (σ c) o r x) (d : ι)
    (hd : (Function.update σ c x d).inSlot = true) :
    sagaAge d (.reply c ⟨o, r⟩ :: s.log) < lockTtlMs := by
  revert d
  refine forall_update (P := fun d (x : SlotStage) => x.inSlot = true →
    sagaAge d (.reply c ⟨o, r⟩ :: s.log) < lockTtlMs) (fun hx => ?_) fun d hdc hd => ?_
  · rcases hT.inSlot_iff.mp hx with htakes | ⟨-, hc⟩
    · rw [sagaAge, age_reply_of htakes]
      decide
    · cases htakes : takesSlot ⟨o, r⟩ with
      | true =>
          rw [sagaAge, age_reply_of htakes]
          decide
      | false =>
          rw [sagaAge, age_reply_of_not (by simpa using htakes)]
          exact h.inTime c hc
  · rw [sagaAge, age_reply_of_not (answered_reply_of_ne hdc)]
    exact h.inTime d hd

theorem step_fresh (h : CoverInv jobs gatewayId m s σ sem q)
    (hT : SlotStage.Edge (jobs c) (σ c) o r x) (d : ι)
    (hd : Function.update σ c x d = .locked) : lockAge d (.reply c ⟨o, r⟩ :: s.log) = 0 := by
  revert d
  refine forall_update (P := fun d (x : SlotStage) => x = .locked →
    lockAge d (.reply c ⟨o, r⟩ :: s.log) = 0) (fun hx => ?_) fun d hdc hd => ?_
  · rcases hT.underLock_of (by rw [hx]; rfl) with ⟨-, ⟨⟩⟩ | ⟨-, t, hwait, -⟩
    · exact age_reply_of rfl
    · simp [hwait] at hx
  · rw [lockAge, age_reply_of_not (answered_reply_of_ne hdc)]
    exact h.fresh d hd

theorem step_lock (h : CoverInv jobs gatewayId m s σ sem q)
    (hw : s.world.perform o a = some (r, w)) (hT : SlotStage.Edge (jobs c) (σ c) o r x)
    (d : ι) (hon : OnGateway jobs gatewayId d)
    (hd : (Function.update σ c x d).underLock = true) :
    LockInPlace (jobs d).data.idempotencyKey w d (.reply c ⟨o, r⟩ :: s.log) := by
  revert d
  refine forall_update (P := fun d (x : SlotStage) => OnGateway jobs gatewayId d →
    x.underLock = true → LockInPlace (jobs d).data.idempotencyKey w d
      (.reply c ⟨o, r⟩ :: s.log)) (fun hon hx => ?_) fun d hdc hon hd => ?_
  · rcases hT.underLock_of hx with ⟨-, ⟨⟩⟩ | ⟨hc, t, -, ⟨⟩⟩
    · exact .acquired hw
    · exact (h.lock c hon (by rw [hc]; rfl)).reply hw (by simp [isLockAcquired])
  · exact (h.lock d hon hd).reply hw (answered_reply_of_ne hdc)

/-- Nobody in a slot loses time, unless it gives the slot back. -/
theorem held_le (hT : SlotStage.Edge (jobs c) (σ c) o r x) {d : ι}
    (hd : d = c → givesSlotBack ⟨o, r⟩ = false) :
    held σ s.log d ≤ held (Function.update σ c x) (.reply c ⟨o, r⟩ :: s.log) d := by
  by_cases hdc : d = c
  · subst hdc
    cases hc : (σ d).inSlot with
    | false => simp [held, hc]
    | true =>
        have hx : x.inSlot = true := hT.inSlot_iff.mpr (Or.inr ⟨hd rfl, hc⟩)
        have htakes : takesSlot ⟨o, r⟩ = false := by
          by_contra htakes
          simp [hT.of_takesSlot (by simpa using htakes)] at hc
        simp only [held, hc, hx, Function.update_self, if_true]
        rw [sagaAge, sagaAge, age_reply_of_not (by simpa using htakes)]
  · simp only [held, Function.update_of_ne hdc, sagaAge,
      age_reply_of_not (answered_reply_of_ne hdc), le_refl]

theorem step_covered (h : CoverInv jobs gatewayId m s σ sem q)
    (hG : ShortQueue gatewayId s (.answer c a)) (hc : (s.thread c).awaiting = some o)
    (hT : SlotStage.Edge (jobs c) (σ c) o r x) {q' : Slots ι}
    (hmove : SlotMove m gatewayId c q o r q') :
    q'.Covered (held (Function.update σ c x) (.reply c ⟨o, r⟩ :: s.log))
      fun d => lockAge d (.reply c ⟨o, r⟩ :: s.log) := by
  have hmono : ∀ e ∈ q.queue, ∀ d, (d = c → givesSlotBack ⟨o, r⟩ = false) →
      lockAge e s.log ≤ held σ s.log d → lockAge e (.reply c ⟨o, r⟩ :: s.log) ≤
        held (Function.update σ c x) (.reply c ⟨o, r⟩ :: s.log) d := by
    intro e he d hd hle
    rw [lockAge_reply hT (h.slots.hasAsked e (List.mem_append_right _ he))]
    exact hle.trans (held_le hT hd)
  cases hmove with
  | enter hfree => exact .of_queue_eq_nil (h.slots.refines.sound.queue_eq_nil hfree)
  | join t hfull hin hqueue =>
      have hcov := h.covered.mono fun e he d hd =>
        hmono e he d fun heq => absurd (heq ▸ hd) hin
      refine hcov.join (le_antisymm h.slots.refines.sound.card_le (not_lt.mp hfull)) ?_ ?_
      · have hlt := hG hc sem h.slots.semaphore
        have hlen := congrArg List.length h.slots.refines.queue
        rw [List.length_map, List.length_map] at hlen
        rw [h.slots.refines.max, ← hlen] at hlt
        exact Nat.cast_lt.mp hlt
      · intro d _
        have hage : lockAge c (.reply c ⟨.semaphoreAcquire gatewayId, some t⟩ :: s.log) =
            lockAge c s.log := age_reply_of_not (by simp [isLockAcquired])
        rw [hage, h.fresh c hT.of_semaphoreAcquire]
        exact Nat.zero_le _
  | leave hin => exact h.covered.leave fun e he d _ hdc => hmono e he d (absurd · hdc)
  | stay hask hfree =>
      refine h.covered.mono fun e he d hd => hmono e he d fun heq => ?_
      by_contra hgives
      have hon := ((h.slots.refines.inside d).mp hd).1
      rw [hT.of_givesSlotBack (by simpa using hgives), ← heq] at hfree
      exact absurd (beq_iff_eq.mpr hon) (by simpa [Op.freesSlot] using hfree)

theorem step_called (h : CoverInv jobs gatewayId m s σ sem q)
    (hT : SlotStage.Edge (jobs c) (σ c) o r x) {q' : Slots ι}
    (hmove : SlotMove m gatewayId c q o r q') (d : ι) (hon : OnGateway jobs gatewayId d)
    (hd : (Function.update σ c x d).ticket.isSome = true) (hout : d ∉ q'.queue) :
    lockAge d (.reply c ⟨o, r⟩ :: s.log) < lockTtlMs := by
  by_cases hdc : d = c
  · -- whoever draws a ticket joins the queue
    subst hdc
    rw [Function.update_self] at hd
    have hunder : x.underLock = true := by
      cases x <;> simp_all [SlotStage.ticket, SlotStage.underLock]
    rcases hT.underLock_of hunder with ⟨rfl, -⟩ | ⟨-, t, -, ⟨⟩⟩
    · simp [SlotStage.ticket] at hd
    · cases hmove with
      | join => exact absurd (List.mem_append_right _ (List.mem_singleton_self d)) hout
      | stay hask => exact absurd hon (ne_of_beq_false hask)
  · rw [Function.update_of_ne hdc] at hd
    rw [lockAge, age_reply_of_not (answered_reply_of_ne hdc)]
    refine h.lockAge_lt hon ?_
    cases hx : σ d <;> simp_all [SlotStage.ticket, SlotStage.underLock]

theorem reply (h : CoverInv jobs gatewayId m s σ sem q)
    (hG : ShortQueue gatewayId s (.answer c a)) (hc : (s.thread c).awaiting = some o)
    (hw : s.world.perform o a = some (r, w)) (hT : SlotStage.Edge (jobs c) (σ c) o r x)
    (t : Thread effects Thrown Unit) :
    ∃ q', CoverInv jobs gatewayId m
      ⟨Function.update s.thread c t, w, .reply c ⟨o, r⟩ :: s.log⟩ (Function.update σ c x)
      (sem.after gatewayId o) q' := by
  obtain ⟨q', hmove, hslots⟩ := h.slots.reply hw hT t
  exact ⟨q', hslots, h.step_runs hT, h.step_inTime hT, h.step_fresh hT,
    h.step_covered hG hc hT hmove, h.step_called hT hmove, h.step_lock hw hT⟩

theorem begun (h : CoverInv jobs gatewayId m s σ sem q) (t : ι → Thread effects Thrown Unit) :
    CoverInv jobs gatewayId m ⟨t, s.world, .begun c :: s.log⟩ σ sem q where
  slots := h.slots.other (by simp) rfl t
  runs d := by
    rw [SagaRuns, pending_skip rfl rfl]
    exact h.runs d
  inTime d hd := by simpa using h.inTime d hd
  fresh d hd := by simpa using h.fresh d hd
  covered := h.covered.mono fun e _ d _ hle => by simpa [held] using hle
  called d hon hd hq := by simpa using h.called d hon hd hq
  lock d hon hd := by simpa [LockInPlace] using h.lock d hon hd

/-- Keys expire. -/
theorem expired (h : CoverInv jobs gatewayId m s σ sem q) {key : String}
    (hm : s.world.move (.expire key) = some w) :
    CoverInv jobs gatewayId m ⟨s.thread, w, .move (.expire key) :: s.log⟩ σ sem q where
  slots := h.slots.other (by simp) (World.semaphore_move hm _) _
  runs d := by
    rw [SagaRuns, pending_skip rfl rfl]
    exact h.runs d
  inTime d hd := by simpa [ticked] using h.inTime d hd
  fresh d hd := by simpa [ticked] using h.fresh d hd
  covered := h.covered.mono fun e _ d _ hle => by simpa [held, ticked] using hle
  called d hon hd hq := by simpa [ticked] using h.called d hon hd hq
  lock d hon hd := (h.lock d hon hd).move hm (h.lockAge_lt hon hd)

omit [DecidableEq ι] in
/-- While no call is due, every call with its lock has asked for its slot. -/
theorem not_locked (hat : AtSlots jobs s σ) (halive : s.thread c ≠ .crashed)
    (hdue : due s c = false) : σ c ≠ .locked := by
  intro hc
  cases ho : (s.thread c).awaiting with
  | none =>
      rcases hat.ends (by simp [Thread.inFlight, ho]) halive with haway | ⟨r, hover⟩
      · simp [hc] at haway
      · simp [hc, SlotStage.slotless] at hover
  | some o =>
      obtain ⟨r⟩ := (inferInstance : Nonempty o.Ret)
      obtain ⟨x, hT⟩ := hat.edge ho r
      rw [hc] at hT
      simp [due, ho, hT.of_locked, Op.synchronous] at hdue

/-- While no call is due, every call with a ticket is in the queue. -/
theorem queued_of_ticket (h : CoverInv jobs gatewayId m s σ sem q) (hat : AtSlots jobs s σ)
    (halive : s.thread c ≠ .crashed) (hdue : due s c = false)
    (hon : OnGateway jobs gatewayId c) (hc : (σ c).ticket.isSome = true) : c ∈ q.queue := by
  obtain ⟨t, ht⟩ := Option.isSome_iff_exists.mp hc
  refine h.slots.refines.mem_queue.mpr ⟨hon, t, ?_, ht⟩
  have hawait := awaiting_of_ticket hat halive ht
  rw [show (jobs c).data.gatewayId = gatewayId from hon] at hawait
  simpa [due, hawait, h.slots.semaphore] using hdue

/-- Time passes while no call is due. -/
theorem tick (h : CoverInv jobs gatewayId m s σ sem q) (hat : AtSlots jobs s σ)
    (halive : ∀ c, s.thread c ≠ .crashed) {ms : Nat} (hdue : ∀ c, due s c = false)
    (hend : ∀ c, SagaRuns c s.log → sagaAge c s.log + ms < lockTtlMs)
    (hm : s.world.move (.tick ms) = some w) :
    CoverInv jobs gatewayId m ⟨s.thread, w, .move (.tick ms) :: s.log⟩ σ sem q where
  slots := h.slots.other (by simp) (World.semaphore_move hm _) _
  runs d := by
    rw [SagaRuns, pending_skip rfl rfl]
    exact h.runs d
  inTime d hd := by
    have := hend d ((h.runs d).mpr hd)
    simpa [ticked, Nat.add_comm] using this
  fresh d hd := absurd hd (not_locked hat (halive d) (hdue d))
  covered := by
    refine h.covered.mono fun e _ d hd hle => ?_
    obtain ⟨hon, hslot | ⟨t, ht, hout⟩⟩ := (h.slots.refines.inside d).mp hd
    · simpa [held, hslot, ticked] using hle
    · have hq := h.queued_of_ticket hat (halive d) (hdue d) hon (by simp [ht])
      exact absurd hd (h.slots.refines.sound.outside d hq)
  called d hon hd hq := absurd (h.queued_of_ticket hat (halive d) (hdue d) hon hd) hq
  lock d hon hd := (h.lock d hon hd).move hm (h.lockAge_lt hon hd)

/-- A call that invokes `gateway.process` has come from under its lock. -/
theorem covers (h : CoverInv jobs gatewayId m s σ sem q)
    (hw : s.world.perform o a = some (r, w)) (hT : SlotStage.Edge (jobs c) (σ c) o r x)
    {t : Thread effects Thrown Unit}
    (hat : AtSlots jobs ⟨Function.update s.thread c t, w, .reply c ⟨o, r⟩ :: s.log⟩
      (Function.update σ c x)) :
    LockCovers jobs gatewayId
      ⟨Function.update s.thread c t, w, .reply c ⟨o, r⟩ :: s.log⟩ := by
  intro d hon hd
  simp only [justCharges, List.head?_cons, Option.any_some, Bool.and_eq_true] at hd
  obtain ⟨hcharges, hreply⟩ := hd
  obtain ⟨rfl, -⟩ := of_answered_reply hreply
  obtain ⟨o', ho', hcharge⟩ := (Option.any_eq_true _ _).mp hcharges
  obtain ⟨p, rfl⟩ : ∃ p, o' = .gatewayProcess p := by
    cases o' <;> simp_all [Op.charges]
  obtain ⟨x', hT'⟩ := hat.edge ho' (.error .null)
  rw [Function.update_self] at hT'
  obtain ⟨rfl, -⟩ := hT'.of_gatewayProcess
  obtain ⟨hunder, hev⟩ := hT.of_seated
  have hacq : answered d isLockAcquired (.reply d ⟨o, r⟩) = false := by
    rcases hev with ⟨⟨⟩⟩ | ⟨t, -, ⟨⟩⟩ <;> simp [isLockAcquired]
  have hage : lockAge d (.reply d ⟨o, r⟩ :: s.log) = lockAge d s.log := age_reply_of_not hacq
  have hlt := h.lockAge_lt hon hunder
  refine ⟨hage ▸ hlt, fun hdel => ?_⟩
  obtain ⟨⟨v, hredis⟩, hsecond⟩ := (h.lock d hon hunder).reply hw hacq hdel
  refine ⟨?_, hsecond⟩
  rw [hredis, hage]
  have hlive : w.now < w.now + lockTtlMs - lockAge d s.log := by omega
  simp [Redis.liveEntry, hlive]

end CoverInv

variable {jobs : ι → Job} {gatewayId : String} {w : World}

theorem CoverInv.start {m : Nat} (hw : w.semaphore gatewayId = some { max := m }) :
    CoverInv jobs gatewayId m (processes jobs w) (fun _ => .away) { max := m } .empty where
  slots := .start hw
  runs c := by simp [processes, Config.start, SlotStage.inSlot]
  inTime c hc := by simp [SlotStage.inSlot] at hc
  fresh c hc := by simp at hc
  covered := .of_queue_eq_nil rfl
  called c _ hc := by simp [SlotStage.ticket] at hc
  lock c _ hc := by simp [SlotStage.underLock] at hc

/-- Only a reply can be a call of `gateway.process`. -/
theorem lockCovers_of_other {s : State ι} {e : LogEntry ι} (he : s.log.head? = some e)
    (hne : ∀ c ev, e ≠ .reply c ev) : LockCovers jobs gatewayId s := by
  intro c _ hc
  cases e with
  | reply c ev => exact absurd rfl (hne c ev)
  | _ => simp [justCharges, he, answered] at hc

/-- One step of such a run. -/
theorem CoverInv.step {m : Nat} {s s' : State ι} {σ σ' : ι → SlotStage}
    {a : Action system ι} (halive : ∀ c, s.thread c ≠ .crashed) (hat : AtSlots jobs s σ)
    (hI : ∃ sem q, CoverInv jobs gatewayId m s σ sem q) (hG : coverRuns gatewayId s a)
    (hT : TStep (fun c => SlotStage.Edge (jobs c)) s σ a s' σ') (hat' : AtSlots jobs s' σ') :
    (∃ sem q, CoverInv jobs gatewayId m s' σ' sem q) ∧ LockCovers jobs gatewayId s' := by
  obtain ⟨sem, q, hI⟩ := hI
  obtain ⟨hcrash, hprompt, hend, hshort⟩ := hG
  cases hT with
  | begin hc => exact ⟨⟨sem, q, hI.begun _⟩, lockCovers_of_other rfl (by simp)⟩
  | answer hc hw hT =>
      obtain ⟨q', hI'⟩ := hI.reply hshort (by rw [hc]; rfl) hw hT _
      exact ⟨⟨_, q', hI'⟩, hI.covers hw hT hat'⟩
  | crash | lost => exact hcrash.elim
  | @move m w hm =>
      cases m with
      | tick ms =>
          exact ⟨⟨sem, q, hI.tick hat halive hprompt hend hm⟩,
            lockCovers_of_other rfl (by simp)⟩
      | expire key => exact ⟨⟨sem, q, hI.expired hm⟩, lockCovers_of_other rfl (by simp)⟩

/-- **The lock outlives the wait.** For every gateway with at least one slot, in every run in
which every saga ends in less than 120 s and no call joins a queue of as many calls as the
gateway has slots: at the moment a call invokes `gateway.process`, its lock has not expired.
Unless some call has deleted it meanwhile (`releaseLock` or `storeResult` of the key), it is
still in place and no second call has acquired it. -/
theorem lock_covers_wait {maxConcurrency : Int} (hmax : 1 ≤ maxConcurrency)
    (hw : w.semaphore gatewayId = some { max := maxConcurrency }) {s : State ι}
    (h : Run (coverRuns gatewayId) (processes jobs w) s) : LockCovers jobs gatewayId s := by
  lift maxConcurrency to Nat using by omega with m
  obtain ⟨σ, -, -, hcovers⟩ := Run.staged
    (I := fun s σ => (∃ sem q, CoverInv jobs gatewayId m s σ sem q) ∧
      LockCovers jobs gatewayId s)
    (fun c => process_slotted (jobs c))
    ⟨⟨_, _, .start hw⟩, fun c _ hc => by simp [Config.start, justCharges] at hc⟩
    (fun hrun hat hI hG hT hat' => CoverInv.step
      (alive_of_run (fun {s a} (hG : coverRuns gatewayId s a) => hG.1) hrun) hat hI.1 hG hT
      hat') h
  exact hcovers

/-- The rest of a saga on a payment whose charge is accepted, with its slot given back. -/
def finishSaga (c : ι) : List (Action system ι) :=
  .answer c (.response accepted) :: captureAndPost c ++
    .answer c (.env none) :: List.replicate 4 (.answer c .resolve)

/-- On one slot, a second payment waits for 119 s and is charged under its lock. -/
theorem lock_covers_wait_second :
    ∃ s, Run (coverRuns "stripe")
        (processes (fun c : Fin 2 => ⟨"job", numbered c, 0⟩) oneSlot) s ∧
      justCharges s 1 = true ∧ lockAge 1 s.log = 119000 ∧
      LockCovers (fun c : Fin 2 => ⟨"job", numbered c, 0⟩) "stripe" s := by
  have hrun : ∃ s, Run (coverRuns "stripe")
      (processes (fun c : Fin 2 => ⟨"job", numbered c, 0⟩) oneSlot) s ∧
      justCharges s 1 = true ∧ lockAge 1 s.log = 119000 :=
    Run.exists_of_exec (approach 0 ++ [.answer 0 .resolve, .answer 0 .resolve] ++ approach 1 ++
      [.answer 1 .resolve, .answer 1 .resolve, .move (.tick 119000)] ++ finishSaga 0 ++
      [.answer 1 .resolve]) (by decide +kernel)
  obtain ⟨s, h, hcharges, hage⟩ := hrun
  exact ⟨s, h, hcharges, hage, lock_covers_wait (by decide) rfl h⟩

/-- One slot, and three payments that take 119 s each. The lock of the third has expired
when it is its turn, and a second call for the same payment has acquired it. -/
theorem lock_outwaited_reachable :
    ∃ s, Run (fun s a => NoCrash s a ∧ Prompt s a ∧ SagasEnd s a)
        (processes (fun c : Fin 4 => ⟨"job", numbered (min c 2), 0⟩) oneSlot) s ∧
      justCharges s 2 = true ∧ lockTtlMs ≤ lockAge 2 s.log ∧
      sinceLock 2 (takesLockOf "idem_2") s.log = true ∧
      ¬ LockCovers (fun c : Fin 4 => ⟨"job", numbered (min c 2), 0⟩) "stripe" s :=
  Run.exists_of_exec (approach 0 ++ [.answer 0 .resolve, .answer 0 .resolve] ++ approach 1 ++
    [.answer 1 .resolve, .answer 1 .resolve] ++ approach 2 ++
    [.answer 2 .resolve, .answer 2 .resolve, .move (.tick 119000)] ++ finishSaga 0 ++
    [.answer 1 .resolve, .move (.tick 1000), .move (.expire "idem:lock:idem_2")] ++
    approach 3 ++ [.answer 3 .resolve, .answer 3 .resolve, .move (.tick 118000)] ++
    finishSaga 1 ++ [.answer 2 .resolve]) (by decide +kernel)

end PaymentQueue
