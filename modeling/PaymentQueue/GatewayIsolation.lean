import Mathlib.Data.Set.Basic
import PaymentQueue.Async.Share
import PaymentQueue.Drain

/-!
# PaymentQueue.GatewayIsolation

**A gateway is not noticed by the others.**

The processor keeps one breaker, one semaphore and one token bucket a gateway, and locks,
results and records by payment. `gatewayShare` says that this is all there is: the clock, what
is registered for the gateway, and what Redis and the repository hold of its payments make up
a share of the world that the calls of the gateway work on and the calls of all others leave
alone. So whatever happens to payments of other gateways, a gateway that hangs, trips its
breaker, has its workers die or its queue of waiters grow, the calls of the gateway do and see
what they would do and see if there were no others (`isolation`).
-/

namespace PaymentQueue

open Async

/-! ### What a call works on -/

/-- The operation keeps to gateways in `gates`, idempotency keys in `keys` and payment ids in
`ids`. -/
def Op.Within (gates keys ids : Set String) : Op → Prop
  | lookupGateway g | lookupRateLimiter g | canAttempt g | recordSuccess g | recordFailure g
  | tryConsume g | msUntilAvailable g | semaphoreAcquire g | semaphoreGranted g _
  | semaphoreRelease g => g ∈ gates
  | getResult key | acquireLock key | releaseLock key | hasLock key | storeResult key _ =>
      key ∈ keys
  | getStatus id | upsertStatus id _ => id ∈ ids
  | _ => True

/-- A call keeps to its gateway and its payment. -/
theorem Stage.Edge.within {job : Job} {g g' : Stage} {o : Op} {r : o.Ret}
    {gates keys ids : Set String} (h : Edge job g o r g') (hg : job.data.gatewayId ∈ gates)
    (hk : job.data.idempotencyKey ∈ keys) (hi : job.data.id ∈ ids) :
    o.Within gates keys ids := by
  cases h <;> first
    | exact hg
    | exact hk
    | exact hi
    | exact trivial

theorem awaits_process {job : Job} {gates keys ids : Set String}
    (hg : job.data.gatewayId ∈ gates) (hk : job.data.idempotencyKey ∈ keys)
    (hi : job.data.id ∈ ids) :
    Awaits (S := effects) (Op.Within gates keys ids) (process job) :=
  .of_follows (process_follows job) fun hT => hT.within hg hk hi

/-! ### Worlds that agree on a gateway -/

/-- The worlds agree on the clock, on the gateway, and on the payments with the given
idempotency keys and ids. -/
structure World.AgreeAt (gatewayId : String) (keys ids : Set String) (w v : World) : Prop where
  now : w.now = v.now
  gateway : w.gateways gatewayId = v.gateways gatewayId
  limiter : w.rateLimiters gatewayId = v.rateLimiters gatewayId
  records : ∀ id ∈ ids, w.records id = v.records id
  lock : ∀ key ∈ keys, w.redis (IdempotencyService.lockKey key) =
    v.redis (IdempotencyService.lockKey key)
  result : ∀ key ∈ keys, w.redis (IdempotencyService.resultKey key) =
    v.redis (IdempotencyService.resultKey key)

namespace World.AgreeAt

variable {gatewayId : String} {keys ids : Set String} {w v u w' : World}

theorem equivalence : Equivalence (AgreeAt gatewayId keys ids) where
  refl _ := ⟨rfl, rfl, rfl, fun _ _ => rfl, fun _ _ => rfl, fun _ _ => rfl⟩
  symm h := ⟨h.now.symm, h.gateway.symm, h.limiter.symm, fun id hid => (h.records id hid).symm,
    fun key hkey => (h.lock key hkey).symm, fun key hkey => (h.result key hkey).symm⟩
  trans h h' := ⟨h.now.trans h'.now, h.gateway.trans h'.gateway, h.limiter.trans h'.limiter,
    fun id hid => (h.records id hid).trans (h'.records id hid),
    fun key hkey => (h.lock key hkey).trans (h'.lock key hkey),
    fun key hkey => (h.result key hkey).trans (h'.result key hkey)⟩

section

variable {gw : RegisteredGateway}

theorem setBreaker (h : AgreeAt gatewayId keys ids w v) (b : CircuitBreaker) :
    AgreeAt gatewayId keys ids (w.setBreaker gatewayId gw b)
      (v.setBreaker gatewayId gw b) := by
  obtain ⟨hnow, hgw, hlim, hrecords, hlock, hresult⟩ := h
  unfold World.setBreaker onStateChange
  split
  · exact ⟨hnow, by simp, hlim, hrecords, hlock, hresult⟩
  · split
    · exact ⟨hnow, by simp, by simp [hlim], hrecords, hlock, hresult⟩
    · exact ⟨hnow, by simp, by simp [hlim], hrecords, hlock, hresult⟩
    · exact ⟨hnow, by simp, hlim, hrecords, hlock, hresult⟩

theorem setSemaphore (h : AgreeAt gatewayId keys ids w v) (sem : GatewaySemaphore) :
    AgreeAt gatewayId keys ids (w.setSemaphore gatewayId gw sem)
      (v.setSemaphore gatewayId gw sem) :=
  ⟨h.now, by simp [World.setSemaphore], h.limiter, h.records, h.lock, h.result⟩

theorem setBucket (h : AgreeAt gatewayId keys ids w v) (t : TokenBucket) :
    AgreeAt gatewayId keys ids (w.setBucket gatewayId t) (v.setBucket gatewayId t) :=
  ⟨h.now, h.gateway, by simp [World.setBucket], h.records, h.lock, h.result⟩

/-- What changes of another gateway does not matter. -/
theorem of_other {gateways : String → Option RegisteredGateway}
    {limiters : String → Option TokenBucket} (hg : gateways gatewayId = w.gateways gatewayId)
    (hl : limiters gatewayId = w.rateLimiters gatewayId) :
    AgreeAt gatewayId keys ids w { w with gateways := gateways, rateLimiters := limiters } :=
  ⟨rfl, hg.symm, hl.symm, fun _ _ => rfl, fun _ _ => rfl, fun _ _ => rfl⟩

theorem setBreaker_other {g : String} (hg : gatewayId ≠ g) (b : CircuitBreaker) :
    AgreeAt gatewayId keys ids w (w.setBreaker g gw b) := by
  unfold World.setBreaker onStateChange
  split
  · exact of_other (by simp [hg]) rfl
  · split
    · exact of_other (by simp [hg]) (by simp [hg])
    · exact of_other (by simp [hg]) (by simp [hg])
    · exact of_other (by simp [hg]) rfl

end

end World.AgreeAt

/-! ### Redis, key by key -/

namespace Redis

variable {r r' : Redis} {now ttl : Int} {key k : String} {x : RedisValue}

/-- A command makes the same of entries that are the same. -/
theorem del_congr (h : r k = r' k) : r.del key k = r'.del key k := by
  by_cases hk : k = key <;> simp [del, hk, h]

theorem setEx_congr (h : r k = r' k) : r.setEx now key x ttl k = r'.setEx now key x ttl k := by
  by_cases hk : k = key <;> simp [setEx, hk, h]

theorem setExNx_congr (hkey : r key = r' key) :
    (r.setExNx now key x ttl).1 = (r'.setExNx now key x ttl).1 ∧ ∀ k, r k = r' k →
      (r.setExNx now key x ttl).2 k = (r'.setExNx now key x ttl).2 k := by
  unfold setExNx
  rw [hkey]
  split
  · exact ⟨rfl, fun k hk => setEx_congr hk⟩
  · exact ⟨rfl, fun k hk => hk⟩

/-- A command leaves the entries of other keys as they are. -/
theorem del_other (h : k ≠ key) : r.del key k = r k := by simp [del, h]

theorem setEx_other (h : k ≠ key) : r.setEx now key x ttl k = r k := by simp [setEx, h]

theorem setExNx_other (h : k ≠ key) : (r.setExNx now key x ttl).2 k = r k := by
  unfold setExNx
  split
  · exact setEx_other h
  · rfl

end Redis

namespace World.AgreeAt

open IdempotencyService

variable {gatewayId : String} {keys ids : Set String} {w v w' : World}

/-- What a command makes of the entries of the keys, it makes of them alike. -/
theorem of_redis (h : AgreeAt gatewayId keys ids w v) {redis redis' : Redis}
    (hredis : ∀ k, w.redis k = v.redis k → redis k = redis' k) :
    AgreeAt gatewayId keys ids { w with redis := redis } { v with redis := redis' } :=
  ⟨h.now, h.gateway, h.limiter, h.records, fun k hk => hredis _ (h.lock k hk),
    fun k hk => hredis _ (h.result k hk)⟩

/-- What changes of other keys does not matter. -/
theorem of_other_keys {redis : Redis} (hlock : ∀ k ∈ keys, redis (lockKey k) = w.redis (lockKey k))
    (hresult : ∀ k ∈ keys, redis (resultKey k) = w.redis (resultKey k)) :
    AgreeAt gatewayId keys ids w { w with redis := redis } :=
  ⟨rfl, rfl, rfl, fun _ _ => rfl, fun k hk => (hlock k hk).symm, fun k hk => (hresult k hk).symm⟩

/-- In worlds that agree, an operation on the gateway or on one of its payments is answered
alike, and leaves worlds that agree. -/
theorem own {o : Op} {a : Answer} {r : o.Ret} (h : AgreeAt gatewayId keys ids w v)
    (ho : o.Within {gatewayId} keys ids) (hw : w.perform o a = some (r, w')) :
    ∃ v', v.perform o a = some (r, v') ∧ AgreeAt gatewayId keys ids w' v' := by
  cases o with
  | lookupGateway g | lookupRateLimiter g =>
      obtain rfl : g = gatewayId := ho
      cases a <;> simp only [perform, reduceCtorEq, Option.some.injEq, Prod.mk.injEq] at hw
      obtain ⟨rfl, rfl⟩ := hw
      exact ⟨v, by simp [perform, h.gateway, h.limiter], h⟩
  | canAttempt g | recordSuccess g | recordFailure g =>
      obtain rfl : g = gatewayId := ho
      cases a <;> simp only [perform, reduceCtorEq, Option.map_eq_some_iff,
        Prod.mk.injEq] at hw
      obtain ⟨gw, hgw, hr, rfl⟩ := hw
      exact ⟨_, by simp [perform, ← h.gateway, hgw, ← h.now, hr], h.setBreaker _⟩
  | semaphoreAcquire g | semaphoreRelease g =>
      obtain rfl : g = gatewayId := ho
      cases a <;> simp only [perform, reduceCtorEq, Option.map_eq_some_iff,
        Prod.mk.injEq] at hw
      obtain ⟨gw, hgw, hr, rfl⟩ := hw
      exact ⟨_, by simp [perform, ← h.gateway, hgw, hr], h.setSemaphore _⟩
  | tryConsume g | msUntilAvailable g =>
      obtain rfl : g = gatewayId := ho
      cases a <;> simp only [perform, reduceCtorEq, Option.map_eq_some_iff,
        Prod.mk.injEq] at hw
      obtain ⟨t, ht, rfl, rfl⟩ := hw
      exact ⟨_, by simp [perform, ← h.limiter, ht, ← h.now], h.setBucket _⟩
  | semaphoreGranted g t =>
      obtain rfl : g = gatewayId := ho
      cases a <;> simp only [perform, reduceCtorEq, Option.bind_eq_some_iff] at hw
      obtain ⟨gw, hgw, hw⟩ := hw
      split at hw
      · exact absurd hw (by simp)
      · next ht =>
        obtain rfl : w = w' := by simpa using hw
        exact ⟨v, by simp [perform, ← h.gateway, hgw, ht], h⟩
  | getResult key | hasLock key =>
      cases a <;> simp only [perform, reduceCtorEq, Option.some.injEq, Prod.mk.injEq] at hw
      all_goals
        obtain ⟨rfl, rfl⟩ := hw
        exact ⟨v, by simp [perform, getResult, hasLock, h.lock key ho, h.result key ho], h⟩
  | acquireLock key =>
      obtain ⟨hfst, hsnd⟩ : (acquireLock w.redis w.now key).1 = (acquireLock v.redis w.now key).1 ∧
          ∀ k, w.redis k = v.redis k →
            (acquireLock w.redis w.now key).2 k = (acquireLock v.redis w.now key).2 k :=
        Redis.setExNx_congr (h.lock key ho)
      cases a <;> simp only [perform, reduceCtorEq, Option.some.injEq, Prod.mk.injEq] at hw
      · obtain ⟨rfl, rfl⟩ := hw
        exact ⟨_, by rw [perform, ← h.now, hfst], h.of_redis hsnd⟩
      · obtain ⟨rfl, rfl⟩ := hw
        exact ⟨v, rfl, h⟩
  | releaseLock key =>
      cases a <;> simp only [perform, reduceCtorEq, Option.some.injEq, Prod.mk.injEq] at hw
      · obtain ⟨rfl, rfl⟩ := hw
        exact ⟨_, rfl, h.of_redis fun k hk => Redis.del_congr hk⟩
      · obtain ⟨rfl, rfl⟩ := hw
        exact ⟨v, rfl, h⟩
  | storeResult key x =>
      cases a <;> simp only [perform, reduceCtorEq, Option.some.injEq, Prod.mk.injEq] at hw
      · obtain ⟨rfl, rfl⟩ := hw
        refine ⟨_, rfl, h.of_redis fun k hk => ?_⟩
        rw [← h.now]
        exact Redis.del_congr (Redis.setEx_congr hk)
      · obtain ⟨rfl, rfl⟩ := hw
        exact ⟨v, rfl, h⟩
  | getStatus id =>
      cases a <;> simp only [perform, reduceCtorEq, Option.some.injEq, Prod.mk.injEq] at hw
      all_goals
        obtain ⟨rfl, rfl⟩ := hw
        exact ⟨v, by simp [perform, h.records id ho], h⟩
  | upsertStatus id record =>
      cases a <;> simp only [perform, reduceCtorEq, Option.some.injEq, Prod.mk.injEq] at hw
      · obtain ⟨rfl, rfl⟩ := hw
        refine ⟨_, rfl, h.now, h.gateway, h.limiter, fun i hi => ?_, h.lock, h.result⟩
        by_cases hii : i = id <;> simp [hii, h.records i hi]
      · obtain ⟨rfl, rfl⟩ := hw
        exact ⟨v, rfl, h⟩
  | deadLetterAdd p id =>
      cases a <;> simp only [perform, reduceCtorEq, Option.some.injEq, Prod.mk.injEq] at hw
      all_goals
        obtain ⟨rfl, rfl⟩ := hw
        exact ⟨_, rfl, h.now, h.gateway, h.limiter, h.records, h.lock, h.result⟩
  | _ =>
      cases a <;> simp only [perform, reduceCtorEq, Option.some.injEq, Prod.mk.injEq] at hw
      all_goals
        obtain ⟨hr, rfl⟩ := hw
        exact ⟨v, by simp [perform, hr], h⟩

/-- An operation on another gateway or on another's payment is not noticed. -/
theorem foreign {o : Op} {a : Answer} {r : o.Ret} (ho : o.Within {gatewayId}ᶜ keysᶜ idsᶜ)
    (hw : w.perform o a = some (r, w')) : AgreeAt gatewayId keys ids w w' := by
  have hkeys : ∀ {key k : String}, key ∈ keysᶜ → k ∈ keys → k ≠ key := by
    rintro key k hkey hk rfl
    exact hkey hk
  cases o with
  | canAttempt g | recordSuccess g | recordFailure g =>
      cases a <;> simp only [perform, reduceCtorEq, Option.map_eq_some_iff,
        Prod.mk.injEq] at hw
      obtain ⟨gw, -, -, rfl⟩ := hw
      exact setBreaker_other (Ne.symm ho) _
  | semaphoreAcquire g | semaphoreRelease g =>
      cases a <;> simp only [perform, reduceCtorEq, Option.map_eq_some_iff,
        Prod.mk.injEq] at hw
      obtain ⟨gw, -, -, rfl⟩ := hw
      exact of_other (by simp [Ne.symm ho]) rfl
  | tryConsume g | msUntilAvailable g =>
      cases a <;> simp only [perform, reduceCtorEq, Option.map_eq_some_iff,
        Prod.mk.injEq] at hw
      obtain ⟨t, -, -, rfl⟩ := hw
      exact of_other rfl (by simp [Ne.symm ho])
  | semaphoreGranted g t =>
      cases a <;> simp only [perform, reduceCtorEq, Option.bind_eq_some_iff] at hw
      obtain ⟨gw, -, hw⟩ := hw
      split at hw
      · exact absurd hw (by simp)
      · obtain rfl : w = w' := by simpa using hw
        exact equivalence.refl w
  | acquireLock key =>
      cases a <;> simp only [perform, reduceCtorEq, Option.some.injEq, Prod.mk.injEq] at hw
      · obtain ⟨-, rfl⟩ := hw
        refine of_other_keys (fun k hk => ?_) fun k _ => ?_
        · exact Redis.setExNx_other fun heq => hkeys ho hk (lockKey_injective heq)
        · exact Redis.setExNx_other (lockKey_ne_resultKey _ _).symm
      · obtain ⟨-, rfl⟩ := hw
        exact equivalence.refl w
  | releaseLock key =>
      cases a <;> simp only [perform, reduceCtorEq, Option.some.injEq, Prod.mk.injEq] at hw
      · obtain ⟨-, rfl⟩ := hw
        refine of_other_keys (fun k hk => ?_) fun k _ => ?_
        · exact Redis.del_other fun heq => hkeys ho hk (lockKey_injective heq)
        · exact Redis.del_other (lockKey_ne_resultKey _ _).symm
      · obtain ⟨-, rfl⟩ := hw
        exact equivalence.refl w
  | storeResult key x =>
      cases a <;> simp only [perform, reduceCtorEq, Option.some.injEq, Prod.mk.injEq] at hw
      · obtain ⟨-, rfl⟩ := hw
        refine of_other_keys (fun k hk => ?_) fun k hk => ?_
        · exact (Redis.del_other fun heq => hkeys ho hk (lockKey_injective heq)).trans
            (Redis.setEx_other (lockKey_ne_resultKey _ _))
        · exact (Redis.del_other (lockKey_ne_resultKey _ _).symm).trans
            (Redis.setEx_other fun heq => hkeys ho hk (resultKey_injective heq))
      · obtain ⟨-, rfl⟩ := hw
        exact equivalence.refl w
  | upsertStatus id record =>
      cases a <;> simp only [perform, reduceCtorEq, Option.some.injEq, Prod.mk.injEq] at hw
      · obtain ⟨-, rfl⟩ := hw
        refine ⟨rfl, rfl, rfl, fun i hi => ?_, fun _ _ => rfl, fun _ _ => rfl⟩
        have hne : i ≠ id := fun heq => ho (heq ▸ hi)
        simp [hne]
      · obtain ⟨-, rfl⟩ := hw
        exact equivalence.refl w
  | deadLetterAdd p id =>
      cases a <;> simp only [perform, reduceCtorEq, Option.some.injEq, Prod.mk.injEq] at hw
      all_goals
        obtain ⟨-, rfl⟩ := hw
        exact ⟨rfl, rfl, rfl, fun _ _ => rfl, fun _ _ => rfl, fun _ _ => rfl⟩
  | _ =>
      cases a <;> simp only [perform, reduceCtorEq, Option.some.injEq, Prod.mk.injEq] at hw
      all_goals
        obtain ⟨-, rfl⟩ := hw
        exact equivalence.refl w

/-- Time passes in both worlds, and a key expires in both or does not concern them. -/
theorem move {m : Move} (h : AgreeAt gatewayId keys ids w v) (hm : w.move m = some w') :
    AgreeAt gatewayId keys ids w' v ∨
      ∃ v', v.move m = some v' ∧ AgreeAt gatewayId keys ids w' v' := by
  cases m with
  | tick ms =>
      obtain rfl := Option.some.inj hm
      exact Or.inr ⟨_, rfl, by rw [h.now], h.gateway, h.limiter, h.records, h.lock, h.result⟩
  | expire key =>
      obtain ⟨redis, hexpire, rfl⟩ := Option.map_eq_some_iff.mp hm
      obtain ⟨hdel, hkey⟩ : redis = w.redis.del key ∧
          (w.redis key = v.redis key → v.redis.expire v.now key = some (v.redis.del key)) := by
        unfold Redis.expire at hexpire ⊢
        split at hexpire
        · next e he =>
          split at hexpire
          · next hle =>
            refine ⟨(Option.some.inj hexpire).symm, fun heq => ?_⟩
            simp [← heq, he, ← h.now, hle]
          · exact absurd hexpire (by simp)
        · exact absurd hexpire (by simp)
      subst hdel
      by_cases hours : ∃ k ∈ keys, key = lockKey k ∨ key = resultKey k
      · have hsame : w.redis key = v.redis key := by
          obtain ⟨k, hk, rfl | rfl⟩ := hours
          · exact h.lock k hk
          · exact h.result k hk
        exact Or.inr ⟨_, by simp [World.move, hkey hsame],
          h.of_redis fun k hk => Redis.del_congr hk⟩
      · refine Or.inl (equivalence.trans (equivalence.symm (of_other_keys ?_ ?_)) h)
        · exact fun k hk => Redis.del_other fun heq => hours ⟨k, hk, Or.inl heq.symm⟩
        · exact fun k hk => Redis.del_other fun heq => hours ⟨k, hk, Or.inr heq.symm⟩

end World.AgreeAt

/-- What a gateway works with: its breaker, semaphore and bucket, and the locks, results and
records of its payments. -/
def gatewayShare (gatewayId : String) (keys ids : Set String) : Share system where
  Agrees := World.AgreeAt gatewayId keys ids
  Own := Op.Within {gatewayId} keys ids
  Foreign := Op.Within {gatewayId}ᶜ keysᶜ idsᶜ
  equiv := World.AgreeAt.equivalence
  own := World.AgreeAt.own
  foreign := World.AgreeAt.foreign
  move := World.AgreeAt.move

/-! ### The gateways of a run -/

section

variable {ι : Type} {jobs : ι → Job} {gatewayId : String}

/-- The idempotency keys of the payments through the gateway. -/
def keysOf (jobs : ι → Job) (gatewayId : String) : Set String :=
  {key | ∃ c, OnGateway jobs gatewayId c ∧ key = (jobs c).data.idempotencyKey}

/-- The ids of the payments through the gateway. -/
def idsOf (jobs : ι → Job) (gatewayId : String) : Set String :=
  {id | ∃ c, OnGateway jobs gatewayId c ∧ id = (jobs c).data.id}

/-- No payment through the gateway has the idempotency key or the id of one through
another. -/
def PaymentsApart (jobs : ι → Job) (gatewayId : String) : Prop :=
  ∀ c d, OnGateway jobs gatewayId c → ¬ OnGateway jobs gatewayId d →
    (jobs c).data.idempotencyKey ≠ (jobs d).data.idempotencyKey ∧
      (jobs c).data.id ≠ (jobs d).data.id

/-- Workers die only while they process payments through other gateways. -/
def DeathsElsewhere (jobs : ι → Job) (gatewayId : String) (_ : State ι) :
    Action system ι → Prop
  | .crash c _ => ¬ OnGateway jobs gatewayId c
  | _ => True

instance : DecidablePred (OnGateway jobs gatewayId) :=
  fun c => inferInstanceAs (Decidable ((jobs c).data.gatewayId = gatewayId))

instance [Fintype ι] : Decidable (PaymentsApart jobs gatewayId) :=
  inferInstanceAs (Decidable (∀ c d, OnGateway jobs gatewayId c →
    ¬ OnGateway jobs gatewayId d → (jobs c).data.idempotencyKey ≠ (jobs d).data.idempotencyKey ∧
      (jobs c).data.id ≠ (jobs d).data.id))

instance (s : State ι) : DecidablePred (DeathsElsewhere jobs gatewayId s)
  | .crash c _ => inferInstanceAs (Decidable (¬ OnGateway jobs gatewayId c))
  | .begin _ | .answer _ _ | .move _ => .isTrue trivial

theorem awaits_own {c : ι} (hc : OnGateway jobs gatewayId c) :
    Awaits (gatewayShare gatewayId (keysOf jobs gatewayId) (idsOf jobs gatewayId)).Own
      (process (jobs c)) :=
  awaits_process hc ⟨c, hc, rfl⟩ ⟨c, hc, rfl⟩

theorem awaits_foreign (h : PaymentsApart jobs gatewayId) {d : ι}
    (hd : ¬ OnGateway jobs gatewayId d) :
    Awaits (gatewayShare gatewayId (keysOf jobs gatewayId) (idsOf jobs gatewayId)).Foreign
      (process (jobs d)) := by
  refine awaits_process hd ?_ ?_
  · rintro ⟨c, hc, heq⟩
    exact (h c d hc hd).1 heq.symm
  · rintro ⟨c, hc, heq⟩
    exact (h c d hc hd).2 heq.symm

variable [DecidableEq ι] {w : World} {s : State ι} {G : Guard system ι Thrown Unit}

/-- `t` is the projection of `s` to the calls on a gateway. -/
abbrev ProjectsTo (jobs : ι → Job) (gatewayId : String) (s t : State ι) : Prop :=
  Projects (gatewayShare gatewayId (keysOf jobs gatewayId) (idsOf jobs gatewayId))
    (OnGateway jobs gatewayId) (fun c => process (jobs c)) s t

/-- Every run has a projection to the calls on a gateway. -/
theorem exists_projection {G' : Guard system ι Thrown Unit} (hapart : PaymentsApart jobs gatewayId)
    (hG : ∀ {s t a}, ProjectsTo jobs gatewayId s t → a.By (OnGateway jobs gatewayId) →
      G s a → G' t a) (h : Run G (processes jobs w) s) :
    ∃ t, Run (fun t a => a.By (OnGateway jobs gatewayId) ∧ G' t a) (processes jobs w) t ∧
      ProjectsTo jobs gatewayId s t :=
  Run.project (fun _ hc => awaits_own hc) (fun _ hd => awaits_foreign hapart hd) hG h

/-- What the calls of a gateway do and see in `s`, they do and see in `t`. -/
structure SameOn (jobs : ι → Job) (gatewayId : String) (s t : State ι) : Prop where
  thread : ∀ c, OnGateway jobs gatewayId c → t.thread c = s.thread c
  events : ∀ c, OnGateway jobs gatewayId c → eventsOf c t.log = eventsOf c s.log
  world : s.world.AgreeAt gatewayId (keysOf jobs gatewayId) (idsOf jobs gatewayId) t.world
  enabled : ∀ c, OnGateway jobs gatewayId c → ∀ a,
    (s.step (.answer c a)).isSome = (t.step (.answer c a)).isSome

/-- **Gateways are isolated.** Take any run of calls on any gateways, in which workers may
die, keys expire and operations fail at will. If the payments of a gateway have idempotency
keys and ids of their own, there is a run in which only calls on this gateway ever take a
step, and they have gone through the same events and stand where they stand in the first run;
the gateway's breaker, semaphore and token bucket, and the locks, results and records of its
payments are the same; and what a call of the gateway can be answered next is the same. -/
theorem gateway_isolation (hapart : PaymentsApart jobs gatewayId)
    (h : Run G (processes jobs w) s) :
    ∃ t, Run (fun _ a => a.By (OnGateway jobs gatewayId)) (processes jobs w) t ∧
      SameOn jobs gatewayId s t := by
  obtain ⟨t, ht, hproj⟩ := exists_projection hapart (fun _ _ _ => trivial) h
  exact ⟨t, ht.mono fun _ _ ha => ha.1, hproj.same, hproj.events, hproj.agrees,
    fun c hc a => hproj.enabled hc a⟩

/-- The service right after start-up, with two gateways. -/
def twoGateways : World := startedUp.registerGateway "adyen" 1 100 50

/-- Call 0 is on `stripe`, the others are on `adyen`. -/
def throughTwo (c : Fin 3) : Job :=
  if c = 0 then cardJob 0 else ⟨"job", { numbered (c + 1) with gatewayId := "adyen" }, 0⟩

/-- Call 1 dies in the only slot of `adyen` and call 2 waits for it, while call 0 charges. -/
def adyenStuck : List (Action system (Fin 3)) :=
  approach 1 ++ [.answer 1 .resolve, .answer 1 .resolve, .crash 1 none] ++ approach 2 ++
    approach 0 ++ [.answer 2 .resolve, .answer 2 .resolve] ++ takeAndCharge 0

theorem gateway_isolation_stuck : ∃ s t,
    Run (fun _ _ => True) (processes throughTwo twoGateways) s ∧
    (s.world.semaphore "adyen").map (fun sem => (sem.inFlight, sem.waiters)) = some (1, [0]) ∧
    (eventsOf 0 s.log).length = 10 ∧
    Run (fun _ a => a.By (OnGateway throughTwo "stripe")) (processes throughTwo twoGateways) t ∧
    SameOn throughTwo "stripe" s t := by
  have hrun : ∃ s, Run (fun _ _ => True) (processes throughTwo twoGateways) s ∧
      ((s.world.semaphore "adyen").map (fun sem => (sem.inFlight, sem.waiters)) =
        some (1, [0]) ∧ (eventsOf 0 s.log).length = 10) :=
    Run.exists_of_exec adyenStuck (by decide +kernel)
  obtain ⟨s, h, hstuck, hevents⟩ := hrun
  have hapart : PaymentsApart throughTwo "stripe" := by decide +kernel
  obtain ⟨t, ht, hsame⟩ := gateway_isolation hapart h
  exact ⟨s, t, h, hstuck, hevents, ht, hsame⟩

/-- **A death stays with its gateway.** When workers die at any point of payments through
other gateways, taking slots with them, the calls of a gateway still do not block one another,
and when they have all ended every slot of the gateway is free and nobody waits for one. -/
theorem deaths_stay (hw : w.Vacant) (hapart : PaymentsApart jobs gatewayId)
    (h : Run (DeathsElsewhere jobs gatewayId) (processes jobs w) s) :
    ((∃ c, OnGateway jobs gatewayId c ∧ (s.thread c).inFlight = true) →
      ∃ d a, OnGateway jobs gatewayId d ∧ (s.step (.answer d a)).isSome = true) ∧
    ((∀ c, OnGateway jobs gatewayId c → (s.thread c).inFlight = false) →
      ∀ sem, s.world.semaphore gatewayId = some sem → sem.inFlight = 0 ∧ sem.waiters = []) := by
  have hG : ∀ {s t : State ι} {a : Action system ι}, ProjectsTo jobs gatewayId s t →
      a.By (OnGateway jobs gatewayId) → DeathsElsewhere jobs gatewayId s a → NoCrash t a := by
    intro s t a _ hby helse
    match a with
    | .crash c _ => exact helse hby
    | .begin _ | .answer _ _ | .move _ => trivial
  obtain ⟨t, ht, hproj⟩ := exists_projection hapart hG h
  have hrun : Run NoCrash (processes jobs w) t := ht.mono fun _ _ ha => ha.2
  have hidle : ∀ c, ¬ OnGateway jobs gatewayId c → (t.thread c).awaiting = none := by
    intro c hc
    rw [hproj.idle c hc]
    rfl
  constructor
  · rintro ⟨c, hc, hflight⟩
    rw [← hproj.same c hc] at hflight
    obtain ⟨d, a, t', ht'⟩ := exists_answer hw hrun hflight
    have hd : OnGateway jobs gatewayId d := by
      by_contra hd
      have hnone := hproj.idle d hd
      simp [Config.step, hnone] at ht'
    exact ⟨d, a, hd, by rw [hproj.enabled hd a, ht']; rfl⟩
  · intro hover sem hsem
    have hrest : ∀ c, (t.thread c).inFlight = false := by
      intro c
      by_cases hc : OnGateway jobs gatewayId c
      · rw [hproj.same c hc, hover c hc]
      · simp [Thread.inFlight, hidle c hc]
    have hgw : t.world.semaphore gatewayId = some sem := by
      rw [World.semaphore, ← hproj.agrees.gateway]
      exact hsem
    exact vacated hw hrun hrest hgw

end

/-- Call 0 completes, whatever has become of `adyen`. -/
theorem deaths_stay_stuck : ∃ s,
    Run (DeathsElsewhere throughTwo "stripe") (processes throughTwo twoGateways) s ∧
    (s.world.semaphore "adyen").map (fun sem => (sem.inFlight, sem.waiters)) = some (1, [0]) ∧
    ∀ sem, s.world.semaphore "stripe" = some sem → sem.inFlight = 0 ∧ sem.waiters = [] := by
  have hrun : ∃ s, Run (DeathsElsewhere throughTwo "stripe")
      (processes throughTwo twoGateways) s ∧
      ((s.world.semaphore "adyen").map (fun sem => (sem.inFlight, sem.waiters)) =
        some (1, [0]) ∧
        ∀ c, OnGateway throughTwo "stripe" c → (s.thread c).inFlight = false) :=
    Run.exists_of_exec (adyenStuck ++ captureAndPost 0 ++ [.answer 0 (.env none)] ++
      List.replicate 4 (.answer 0 .resolve)) (by decide +kernel)
  obtain ⟨s, h, hstuck, hover⟩ := hrun
  have hvacant : twoGateways.Vacant :=
    (World.vacant_empty.registerGateway (by decide)).registerGateway (by decide)
  exact ⟨s, h, hstuck, (deaths_stay hvacant (by decide +kernel) h).2 hover⟩

end PaymentQueue
