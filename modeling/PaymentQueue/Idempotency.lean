import Mathlib.Logic.Function.Basic
import PaymentQueue.Types

/-!
# PaymentQueue.Idempotency

The `IdempotencyService` of `payment/idempotency.service.ts` over a Redis store.

A Redis key holds a value and the time its TTL runs out; an entry stays until a
command removes it or `Redis.expire` does, so *when* Redis drops an expired key is
a choice of the world. Each service method is one Redis command (`storeResult` one
`MULTI`), hence one atomic function of the store.
-/

namespace PaymentQueue

/-- A value in Redis: a plain string, or a response as `JSON.stringify` wrote it
and `JSON.parse` reads it back. -/
inductive RedisValue
  | str (s : String)
  | json (r : GatewayResponse)
  deriving DecidableEq, Repr

/-- The value of a key and the time (ms) its TTL runs out. -/
structure RedisEntry where
  value : RedisValue
  expiresAt : Int
  deriving DecidableEq, Repr

/-- A Redis database. -/
abbrev Redis := String → Option RedisEntry

namespace Redis

/-- `SET key value EX ttlSec`. -/
def setEx (r : Redis) (now : Int) (key : String) (value : RedisValue) (ttlSec : Int) :
    Redis :=
  Function.update r key (some ⟨value, now + ttlSec * 1000⟩)

/-- `SET key value EX ttlSec NX`: whether it replied `OK`, and the store after. -/
def setExNx (r : Redis) (now : Int) (key : String) (value : RedisValue) (ttlSec : Int) :
    Bool × Redis :=
  if (r key).isNone then (true, r.setEx now key value ttlSec) else (false, r)

/-- `DEL key`. -/
def del (r : Redis) (key : String) : Redis := Function.update r key none

/-- Drop a key whose TTL has run out. -/
def expire (r : Redis) (now : Int) (key : String) : Option Redis :=
  match r key with
  | some e => if e.expiresAt ≤ now then some (r.del key) else none
  | none => none

/-- The entry, unless its TTL has run out. -/
def liveEntry (now : Int) (e : Option RedisEntry) : Option RedisEntry :=
  e.filter fun e => now < e.expiresAt

/-- The store as a command sees it: without the keys whose TTL has run out. -/
def live (r : Redis) (now : Int) : Redis := fun key => liveEntry now (r key)

section

variable {r r' : Redis} {now now' : Int} {key : String} {e : Option RedisEntry}

@[simp] theorem liveEntry_none : liveEntry now none = none := rfl

theorem liveEntry_liveEntry (h : now ≤ now') :
    liveEntry now' (liveEntry now e) = liveEntry now' e := by
  cases e with
  | none => rfl
  | some e =>
      by_cases hlt : now < e.expiresAt
      · simp [liveEntry, Option.filter, hlt]
      · have hlt' : ¬ now' < e.expiresAt := by omega
        simp [liveEntry, Option.filter, hlt, hlt']

theorem live_live (h : now ≤ now') : (r.live now).live now' = r.live now' :=
  funext fun _ => liveEntry_liveEntry h

/-- When Redis drops an expired key cannot be seen. -/
theorem live_expire (h : r.expire now key = some r') (hnow : now ≤ now') :
    r'.live now' = r.live now' := by
  unfold expire at h
  cases hr : r key with
  | none => simp [hr] at h
  | some e =>
      simp only [hr, Option.ite_none_right_eq_some, Option.some.injEq] at h
      obtain ⟨hle, rfl⟩ := h
      have hlt : ¬ now' < e.expiresAt := by omega
      funext k
      by_cases hk : k = key
      · subst hk
        simp [live, del, hr, liveEntry, Option.filter, hlt]
      · simp [live, del, hk]

end

end Redis

namespace IdempotencyService

/-- `LOCK_TTL_SEC`. -/
def lockTtlSec : Int := 120

/-- `RESULT_TTL_SEC`: 24h. -/
def resultTtlSec : Int := 86400

/-- `lockKey`. -/
def lockKey (key : String) : String := "idem:lock:" ++ key

/-- `resultKey`. -/
def resultKey (key : String) : String := "idem:result:" ++ key

variable (r : Redis) (now : Int) (key : String)

/-- `acquireLock`: whether this call set the lock. -/
def acquireLock : Bool × Redis := r.setExNx now (lockKey key) (.str "1") lockTtlSec

/-- `releaseLock`. -/
def releaseLock : Redis := r.del (lockKey key)

/-- `hasLock`. -/
def hasLock : Bool := (r (lockKey key)).isSome

/-- `getResult`. The service writes nothing but responses under a result key. -/
def getResult : Option GatewayResponse :=
  match r (resultKey key) with
  | some ⟨.json v, _⟩ => some v
  | _ => none

/-- `storeResult`: one `MULTI` that sets the result and deletes the lock. -/
def storeResult (result : GatewayResponse) : Redis :=
  (r.setEx now (resultKey key) (.json result) resultTtlSec).del (lockKey key)

/-! ### The two key spaces -/

theorem lockKey_injective : Function.Injective lockKey := by
  intro a b h
  simpa [lockKey] using h

theorem resultKey_injective : Function.Injective resultKey := by
  intro a b h
  simpa [resultKey] using h

theorem lockKey_ne_resultKey (a b : String) : lockKey a ≠ resultKey b := by
  intro h
  have h' := congrArg (fun s => s.toList[5]?) h
  simp [lockKey, resultKey] at h'

/-! ### What each method does to the lock and the result of a key -/

section

variable {r now key} {key' : String}

@[simp] theorem acquireLock_fst : (acquireLock r now key).1 = !hasLock r key := by
  unfold acquireLock Redis.setExNx hasLock
  cases r (lockKey key) <;> rfl

@[simp] theorem hasLock_acquireLock :
    hasLock (acquireLock r now key).2 key' = (hasLock r key' || decide (key' = key)) := by
  unfold acquireLock Redis.setExNx hasLock
  by_cases hk : key' = key
  · subst hk
    cases h : r (lockKey key') <;> simp [Redis.setEx, h]
  · have : lockKey key' ≠ lockKey key := fun h => hk (lockKey_injective h)
    cases r (lockKey key) <;> simp [Redis.setEx, this, hk]

@[simp] theorem getResult_acquireLock :
    getResult (acquireLock r now key).2 key' = getResult r key' := by
  have hne : resultKey key' ≠ lockKey key := (lockKey_ne_resultKey _ _).symm
  have h : (acquireLock r now key).2 (resultKey key') = r (resultKey key') := by
    unfold acquireLock Redis.setExNx
    cases r (lockKey key) <;> simp [Redis.setEx, hne]
  rw [getResult, h, getResult]

@[simp] theorem hasLock_releaseLock :
    hasLock (releaseLock r key) key' = (hasLock r key' && !decide (key' = key)) := by
  unfold releaseLock Redis.del hasLock
  by_cases hk : key' = key
  · subst hk
    simp
  · have : lockKey key' ≠ lockKey key := fun h => hk (lockKey_injective h)
    simp [this, hk]

@[simp] theorem getResult_releaseLock :
    getResult (releaseLock r key) key' = getResult r key' := by
  unfold releaseLock Redis.del getResult
  rw [Function.update_of_ne (lockKey_ne_resultKey _ _).symm]

@[simp] theorem hasLock_storeResult {v : GatewayResponse} :
    hasLock (storeResult r now key v) key' = (hasLock r key' && !decide (key' = key)) := by
  unfold storeResult Redis.del Redis.setEx hasLock
  by_cases hk : key' = key
  · subst hk
    simp
  · have : lockKey key' ≠ lockKey key := fun h => hk (lockKey_injective h)
    simp [this, hk, lockKey_ne_resultKey]

@[simp] theorem getResult_storeResult {v : GatewayResponse} :
    getResult (storeResult r now key v) key' =
      if key' = key then some v else getResult r key' := by
  unfold storeResult Redis.del Redis.setEx getResult
  rw [Function.update_of_ne (lockKey_ne_resultKey _ _).symm]
  by_cases hk : key' = key
  · subst hk
    simp
  · have : resultKey key' ≠ resultKey key := fun h => hk (resultKey_injective h)
    simp [this, hk]

end

end IdempotencyService

end PaymentQueue
