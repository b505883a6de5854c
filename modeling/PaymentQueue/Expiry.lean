import PaymentQueue.LockCover

/-!
# PaymentQueue.Expiry

What a service leaves behind in Redis, and for how long.

Everything that is written there runs out: a lock 120 s after it was acquired, a result after a
day (`Redis.Timely`). A result is not taken back before (`Redis.Remembers`): it is dropped when
its time has come, and stored anew for longer.

All this is about the clock and Redis alone, the part of the world that outlives a process
(`Stores`).
-/

namespace PaymentQueue

open Async IdempotencyService

/-- `RESULT_TTL_SEC`, in milliseconds. -/
def resultTtlMs : Nat := 86400000

/-- The part of the world that outlives a process: the clock, and what is in Redis, where
BullMQ keeps the dead-letter queue. -/
structure Stores where
  now : Int
  redis : Redis
  deadLetters : List (String × Payment)

/-- What is left of a world without its processes. -/
def World.stores (w : World) : Stores := ⟨w.now, w.redis, w.deadLetters⟩

/-- What the world does on its own. -/
def Stores.move (x : Stores) : Move → Option Stores
  | .tick ms => some { x with now := x.now + ms }
  | .expire key => (x.redis.expire x.now key).map fun r => { x with redis := r }

/-! ### Entries that come and go -/

namespace Redis

variable {r r' : Redis} {now ttl : Int} {key k : String} {x : RedisValue} {e : RedisEntry}

theorem of_setEx (h : r.setEx now key x ttl k = some e) :
    r k = some e ∨ (k = key ∧ e.expiresAt = now + ttl * 1000) := by
  by_cases hk : k = key
  · subst hk
    obtain rfl : ⟨x, now + ttl * 1000⟩ = e := by simpa [setEx] using h
    exact Or.inr ⟨rfl, rfl⟩
  · exact Or.inl (by simpa [setEx, hk] using h)

theorem of_del (h : r.del key k = some e) : r k = some e := by
  by_cases hk : k = key
  · simp [del, hk] at h
  · simpa [del, hk] using h

/-- Only what has run out is dropped. -/
theorem expire_iff : r.expire now key = some r' ↔
    (∃ e, r key = some e ∧ e.expiresAt ≤ now) ∧ r.del key = r' := by
  unfold expire
  cases hr : r key with
  | none => simp
  | some e => simp

end Redis

namespace World

variable {w w' : World} {o : Op} {a : Answer} {r : o.Ret}

/-- What there is after an operation was there before, or is a lock that it acquires or a
result that it stores. -/
theorem entry_perform (h : w.perform o a = some (r, w')) {k : String} {e : RedisEntry}
    (he : w'.redis k = some e) :
    w.redis k = some e ∨
      (∃ key, k = lockKey key ∧ takesLockOf key ⟨o, r⟩ = true ∧
        e.expiresAt = w.now + lockTtlMs) ∨
      ∃ key, k = resultKey key ∧ e.expiresAt = w.now + resultTtlMs := by
  cases o with
  | acquireLock key =>
      cases a <;> simp only [perform, reduceCtorEq, Option.some.injEq, Prod.mk.injEq] at h
      all_goals obtain ⟨rfl, rfl⟩ := h
      · cases hfree : w.redis (lockKey key) with
        | some e' => exact Or.inl (by simpa [acquireLock, Redis.setExNx, hfree] using he)
        | none =>
            have hset : w.redis.setEx w.now (lockKey key) (.str "1") lockTtlSec k = some e := by
              simpa [acquireLock, Redis.setExNx, hfree] using he
            rcases Redis.of_setEx hset with hsame | ⟨rfl, hexpires⟩
            · exact Or.inl hsame
            · refine Or.inr (Or.inl ⟨key, rfl, ?_, hexpires⟩)
              simp [takesLockOf, hasLock, hfree]
      · exact Or.inl he
  | releaseLock key =>
      cases a <;> simp only [perform, reduceCtorEq, Option.some.injEq, Prod.mk.injEq] at h
      all_goals obtain ⟨rfl, rfl⟩ := h
      · exact Or.inl (Redis.of_del he)
      · exact Or.inl he
  | storeResult key v =>
      cases a <;> simp only [perform, reduceCtorEq, Option.some.injEq, Prod.mk.injEq] at h
      all_goals obtain ⟨rfl, rfl⟩ := h
      · rcases Redis.of_setEx (Redis.of_del he) with hsame | ⟨rfl, hexpires⟩
        · exact Or.inl hsame
        · exact Or.inr (Or.inr ⟨key, rfl, hexpires⟩)
      · exact Or.inl he
  | _ => exact Or.inl (by rwa [← (perform_frame h).redis rfl])

/-- An operation leaves the result of a key as it is, or stores one for a day. -/
theorem result_perform (h : w.perform o a = some (r, w')) (key : String) :
    w'.redis (resultKey key) = w.redis (resultKey key) ∨
      ∃ v, w'.redis (resultKey key) = some ⟨.json v, w.now + resultTtlMs⟩ := by
  cases o with
  | acquireLock k =>
      cases a <;> simp only [perform, reduceCtorEq, Option.some.injEq, Prod.mk.injEq] at h
      all_goals obtain ⟨-, rfl⟩ := h
      · left
        simp only [acquireLock, Redis.setExNx]
        split
        · simp [Redis.setEx, (lockKey_ne_resultKey k key).symm]
        · rfl
      · exact Or.inl rfl
  | releaseLock k =>
      cases a <;> simp only [perform, reduceCtorEq, Option.some.injEq, Prod.mk.injEq] at h
      all_goals obtain ⟨-, rfl⟩ := h
      · left
        simp [releaseLock, Redis.del, (lockKey_ne_resultKey k key).symm]
      · exact Or.inl rfl
  | storeResult k v =>
      cases a <;> simp only [perform, reduceCtorEq, Option.some.injEq, Prod.mk.injEq] at h
      all_goals obtain ⟨-, rfl⟩ := h
      · by_cases hk : resultKey key = resultKey k
        · right
          refine ⟨v, ?_⟩
          simp [storeResult, Redis.del, Redis.setEx, hk, (lockKey_ne_resultKey k k).symm,
            resultTtlSec, resultTtlMs]
        · left
          simp [storeResult, Redis.del, Redis.setEx, hk, (lockKey_ne_resultKey k key).symm]
      · exact Or.inl rfl
  | _ => exact Or.inl (by rw [(perform_frame h).redis rfl])

end World

/-- A move lets time pass or drops a key that has run out. -/
theorem Stores.move_cases {x x' : Stores} {m : Move} (h : x.move m = some x') :
    (∃ ms : Nat, m = .tick ms ∧ x'.now = x.now + ms ∧ x'.redis = x.redis) ∨
    ∃ key e, m = .expire key ∧ x'.now = x.now ∧ x.redis key = some e ∧ e.expiresAt ≤ x.now ∧
      x'.redis = x.redis.del key := by
  cases m with
  | tick ms =>
      obtain rfl := Option.some.inj h
      exact Or.inl ⟨ms, rfl, rfl, rfl⟩
  | expire key =>
      obtain ⟨r, hr, rfl⟩ := Option.map_eq_some_iff.mp h
      obtain ⟨⟨e, he, hle⟩, rfl⟩ := Redis.expire_iff.mp hr
      exact Or.inr ⟨key, e, rfl, rfl, he, hle, rfl⟩

theorem Stores.now_le_move {x x' : Stores} {m : Move} (h : x.move m = some x') :
    x.now ≤ x'.now := by
  rcases Stores.move_cases h with ⟨ms, -, hnow, -⟩ | ⟨-, -, -, hnow, -⟩ <;> omega

/-! ### Everything runs out -/

/-- Locks run out within 120 s, and whatever there is within a day. -/
structure Stores.Timely (x : Stores) : Prop where
  lock : ∀ key e, x.redis (lockKey key) = some e → e.expiresAt ≤ x.now + lockTtlMs
  entry : ∀ k e, x.redis k = some e → e.expiresAt ≤ x.now + resultTtlMs

namespace Stores.Timely

variable {w w' : World} {x x' : Stores}

theorem perform (h : w.stores.Timely) {o : Op} {a : Answer} {r : o.Ret}
    (hw : w.perform o a = some (r, w')) : w'.stores.Timely := by
  have hnow : w'.now = w.now := (World.perform_frame hw).now
  refine ⟨fun key e he => ?_, fun k e he => ?_⟩ <;> simp only [World.stores] at he ⊢
  · rcases World.entry_perform hw he with hsame | ⟨-, -, -, hexp⟩ | ⟨key', hkey, -⟩
    · exact hnow ▸ h.lock key e hsame
    · rw [hexp, hnow]
    · exact absurd hkey (lockKey_ne_resultKey _ _)
  · rcases World.entry_perform hw he with hsame | ⟨-, -, -, hexp⟩ | ⟨-, -, hexp⟩
    · exact hnow ▸ h.entry k e hsame
    · rw [hexp, hnow]
      simp [lockTtlMs, resultTtlMs]
    · rw [hexp, hnow]

theorem move (h : x.Timely) {m : Move} (hm : x.move m = some x') : x'.Timely := by
  rcases Stores.move_cases hm with ⟨ms, -, hnow, hredis⟩ | ⟨k', e', -, hnow, -, -, hredis⟩
  · refine ⟨fun key e he => ?_, fun k e he => ?_⟩ <;> rw [hredis] at he
    · have := h.lock key e he
      omega
    · have := h.entry k e he
      omega
  · refine ⟨fun key e he => ?_, fun k e he => ?_⟩ <;> rw [hredis] at he <;> rw [hnow]
    · exact h.lock key e (Redis.of_del he)
    · exact h.entry k e (Redis.of_del he)

end Stores.Timely

/-! ### A result stays for a day -/

/-- There is a result for the key until `t`, which is no more than a day ahead. -/
structure Stores.Remembers (x : Stores) (key : String) (t : Int) : Prop where
  within : t ≤ x.now + resultTtlMs
  result : x.now < t → ∃ v e, x.redis (resultKey key) = some ⟨.json v, e⟩ ∧ t ≤ e

namespace Stores.Remembers

variable {w w' : World} {x x' : Stores} {key : String} {t : Int}

theorem perform (h : w.stores.Remembers key t) {o : Op} {a : Answer} {r : o.Ret}
    (hw : w.perform o a = some (r, w')) : w'.stores.Remembers key t := by
  have hnow : w'.now = w.now := (World.perform_frame hw).now
  refine ⟨by simpa [World.stores, hnow] using h.within, fun (hlt : w'.now < t) => ?_⟩
  rw [hnow] at hlt
  rcases World.result_perform hw key with hsame | ⟨v, hstored⟩
  · simp only [World.stores, hsame]
    exact h.result hlt
  · exact ⟨v, _, hstored, h.within⟩

theorem move (h : x.Remembers key t) {m : Move} (hm : x.move m = some x') :
    x'.Remembers key t := by
  have hwithin := h.within
  rcases Stores.move_cases hm with
    ⟨ms, -, hnow, hredis⟩ | ⟨k, e', -, hnow, he', hle', hredis⟩
  · exact ⟨by omega, fun hlt => hredis ▸ h.result (by omega)⟩
  · refine ⟨hnow ▸ hwithin, fun hlt => ?_⟩
    rw [hnow] at hlt
    obtain ⟨v, e, hr, hle⟩ := h.result hlt
    -- what Redis drops has run out, and the result has not
    have hk : resultKey key ≠ k := by
      rintro rfl
      obtain rfl := Option.some.inj (hr.symm.trans he')
      simp only at hle'
      omega
    exact ⟨v, e, by simpa [hredis, Redis.del, hk] using hr, hle⟩

/-- The result is there to be found. -/
theorem not_missed (h : w.stores.Remembers key t) (hlt : w.now < t) {a : Answer} :
    w.perform (.getResult key) a ≠ some (.ok none, w') := by
  obtain ⟨v, e, hr, -⟩ := h.result hlt
  simp only [World.stores] at hr
  cases a <;> simp [World.perform, getResult, hr]

end Stores.Remembers

/-! ### The age of a lock -/

section

variable {ι : Type}

/-- The entry may acquire the lock of the key: a call does, or dies having asked for it. -/
def setsLock (key : String) : LogEntry ι → Bool
  | .reply _ ev => takesLockOf key ev
  | .crash _ (some (.acquireLock k)) => k == key
  | _ => false

/-- How long nobody has acquired the lock of the key. -/
def lockIdle (key : String) (log : List (LogEntry ι)) : Nat := elapsed (since (setsLock key) log)

theorem of_takesLockOf {key : String} {o : Op} {r : o.Ret} (h : takesLockOf key ⟨o, r⟩ = true) :
    o = .acquireLock key := by
  cases o with
  | acquireLock k =>
      cases r with
      | ok b =>
          have hb : b = true ∧ k = key := by simpa [takesLockOf] using h
          rw [hb.2]
      | error e => simp [takesLockOf] at h
  | _ => simp [takesLockOf] at h

theorem lockIdle_cons (key : String) (e : LogEntry ι) (log : List (LogEntry ι)) :
    lockIdle key (e :: log) = if setsLock key e then 0 else ticked e + lockIdle key log := by
  cases he : setsLock key e <;> simp [lockIdle, since, he, elapsed]

/-- Each lock runs out 120 s after it was last acquired. -/
def LocksRunOut (x : Stores) (log : List (LogEntry ι)) : Prop :=
  ∀ key e, x.redis (lockKey key) = some e → e.expiresAt + lockIdle key log ≤ x.now + lockTtlMs

variable {w w' : World} {x x' : Stores} {log : List (LogEntry ι)}

/-- What takes no time and acquires nothing. -/
theorem LocksRunOut.skip (h : LocksRunOut x log) {l : LogEntry ι} (hticked : ticked l = 0)
    (hsets : ∀ key, setsLock key l = false) : LocksRunOut x (l :: log) :=
  fun key e he => by simpa [lockIdle_cons, hsets, hticked] using h key e he

/-- An operation, whether the call lives to see the answer or not. -/
theorem LocksRunOut.perform (h : LocksRunOut w.stores log) (htimely : w.stores.Timely) {o : Op}
    {a : Answer} {r : o.Ret} (hw : w.perform o a = some (r, w')) {l : LogEntry ι}
    (hticked : ticked l = 0)
    (hsets : ∀ key, takesLockOf key ⟨o, r⟩ = true → setsLock key l = true) :
    LocksRunOut w'.stores (l :: log) := by
  have hnow : w'.now = w.now := (World.perform_frame hw).now
  intro key e he
  simp only [World.stores] at he ⊢
  rw [lockIdle_cons, hticked, hnow]
  rcases World.entry_perform hw he with hsame | ⟨key', hkey, htakes, hexp⟩ | ⟨key', hkey, -⟩
  · have hbound : e.expiresAt ≤ w.now + lockTtlMs := htimely.lock key e hsame
    have hidle : e.expiresAt + lockIdle key log ≤ w.now + lockTtlMs := h key e hsame
    split <;> omega
  · obtain rfl := lockKey_injective hkey
    rw [hsets key htakes, if_pos rfl, hexp]
    simp
  · exact absurd hkey (lockKey_ne_resultKey _ _)

theorem LocksRunOut.move (h : LocksRunOut x log) {m : Move} (hm : x.move m = some x') :
    LocksRunOut x' (.move m :: log) := by
  intro key e he
  rw [lockIdle_cons]
  rcases Stores.move_cases hm with ⟨ms, rfl, hnow, hredis⟩ | ⟨k, e', rfl, hnow, -, -, hredis⟩
  · have hidle := h key e (hredis ▸ he)
    simp only [setsLock, Bool.false_eq_true, if_false, ticked]
    push_cast
    omega
  · have hidle := h key e (Redis.of_del (hredis ▸ he))
    simp only [setsLock, Bool.false_eq_true, if_false, ticked]
    omega

end

end PaymentQueue
