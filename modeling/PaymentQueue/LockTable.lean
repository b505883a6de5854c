import PaymentQueue.Async.History
import PaymentQueue.Async.Object
import PaymentQueue.Idempotency

/-!
# PaymentQueue.LockTable

The `IdempotencyService` as a table of locks and results.

On a Redis that honours its TTLs (no key is dropped early, and none is seen once its TTL
has run out) the service cannot be told from a `LockTable`, which remembers for each key
when its lock was taken and what was last stored when (`shows_table`). The table says what
every answer is in terms of the calls before it (`AsExpected`), and keeps its keys apart.
-/

namespace PaymentQueue

open Async

namespace IdempotencyService

/-- A call of a method, with the time at which Redis executes its command. -/
inductive Call
  | acquireLock (now : Int) (key : String)
  | releaseLock (now : Int) (key : String)
  | hasLock (now : Int) (key : String)
  | getResult (now : Int) (key : String)
  | storeResult (now : Int) (key : String) (result : GatewayResponse)

namespace Call

/-- When Redis executes the command. -/
def now : Call → Int
  | acquireLock now _ | releaseLock now _ | hasLock now _ | getResult now _
  | storeResult now _ _ => now

/-- The idempotency key the call is about. -/
def key : Call → String
  | acquireLock _ key | releaseLock _ key | hasLock _ key | getResult _ key
  | storeResult _ key _ => key

/-- What the call returns. -/
def Ret : Call → Type
  | acquireLock _ _ | hasLock _ _ => Bool
  | getResult _ _ => Option GatewayResponse
  | releaseLock _ _ | storeResult _ _ _ => Unit

end Call

/-- The service as an object, on a Redis that honours its TTLs. -/
def object : Object Redis Call Call.Ret where
  run r
    | .acquireLock now key => acquireLock (r.live now) now key
    | .releaseLock now key => ((), releaseLock (r.live now) key)
    | .hasLock now key => (hasLock (r.live now) key, r.live now)
    | .getResult now key => (getResult (r.live now) key, r.live now)
    | .storeResult now key result => ((), storeResult (r.live now) now key result)

end IdempotencyService

open IdempotencyService

/-! ### The table -/

/-- When the lock of each key was taken, unless it has been released, and the last result
stored for it, with the time. -/
structure LockTable where
  lockedAt : String → Option Int := fun _ => none
  stored : String → Option (GatewayResponse × Int) := fun _ => none

namespace LockTable

/-- The lock of a key was taken less than 120 s ago. -/
def locked (T : LockTable) (now : Int) (key : String) : Bool :=
  (T.lockedAt key).any fun t => now < t + 120000

/-- The result of a key, if it was stored less than 86 400 s ago. -/
def result (T : LockTable) (now : Int) (key : String) : Option GatewayResponse :=
  ((T.stored key).filter fun v => now < v.2 + 86400000).map Prod.fst

/-- The table with the lock of a key taken (at a time) or released. -/
def setLock (T : LockTable) (key : String) (t : Option Int) : LockTable :=
  { T with lockedAt := Function.update T.lockedAt key t }

/-- The table with a result stored at a time. -/
def setResult (T : LockTable) (key : String) (v : GatewayResponse × Int) : LockTable :=
  { T with stored := Function.update T.stored key (some v) }

/-- Take the lock of a key, if nobody holds it. -/
def acquireLock (T : LockTable) (now : Int) (key : String) : Bool × LockTable :=
  if T.locked now key then (false, T) else (true, T.setLock key (some now))

/-- The methods of the service, on the table. -/
def object : Object LockTable Call Call.Ret where
  run T
    | .acquireLock now key => T.acquireLock now key
    | .releaseLock _ key => ((), T.setLock key none)
    | .hasLock now key => (T.locked now key, T)
    | .getResult now key => (T.result now key, T)
    | .storeResult now key result => ((), (T.setResult key (result, now)).setLock key none)

/-! ### The service shows the table -/

/-- The Redis entry of a lock. -/
def lockEntry (t : Int) : RedisEntry := ⟨.str "1", t + lockTtlSec * 1000⟩

/-- The Redis entry of a result. -/
def resultEntry (v : GatewayResponse × Int) : RedisEntry :=
  ⟨.json v.1, v.2 + resultTtlSec * 1000⟩

/-- From `now` on, the live keys of the store are those of the table. -/
structure Shows (T : LockTable) (r : Redis) (now : Int) : Prop where
  lock : ∀ now' ≥ now, ∀ key,
    r.live now' (lockKey key) = Redis.liveEntry now' ((T.lockedAt key).map lockEntry)
  result : ∀ now' ≥ now, ∀ key,
    r.live now' (resultKey key) = Redis.liveEntry now' ((T.stored key).map resultEntry)

namespace Shows

variable {T : LockTable} {r : Redis} {now now' : Int} {key : String}

theorem mono (h : Shows T r now) (hnow : now ≤ now') : Shows T r now' :=
  ⟨fun _ hle => h.lock _ (hnow.trans hle), fun _ hle => h.result _ (hnow.trans hle)⟩

theorem live (h : Shows T r now) : Shows T (r.live now) now := by
  constructor
  · intro now' hle key
    rw [Redis.live_live hle]
    exact h.lock now' hle key
  · intro now' hle key
    rw [Redis.live_live hle]
    exact h.result now' hle key

theorem hasLock_eq (h : Shows T r now) : hasLock (r.live now) key = T.locked now key := by
  rw [hasLock, h.lock now le_rfl, locked]
  cases T.lockedAt key with
  | none => rfl
  | some t =>
      by_cases ht : now < t + 120000
      · simp [Redis.liveEntry, Option.filter, lockEntry, lockTtlSec, ht]
      · simp [Redis.liveEntry, Option.filter, lockEntry, lockTtlSec, ht]

theorem getResult_eq (h : Shows T r now) : getResult (r.live now) key = T.result now key := by
  rw [getResult, h.result now le_rfl, LockTable.result]
  cases T.stored key with
  | none => rfl
  | some v =>
      by_cases hv : now < v.2 + 86400000
      · simp [Redis.liveEntry, Option.filter, resultEntry, resultTtlSec, hv]
      · simp [Redis.liveEntry, Option.filter, resultEntry, resultTtlSec, hv]

/-- A lock that is taken or released in the store is so in the table. -/
theorem setLock (h : Shows T r now) (t : Option Int) :
    Shows (T.setLock key t) (Function.update r (lockKey key) (t.map lockEntry)) now := by
  constructor
  · intro now' hle k
    by_cases hk : k = key
    · subst hk
      simp [Redis.live, LockTable.setLock]
    · have hne : lockKey k ≠ lockKey key := fun heq => hk (lockKey_injective heq)
      simpa [Redis.live, LockTable.setLock, hk, hne] using h.lock now' hle k
  · intro now' hle k
    have hne : resultKey k ≠ lockKey key := (lockKey_ne_resultKey _ _).symm
    simpa [Redis.live, LockTable.setLock, hne] using h.result now' hle k

theorem setResult (h : Shows T r now) (v : GatewayResponse × Int) :
    Shows (T.setResult key v)
      (Function.update r (resultKey key) (some (resultEntry v))) now := by
  constructor
  · intro now' hle k
    have hne : lockKey k ≠ resultKey key := lockKey_ne_resultKey _ _
    simpa [Redis.live, LockTable.setResult, hne] using h.lock now' hle k
  · intro now' hle k
    by_cases hk : k = key
    · subst hk
      simp [Redis.live, LockTable.setResult]
    · have hne : resultKey k ≠ resultKey key := fun heq => hk (resultKey_injective heq)
      simpa [Redis.live, LockTable.setResult, hk, hne] using h.result now' hle k

/-- A call answers alike on the store and on the table, and the store shows the table
afterwards. -/
theorem run {c : Call} (h : Shows T r c.now) :
    (IdempotencyService.object.run r c).1 = (LockTable.object.run T c).1 ∧
      Shows (LockTable.object.next T c) (IdempotencyService.object.next r c) c.now := by
  cases c with
  | acquireLock now key =>
      have h : Shows T r now := h
      have hfree : (r.live now (lockKey key)).isNone = !T.locked now key := by
        rw [← h.hasLock_eq, hasLock]
        cases r.live now (lockKey key) <;> rfl
      show (IdempotencyService.acquireLock (r.live now) now key).1 = (T.acquireLock now key).1 ∧
        Shows (T.acquireLock now key).2
          (IdempotencyService.acquireLock (r.live now) now key).2 now
      rw [IdempotencyService.acquireLock, Redis.setExNx, hfree, LockTable.acquireLock]
      cases T.locked now key with
      | true => exact ⟨rfl, h.live⟩
      | false => exact ⟨rfl, h.live.setLock (some now)⟩
  | releaseLock now key => exact ⟨rfl, h.live.setLock none⟩
  | hasLock now key => exact ⟨h.hasLock_eq, h.live⟩
  | getResult now key => exact ⟨h.getResult_eq, h.live⟩
  | storeResult now key v => exact ⟨rfl, (h.live.setResult (v, now)).setLock none⟩

end Shows

/-- The calls are in the order of time. -/
abbrev InOrder (cs : List Call) : Prop := cs.Pairwise fun c d => c.now ≤ d.now

/-- Nobody can tell the service from the table. -/
theorem shows_table {cs : List Call} (hcs : InOrder cs) :
    IdempotencyService.object.log (fun _ => none) cs = object.log {} cs := by
  refine Object.log_eq (I := fun cs r T => ∀ now, (∀ c ∈ cs, c.now ≤ now) → Shows T r now)
    ?_ ?_ hcs
  · exact fun now _ => ⟨fun _ _ _ => rfl, fun _ _ _ => rfl⟩
  · intro cs c r T hnow h
    obtain ⟨hret, hshows⟩ := (h c.now hnow).run
    exact ⟨hret, fun now hle => hshows.mono (hle c (by simp))⟩

/-! ### What the table answers, in terms of the calls before -/

/-- What was asked and answered. -/
abbrev Event := Σ c : Call, c.Ret

/-- When the lock of the key was last taken, if it has not been given up since. The log has
its latest entry first. -/
def heldSince (key : String) : List Event → Option Int
  | [] => none
  | ⟨.acquireLock now k, true⟩ :: log => if k = key then some now else heldSince key log
  | ⟨.releaseLock _ k, _⟩ :: log | ⟨.storeResult _ k _, _⟩ :: log =>
      if k = key then none else heldSince key log
  | _ :: log => heldSince key log

/-- The last result stored for the key, and when. -/
def lastStored (key : String) : List Event → Option (GatewayResponse × Int)
  | [] => none
  | ⟨.storeResult now k v, _⟩ :: log => if k = key then some (v, now) else lastStored key log
  | _ :: log => lastStored key log

/-- The lock of the key has been taken, not given up since, and is less than 120 s old. -/
def Held (log : List Event) (now : Int) (key : String) : Prop :=
  ∃ t, heldSince key log = some t ∧ now < t + 120000

/-- What the answer to a call has to be, given the log of the calls before it. -/
def AsExpected : Event → List Event → Prop
  | ⟨.acquireLock now key, (acquired : Bool)⟩, log => acquired = true ↔ ¬ Held log now key
  | ⟨.hasLock now key, (locked : Bool)⟩, log => locked = true ↔ Held log now key
  | ⟨.getResult now key, (answer : Option GatewayResponse)⟩, log =>
      answer = ((lastStored key log).filter fun v => now < v.2 + 86400000).map Prod.fst
  | _, _ => True

/-- What the table remembers is what the log says, and so are its answers. -/
structure Records (log : List Event) (T : LockTable) : Prop where
  lock : ∀ key, T.lockedAt key = heldSince key log
  result : ∀ key, T.stored key = lastStored key log
  expected : Throughout AsExpected log

theorem Records.locked_iff {log : List Event} {T : LockTable} (h : Records log T) {now : Int}
    {key : String} : T.locked now key = true ↔ Held log now key := by
  rw [locked, h.lock, Held]
  cases heldSince key log with
  | none => simp
  | some t => simp

/-- A key's entry after an update, read off the log. -/
theorem update_eq {α : Type} {f : String → Option α} {g : String → Option α} {key : String}
    {v : Option α} (h : ∀ k, f k = g k) (k : String) :
    Function.update f key v k = if key = k then v else g k := by
  by_cases hk : key = k
  · subst hk
    simp
  · have hk' : k ≠ key := fun heq => hk heq.symm
    simp [hk, hk', h]

theorem Records.run {log : List Event} {T : LockTable} (h : Records log T) (c : Call) :
    Records (⟨c, (object.run T c).1⟩ :: log) (object.next T c) := by
  cases c with
  | acquireLock now key =>
      have hlocked : T.locked now key = true ↔ Held log now key := h.locked_iff
      show Records (⟨.acquireLock now key, (T.acquireLock now key).1⟩ :: log)
        (T.acquireLock now key).2
      rw [LockTable.acquireLock]
      cases hT : T.locked now key with
      | true => exact ⟨h.lock, h.result, by simp [AsExpected, ← hlocked, hT], h.expected⟩
      | false =>
          exact ⟨update_eq h.lock, h.result, by simp [AsExpected, ← hlocked, hT], h.expected⟩
  | releaseLock now key =>
      exact ⟨update_eq h.lock, h.result, trivial, h.expected⟩
  | hasLock now key => exact ⟨h.lock, h.result, h.locked_iff, h.expected⟩
  | getResult now key =>
      refine ⟨h.lock, h.result, ?_, h.expected⟩
      show T.result now key = _
      rw [LockTable.result, h.result]
  | storeResult now key v =>
      exact ⟨update_eq h.lock, update_eq h.result, trivial, h.expected⟩

/-! ### The keys of the table -/

/-- The tables agree on the key. -/
def AgreeOn (key : String) (T T' : LockTable) : Prop :=
  T.lockedAt key = T'.lockedAt key ∧ T.stored key = T'.stored key

theorem AgreeOn.run {key : String} {T T' : LockTable} (h : AgreeOn key T T') {c : Call}
    (hc : c.key = key) : (object.run T c).1 = (object.run T' c).1 ∧
      AgreeOn key (object.next T c) (object.next T' c) := by
  subst hc
  obtain ⟨hlock, hresult⟩ := h
  have hlocked : ∀ now, T.locked now c.key = T'.locked now c.key := by
    intro now
    rw [locked, hlock, locked]
  cases c with
  | acquireLock now key =>
      show (T.acquireLock now key).1 = (T'.acquireLock now key).1 ∧
        AgreeOn key (T.acquireLock now key).2 (T'.acquireLock now key).2
      have hlocked' : T.locked now key = T'.locked now key := hlocked now
      rw [LockTable.acquireLock, LockTable.acquireLock, hlocked']
      cases T'.locked now key with
      | true => exact ⟨rfl, hlock, hresult⟩
      | false => exact ⟨rfl, by simp [setLock], hresult⟩
  | releaseLock now key => exact ⟨rfl, by simp [object, Object.next, setLock, Call.key], hresult⟩
  | hasLock now key => exact ⟨hlocked now, hlock, hresult⟩
  | getResult now key =>
      refine ⟨?_, hlock, hresult⟩
      show T.result now key = T'.result now key
      have hresult' : T.stored key = T'.stored key := hresult
      rw [LockTable.result, hresult', LockTable.result]
  | storeResult now key v =>
      exact ⟨rfl, by simp [object, Object.next, setLock, Call.key],
        by simp [object, Object.next, setLock, setResult, Call.key]⟩

theorem AgreeOn.other {key : String} {T T' : LockTable} (h : AgreeOn key T T') {c : Call}
    (hc : c.key ≠ key) : AgreeOn key (object.next T c) T' := by
  have hkeep : ∀ {α : Type} (f : String → Option α) (v : Option α),
      Function.update f c.key v key = f key :=
    fun f v => Function.update_of_ne hc.symm v f
  cases c with
  | acquireLock now k =>
      show AgreeOn key (T.acquireLock now k).2 T'
      rw [LockTable.acquireLock]
      cases T.locked now k with
      | true => exact h
      | false => exact ⟨(hkeep _ _).trans h.1, h.2⟩
  | releaseLock now k => exact ⟨(hkeep _ _).trans h.1, h.2⟩
  | hasLock now k | getResult now k => exact h
  | storeResult now k v => exact ⟨(hkeep _ _).trans h.1, (hkeep _ _).trans h.2⟩

/-- **The service is a lock-and-result table.** In every history of calls, by any callers on
any keys, that starts from an empty Redis: each answer is what the calls before it on that
key make it, and stays the same when all calls on other keys are left out. -/
theorem service_as_table {cs : List Call} (hcs : InOrder cs) :
    IdempotencyService.object.log (fun _ => none) cs = object.log {} cs ∧
    Throughout AsExpected (IdempotencyService.object.log (fun _ => none) cs) ∧
    ∀ key, (IdempotencyService.object.log (fun _ => none) cs).filter (fun e => e.1.key = key) =
      IdempotencyService.object.log (fun _ => none) (cs.filter fun c => c.key = key) := by
  refine ⟨shows_table hcs, ?_, fun key => ?_⟩
  · rw [shows_table hcs]
    have hrecords : Records (object.log {} cs) (object.after {} cs) :=
      Object.induct_log ⟨fun _ => rfl, fun _ => rfl, trivial⟩ fun _ _ c h => h.run c
    exact hrecords.expected
  · rw [shows_table hcs, shows_table (hcs.sublist List.filter_sublist)]
    exact Object.log_filter (Q := fun c => decide (c.key = key)) (I := AgreeOn key) ⟨rfl, rfl⟩
      (fun c _ _ hc h => h.run (of_decide_eq_true hc))
      fun c _ _ hc h => h.other (of_decide_eq_false hc)

/-- A lock is taken, refused a second caller, given up with the result, and taken again; a
day later the result is gone. -/
theorem service_as_table_payment :
    Throughout AsExpected (IdempotencyService.object.log (fun _ => none)
      [.acquireLock 0 "k", .acquireLock 119999 "k",
        .storeResult 119999 "k" { success := true, transactionId := "txn", gatewayId := "g" },
        .acquireLock 120000 "k", .getResult 86519998 "k", .getResult 86519999 "k"]) :=
  (service_as_table (by decide)).2.1

end LockTable

end PaymentQueue
