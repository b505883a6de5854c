import PaymentQueue.AdaptRange
import PaymentQueue.LoadShedding

/-!
# PaymentQueue.Throttling

A breaker that throttles a bucket.

`registerGateway` of the processor gives the breaker of a gateway a callback, which emits
`circuit_breaker.state_change`, shrinks the gateway's bucket when the breaker opens and resets
it when the breaker closes. So the bucket has its base values while the breaker is CLOSED, and
those of `adapt(1)` otherwise, however often the breaker opens in between; and the emitted
events are one path of the breaker (`released_iff_closed`).
-/

namespace PaymentQueue

open Async

/-- A breaker, the bucket it throttles, and the `circuit_breaker.state_change` events that
have been emitted, oldest first. -/
structure Throttled where
  breaker : CircuitBreaker
  bucket : TokenBucket
  emitted : List (CircuitState × CircuitState) := []

namespace Throttled

/-- What the callback does to the bucket. -/
def onStateChange (bucket : TokenBucket) : CircuitState → TokenBucket
  | .open => bucket.adapt 1
  | .closed => bucket.reset
  | .halfOpen => bucket

/-- A method has changed the breaker, with the callback if its state is another one. -/
def setBreaker (s : Throttled) (b : CircuitBreaker) : Throttled :=
  if s.breaker.state = b.state then { s with breaker := b }
  else
    { breaker := b
      bucket := onStateChange s.bucket b.state
      emitted := s.emitted ++ [(s.breaker.state, b.state)] }

/-- A call of a method of the breaker, or of one that consumes from the bucket or reads it.
Nothing else adapts the bucket. -/
inductive Call
  | breaker (c : CircuitBreaker.Call)
  | tryConsume (now : Int) (cost : ℚ)
  | msUntilAvailable (now : Int) (cost : ℚ)
  | snapshot (now : Int)

/-- What the call returns. -/
def Call.Ret : Call → Type
  | breaker c => c.Ret
  | tryConsume _ _ => Bool
  | msUntilAvailable _ _ => Int
  | snapshot _ => TokenBucket.Snapshot

/-- Both as one object. -/
def object : Object Throttled Call Call.Ret where
  run s
    | .breaker c =>
        let res := CircuitBreaker.object.run s.breaker c
        (res.1, s.setBreaker res.2)
    | .tryConsume now cost =>
        let res := s.bucket.tryConsume now cost
        (res.1, { s with bucket := res.2 })
    | .msUntilAvailable now cost =>
        let res := s.bucket.msUntilAvailable now cost
        (res.1, { s with bucket := res.2 })
    | .snapshot now =>
        let res := s.bucket.snapshot now
        (res.1, { s with bucket := res.2 })

/-- A gateway that has just been registered. -/
def new (opts : CircuitBreakerOptions) (bucket : TokenBucket) : Throttled where
  breaker := { opts := opts }
  bucket := bucket

/-- A transition that a breaker may make. -/
inductive Lawful : CircuitState → CircuitState → Prop
  | trip : Lawful .closed .open
  | tryOut : Lawful .open .halfOpen
  | reopen : Lawful .halfOpen .open
  | recover : Lawful .halfOpen .closed

/-- The events are an unbroken path of lawful transitions from one state to another. -/
inductive Path (start : CircuitState) :
    List (CircuitState × CircuitState) → CircuitState → Prop
  | nil : Path start [] start
  | snoc {events : List (CircuitState × CircuitState)} {source target : CircuitState} :
      Path start events source → Lawful source target →
      Path start (events ++ [(source, target)]) target

end Throttled

namespace TokenBucket

/-- The capacity and the rate in force. -/
def inForce (t : TokenBucket) : ℚ × ℚ := (t.currentCapacity, t.currentRefillPerSec)

/-- The base values, as capacity and rate. -/
def baseValues (t : TokenBucket) : ℚ × ℚ := (t.baseCapacity, t.baseRefillPerSec)

variable {t t' : TokenBucket}

theorem baseValues_congr (h : t.base = t'.base) : t.baseValues = t'.baseValues := by
  simp only [base, Prod.mk.injEq] at h
  simp [baseValues, h.1, h.2.1]

theorem inForce_adapt_congr (h : t.base = t'.base) (s : ℚ) :
    (t.adapt s).inForce = (t'.adapt s).inForce := by
  obtain ⟨hcap, hrate⟩ := adapt_congr h s
  simp only [inForce, hcap, hrate]

@[simp] theorem inForce_reset : t.reset.inForce = t.baseValues := rfl

@[simp] theorem inForce_refill (now : Int) : (t.refill now).inForce = t.inForce := by
  obtain ⟨_, _, heq⟩ := t.refill_frame now
  rw [heq]
  rfl

@[simp] theorem inForce_tryConsume (now : Int) (cost : ℚ) :
    (t.tryConsume now cost).2.inForce = t.inForce := by
  obtain ⟨_, _, heq⟩ := t.tryConsume_frame now cost
  rw [heq]
  rfl

@[simp] theorem inForce_msUntilAvailable (now : Int) (cost : ℚ) :
    (t.msUntilAvailable now cost).2.inForce = t.inForce := by
  rw [msUntilAvailable_snd, inForce_refill]

end TokenBucket

namespace CircuitBreaker

open Throttled

/-- A call takes the breaker along a lawful transition, or leaves it in its state. -/
theorem next_lawful (b : CircuitBreaker) (c : Call) :
    b.state = (object.next b c).state ∨ Lawful b.state (object.next b c).state := by
  cases c with
  | canAttempt now =>
      show b.state = (b.canAttempt now).2.state ∨ Lawful b.state (b.canAttempt now).2.state
      rcases b.canAttempt_cases now with ⟨-, heq⟩ | ⟨-, -, heq⟩ | ⟨hb, -, heq⟩ | ⟨-, heq⟩
      · exact Or.inl (by rw [heq])
      · exact Or.inl (by rw [heq])
      · rw [heq, admitTrial_state, hb]
        exact Or.inr .tryOut
      · exact Or.inl (by rw [heq, admitTrial_state])
  | recordSuccess now =>
      show b.state = b.recordSuccess.state ∨ Lawful b.state b.recordSuccess.state
      rcases b.recordSuccess_cases with ⟨-, hb', -⟩ | ⟨hb, -, hb', -⟩ | ⟨hb, -, hb'⟩
      · exact Or.inl hb'.symm
      · exact Or.inl (hb.trans hb'.symm)
      · rw [hb, hb']
        exact Or.inr .recover
  | recordFailure now =>
      show b.state = (b.recordFailure now).state ∨ Lawful b.state (b.recordFailure now).state
      rcases b.recordFailure_cases now with ⟨hb', -⟩ | ⟨-, hb', -⟩
      · rw [hb']
        cases hb : b.state with
        | closed => exact Or.inr .trip
        | «open» => exact Or.inl rfl
        | halfOpen => exact Or.inr .reopen
      · exact Or.inl hb'.symm

end CircuitBreaker

namespace Throttled

/-- What holds of a gateway whose bucket was made as `bucket`. -/
structure Inv (bucket : TokenBucket) (s : Throttled) : Prop where
  base : s.bucket.base = bucket.base
  released : s.breaker.state = .closed → s.bucket.inForce = bucket.baseValues
  shrunk : s.breaker.state ≠ .closed → s.bucket.inForce = (bucket.adapt 1).inForce
  path : Path .closed s.emitted s.breaker.state

variable {bucket : TokenBucket} {s : Throttled}

/-- The callback keeps the bucket in step with the breaker. -/
theorem Inv.setBreaker {b : CircuitBreaker} (h : Inv bucket s)
    (hb : s.breaker.state = b.state ∨ Lawful s.breaker.state b.state) :
    Inv bucket (s.setBreaker b) := by
  unfold Throttled.setBreaker
  split
  · next hsame =>
    exact ⟨h.base, fun hc => h.released (hsame.trans hc), fun hc => h.shrunk (hsame ▸ hc),
      hsame ▸ h.path⟩
  · next hchange =>
    have hlawful := hb.resolve_left hchange
    have hpath := Path.snoc h.path hlawful
    cases htarget : b.state with
    | closed =>
        exact ⟨h.base, fun _ => TokenBucket.baseValues_congr h.base,
          fun hc => absurd htarget hc, htarget ▸ hpath⟩
    | «open» =>
        exact ⟨h.base, fun hc => absurd (htarget.symm.trans hc) (by decide),
          fun _ => TokenBucket.inForce_adapt_congr h.base 1, htarget ▸ hpath⟩
    | halfOpen =>
        -- it was OPEN, so the bucket has been shrunk
        have hopen : s.breaker.state ≠ .closed := by
          rw [htarget] at hlawful
          intro hc
          rw [hc] at hlawful
          cases hlawful
        exact ⟨h.base, fun hc => absurd (htarget.symm.trans hc) (by decide),
          fun _ => h.shrunk hopen, htarget ▸ hpath⟩

/-- A call of the bucket that adapts nothing keeps the invariant. -/
theorem Inv.setBucket {t : TokenBucket} (h : Inv bucket s) (hbase : t.base = s.bucket.base)
    (hforce : t.inForce = s.bucket.inForce) : Inv bucket { s with bucket := t } :=
  ⟨hbase.trans h.base, fun hb => hforce.trans (h.released hb),
    fun hb => hforce.trans (h.shrunk hb), h.path⟩

theorem Inv.next (h : Inv bucket s) (c : Call) : Inv bucket (object.next s c) := by
  cases c with
  | breaker c => exact h.setBreaker (s.breaker.next_lawful c)
  | tryConsume now cost =>
      exact h.setBucket (TokenBucket.base_next s.bucket (.tryConsume now cost))
        (TokenBucket.inForce_tryConsume now cost)
  | msUntilAvailable now cost =>
      exact h.setBucket (TokenBucket.base_next s.bucket (.msUntilAvailable now cost))
        (TokenBucket.inForce_msUntilAvailable now cost)
  | snapshot now =>
      exact h.setBucket (TokenBucket.base_refill s.bucket now) (TokenBucket.inForce_refill now)

theorem inv_after {opts : CircuitBreakerOptions} {bucket : TokenBucket}
    (hnew : bucket.inForce = bucket.baseValues) (cs : List Call) :
    Inv bucket (object.after (new opts bucket) cs) := by
  refine object.induct (V := fun _ => True) _ cs (fun s c _ h => h.next c) ?_ fun _ _ => trivial
  exact ⟨rfl, fun _ => hnew, fun hb => absurd rfl hb, .nil⟩

/-- **Throttling is released exactly on close.** After any calls of the breaker and the bucket
of a gateway, with any options and base values: the bucket has its base values if and only if
the breaker is CLOSED or `adapt(1)` leaves the base values as they are; when the breaker is
not CLOSED the bucket has the values of `adapt(1)`; and the emitted events are an unbroken path
from CLOSED to the breaker's state, by lawful transitions. -/
theorem released_iff_closed (opts : CircuitBreakerOptions) (start : Int)
    (capacity perSecond fraction : ℚ) (cs : List Call) :
    let bucket := TokenBucket.new start capacity perSecond fraction
    let s := object.after (new opts bucket) cs
    (s.bucket.inForce = (capacity, perSecond) ↔
      s.breaker.state = .closed ∨ (bucket.adapt 1).inForce = (capacity, perSecond)) ∧
    (s.breaker.state = .closed ∨ s.bucket.inForce = (bucket.adapt 1).inForce) ∧
    Path .closed s.emitted s.breaker.state := by
  intro bucket s
  have hinv : Inv bucket s := inv_after rfl cs
  refine ⟨?_, or_iff_not_imp_left.mpr hinv.shrunk, hinv.path⟩
  by_cases hb : s.breaker.state = .closed
  · exact iff_of_true (hinv.released hb) (Or.inl hb)
  · rw [hinv.shrunk hb, or_iff_right hb]

end Throttled

end PaymentQueue
