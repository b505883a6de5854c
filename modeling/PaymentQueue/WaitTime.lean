import PaymentQueue.LazyRefill

/-!
# PaymentQueue.WaitTime

Is `msUntilAvailable` the time to wait, no less and no more?

To refill on the way makes no difference to a later refill (`refill_refill`), so calls that
take nothing out leave what a later call finds as it is (`refill_after_waits`). A cost that
fits under the capacity is then available `v` milliseconds later exactly if `v` is at least
what `msUntilAvailable` has answered (`available_iff`).
-/

namespace PaymentQueue

open Async

namespace TokenBucket

/-- A call that may come while a caller waits until `limit`: it takes nothing from the bucket
and does not adapt it. -/
def Waits (limit : Int) (t : TokenBucket) : Call → Prop
  | .tryConsume now cost => now ≤ limit ∧ (t.tryConsume now cost).1 = false
  | .msUntilAvailable now _ | .snapshot now => now ≤ limit
  | .adapt _ | .reset => False

instance (limit : Int) (t : TokenBucket) : DecidablePred (Waits limit t)
  | .tryConsume _ _ => inferInstanceAs (Decidable (_ ∧ _))
  | .msUntilAvailable _ _ | .snapshot _ => inferInstanceAs (Decidable (_ ≤ _))
  | .adapt _ | .reset => .isFalse id

variable {t : TokenBucket} {now later limit : Int} {cost : ℚ} {cs : List Call}

theorem refill_of_le (h : now ≤ t.lastRefillMs) : t.refill now = t := by
  rcases t.refill_cases now with ⟨-, heq⟩ | ⟨hlt, -⟩
  · exact heq
  · omega

theorem refill_of_lt (h : t.lastRefillMs < now) :
    t.refill now = { t with tokens := t.available now, lastRefillMs := now } := by
  rcases t.refill_cases now with ⟨hle, -⟩ | ⟨-, heq⟩
  · omega
  · exact heq

@[simp] theorem refill_capacity : (t.refill now).currentCapacity = t.currentCapacity := by
  obtain ⟨_, _, heq⟩ := t.refill_frame now
  rw [heq]

@[simp] theorem refill_rate : (t.refill now).currentRefillPerSec = t.currentRefillPerSec := by
  obtain ⟨_, _, heq⟩ := t.refill_frame now
  rw [heq]

/-- A refill on the way makes no difference. -/
theorem refill_refill (hrate : 0 ≤ t.currentRefillPerSec) (h : now ≤ later) :
    (t.refill now).refill later = t.refill later := by
  rcases le_or_gt now t.lastRefillMs with hle | hlt
  · rw [refill_of_le hle]
  rcases h.eq_or_lt with rfl | hlt'
  · rw [refill_of_lt hlt]
    exact refill_of_le le_rfl
  have htwice : ({ t with tokens := t.available now, lastRefillMs := now } :
      TokenBucket).available later = t.available later := by
    have hd := elapsed_nonneg_of_le hlt.le
    have he := elapsed_nonneg_of_le h
    simp only [available]
    rw [← elapsed_add t.lastRefillMs now later]
    rcases le_or_gt t.tokens t.currentCapacity with hfits | hover
    · exact Reservoir.min_add_min hfits hd he
    · -- the bucket is full before and after
      have hrise := mul_nonneg hd hrate
      have hrise' := mul_nonneg he hrate
      have hfull : t.currentCapacity ≤
          t.tokens + elapsed t.lastRefillMs now * t.currentRefillPerSec := by linarith
      rw [add_mul, min_eq_left hfull, min_eq_left (by linarith), min_eq_left (by linarith)]
  rw [refill_of_lt hlt, refill_of_lt hlt', htwice, refill_of_lt (hlt.trans hlt')]

/-- A call that takes nothing refills the bucket, and no more. -/
theorem next_of_waits {c : Call} (hc : Waits limit t c) :
    ∃ now ≤ limit, object.next t c = t.refill now := by
  cases c with
  | tryConsume now cost =>
      refine ⟨now, hc.1, ?_⟩
      have hrefused := hc.2
      show (t.tryConsume now cost).2 = _
      simp only [tryConsume] at hrefused ⊢
      split at hrefused
      · exact absurd hrefused (by simp)
      · next hlt => rw [if_neg hlt]
  | msUntilAvailable now cost => exact ⟨now, hc, msUntilAvailable_snd t now cost⟩
  | snapshot now => exact ⟨now, hc, rfl⟩
  | adapt s | reset => exact hc.elim

/-- Calls that take nothing make no difference to a refill after them. -/
theorem refill_after_waits (hrate : 0 ≤ t.currentRefillPerSec)
    (hcs : object.Allowed (Waits limit) t cs) :
    (object.after t cs).refill limit = t.refill limit := by
  induction cs generalizing t with
  | nil => rfl
  | cons c cs ih =>
      obtain ⟨now, hnow, heq⟩ := next_of_waits hcs.1
      rw [Object.after_cons, ih (by simpa [heq] using hrate) hcs.2, heq,
        refill_refill hrate hnow]

/-- A cost that fits under the capacity is available when its time has come. -/
theorem available_iff (hrate : 0 < t.currentRefillPerSec) (hlast : t.lastRefillMs ≤ now)
    (hcost : cost ≤ t.currentCapacity) {v : Int} (hv : 0 ≤ v) :
    cost ≤ (t.refill (now + v)).tokens ↔ (t.msUntilAvailable now cost).1 ≤ v := by
  have hread : (t.refill now).lastRefillMs = now := by
    rw [refill_lastRefillMs, max_eq_right hlast]
  rw [← refill_refill hrate.le (by omega : now ≤ now + v)]
  simp only [msUntilAvailable]
  generalize hs : t.refill now = s at hread
  replace hrate : 0 < s.currentRefillPerSec := by rwa [← hs, refill_rate]
  replace hcost : cost ≤ s.currentCapacity := by rwa [← hs, refill_capacity]
  subst hread
  -- what the time `v` is worth
  have hworth : (s.refill (s.lastRefillMs + v)).tokens = s.tokens ∧ v = 0 ∨
      (s.refill (s.lastRefillMs + v)).tokens =
        min s.currentCapacity (s.tokens + v / 1000 * s.currentRefillPerSec) ∧ 0 < v := by
    rcases hv.eq_or_lt with rfl | hpos
    · exact Or.inl ⟨by rw [refill_of_le (by omega)], rfl⟩
    · refine Or.inr ⟨?_, hpos⟩
      rw [refill_of_lt (by omega), available, elapsed, add_sub_cancel_left]
  split
  · next hge =>
    have hworth_nonneg : 0 ≤ (v : ℚ) / 1000 * s.currentRefillPerSec := by positivity
    refine iff_of_true ?_ hv
    rcases hworth with ⟨heq, -⟩ | ⟨heq, -⟩ <;> rw [heq]
    · exact hge
    · exact le_min hcost (by linarith)
  · next hlt =>
    have hlt' : s.tokens < cost := not_le.mp hlt
    have hceil : ⌈(cost - s.tokens) / s.currentRefillPerSec * 1000⌉ ≤ v ↔
        cost - s.tokens ≤ v / 1000 * s.currentRefillPerSec := by
      rw [Int.ceil_le, ← le_div_iff₀ (by norm_num : (0 : ℚ) < 1000), div_le_iff₀ hrate]
    rw [hceil]
    rcases hworth with ⟨heq, rfl⟩ | ⟨heq, -⟩ <;> rw [heq]
    · refine iff_of_false hlt ?_
      simpa using hlt'
    · rw [le_min_iff, and_iff_right hcost, sub_le_iff_le_add']

theorem msUntilAvailable_nonneg (hrate : 0 < t.currentRefillPerSec) (now : Int) (cost : ℚ) :
    0 ≤ (t.msUntilAvailable now cost).1 := by
  simp only [msUntilAvailable]
  split
  · exact le_rfl
  · next hlt =>
    have hdeficit : 0 < cost - (t.refill now).tokens := by linarith [not_le.mp hlt]
    have hrate' : 0 < (t.refill now).currentRefillPerSec := by rwa [refill_rate]
    exact Int.ceil_nonneg (by positivity)

/-- **The time to wait.** In any state of a bucket that refills, at any time not before its
last refill, and for any cost that fits under the capacity: let `w` be what `msUntilAvailable`
answers. After any calls in between that take nothing and adapt nothing, the cost is granted
`v` milliseconds later if and only if `w ≤ v`. -/
theorem wait_exact {t : TokenBucket} (hrate : 0 < t.currentRefillPerSec) {now : Int}
    (hlast : t.lastRefillMs ≤ now) {cost : ℚ} (hcost : cost ≤ t.currentCapacity) :
    let w := (t.msUntilAvailable now cost).1
    0 ≤ w ∧ ∀ v, 0 ≤ v → ∀ between,
      object.Allowed (Waits (now + v)) (t.msUntilAvailable now cost).2 between →
      (((object.after (t.msUntilAvailable now cost).2 between).tryConsume (now + v) cost).1 =
        true ↔ w ≤ v) := by
  intro w
  refine ⟨msUntilAvailable_nonneg hrate now cost, fun v hv between hbetween => ?_⟩
  have hgranted : ∀ s : TokenBucket, (s.tryConsume (now + v) cost).1 = true ↔
      cost ≤ (s.refill (now + v)).tokens := by
    intro s
    simp only [tryConsume]
    split
    · next hge => simpa using hge
    · next hlt => simpa using hlt
  rw [msUntilAvailable_snd] at hbetween ⊢
  rw [hgranted, refill_after_waits (by rw [refill_rate]; exact hrate.le) hbetween,
    refill_refill hrate.le (by omega)]
  exact available_iff hrate hlast hcost hv

/-- An emptied bucket: the next token is there after 200 ms, whatever is asked in between, and
not a millisecond before. -/
theorem wait_exact_empty :
    let t := ((new 0 1 5).tryConsume 0).2
    (t.msUntilAvailable 0).1 = 200 ∧
      ((object.after (t.msUntilAvailable 0).2 [.snapshot 90, .tryConsume 150 1]).tryConsume
        (0 + 200)).1 = true ∧
      ((object.after (t.msUntilAvailable 0).2 [.snapshot 90, .tryConsume 150 1]).tryConsume
        (0 + 199)).1 = false := by
  intro t
  have hw : (t.msUntilAvailable 0).1 = 200 := by decide +kernel
  obtain ⟨-, hexact⟩ := @wait_exact t (by decide +kernel) 0 (by decide +kernel) 1
    (by decide +kernel)
  refine ⟨hw, ?_, ?_⟩
  · exact (hexact 200 (by decide) _ (by decide +kernel)).mpr hw.le
  · rw [Bool.eq_false_iff]
    exact mt (hexact 199 (by decide) _ (by decide +kernel)).mp (by rw [hw]; decide)

end TokenBucket

end PaymentQueue
