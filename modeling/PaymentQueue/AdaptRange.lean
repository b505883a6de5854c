import PaymentQueue.RateLimit

/-!
# PaymentQueue.AdaptRange

How far can `adapt` throttle a bucket?

`adapt` scales the base values by a factor between `minCapacityFraction` and one, which falls
as the severity rises (`factor_le`, `factor_anti`). The capacity is then rounded to an integer
and is at least 1, and the rate is at least 1/2 (`adapt_range`). So a base rate below 1/2 is
raised, and the capacity goes below its floor where the rounding does (`adapt_in_range_iff`).
-/

namespace PaymentQueue

open Async

namespace TokenBucket

/-- What a bucket is made with, and keeps. -/
def base (t : TokenBucket) : ℚ × ℚ × ℚ :=
  (t.baseCapacity, t.baseRefillPerSec, t.minCapacityFraction)

variable {t : TokenBucket} {f s s' x y : ℚ} {cs : List Call}

/-! ### The base values -/

@[simp] theorem base_refill (t : TokenBucket) (now : Int) : (t.refill now).base = t.base := by
  obtain ⟨_, _, heq⟩ := t.refill_frame now
  rw [heq]
  rfl

@[simp] theorem base_next (t : TokenBucket) (c : Call) : (object.next t c).base = t.base := by
  cases c with
  | tryConsume now cost =>
      obtain ⟨_, _, heq⟩ := t.tryConsume_frame now cost
      show (t.tryConsume now cost).2.base = t.base
      rw [heq]
      rfl
  | msUntilAvailable now cost =>
      show (t.msUntilAvailable now cost).2.base = t.base
      rw [msUntilAvailable_snd, base_refill]
  | snapshot now => exact t.base_refill now
  | adapt s | reset => rfl

theorem base_after (t : TokenBucket) (cs : List Call) : (object.after t cs).base = t.base := by
  induction cs generalizing t with
  | nil => rfl
  | cons c cs ih => rw [Object.after_cons, ih, base_next]

/-- Buckets with the same base values are adapted alike. -/
theorem adapt_congr {u : TokenBucket} (h : t.base = u.base) (s : ℚ) :
    (t.adapt s).currentCapacity = (u.adapt s).currentCapacity ∧
      (t.adapt s).currentRefillPerSec = (u.adapt s).currentRefillPerSec := by
  obtain ⟨hcap, hrate, hfraction⟩ : t.baseCapacity = u.baseCapacity ∧
      t.baseRefillPerSec = u.baseRefillPerSec ∧
      t.minCapacityFraction = u.minCapacityFraction := by
    simpa [base] using h
  simp only [adapt_capacity, adapt_rate, hcap, hrate, hfraction, and_self]

/-- The values that a severity leads to, from these base values. -/
theorem adapt_of_base {C R f : ℚ} (h : t.base = (C, R, f)) (s : ℚ) :
    (t.adapt s).currentCapacity = max (1 : ℚ) (round (C * factor f s)) ∧
      (t.adapt s).currentRefillPerSec = max (1 / 2) (R * factor f s) :=
  adapt_congr (u := new 0 C R f) h s

/-! ### The factor -/

theorem round_mono (h : x ≤ y) : round x ≤ round y := Int.floor_le_floor (by linarith)

/-- The more severe, the smaller the factor. -/
theorem factor_anti (hf : f ≤ 1) (h : s ≤ s') : factor f s' ≤ factor f s := by
  have hclamped : max 0 (min 1 s) ≤ max 0 (min 1 s') := by gcongr
  have hprod := mul_le_mul_of_nonneg_right hclamped (by linarith : 0 ≤ 1 - f)
  unfold factor
  linarith

/-- **The range of `adapt`.** After any calls before it: the capacity is at least 1 and the
base capacity's fraction, rounded, and at most the base capacity; the rate is at least 1/2
and the base rate's fraction, and at most the base rate, or 1/2 if that is more; both are
determined by the severity and the base values; and both fall as the severity rises. -/
theorem adapt_range {C : Int} {R f : ℚ} (hC : 1 ≤ C) (hR : 0 < R) (hf : 0 ≤ f ∧ f ≤ 1)
    (start : Int) (cs : List Call) (s : ℚ) :
    let t := (object.after (new start C R f) cs).adapt s
    (max (1 : ℚ) (round (f * C)) ≤ t.currentCapacity ∧ t.currentCapacity ≤ C) ∧
    (max (1 / 2) (f * R) ≤ t.currentRefillPerSec ∧ t.currentRefillPerSec ≤ max (1 / 2) R) ∧
    (∀ start' cs', let t' := (object.after (new start' C R f) cs').adapt s
      t'.currentCapacity = t.currentCapacity ∧ t'.currentRefillPerSec = t.currentRefillPerSec) ∧
    ∀ s', s ≤ s' → let t' := (object.after (new start C R f) cs).adapt s'
      t'.currentCapacity ≤ t.currentCapacity ∧ t'.currentRefillPerSec ≤ t.currentRefillPerSec := by
  intro t
  have hC' : (1 : ℚ) ≤ C := by exact_mod_cast hC
  have hvalues : ∀ start' cs' s', let t' := (object.after (new start' C R f) cs').adapt s'
      t'.currentCapacity = max (1 : ℚ) (round (C * factor f s')) ∧
        t'.currentRefillPerSec = max (1 / 2) (R * factor f s') :=
    fun start' cs' s' => adapt_of_base (base_after _ _) s'
  obtain ⟨hcap, hrate⟩ := hvalues start cs s
  obtain ⟨hlow, hhigh⟩ := factor_le s hf.2
  refine ⟨⟨?_, ?_⟩, ⟨?_, ?_⟩, fun start' cs' => ?_, fun s' hs => ?_⟩
  · rw [hcap]
    have hround : round (f * C) ≤ round (C * factor f s) := by
      rw [mul_comm]
      exact round_mono (mul_le_mul_of_nonneg_left hlow (by linarith))
    exact max_le_max_left 1 (by exact_mod_cast hround)
  · rw [hcap]
    refine max_le hC' ?_
    exact_mod_cast round_le (mul_le_of_le_one_right (by linarith) hhigh)
  · rw [hrate, mul_comm f R]
    gcongr
  · rw [hrate]
    exact max_le_max_left _ (mul_le_of_le_one_right hR.le hhigh)
  · rw [hcap, hrate]
    exact hvalues start' cs' s
  · intro t'
    obtain ⟨hcap', hrate'⟩ := hvalues start cs s'
    have hanti := factor_anti hf.2 hs
    rw [hcap, hrate, hcap', hrate']
    constructor
    · have hround : round (C * factor f s') ≤ round (C * factor f s) :=
        round_mono (mul_le_mul_of_nonneg_left hanti (by linarith))
      exact max_le_max_left 1 (by exact_mod_cast hround)
    · gcongr

/-! ### The floor and the base -/

/-- The bucket of these base values after the calls, adapted. -/
def adapted (start C : Int) (R f : ℚ) (cs : List Call) (s : ℚ) : TokenBucket :=
  (object.after (new start C R f) cs).adapt s

/-- What is asked of `adapt(s)` after any calls: the capacity and the rate are between their
floor and their base, nothing but the severity and the base values determines them, and neither
rises with the severity. -/
structure AdaptsInRange (start C : Int) (R f : ℚ) (cs : List Call) (s : ℚ) : Prop where
  capacity : f * C ≤ (adapted start C R f cs s).currentCapacity ∧
    (adapted start C R f cs s).currentCapacity ≤ C
  rate : f * R ≤ (adapted start C R f cs s).currentRefillPerSec ∧
    (adapted start C R f cs s).currentRefillPerSec ≤ R
  determined : ∀ start' cs',
    (adapted start' C R f cs' s).currentCapacity = (adapted start C R f cs s).currentCapacity ∧
      (adapted start' C R f cs' s).currentRefillPerSec =
        (adapted start C R f cs s).currentRefillPerSec
  falls : ∀ s', s ≤ s' →
    (adapted start C R f cs s').currentCapacity ≤ (adapted start C R f cs s).currentCapacity ∧
      (adapted start C R f cs s').currentRefillPerSec ≤
        (adapted start C R f cs s).currentRefillPerSec

/-- The scaled capacity is above the floor by what the severity leaves of the rest. -/
theorem scaled_eq (C f s : ℚ) :
    C * factor f s = f * C + (1 - max 0 (min 1 s)) * ((1 - f) * C) := by
  unfold factor
  ring

/-- The capacity has its floor if the minimum gives it, or if rounding does not go below. -/
theorem floor_kept_iff : x ≤ max (1 : ℚ) (round y) ↔ x ≤ 1 ∨ ⌈x⌉ ≤ y + 1 / 2 := by
  rw [le_max_iff, ← Int.ceil_le]
  exact or_congr_right Int.le_floor

/-- The rate is at most its base where the minimum does not raise it. -/
theorem rate_kept_iff (hx : 0 ≤ x) (hy : y ≤ 1) : max (1 / 2) (x * y) ≤ x ↔ 1 / 2 ≤ x := by
  rw [max_le_iff]
  exact and_iff_left (mul_le_of_le_one_right hx hy)

/-- **The floor of `adapt`.** After any calls, `adapt(s)` keeps capacity and rate between their
floor and their base if and only if the base rate is at least the minimum 1/2, and the floor of
the capacity is at most the minimum 1, or else at most 1/2 below the next integer, not counting
what the severity leaves above the floor. At full severity nothing is left, and `Math.round`
goes below the floor whenever the fractional part of `f * C` is above 0 and below 1/2. -/
theorem adapt_in_range_iff {C : Int} {R f : ℚ} (hC : 1 ≤ C) (hR : 0 < R) (hf : 0 ≤ f ∧ f ≤ 1)
    (start : Int) (cs : List Call) (s : ℚ) :
    AdaptsInRange start C R f cs s ↔
      1 / 2 ≤ R ∧
        (f * C ≤ 1 ∨ ⌈f * C⌉ ≤ f * C + (1 - max 0 (min 1 s)) * ((1 - f) * C) + 1 / 2) := by
  obtain ⟨hcap, hrate⟩ := adapt_of_base (base_after (new start C R f) cs) s
  obtain ⟨⟨-, hceiling⟩, ⟨hfloor, -⟩, hsame, hfalls⟩ := adapt_range hC hR hf start cs s
  have hfactor := (factor_le s hf.2).2
  constructor
  · intro h
    have hkept : f * C ≤ max (1 : ℚ) (round (C * factor f s)) := h.capacity.1.trans_eq hcap
    have hrefill : max (1 / 2) (R * factor f s) ≤ R := hrate.symm.trans_le h.rate.2
    rw [floor_kept_iff, scaled_eq] at hkept
    exact ⟨(rate_kept_iff hR.le hfactor).mp hrefill, hkept⟩
  · rintro ⟨hslow, hkept⟩
    have hcapacity : f * C ≤ max (1 : ℚ) (round (C * factor f s)) := by
      rw [floor_kept_iff, scaled_eq]
      exact hkept
    have hrefill : max (1 / 2) (R * factor f s) ≤ R := (rate_kept_iff hR.le hfactor).mpr hslow
    exact {
      capacity := ⟨hcapacity.trans_eq hcap.symm, hceiling⟩
      rate := ⟨(le_max_right _ _).trans hfloor, hrate.trans_le hrefill⟩
      determined := hsame
      falls := hfalls }

/-- The base values of the wiring, throttled hard: a fifth of 100 is 20. -/
theorem adapt_in_range_stripe : AdaptsInRange 0 100 50 (1 / 5) [.adapt 1, .reset] 1 := by
  apply (adapt_in_range_iff (by decide) (by norm_num) (by norm_num) 0 [.adapt 1, .reset] 1).mpr
  have hceil : ⌈(1 / 5 * (100 : Int) : ℚ)⌉ = 20 := by norm_num
  exact ⟨by norm_num, Or.inr (by rw [hceil]; norm_num)⟩

/-- A base capacity of 6 is throttled to 1, which is less than a fifth of it; and a base rate
of 1/4 is raised. -/
theorem adapt_out_of_range :
    ((new 0 (6 : Int) 10 (1 / 5)).adapt 1).currentCapacity < 1 / 5 * 6 ∧
      1 / 4 < ((new 0 (10 : Int) (1 / 4) (1 / 5)).adapt 1).currentRefillPerSec := by
  decide +kernel

end TokenBucket

end PaymentQueue
