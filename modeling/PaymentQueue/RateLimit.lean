import Mathlib.Tactic.Linarith
import Mathlib.Tactic.Positivity
import PaymentQueue.Async.Object
import PaymentQueue.TokenBucket

/-!
# PaymentQueue.RateLimit

How much can a token bucket grant?

Whatever `adapt` and `reset` do in between, a bucket of base capacity `C` and base rate
`R` grants at most a full bucket and what `R` refills in the meantime, in any window of
any history of calls (`rate_guarantee`). The meantime is measured on the latest clock
reading, since `refill` ignores a clock that has stepped back.

The potential is the tokens in the bucket less what has been refilled by now at rate `R`:
a call gains what it takes from it.
-/

namespace PaymentQueue

open Async

namespace TokenBucket

/-- A call of a method, with its clock reading if it makes one. -/
inductive Call
  | tryConsume (now : Int) (cost : ℚ)
  | msUntilAvailable (now : Int) (cost : ℚ)
  | snapshot (now : Int)
  | adapt (severity : ℚ)
  | reset

namespace Call

/-- What the call returns. -/
def Ret : Call → Type
  | tryConsume _ _ => Bool
  | msUntilAvailable _ _ => Int
  | snapshot _ => Snapshot
  | adapt _ | reset => Unit

/-- The value of `Date.now()` the call reads. -/
def reading : Call → Option Int
  | tryConsume now _ | msUntilAvailable now _ | snapshot now => some now
  | adapt _ | reset => none

/-- The call consumes a positive number of tokens, if it consumes any. -/
def Positive : Call → Prop
  | tryConsume _ cost => 0 < cost
  | _ => True

end Call

/-- The bucket as an object. -/
def object : Object TokenBucket Call Call.Ret where
  run t
    | .tryConsume now cost => t.tryConsume now cost
    | .msUntilAvailable now cost => t.msUntilAvailable now cost
    | .snapshot now => t.snapshot now
    | .adapt severity => ((), t.adapt severity)
    | .reset => ((), t.reset)

/-- The cost a call is granted. -/
def granted (t : TokenBucket) : Call → ℚ
  | .tryConsume now cost => if (t.tryConsume now cost).1 then cost else 0
  | _ => 0

/-- The latest reading of the clock, from the construction at `start` through the calls. -/
def latestReading (start : Int) (cs : List Call) : Int :=
  (cs.filterMap Call.reading).foldl max start

/-! ### One call -/

/-- The bucket has base capacity `C` and base rate `R`, and neither its tokens nor what
they are bounded by exceeds these. -/
structure Bounded (C : Int) (R : ℚ) (t : TokenBucket) : Prop where
  base : t.baseCapacity = C ∧ t.baseRefillPerSec = R
  fraction : 0 ≤ t.minCapacityFraction ∧ t.minCapacityFraction ≤ 1
  tokens_nonneg : 0 ≤ t.tokens
  tokens_le : t.tokens ≤ t.currentCapacity
  capacity_le : t.currentCapacity ≤ C
  rate : 0 ≤ t.currentRefillPerSec ∧ t.currentRefillPerSec ≤ R

/-- The tokens, less what rate `R` refills up to the time of the last refill. -/
def potential (R : ℚ) (t : TokenBucket) : ℚ := t.tokens - R * t.lastRefillMs / 1000

variable {C : Int} {R : ℚ} {t : TokenBucket}

/-- A refill does nothing, when the clock has not moved on since the last one, or adds
what the time that has passed is worth. -/
theorem refill_cases (t : TokenBucket) (now : Int) :
    (now ≤ t.lastRefillMs ∧ t.refill now = t) ∨
    (t.lastRefillMs < now ∧ t.refill now =
      { t with
        tokens := min t.currentCapacity
          (t.tokens + ((now - t.lastRefillMs : Int) : ℚ) / 1000 * t.currentRefillPerSec)
        lastRefillMs := now }) := by
  rcases le_or_gt now t.lastRefillMs with hle | hlt
  · have helapsed : ((now - t.lastRefillMs : Int) : ℚ) / 1000 ≤ 0 := by
      have : ((now - t.lastRefillMs : Int) : ℚ) ≤ 0 := by exact_mod_cast by omega
      linarith
    exact Or.inl ⟨hle, if_pos helapsed⟩
  · have helapsed : ¬ ((now - t.lastRefillMs : Int) : ℚ) / 1000 ≤ 0 := by
      have : (0 : ℚ) < ((now - t.lastRefillMs : Int) : ℚ) := by exact_mod_cast by omega
      linarith
    exact Or.inr ⟨hlt, if_neg helapsed⟩

/-- A refill leaves all but the tokens and the time of the last refill as they are. -/
theorem refill_frame (t : TokenBucket) (now : Int) : ∃ tokens lastRefillMs,
    t.refill now = { t with tokens := tokens, lastRefillMs := lastRefillMs } := by
  rcases t.refill_cases now with ⟨-, heq⟩ | ⟨-, heq⟩
  · exact ⟨_, _, heq⟩
  · exact ⟨_, _, heq⟩

theorem refill_lastRefillMs (t : TokenBucket) (now : Int) :
    (t.refill now).lastRefillMs = max t.lastRefillMs now := by
  rcases t.refill_cases now with ⟨hle, heq⟩ | ⟨hlt, heq⟩
  · rw [heq]
    omega
  · rw [heq]
    exact (max_eq_right hlt.le).symm

theorem elapsed_nonneg {last now : Int} (h : last < now) :
    (0 : ℚ) ≤ ((now - last : Int) : ℚ) / 1000 := by
  have : (0 : ℚ) ≤ ((now - last : Int) : ℚ) := by exact_mod_cast by omega
  positivity

theorem Bounded.refill (h : Bounded C R t) (now : Int) : Bounded C R (t.refill now) := by
  rcases t.refill_cases now with ⟨-, heq⟩ | ⟨hlt, heq⟩
  · rwa [heq]
  · rw [heq]
    have hrefilled := mul_nonneg (elapsed_nonneg hlt) h.rate.1
    refine { h with tokens_nonneg := ?_, tokens_le := min_le_left _ _ }
    exact le_min (h.tokens_nonneg.trans h.tokens_le) (by linarith [h.tokens_nonneg])

/-- A refill adds no more than the rate `R` does. -/
theorem Bounded.potential_refill (h : Bounded C R t) (now : Int) :
    (t.refill now).potential R ≤ t.potential R := by
  rcases t.refill_cases now with ⟨-, heq⟩ | ⟨hlt, heq⟩
  · rw [heq]
  · rw [heq]
    have hadded := mul_le_mul_of_nonneg_left h.rate.2 (elapsed_nonneg hlt)
    have hmin := min_le_right t.currentCapacity
      (t.tokens + ((now - t.lastRefillMs : Int) : ℚ) / 1000 * t.currentRefillPerSec)
    have hsplit : ((now - t.lastRefillMs : Int) : ℚ) / 1000 * R =
        R * now / 1000 - R * t.lastRefillMs / 1000 := by
      push_cast
      ring
    simp only [potential]
    linarith

/-- A granted cost is taken from the tokens. -/
theorem tryConsume_tokens (t : TokenBucket) (now : Int) (cost : ℚ) :
    t.granted (.tryConsume now cost) + (t.tryConsume now cost).2.tokens =
      (t.refill now).tokens := by
  simp only [granted, tryConsume]
  split <;> simp

theorem tryConsume_lastRefillMs (t : TokenBucket) (now : Int) (cost : ℚ) :
    (t.tryConsume now cost).2.lastRefillMs = (t.refill now).lastRefillMs := by
  simp only [tryConsume]
  split <;> rfl

theorem tryConsume_frame (t : TokenBucket) (now : Int) (cost : ℚ) : ∃ tokens lastRefillMs,
    (t.tryConsume now cost).2 = { t with tokens := tokens, lastRefillMs := lastRefillMs } := by
  obtain ⟨tokens, last, heq⟩ := t.refill_frame now
  simp only [tryConsume, heq]
  split
  · exact ⟨_, _, rfl⟩
  · exact ⟨_, _, rfl⟩

theorem Bounded.tryConsume (h : Bounded C R t) (now : Int) {cost : ℚ} (hcost : 0 < cost) :
    Bounded C R (t.tryConsume now cost).2 := by
  have hr := h.refill now
  simp only [TokenBucket.tryConsume]
  split
  · next hge =>
    refine { hr with tokens_nonneg := ?_, tokens_le := ?_ }
    · exact sub_nonneg.mpr hge
    · show (t.refill now).tokens - cost ≤ (t.refill now).currentCapacity
      linarith [hr.tokens_le]
  · exact hr

theorem msUntilAvailable_snd (t : TokenBucket) (now : Int) (cost : ℚ) :
    (t.msUntilAvailable now cost).2 = t.refill now := by
  simp only [msUntilAvailable]
  split <;> rfl

/-- The factor by which `adapt` scales the base values. -/
def factor (minCapacityFraction severity : ℚ) : ℚ :=
  1 - max 0 (min 1 severity) * (1 - minCapacityFraction)

theorem adapt_capacity (t : TokenBucket) (s : ℚ) : (t.adapt s).currentCapacity =
    max (1 : ℚ) (round (t.baseCapacity * factor t.minCapacityFraction s)) := rfl

theorem adapt_rate (t : TokenBucket) (s : ℚ) : (t.adapt s).currentRefillPerSec =
    max (1 / 2) (t.baseRefillPerSec * factor t.minCapacityFraction s) := rfl

/-- The factor is at least the fraction, and at most one. -/
theorem factor_le {f : ℚ} (s : ℚ) (hf : f ≤ 1) : f ≤ factor f s ∧ factor f s ≤ 1 := by
  have hlow : 0 ≤ max 0 (min 1 s) := le_max_left _ _
  have hhigh : max 0 (min 1 s) ≤ 1 := max_le zero_le_one (min_le_left _ _)
  have hrest : 0 ≤ 1 - f := by linarith
  have hprod := mul_nonneg hlow hrest
  have hprod' := mul_le_of_le_one_left hrest hhigh
  unfold factor
  constructor <;> linarith

/-- Rounding stays below an integer bound. -/
theorem round_le {x : ℚ} {C : Int} (h : x ≤ C) : round x ≤ C := by
  have hlt : x + 1 / 2 < ((C + 1 : Int) : ℚ) := by
    push_cast
    linarith
  exact Int.lt_add_one_iff.mp (Int.floor_lt.mpr hlt)

theorem Bounded.adapt (h : Bounded C R t) (hC : 1 ≤ C) (hR : 1 / 2 ≤ R) (severity : ℚ) :
    Bounded C R (t.adapt severity) := by
  obtain ⟨-, hfactor⟩ := factor_le severity h.fraction.2
  have hC' : (1 : ℚ) ≤ C := by exact_mod_cast hC
  refine { h with
    tokens_nonneg := ?_, tokens_le := min_le_right _ _, capacity_le := ?_, rate := ?_ }
  · exact le_min h.tokens_nonneg (zero_le_one.trans (le_max_left _ _))
  · rw [adapt_capacity, h.base.1]
    refine max_le hC' ?_
    exact_mod_cast round_le (mul_le_of_le_one_right (by linarith) hfactor)
  · rw [adapt_rate, h.base.2]
    refine ⟨(by norm_num : (0 : ℚ) ≤ 1 / 2).trans (le_max_left _ _), max_le hR ?_⟩
    exact mul_le_of_le_one_right (by linarith) hfactor

theorem Bounded.reset (h : Bounded C R t) (hR : 1 / 2 ≤ R) : Bounded C R t.reset := by
  have hbase := h.base.1
  have hrate := h.base.2
  refine { h with tokens_le := ?_, capacity_le := ?_, rate := ?_ }
  · show t.tokens ≤ t.baseCapacity
    rw [hbase]
    exact h.tokens_le.trans h.capacity_le
  · exact hbase.le
  · show 0 ≤ t.baseRefillPerSec ∧ t.baseRefillPerSec ≤ R
    rw [hrate]
    exact ⟨by linarith, le_refl R⟩

/-! ### A history of calls -/

theorem Bounded.next (hC : 1 ≤ C) (hR : 1 / 2 ≤ R) (t : TokenBucket) (c : Call)
    (hc : c.Positive) (h : Bounded C R t) : Bounded C R (object.next t c) := by
  cases c with
  | tryConsume now cost => exact h.tryConsume now hc
  | msUntilAvailable now cost =>
      show Bounded C R (t.msUntilAvailable now cost).2
      rw [msUntilAvailable_snd]
      exact h.refill now
  | snapshot now => exact h.refill now
  | adapt severity => exact h.adapt hC hR severity
  | reset => exact h.reset hR

/-- A call gains what it takes from the potential. -/
theorem Bounded.granted_add_potential (h : Bounded C R t) (c : Call) :
    t.granted c + (object.next t c).potential R ≤ t.potential R := by
  cases c with
  | tryConsume now cost =>
      have htokens := t.tryConsume_tokens now cost
      have hlast := t.tryConsume_lastRefillMs now cost
      have hrefill := h.potential_refill now
      show t.granted _ + (t.tryConsume now cost).2.potential R ≤ _
      simp only [potential, hlast] at hrefill ⊢
      linarith
  | msUntilAvailable now cost =>
      show 0 + (t.msUntilAvailable now cost).2.potential R ≤ _
      rw [msUntilAvailable_snd, zero_add]
      exact h.potential_refill now
  | snapshot now =>
      show 0 + (t.refill now).potential R ≤ _
      rw [zero_add]
      exact h.potential_refill now
  | adapt severity =>
      have hmin : (t.adapt severity).tokens ≤ t.tokens := min_le_left _ _
      show 0 + ((t.adapt severity).tokens - R * t.lastRefillMs / 1000) ≤ _
      simp only [potential]
      linarith
  | reset =>
      show 0 + t.potential R ≤ _
      rw [zero_add]

/-- The bucket refills up to the latest reading of the clock. -/
theorem after_lastRefillMs (t : TokenBucket) (cs : List Call) :
    (object.after t cs).lastRefillMs = latestReading t.lastRefillMs cs := by
  induction cs generalizing t with
  | nil => rfl
  | cons c cs ih =>
      rw [Object.after_cons, ih]
      cases c with
      | tryConsume now cost =>
          show latestReading (t.tryConsume now cost).2.lastRefillMs cs = _
          rw [tryConsume_lastRefillMs, refill_lastRefillMs]
          rfl
      | msUntilAvailable now cost =>
          show latestReading (t.msUntilAvailable now cost).2.lastRefillMs cs = _
          rw [msUntilAvailable_snd, refill_lastRefillMs]
          rfl
      | snapshot now =>
          show latestReading (t.refill now).lastRefillMs cs = _
          rw [refill_lastRefillMs]
          rfl
      | adapt severity | reset => rfl

/-- What a call is granted and what is left afterwards fit in the bucket. -/
theorem Bounded.granted_add_tokens (h : Bounded C R t) {c : Call}
    (hn : Bounded C R (object.next t c)) :
    t.granted c + (object.next t c).tokens ≤ C := by
  cases c with
  | tryConsume now cost =>
      have htokens := t.tryConsume_tokens now cost
      have hr := h.refill now
      show t.granted _ + (t.tryConsume now cost).2.tokens ≤ C
      linarith [hr.tokens_le, hr.capacity_le]
  | _ =>
      show 0 + (object.next t _).tokens ≤ C
      linarith [hn.tokens_le, hn.capacity_le]

/-- What the calls from `c` on are granted, after any others. -/
theorem Bounded.granted_window (hC : 1 ≤ C) (hR : 1 / 2 ≤ R) (h : Bounded C R t)
    {before : List Call} {c : Call} {rest : List Call}
    (hcs : ∀ d ∈ before ++ c :: rest, d.Positive) :
    (object.gains granted (object.after t before) (c :: rest)).sum ≤
      C + R * ((latestReading t.lastRefillMs (before ++ c :: rest) -
        latestReading t.lastRefillMs (before ++ [c]) : Int) : ℚ) / 1000 := by
  simp only [List.mem_append, List.mem_cons, or_imp, forall_and, forall_eq] at hcs
  obtain ⟨hbefore, hc, hrest⟩ := hcs
  have hs : Bounded C R (object.after t before) := object.induct _ _ (next hC hR) h hbefore
  have hs' : Bounded C R (object.next (object.after t before) c) := next hC hR _ c hc hs
  have hend : Bounded C R (object.after (object.next (object.after t before) c) rest) :=
    object.induct _ _ (next hC hR) hs' hrest
  have hsum := object.sum_gains_le _ rest granted (next hC hR)
    (fun s c _ hb => hb.granted_add_potential c) hs' hrest
  have hfirst := hs.granted_add_tokens hs'
  have hlast : (object.next (object.after t before) c).lastRefillMs =
      latestReading t.lastRefillMs (before ++ [c]) := by
    rw [← after_lastRefillMs, Object.after_append]
    rfl
  have hlast' : (object.after (object.next (object.after t before) c) rest).lastRefillMs =
      latestReading t.lastRefillMs (before ++ c :: rest) := by
    rw [← after_lastRefillMs, Object.after_append, Object.after_cons]
  have hsplit : R * ((latestReading t.lastRefillMs (before ++ c :: rest) -
      latestReading t.lastRefillMs (before ++ [c]) : Int) : ℚ) / 1000 =
      R * latestReading t.lastRefillMs (before ++ c :: rest) / 1000 -
        R * latestReading t.lastRefillMs (before ++ [c]) / 1000 := by
    push_cast
    ring
  rw [Object.gains_cons, List.sum_cons, hsplit]
  simp only [potential, hlast, hlast'] at hsum
  linarith [hend.tokens_nonneg]

/-- **Rate guarantee.** In every history of calls with positive costs, at any clock
readings: the tokens stay between `0` and the current capacity, which stays below the base
capacity `C`; and what the calls from `i` to `j` are granted is at most `C` and what rate
`R` refills between the latest clock readings at `i` and at `j`. -/
theorem rate_guarantee {C : Int} {R fraction : ℚ} (hC : 1 ≤ C) (hR : 1 / 2 ≤ R)
    (hfraction : 0 ≤ fraction ∧ fraction ≤ 1) (start : Int) (cs : List Call)
    (hcs : ∀ c ∈ cs, c.Positive) :
    (∀ n, let t := object.after (new start C R fraction) (cs.take n)
      0 ≤ t.tokens ∧ t.tokens ≤ t.currentCapacity ∧ t.currentCapacity ≤ C) ∧
    ∀ i j, i ≤ j → j < cs.length →
      (((object.gains granted (new start C R fraction) cs).take (j + 1)).drop i).sum ≤
        C + R * ((latestReading start (cs.take (j + 1)) -
          latestReading start (cs.take (i + 1)) : Int) : ℚ) / 1000 := by
  have hnew : Bounded C R (new start C R fraction) := by
    have hC' : (1 : ℚ) ≤ C := by exact_mod_cast hC
    exact ⟨⟨rfl, rfl⟩, hfraction, by simp only [new]; linarith, le_refl _, le_refl _,
      by simp only [new]; linarith, le_refl _⟩
  have hbounded : ∀ n, Bounded C R (object.after (new start C R fraction) (cs.take n)) :=
    fun n => object.induct _ _ (Bounded.next hC hR) hnew
      fun c hc => hcs c (List.mem_of_mem_take hc)
  refine ⟨fun n => ⟨(hbounded n).tokens_nonneg, (hbounded n).tokens_le,
    (hbounded n).capacity_le⟩, fun i j hij hj => ?_⟩
  obtain ⟨rest, htake, hgains⟩ := object.exists_window (new start C R fraction) cs granted hij hj
  have hfirst : cs.take (i + 1) = cs.take i ++ [cs[i]] :=
    List.take_succ_eq_append_getElem (by omega)
  rw [hgains, htake, hfirst]
  refine hnew.granted_window hC hR fun c hc => ?_
  rw [← htake] at hc
  exact hcs c (List.mem_of_mem_take hc)

/-- A bucket of two tokens that refills one a second: two payments at once, none in the next
half second, and none more for a clock that steps back. -/
theorem rate_guarantee_burst :
    (((object.gains granted (new 0 (2 : Int) 1 (1 / 5))
      [.tryConsume 0 1, .tryConsume 0 1, .tryConsume 500 1, .tryConsume 100 1]).take 4).drop
        0).sum ≤ (2 : Int) + 1 * ((500 - 0 : Int) : ℚ) / 1000 :=
  (rate_guarantee (C := 2) (by decide) (by norm_num) (by norm_num) 0 _
    (by simp [Call.Positive])).2 0 3 (by decide) (by decide)

end TokenBucket

end PaymentQueue
