import PaymentQueue.Async.Reservoir
import PaymentQueue.RateLimit

/-!
# PaymentQueue.LazyRefill

Does a bucket that refills when it is read hold as much as one that refills all the time?

The reference is a reservoir that rises at the rate in force at every instant, under the
capacity in force. `tryConsume`, `msUntilAvailable` and `snapshot` refill the bucket before
anything else, so that it agrees with the reference from then on. `adapt` and `reset` do not:
the time since the last reading is refilled at the new rate and under the new capacity. That
agrees with the reference if and only if it comes to the same (`Carries`), as it does for a
bucket read at that instant.
-/

namespace PaymentQueue

open Async

namespace TokenBucket

/-! ### Calls in time -/

/-- A method with its argument. -/
inductive Method
  | tryConsume (cost : ℚ)
  | msUntilAvailable (cost : ℚ)
  | snapshot
  | adapt (severity : ℚ)
  | reset

/-- A call of a method, with the time it is made at. -/
structure Timed where
  time : Int
  method : Method

namespace Timed

/-- The call, with its clock reading if it makes one. -/
def call : Timed → Call
  | ⟨now, .tryConsume cost⟩ => .tryConsume now cost
  | ⟨now, .msUntilAvailable cost⟩ => .msUntilAvailable now cost
  | ⟨now, .snapshot⟩ => .snapshot now
  | ⟨_, .adapt severity⟩ => .adapt severity
  | ⟨_, .reset⟩ => .reset

/-- The call only reads the bucket. -/
def isRead : Timed → Bool
  | ⟨_, .msUntilAvailable _⟩ | ⟨_, .snapshot⟩ => true
  | _ => false

end Timed

/-- The bucket as an object, of calls in time. -/
def timed : Object TokenBucket Timed fun c => c.call.Ret where
  run t c := object.run t c.call

/-- The time in seconds. -/
def elapsed (last now : Int) : ℚ := ((now - last : Int) : ℚ) / 1000

/-! ### The reference -/

/-- A reservoir as it was at some time. -/
structure Reference where
  time : Int
  reservoir : Reservoir ℚ

namespace Reference

/-- The reservoir at a later time. -/
def settle (r : Reference) (now : Int) : Reservoir ℚ := r.reservoir.fill (elapsed r.time now)

/-- A full reservoir. -/
def new (now : Int) (baseCapacity baseRefillPerSec : ℚ) : Reference where
  time := now
  reservoir := ⟨baseCapacity, baseCapacity, baseRefillPerSec, le_refl _⟩

end Reference

/-- The reference of a bucket that was made as `base`: what a call does, at its own time. -/
def reference (base : TokenBucket) : Object Reference Timed fun _ => Unit where
  run r c :=
    let b := r.settle c.time
    ((), ⟨c.time,
      match c.method with
      | .tryConsume cost => if cost ≤ b.level then b.draw cost else b
      | .msUntilAvailable _ | .snapshot => b
      | .adapt severity =>
          b.refit (base.adapt severity).currentCapacity (base.adapt severity).currentRefillPerSec
      | .reset => b.refit base.reset.currentCapacity base.reset.currentRefillPerSec⟩)

/-- The answer of a call that consumes. -/
def answer (t : TokenBucket) (c : Timed) : Option Bool :=
  match c.method with
  | .tryConsume cost => some (t.tryConsume c.time cost).1
  | _ => none

/-- The answers of the calls that consume, in order. -/
def answers (t : TokenBucket) (cs : List Timed) : List Bool :=
  (timed.gains answer t cs).filterMap id

/-- What `answer` is for the reference. -/
def Reference.answer (r : Reference) (c : Timed) : Option Bool :=
  match c.method with
  | .tryConsume cost => some (decide (cost ≤ (r.settle c.time).level))
  | _ => none

/-- From the time of the reference on, the bucket has the same tokens. -/
def Agree (t : TokenBucket) (r : Reference) : Prop :=
  ∀ now, r.time ≤ now → (t.refill now).tokens = (r.settle now).level

/-- The same capacity and rate are in force for the bucket and for the reference, and the
bucket was not read later. -/
structure InForce (base t : TokenBucket) (r : Reference) : Prop where
  baseCapacity : t.baseCapacity = base.baseCapacity
  baseRefillPerSec : t.baseRefillPerSec = base.baseRefillPerSec
  minCapacityFraction : t.minCapacityFraction = base.minCapacityFraction
  capacity : t.currentCapacity = r.reservoir.capacity
  rate : t.currentRefillPerSec = r.reservoir.rate
  last_le : t.lastRefillMs ≤ r.time

/-! ### The condition -/

/-- What a call at this time finds in the bucket. -/
def available (t : TokenBucket) (now : Int) : ℚ :=
  min t.currentCapacity (t.tokens + elapsed t.lastRefillMs now * t.currentRefillPerSec)

/-- The bucket `t'`, with other parameters than `t` from now on, may carry the time since the
last reading over: refilled under them it comes to what is available now. -/
def Carries (t t' : TokenBucket) (now : Int) : Prop :=
  min t'.currentCapacity
      (t'.tokens + elapsed t.lastRefillMs now * t'.currentRefillPerSec) =
    min t'.currentCapacity (t.available now) ∧
  (t.lastRefillMs = now → t'.tokens ≤ t'.currentCapacity) ∧
  (0 ≤ t'.currentRefillPerSec ∨
    t'.tokens + elapsed t.lastRefillMs now * t'.currentRefillPerSec ≤ t'.currentCapacity)

/-- The call leaves the bucket in agreement with the reference. -/
def Fits (t : TokenBucket) (c : Timed) : Prop :=
  match c.method with
  | .tryConsume cost =>
      cost ≤ t.available c.time → t.available c.time - cost ≤ t.currentCapacity
  | .msUntilAvailable _ | .snapshot => True
  | .adapt severity => t.Carries (t.adapt severity) c.time
  | .reset => t.Carries t.reset c.time

variable {base t : TokenBucket} {r : Reference} {now later : Int}

theorem elapsed_self : elapsed now now = 0 := by simp [elapsed]

theorem elapsed_add (a b c : Int) : elapsed a b + elapsed b c = elapsed a c := by
  simp only [elapsed]
  push_cast
  ring

theorem elapsed_nonneg_of_le (h : now ≤ later) : 0 ≤ elapsed now later := by
  have : (0 : ℚ) ≤ ((later - now : Int) : ℚ) := by exact_mod_cast by omega
  unfold elapsed
  positivity

theorem Reference.settle_settle {r : Reference} (h : r.time ≤ now) (h' : now ≤ later) :
    (Reference.mk now (r.settle now)).settle later = r.settle later := by
  simp only [Reference.settle]
  rw [Reservoir.fill_add _ (elapsed_nonneg_of_le h) (elapsed_nonneg_of_le h'), elapsed_add]

/-- What a refill leaves, of a bucket that was not filled past its capacity just now. -/
theorem refill_tokens (h : t.lastRefillMs ≤ now)
    (hcap : t.lastRefillMs = now → t.tokens ≤ t.currentCapacity) :
    (t.refill now).tokens = t.available now := by
  rcases t.refill_cases now with ⟨hle, heq⟩ | ⟨-, heq⟩
  · have hnow : t.lastRefillMs = now := le_antisymm h hle
    rw [heq, available, hnow, elapsed_self, zero_mul, add_zero, min_eq_right (hcap hnow)]
  · rw [heq]
    rfl

/-- What an agreement says of the bucket itself. -/
theorem Agree.available (ha : t.Agree r) (hf : InForce base t r) (h : r.time ≤ now) :
    t.available now = (r.settle now).level ∧
      (t.lastRefillMs = now → t.tokens ≤ t.currentCapacity) := by
  have hlevel := ha now h
  have hcap : t.lastRefillMs = now → t.tokens ≤ t.currentCapacity := by
    intro hnow
    rcases t.refill_cases now with ⟨-, heq⟩ | ⟨hlt, -⟩
    · rw [heq] at hlevel
      rw [hlevel, hf.capacity]
      exact (r.settle now).level_le
    · omega
  exact ⟨(refill_tokens (hf.last_le.trans h) hcap).symm.trans hlevel, hcap⟩

/-- A bucket that was just read agrees with the reference if it has as many tokens. -/
theorem agree_of_settled (hf : InForce base t r) (hlast : t.lastRefillMs = r.time)
    (htokens : t.tokens = r.reservoir.level) : t.Agree r := by
  intro now h
  have hcap : t.tokens ≤ t.currentCapacity := by
    rw [htokens, hf.capacity]
    exact r.reservoir.level_le
  rw [refill_tokens (hlast.le.trans h) fun _ => hcap, TokenBucket.available, hf.capacity, hf.rate,
    htokens, hlast]
  rfl

/-! ### One call -/

/-- A reading changes nothing that is in force. -/
theorem InForce.refill (hf : InForce base t r) (h : r.time ≤ now) :
    InForce base (t.refill now) ⟨now, r.settle now⟩ := by
  have hlast : (t.refill now).lastRefillMs ≤ now := by
    rw [refill_lastRefillMs]
    exact max_le (hf.last_le.trans h) le_rfl
  rcases t.refill_cases now with ⟨-, heq⟩ | ⟨-, heq⟩ <;> rw [heq] at hlast ⊢
  · exact { hf with last_le := hlast }
  · exact { hf with last_le := hlast }

/-- The bucket is then settled, as the reference is. -/
theorem refill_settled (ha : t.Agree r) (hf : InForce base t r) (h : r.time ≤ now) :
    (t.refill now).lastRefillMs = now ∧ (t.refill now).tokens = (r.settle now).level := by
  refine ⟨?_, ha now h⟩
  rw [refill_lastRefillMs]
  exact max_eq_right (hf.last_le.trans h)

theorem agree_refill (ha : t.Agree r) (hf : InForce base t r) (h : r.time ≤ now) :
    (t.refill now).Agree ⟨now, r.settle now⟩ := by
  obtain ⟨hlast, htokens⟩ := refill_settled ha hf h
  exact agree_of_settled (hf.refill h) hlast htokens

/-- Taking from a bucket that was just read. -/
theorem agree_draw (ha : t.Agree r) (hf : InForce base t r) (h : r.time ≤ now) (cost : ℚ) :
    ({ t.refill now with tokens := (t.refill now).tokens - cost } : TokenBucket).Agree
        ⟨now, (r.settle now).draw cost⟩ ↔
      t.available now - cost ≤ t.currentCapacity := by
  obtain ⟨hlast, htokens⟩ := refill_settled ha hf h
  have hf' := hf.refill h
  have havail := (ha.available hf h).1
  have hcap : t.currentCapacity = (r.settle now).capacity := hf.capacity
  have hforce : InForce base { t.refill now with tokens := (t.refill now).tokens - cost }
      ⟨now, (r.settle now).draw cost⟩ :=
    ⟨hf'.baseCapacity, hf'.baseRefillPerSec, hf'.minCapacityFraction, hf'.capacity, hf'.rate,
      hlast.le⟩
  constructor
  · intro hagree
    rw [havail, ← htokens, hcap, ← hf'.capacity]
    exact (hagree.available hforce le_rfl).2 hlast
  · intro hle
    refine agree_of_settled hforce hlast ?_
    rw [havail, hcap] at hle
    show (t.refill now).tokens - cost = min (r.settle now).capacity ((r.settle now).level - cost)
    rw [htokens, min_eq_right hle]

/-- Other parameters for a bucket that was not read at that time. -/
theorem agree_refit {t' : TokenBucket} (hlast : t'.lastRefillMs = t.lastRefillMs)
    (ha : t.Agree r) (hf : InForce base t r) (h : r.time ≤ now) :
    t'.Agree ⟨now, (r.settle now).refit t'.currentCapacity t'.currentRefillPerSec⟩ ↔
      t.Carries t' now := by
  have hle : t.lastRefillMs ≤ now := hf.last_le.trans h
  have hlevel : ∀ later, (Reference.settle ⟨now, (r.settle now).refit t'.currentCapacity
      t'.currentRefillPerSec⟩ later).level = min t'.currentCapacity
        (min t'.currentCapacity (t.available now) +
          elapsed now later * t'.currentRefillPerSec) := by
    intro later
    rw [(ha.available hf h).1]
    rfl
  -- what a later call finds in the bucket
  have hlater : ∀ later, t'.available later = min t'.currentCapacity
      (t'.tokens + elapsed t.lastRefillMs now * t'.currentRefillPerSec +
        elapsed now later * t'.currentRefillPerSec) := by
    intro later
    rw [available, hlast, ← elapsed_add t.lastRefillMs now later]
    ring_nf
  constructor
  · intro hagree
    have hnow := hagree now le_rfl
    have hnext := hagree (now + 1) (by simp)
    rw [hlevel, elapsed_self, zero_mul, add_zero, min_eq_right (min_le_left _ _)] at hnow
    have hcap : t.lastRefillMs = now → t'.tokens ≤ t'.currentCapacity := by
      intro heq
      rcases t'.refill_cases now with ⟨-, hrefill⟩ | ⟨hlt, -⟩
      · rw [hrefill] at hnow
        rw [hnow]
        exact min_le_left _ _
      · omega
    rw [refill_tokens (hlast.le.trans hle) (hlast ▸ hcap), hlater, elapsed_self, zero_mul,
      add_zero] at hnow
    refine ⟨hnow, hcap, ?_⟩
    -- a reservoir that empties is below its capacity in a moment
    by_contra! hneg
    obtain ⟨hrate, hover⟩ := hneg
    have hmoment : elapsed now (now + 1) = 1 / 1000 := by simp [elapsed]
    rw [refill_tokens (by omega) (by omega), hlater, hlevel, ← hnow, min_eq_left hover.le,
      hmoment] at hnext
    rw [min_eq_right (by linarith : t'.currentCapacity + 1 / 1000 * t'.currentRefillPerSec ≤
      t'.currentCapacity)] at hnext
    rcases min_choice t'.currentCapacity (t'.tokens + elapsed t.lastRefillMs now *
      t'.currentRefillPerSec + 1 / 1000 * t'.currentRefillPerSec) with hmin | hmin <;>
      rw [hmin] at hnext <;> linarith
  · rintro ⟨hcarry, hcap, hrate⟩ later hl
    have hl' : now ≤ later := hl
    rw [refill_tokens (by omega) fun heq => hcap (by omega), hlater, hlevel, ← hcarry]
    rcases le_or_gt (t'.tokens + elapsed t.lastRefillMs now * t'.currentRefillPerSec)
      t'.currentCapacity with hbelow | hover
    · rw [min_eq_right hbelow]
    · have hrise : 0 ≤ elapsed now later * t'.currentRefillPerSec :=
        mul_nonneg (elapsed_nonneg_of_le hl') (hrate.resolve_right (not_le.mpr hover))
      rw [min_eq_left hover.le, min_eq_left (by linarith), min_eq_left (by linarith)]

variable {c : Timed} {cs cs' : List Timed}

theorem InForce.adapt (hf : InForce base t r) (severity : ℚ) :
    (t.adapt severity).currentCapacity = (base.adapt severity).currentCapacity ∧
      (t.adapt severity).currentRefillPerSec = (base.adapt severity).currentRefillPerSec := by
  simp only [TokenBucket.adapt, hf.baseCapacity, hf.baseRefillPerSec, hf.minCapacityFraction,
    and_self]

theorem InForce.reset (hf : InForce base t r) :
    t.reset.currentCapacity = base.reset.currentCapacity ∧
      t.reset.currentRefillPerSec = base.reset.currentRefillPerSec :=
  ⟨hf.baseCapacity, hf.baseRefillPerSec⟩

/-- What is in force changes for both at the same calls. -/
theorem inForce_next (hf : InForce base t r) (h : r.time ≤ c.time) :
    InForce base (timed.next t c) ((reference base).next r c) := by
  obtain ⟨now, method⟩ := c
  have hrefill : InForce base (t.refill now) ⟨now, r.settle now⟩ := hf.refill h
  cases method with
  | tryConsume cost =>
      show InForce base (t.tryConsume now cost).2 _
      simp only [Object.next, reference, tryConsume]
      split <;> split
      · exact { hrefill with }
      · exact { hrefill with }
      · exact { hrefill with }
      · exact hrefill
  | msUntilAvailable cost =>
      show InForce base (t.msUntilAvailable now cost).2 _
      rw [msUntilAvailable_snd]
      exact hrefill
  | snapshot => exact hrefill
  | adapt severity =>
      exact ⟨hf.baseCapacity, hf.baseRefillPerSec, hf.minCapacityFraction, (hf.adapt severity).1,
        (hf.adapt severity).2, hf.last_le.trans h⟩
  | reset =>
      exact ⟨hf.baseCapacity, hf.baseRefillPerSec, hf.minCapacityFraction, hf.baseCapacity,
        hf.baseRefillPerSec, hf.last_le.trans h⟩

/-- The bucket stays in agreement with the reference if and only if the call fits. -/
theorem agree_next_iff (ha : t.Agree r) (hf : InForce base t r) (h : r.time ≤ c.time) :
    (timed.next t c).Agree ((reference base).next r c) ↔ t.Fits c := by
  obtain ⟨now, method⟩ := c
  have hrefill := agree_refill ha hf h
  cases method with
  | tryConsume cost =>
      have htokens : (t.refill now).tokens = (r.settle now).level := ha now h
      have havail : t.available now = (r.settle now).level := (ha.available hf h).1
      show (t.tryConsume now cost).2.Agree
          ⟨now, if cost ≤ (r.settle now).level then (r.settle now).draw cost else r.settle now⟩ ↔
        (cost ≤ t.available now → t.available now - cost ≤ t.currentCapacity)
      rw [← agree_draw ha hf h cost, havail]
      simp only [tryConsume, ge_iff_le, htokens]
      split
      · next hge => simp only [hge, forall_const]
      · next hlt => exact iff_of_true hrefill fun hge => absurd hge hlt
  | msUntilAvailable cost =>
      refine iff_of_true ?_ trivial
      show (t.msUntilAvailable now cost).2.Agree _
      rw [msUntilAvailable_snd]
      exact hrefill
  | snapshot => exact iff_of_true hrefill trivial
  | adapt severity =>
      show (t.adapt severity).Agree ⟨now, (r.settle now).refit (base.adapt severity).currentCapacity
          (base.adapt severity).currentRefillPerSec⟩ ↔ t.Carries (t.adapt severity) now
      rw [← (hf.adapt severity).1, ← (hf.adapt severity).2]
      exact agree_refit rfl ha hf h
  | reset =>
      show t.reset.Agree ⟨now, (r.settle now).refit base.reset.currentCapacity
          base.reset.currentRefillPerSec⟩ ↔ t.Carries t.reset now
      rw [← hf.reset.1, ← hf.reset.2]
      exact agree_refit rfl ha hf h

theorem answer_eq (ha : t.Agree r) (h : r.time ≤ c.time) : t.answer c = r.answer c := by
  obtain ⟨now, method⟩ := c
  cases method with
  | tryConsume cost =>
      have htokens : (t.refill now).tokens = (r.settle now).level := ha now h
      simp only [answer, Reference.answer, tryConsume, ge_iff_le, htokens]
      split
      · next hge => simp [hge]
      · next hlt => simp [hlt]
  | _ => rfl

/-! ### A history of calls -/

/-- The calls are made in the order of their times, from `start` on. -/
def Ordered (start : Int) (cs : List Timed) : Prop :=
  (start :: cs.map Timed.time).Pairwise (· ≤ ·)

instance (start : Int) (cs : List Timed) : Decidable (Ordered start cs) :=
  inferInstanceAs (Decidable (List.Pairwise _ _))

theorem ordered_cons {start : Int} :
    Ordered start (c :: cs) ↔ start ≤ c.time ∧ Ordered c.time cs := by
  simp only [Ordered, List.map_cons, List.pairwise_cons, List.mem_cons, forall_eq_or_imp]
  constructor
  · rintro ⟨⟨hc, -⟩, hrest⟩
    exact ⟨hc, hrest⟩
  · rintro ⟨hc, hall, hrest⟩
    exact ⟨⟨hc, fun time htime => hc.trans (hall time htime)⟩, hall, hrest⟩

theorem agree_prefix_iff (ha : t.Agree r) (hf : InForce base t r) (h : Ordered r.time cs) :
    (∀ pre, pre <+: cs → (timed.after t pre).Agree ((reference base).after r pre)) ↔
      timed.Allowed Fits t cs := by
  induction cs generalizing t r with
  | nil =>
      refine iff_of_true (fun pre hpre => ?_) trivial
      rw [List.prefix_nil.mp hpre]
      exact ha
  | cons c cs ih =>
      obtain ⟨hc, hcs⟩ := ordered_cons.mp h
      have hnext := agree_next_iff ha hf hc
      constructor
      · intro hall
        have ha' : (timed.next t c).Agree ((reference base).next r c) :=
          hall [c] ⟨cs, rfl⟩
        refine ⟨hnext.mp ha', (ih ha' (inForce_next hf hc) hcs).mp fun pre hpre => ?_⟩
        exact hall (c :: pre) (List.cons_prefix_cons.mpr ⟨rfl, hpre⟩)
      · rintro ⟨hfit, hallowed⟩ pre hpre
        rcases List.prefix_cons_iff.mp hpre with rfl | ⟨pre', rfl, hpre'⟩
        · exact ha
        · exact (ih (hnext.mpr hfit) (inForce_next hf hc) hcs).mpr hallowed pre' hpre'

theorem answers_eq (ha : t.Agree r) (hf : InForce base t r) (h : Ordered r.time cs)
    (hcs : timed.Allowed Fits t cs) :
    timed.gains answer t cs = (reference base).gains Reference.answer r cs := by
  induction cs generalizing t r with
  | nil => rfl
  | cons c cs ih =>
      obtain ⟨hc, hrest⟩ := ordered_cons.mp h
      rw [Object.gains_cons, Object.gains_cons, answer_eq ha hc,
        ih ((agree_next_iff ha hf hc).mpr hcs.1) (inForce_next hf hc) hrest hcs.2]

/-- `cs'` is `cs` with more calls that read the bucket. -/
inductive WithReads : List Timed → List Timed → Prop
  | nil : WithReads [] []
  | keep (c : Timed) {cs cs' : List Timed} : WithReads cs cs' → WithReads (c :: cs) (c :: cs')
  | read {c : Timed} (h : c.isRead = true) {cs cs' : List Timed} :
      WithReads cs cs' → WithReads cs (c :: cs')

theorem WithReads.refl (cs : List Timed) : WithReads cs cs := by
  induction cs with
  | nil => exact .nil
  | cons c cs ih => exact .keep c ih

theorem Reference.settle_time (r : Reference) : r.settle r.time = r.reservoir := by
  rw [Reference.settle, elapsed_self, Reservoir.fill_zero]

theorem reference_read (base : TokenBucket) (r : Reference) (h : c.isRead = true) :
    r.answer c = none ∧ (reference base).next r c = ⟨c.time, r.settle c.time⟩ := by
  obtain ⟨now, method⟩ := c
  cases method with
  | msUntilAvailable cost => exact ⟨rfl, rfl⟩
  | snapshot => exact ⟨rfl, rfl⟩
  | tryConsume cost | adapt severity | reset => simp [Timed.isRead] at h

/-- The answers of the reference do not depend on when it is read. -/
theorem reference_answers (base : TokenBucket) (hreads : WithReads cs cs') (hnow : r.time ≤ now)
    (h : Ordered now cs') :
    ((reference base).gains Reference.answer ⟨now, r.settle now⟩ cs').filterMap id =
      ((reference base).gains Reference.answer r cs).filterMap id := by
  induction hreads generalizing r now with
  | nil => rfl
  | @keep c cs cs' hreads ih =>
      obtain ⟨hc, hcs⟩ := ordered_cons.mp h
      have hsettle := Reference.settle_settle hnow hc
      have hanswer : Reference.answer ⟨now, r.settle now⟩ c = r.answer c := by
        simp only [Reference.answer, hsettle]
      have hnext : (reference base).next ⟨now, r.settle now⟩ c = (reference base).next r c := by
        simp only [Object.next, reference, hsettle]
      have hrest := ih (r := (reference base).next r c) le_rfl hcs
      rw [Reference.settle_time] at hrest
      rw [Object.gains_cons, Object.gains_cons, hanswer, hnext, List.filterMap_cons,
        List.filterMap_cons, hrest]
  | @read c hread cs cs' hreads ih =>
      obtain ⟨hc, hcs⟩ := ordered_cons.mp h
      have hsettle := Reference.settle_settle hnow hc
      obtain ⟨hanswer, hnext⟩ := reference_read base ⟨now, r.settle now⟩ hread
      rw [hsettle] at hnext
      rw [Object.gains_cons, hanswer, hnext, List.filterMap_cons_none rfl]
      exact ih (hnow.trans hc) hcs

/-- After each of the calls, a bucket that was new at `start` has the tokens of the reference
for whatever is called next, at any later time. -/
def Agrees (start : Int) (C R fraction : ℚ) (cs : List Timed) : Prop :=
  ∀ pre, pre <+: cs → (timed.after (new start C R fraction) pre).Agree
    ((reference (new start C R fraction)).after (.new start C R) pre)

theorem inForce_new (start : Int) (C R fraction : ℚ) :
    InForce (new start C R fraction) (new start C R fraction) (.new start C R) :=
  ⟨rfl, rfl, rfl, rfl, rfl, le_refl _⟩

theorem agree_new (start : Int) (C R fraction : ℚ) :
    (new start C R fraction).Agree (.new start C R) :=
  agree_of_settled (inForce_new start C R fraction) rfl rfl

/-- A bucket agrees with the reference in a history of calls if and only if every call fits
the bucket as it is then: what `adapt` and `reset` carry over comes to what is available, and
no negative cost fills the bucket past its capacity. It does so with whatever more readings,
and these do not change what it answers, if and only if the calls fit with them. -/
theorem lazy_refill_iff (start : Int) (C R fraction : ℚ) (cs : List Timed)
    (h : Ordered start cs) :
    (Agrees start C R fraction cs ↔ timed.Allowed Fits (new start C R fraction) cs) ∧
    ((∀ cs', WithReads cs cs' → Ordered start cs' → Agrees start C R fraction cs' ∧
        (new start C R fraction).answers cs' = (new start C R fraction).answers cs) ↔
      ∀ cs', WithReads cs cs' → Ordered start cs' →
        timed.Allowed Fits (new start C R fraction) cs') := by
  have hnew := agree_new start C R fraction
  have hforce := inForce_new start C R fraction
  refine ⟨agree_prefix_iff hnew hforce h, fun hall cs' hreads horder => ?_,
    fun hall cs' hreads horder => ⟨?_, ?_⟩⟩
  · exact (agree_prefix_iff hnew hforce horder).mp (hall cs' hreads horder).1
  · exact (agree_prefix_iff hnew hforce horder).mpr (hall cs' hreads horder)
  · have hcs := answers_eq hnew hforce h (hall cs (.refl cs) h)
    have hcs' := answers_eq hnew hforce horder (hall cs' hreads horder)
    have hreference := reference_answers (new start C R fraction) (r := .new start C R) hreads
      le_rfl horder
    rw [Reference.settle_time] at hreference
    rw [answers, answers, hcs, hcs']
    exact hreference

instance (t : TokenBucket) (c : Timed) : Decidable (t.Fits c) :=
  match c with
  | ⟨now, .tryConsume cost⟩ =>
      inferInstanceAs (Decidable (cost ≤ t.available now →
        t.available now - cost ≤ t.currentCapacity))
  | ⟨_, .msUntilAvailable _⟩ => .isTrue trivial
  | ⟨_, .snapshot⟩ => .isTrue trivial
  | ⟨_, .adapt _⟩ => inferInstanceAs (Decidable (_ ∧ (_ → _) ∧ (_ ∨ _)))
  | ⟨_, .reset⟩ => inferInstanceAs (Decidable (_ ∧ (_ → _) ∧ (_ ∨ _)))

/-- A bucket that is read at the instants at which it is adapted and reset. -/
theorem lazy_refill_read : Agrees 0 10 10 (1 / 5)
    [⟨0, .tryConsume 10⟩, ⟨0, .adapt 1⟩, ⟨1000, .snapshot⟩, ⟨1000, .reset⟩,
      ⟨1500, .tryConsume 5⟩] :=
  (lazy_refill_iff 0 10 10 (1 / 5) _ (by decide)).1.mpr (by decide +kernel)

/-- An empty bucket is throttled to two tokens a second, and reset when a second has passed:
it has ten tokens at once. With a reading just before that it has two. -/
theorem refilled_at_reset :
    ¬ Agrees 0 10 10 (1 / 5) [⟨0, .tryConsume 10⟩, ⟨0, .adapt 1⟩, ⟨1000, .reset⟩] ∧
    (new 0 10 10 (1 / 5)).answers [⟨0, .tryConsume 10⟩, ⟨0, .adapt 1⟩, ⟨1000, .reset⟩,
      ⟨1000, .tryConsume 5⟩] = [true, true] ∧
    (new 0 10 10 (1 / 5)).answers [⟨0, .tryConsume 10⟩, ⟨0, .adapt 1⟩, ⟨1000, .snapshot⟩,
      ⟨1000, .reset⟩, ⟨1000, .tryConsume 5⟩] = [true, false] := by
  refine ⟨fun hall => ?_, by decide +kernel, by decide +kernel⟩
  have hagree := hall _ List.prefix_rfl 1000 (by decide +kernel)
  exact absurd hagree (by decide +kernel)

end TokenBucket

end PaymentQueue
