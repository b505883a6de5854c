import Mathlib.Tactic.NormNum
import PaymentQueue.Breakers
import PaymentQueue.Environment
import PaymentQueue.Throttling

/-!
# PaymentQueue.Severity

Does the throttling of a gateway follow the severity of its breaker?

In the shared world the breaker and the bucket of a gateway are a `Throttled` pair: each
operation of a `process` call is a call of the pair, or leaves it alone (`holds_perform`), so
that in every run the bucket has its base values or those of `adapt(1)`. The severity also
rises with the failures that a CLOSED breaker has seen, and is lower in HALF_OPEN. So the bucket
has what `adapt(severity())` would set while the breaker is OPEN, and in the other states only
where these values come to the same (`follows_severity_iff`).
-/

namespace PaymentQueue

open Async

namespace World

/-- The breaker and the bucket of the gateway. -/
def Holds (w : World) (gatewayId : String) (s : Throttled) : Prop :=
  w.breaker gatewayId = some s.breaker ∧ w.rateLimiters gatewayId = some s.bucket

variable {w w' : World} {g gatewayId : String} {s : Throttled}

theorem rateLimiters_setBreaker_of_ne {gw : RegisteredGateway} {b : CircuitBreaker}
    (h : gatewayId ≠ g) :
    (w.setBreaker g gw b).rateLimiters gatewayId = w.rateLimiters gatewayId := by
  unfold setBreaker onStateChange
  split
  · rfl
  · split <;> simp [h]

/-- A method has changed the breaker of the gateway. -/
theorem Holds.setBreaker {gw : RegisteredGateway} (h : w.Holds gatewayId s)
    (hgw : w.gateways gatewayId = some gw) (b : CircuitBreaker) :
    (w.setBreaker gatewayId gw b).Holds gatewayId (s.setBreaker b) := by
  have hb : gw.breaker = s.breaker := by simpa [breaker, hgw] using h.1
  have hbucket := h.2
  refine ⟨?_, ?_⟩
  · rw [breaker_setBreaker, if_pos rfl, Throttled.setBreaker]
    split <;> rfl
  · unfold World.setBreaker Throttled.setBreaker
    rw [hb]
    split
    · exact hbucket
    · cases hstate : b.state <;> simp [onStateChange, Throttled.onStateChange, hbucket]

/-- An operation on the breaker of some gateway. -/
theorem Holds.of_breaker {gw : RegisteredGateway} (h : w.Holds gatewayId s)
    (hgw : w.gateways g = some gw) (c : CircuitBreaker.Call) :
    ∃ s', (s' = s ∨ ∃ c, s' = Throttled.object.next s c) ∧
      (w.setBreaker g gw (CircuitBreaker.object.next gw.breaker c)).Holds gatewayId s' := by
  by_cases hg : g = gatewayId
  · subst hg
    have hb : gw.breaker = s.breaker := by simpa [breaker, hgw] using h.1
    rw [hb]
    exact ⟨_, Or.inr ⟨.breaker c, rfl⟩, h.setBreaker hgw _⟩
  · refine ⟨s, Or.inl rfl, ?_, ?_⟩
    · rw [breaker_setBreaker, if_neg hg]
      exact h.1
    · rw [rateLimiters_setBreaker_of_ne (Ne.symm hg)]
      exact h.2

/-- An operation on the bucket of some gateway. -/
theorem Holds.of_bucket {t t' : TokenBucket} (h : w.Holds gatewayId s)
    (ht : w.rateLimiters g = some t)
    (hnext : t = s.bucket → ∃ c, { s with bucket := t' } = Throttled.object.next s c) :
    ∃ s', (s' = s ∨ ∃ c, s' = Throttled.object.next s c) ∧
      (w.setBucket g t').Holds gatewayId s' := by
  by_cases hg : gatewayId = g
  · subst hg
    obtain ⟨c, hc⟩ := hnext (Option.some.inj (ht.symm.trans h.2))
    exact ⟨_, Or.inr ⟨c, rfl⟩, hc ▸ ⟨h.1, by simp [setBucket]⟩⟩
  · exact ⟨s, Or.inl rfl, h.1, by simpa [setBucket, hg] using h.2⟩

/-- An operation is a call of the pair, or leaves it alone. -/
theorem holds_perform {o : Op} {a : Answer} {r : o.Ret} (hw : w.perform o a = some (r, w'))
    (h : w.Holds gatewayId s) :
    ∃ s', (s' = s ∨ ∃ c, s' = Throttled.object.next s c) ∧ w'.Holds gatewayId s' := by
  cases o with
  | canAttempt g =>
      cases a <;> simp only [perform, reduceCtorEq, Option.map_eq_some_iff, Prod.mk.injEq] at hw
      obtain ⟨gw, hgw, -, rfl⟩ := hw
      exact h.of_breaker hgw (.canAttempt w.now)
  | recordSuccess g =>
      cases a <;> simp only [perform, reduceCtorEq, Option.map_eq_some_iff, Prod.mk.injEq] at hw
      obtain ⟨gw, hgw, -, rfl⟩ := hw
      exact h.of_breaker hgw (.recordSuccess w.now)
  | recordFailure g =>
      cases a <;> simp only [perform, reduceCtorEq, Option.map_eq_some_iff, Prod.mk.injEq] at hw
      obtain ⟨gw, hgw, -, rfl⟩ := hw
      exact h.of_breaker hgw (.recordFailure w.now)
  | tryConsume g =>
      cases a <;> simp only [perform, reduceCtorEq, Option.map_eq_some_iff, Prod.mk.injEq] at hw
      obtain ⟨t, ht, -, rfl⟩ := hw
      exact h.of_bucket ht fun heq => ⟨.tryConsume w.now 1, by rw [heq]; rfl⟩
  | msUntilAvailable g =>
      cases a <;> simp only [perform, reduceCtorEq, Option.map_eq_some_iff, Prod.mk.injEq] at hw
      obtain ⟨t, ht, -, rfl⟩ := hw
      exact h.of_bucket ht fun heq => ⟨.msUntilAvailable w.now 1, by rw [heq]; rfl⟩
  | semaphoreAcquire g | semaphoreRelease g =>
      cases a <;> simp only [perform, reduceCtorEq, Option.map_eq_some_iff, Prod.mk.injEq] at hw
      obtain ⟨gw, hgw, -, rfl⟩ := hw
      exact ⟨s, Or.inl rfl, by rw [breaker_setSemaphore hgw]; exact h.1, h.2⟩
  | semaphoreGranted g ticket =>
      cases a <;> simp only [perform, reduceCtorEq, Option.bind_eq_some_iff] at hw
      obtain ⟨gw, -, hw⟩ := hw
      split at hw
      · exact absurd hw (by simp)
      · obtain ⟨-, rfl⟩ : () = r ∧ w = w' := by simpa using hw
        exact ⟨s, Or.inl rfl, h⟩
  | _ =>
      cases a <;> simp only [perform, reduceCtorEq, Option.some.injEq, Prod.mk.injEq] at hw
      all_goals
        obtain ⟨-, rfl⟩ := hw
        exact ⟨s, Or.inl rfl, h⟩

/-- What the world does on its own leaves the pair alone. -/
theorem Holds.move {m : Move} (hw : w.move m = some w') (h : w.Holds gatewayId s) :
    w'.Holds gatewayId s := by
  obtain ⟨now, redis, -, rfl⟩ := move_frame hw
  exact h

end World

/-- **The pair in a run.** In every run of `process` calls, the breaker and the bucket of a
gateway are where some calls have taken the pair. -/
theorem holds_of_run {ι : Type} [DecidableEq ι] {G : Guard system ι Thrown Unit}
    {jobs : ι → Job} {w : World} {gatewayId : String} {s₀ : Throttled}
    (hw : w.Holds gatewayId s₀) {s : State ι} (h : Run G (processes jobs w) s) :
    ∃ cs, s.world.Holds gatewayId (Throttled.object.after s₀ cs) := by
  refine Run.world_induct (I := fun (w : World) => ∃ cs,
    w.Holds gatewayId (Throttled.object.after s₀ cs))
    ⟨[], hw⟩ ?_ ?_ h
  · rintro w o a r w' ⟨cs, hcs⟩ hperform
    obtain ⟨s', rfl | ⟨c, rfl⟩, hs'⟩ := World.holds_perform hperform hcs
    · exact ⟨cs, hs'⟩
    · exact ⟨cs ++ [c], by rwa [Object.after_append_singleton]⟩
  · rintro w m w' ⟨cs, hcs⟩ hmove
    exact ⟨cs, hcs.move hmove⟩

/-! ### When the values come to the same -/

namespace TokenBucket

variable {t : TokenBucket} {x s capacity perSecond : ℚ}

/-- With the fraction of the wiring, the factor falls by 4/5 of the severity. -/
theorem factor_fifth (hs : 0 ≤ s) (hs' : s ≤ 1) : factor (1 / 5) s = 1 - 4 / 5 * s := by
  rw [factor, min_eq_right hs', max_eq_right hs]
  ring

theorem round_lt_iff {n : Int} : round x < n ↔ x + 1 / 2 < n := Int.floor_lt

theorem le_round_iff {n : Int} : n ≤ round x ↔ n ≤ x + 1 / 2 := Int.le_floor

/-- `adapt` leaves the base rate as it is. -/
theorem rate_unchanged_iff (hx : x ≤ 1) :
    max (1 / 2) (perSecond * x) = perSecond ↔
      1 / 2 < perSecond ∧ x = 1 ∨ perSecond = 1 / 2 := by
  constructor
  · intro h
    have hle : 1 / 2 ≤ perSecond := (le_max_left _ _).trans_eq h
    rcases hle.eq_or_lt with heq | hlt
    · exact Or.inr heq.symm
    · refine Or.inl ⟨hlt, ?_⟩
      rcases max_choice (1 / 2) (perSecond * x) with hmax | hmax
      · linarith
      · have hscaled : perSecond * x = perSecond := hmax.symm.trans h
        exact mul_left_cancel₀ (by linarith : perSecond ≠ 0) (by rw [hscaled, mul_one])
  · rintro (⟨hlt, rfl⟩ | rfl)
    · rw [mul_one, max_eq_right hlt.le]
    · exact max_eq_left (by linarith)

/-- `adapt` leaves the base capacity as it is. -/
theorem capacity_unchanged_iff (hx : x ≤ 1) :
    max (1 : ℚ) (round (capacity * x)) = capacity ↔
      ∃ C : Int, 1 ≤ C ∧ capacity = C ∧ (C = 1 ∨ C * (1 - x) ≤ 1 / 2) := by
  constructor
  · intro h
    refine ⟨max 1 (round (capacity * x)), le_max_left _ _, ?_, ?_⟩
    · rw [Int.cast_max, Int.cast_one, h]
    · rcases le_or_gt (round (capacity * x)) 1 with hle | hlt
      · exact Or.inl (max_eq_left hle)
      · rw [max_eq_right hlt.le]
        right
        have hcap : (round (capacity * x) : ℚ) = capacity := by
          rwa [max_eq_right (by exact_mod_cast hlt.le)] at h
        have hround : round (capacity * x) ≤ capacity * x + 1 / 2 := Int.floor_le _
        rw [hcap] at hround ⊢
        linarith
  · rintro ⟨C, hC, rfl, hcase⟩
    have hC' : (1 : ℚ) ≤ C := by exact_mod_cast hC
    have hround : round (C * x) ≤ C := round_le (mul_le_of_le_one_right (by linarith) hx)
    rcases hcase with rfl | hclose
    · exact max_eq_left (by exact_mod_cast hround)
    · have hround' : C ≤ round (C * x) := le_round_iff.mpr (by linarith)
      rw [le_antisymm hround hround']
      exact max_eq_right hC'

/-- In HALF_OPEN the rate is as low as in OPEN. -/
theorem rate_halfOpen_iff :
    max (1 / 2) (perSecond * (1 / 5)) = max (1 / 2) (perSecond * (13 / 25)) ↔
      perSecond ≤ 25 / 26 := by
  constructor
  · intro h
    by_contra! hgt
    rw [max_eq_right (by linarith : 1 / 2 ≤ perSecond * (13 / 25))] at h
    have hlt : max (1 / 2) (perSecond * (1 / 5)) < perSecond * (13 / 25) :=
      max_lt (by linarith) (by linarith)
    exact absurd h hlt.ne
  · intro hle
    rw [max_eq_left (by linarith), max_eq_left (by linarith)]

/-- In HALF_OPEN the capacity is as low as in OPEN. -/
theorem capacity_halfOpen_iff :
    max (1 : ℚ) (round (capacity * (1 / 5))) = max (1 : ℚ) (round (capacity * (13 / 25))) ↔
      capacity < 75 / 26 := by
  constructor
  · intro h
    by_contra! hge
    have htwo : 2 ≤ round (capacity * (13 / 25)) := by
      rw [le_round_iff]
      push_cast
      linarith
    have hless : round (capacity * (1 / 5)) < round (capacity * (13 / 25)) := by
      rcases lt_or_ge capacity (25 / 8) with hlt | hge'
      · have : round (capacity * (1 / 5)) < 2 := by
          rw [round_lt_iff]
          push_cast
          linarith
        omega
      · refine Int.lt_iff_add_one_le.mpr (le_round_iff.mpr ?_)
        have hfloor : (round (capacity * (1 / 5)) : ℚ) ≤ capacity * (1 / 5) + 1 / 2 :=
          Int.floor_le _
        push_cast
        linarith
    have hlt : max (1 : ℚ) (round (capacity * (1 / 5))) <
        max (1 : ℚ) (round (capacity * (13 / 25))) := by
      refine lt_max_of_lt_right (max_lt ?_ ?_)
      · exact_mod_cast htwo
      · exact_mod_cast hless
    exact absurd h hlt.ne
  · intro hlt
    have hhalf : round (capacity * (13 / 25)) < 2 := by
      rw [round_lt_iff]
      push_cast
      linarith
    have hfifth : round (capacity * (1 / 5)) < 2 := by
      rw [round_lt_iff]
      push_cast
      linarith
    rw [max_eq_left (by exact_mod_cast Int.lt_add_one_iff.mp hfifth),
      max_eq_left (by exact_mod_cast Int.lt_add_one_iff.mp hhalf)]

end TokenBucket

namespace CircuitBreaker

/-- What `adapt(severity())` would set for this breaker, and a bucket of these base values, is
what the callback has set: the breaker is OPEN; or it is HALF_OPEN and both values are at their
minimum anyway; or it is CLOSED, the base values are ones that `adapt` can set, and no failure
is in the window, or those that are do not show. -/
def InStep (capacity perSecond : ℚ) (b : CircuitBreaker) : Prop :=
  match b.state with
  | .open => True
  | .halfOpen => capacity < 75 / 26 ∧ perSecond ≤ 25 / 26
  | .closed =>
      (∃ C : Int, 1 ≤ C ∧ capacity = C) ∧
      (1 / 2 < perSecond ∧ false ∉ b.outcomes ∨
        perSecond = 1 / 2 ∧ (capacity = 1 ∨ 8 * capacity * min 1 (b.failureRate * (3 / 2)) ≤ 5))

end CircuitBreaker

namespace Throttled

variable {s : Throttled} {start : Int} {capacity perSecond : ℚ}

/-- The values that `adapt` sets for a bucket that was made with these base values. -/
theorem inForce_adapt (hs : s.bucket.base = (TokenBucket.new start capacity perSecond).base)
    (severity : ℚ) :
    (s.bucket.adapt severity).inForce =
      (max (1 : ℚ) (TokenBucket.round (capacity * TokenBucket.factor (1 / 5) severity)),
        max (1 / 2) (perSecond * TokenBucket.factor (1 / 5) severity)) := by
  have hbase : s.bucket.base = (capacity, perSecond, 1 / 5) := hs
  obtain ⟨hcap, hrate⟩ := TokenBucket.adapt_of_base hbase severity
  rw [TokenBucket.inForce, hcap, hrate]

theorem Inv.inStep_closed (h : Inv (TokenBucket.new start capacity perSecond) s)
    (hb : s.breaker.state = .closed) :
    s.bucket.inForce = (s.bucket.adapt s.breaker.severity).inForce ↔
      s.breaker.InStep capacity perSecond := by
  have hsev := CircuitBreaker.severity_of_closed hb
  have hclean := CircuitBreaker.severity_eq_zero_iff hb
  obtain ⟨hsev₀, hsev₁⟩ := s.breaker.severity_mem
  have hforce : s.bucket.inForce = (capacity, perSecond) := h.released hb
  rw [hforce, inForce_adapt h.base, TokenBucket.factor_fifth hsev₀ hsev₁, Prod.mk.injEq,
    eq_comm, @eq_comm _ perSecond, TokenBucket.capacity_unchanged_iff (by linarith),
    TokenBucket.rate_unchanged_iff (by linarith), CircuitBreaker.InStep, hb]
  have hfactor : 1 - 4 / 5 * s.breaker.severity = 1 ↔ false ∉ s.breaker.outcomes := by
    rw [← hclean]
    constructor <;> intro h <;> linarith
  simp only [hfactor, ← hsev]
  constructor
  · rintro ⟨⟨C, hC, rfl, hclose⟩, ⟨hlt, hnone⟩ | heq⟩
    · exact ⟨⟨C, hC, rfl⟩, Or.inl ⟨hlt, hnone⟩⟩
    · refine ⟨⟨C, hC, rfl⟩, Or.inr ⟨heq, hclose.imp (by rintro rfl; rfl) fun hle => ?_⟩⟩
      linarith
  · rintro ⟨⟨C, hC, rfl⟩, ⟨hlt, hnone⟩ | ⟨heq, hcase⟩⟩
    · refine ⟨⟨C, hC, rfl, Or.inr ?_⟩, Or.inl ⟨hlt, hnone⟩⟩
      rw [hclean.mpr hnone]
      norm_num
    · refine ⟨⟨C, hC, rfl, hcase.imp (fun h => by exact_mod_cast h) fun hle => ?_⟩, Or.inr heq⟩
      linarith

theorem Inv.inStep_open (h : Inv (TokenBucket.new start capacity perSecond) s)
    (hb : s.breaker.state = .open) :
    s.bucket.inForce = (s.bucket.adapt s.breaker.severity).inForce ↔
      s.breaker.InStep capacity perSecond := by
  have hforce := h.shrunk (by simp [hb])
  have hsev : s.breaker.severity = 1 := by simp only [CircuitBreaker.severity, hb]
  rw [hforce, hsev, TokenBucket.inForce_adapt_congr h.base, CircuitBreaker.InStep, hb]
  simp

theorem Inv.inStep_halfOpen (h : Inv (TokenBucket.new start capacity perSecond) s)
    (hb : s.breaker.state = .halfOpen) :
    s.bucket.inForce = (s.bucket.adapt s.breaker.severity).inForce ↔
      s.breaker.InStep capacity perSecond := by
  have hforce := h.shrunk (by simp [hb])
  have hsev : s.breaker.severity = 3 / 5 := by simp only [CircuitBreaker.severity, hb]
  have hopen : TokenBucket.factor (1 / 5) 1 = 1 / 5 := by norm_num [TokenBucket.factor]
  have hhalf : TokenBucket.factor (1 / 5) (3 / 5) = 13 / 25 := by norm_num [TokenBucket.factor]
  rw [hforce, ← TokenBucket.inForce_adapt_congr h.base, inForce_adapt h.base,
    inForce_adapt h.base, hsev, hopen, hhalf, Prod.mk.injEq, TokenBucket.capacity_halfOpen_iff,
    TokenBucket.rate_halfOpen_iff, CircuitBreaker.InStep, hb]

theorem Inv.inStep_iff (h : Inv (TokenBucket.new start capacity perSecond) s) :
    s.bucket.inForce = (s.bucket.adapt s.breaker.severity).inForce ↔
      s.breaker.InStep capacity perSecond := by
  cases hb : s.breaker.state with
  | closed => exact h.inStep_closed hb
  | «open» => exact h.inStep_open hb
  | halfOpen => exact h.inStep_halfOpen hb

end Throttled

/-- **Throttling and severity.** In every run of `process` calls, whatever happens in it, of a
gateway registered with any options and base values: the gateway's bucket has the capacity and
the rate that `adapt(severity())` would set if and only if the breaker is in step with what the
callback has set. -/
theorem follows_severity_iff {ι : Type} [DecidableEq ι] {jobs : ι → Job} {w : World}
    {gatewayId : String} {opts : CircuitBreakerOptions} {start : Int} {capacity perSecond : ℚ}
    (hw : w.Holds gatewayId (.new opts (.new start capacity perSecond))) {s : State ι}
    (h : Run (fun _ _ => True) (processes jobs w) s) :
    ∃ b t, s.world.breaker gatewayId = some b ∧ s.world.rateLimiters gatewayId = some t ∧
      (t.inForce = (t.adapt b.severity).inForce ↔ b.InStep capacity perSecond) := by
  obtain ⟨cs, hbreaker, hbucket⟩ := holds_of_run hw h
  exact ⟨_, _, hbreaker, hbucket, (Throttled.inv_after rfl cs).inStep_iff⟩

/-- Five payments fail one after the other, and the breaker is OPEN: the bucket is at a fifth of
its base values, which is what the severity asks for. -/
theorem follows_severity_opened :
    ∃ s, Run (fun _ _ => True)
        (processes (fun c : Fin 5 => ⟨"job", numbered c, 0⟩) startedUp) s ∧
      (s.world.breaker "stripe").map (·.state) = some .open ∧
      (s.world.rateLimiters "stripe").map (·.inForce) = some (20, 10) ∧
      ∃ b t, s.world.breaker "stripe" = some b ∧ s.world.rateLimiters "stripe" = some t ∧
        t.inForce = (t.adapt b.severity).inForce := by
  have hrun : ∃ s, Run (fun _ _ => True)
      (processes (fun c : Fin 5 => ⟨"job", numbered c, 0⟩) startedUp) s ∧
      (s.world.breaker "stripe").map (·.state) = some .open ∧
      (s.world.rateLimiters "stripe").map (·.inForce) = some (20, 10) :=
    Run.exists_of_exec ((List.finRange 5).flatMap fun c => approach c ++ takeAndFail c)
      (by decide +kernel)
  obtain ⟨s, h, hopen, hbucket⟩ := hrun
  have hw : startedUp.Holds "stripe" (.new .defaults (.new 0 100 50)) := ⟨rfl, rfl⟩
  obtain ⟨b, t, hb, ht, hiff⟩ := follows_severity_iff hw h
  have hstate : b.state = .open := by simpa [hb] using hopen
  have hstep : b.InStep 100 50 := by simp [CircuitBreaker.InStep, hstate]
  exact ⟨s, h, hopen, hbucket, b, t, hb, ht, hiff.mpr hstep⟩

/-- A first charge fails: the breaker is still CLOSED and as severe as can be, and the bucket
has its base values, not those of `adapt(1)`. -/
theorem severity_unheeded :
    ∃ s, Run (fun _ _ => True) (processes (fun _ : Unit => cardJob 0) startedUp) s ∧
      (s.world.breaker "stripe").map (fun b => (b.state, b.severity)) = some (.closed, 1) ∧
      (s.world.rateLimiters "stripe").map (fun t => (t.inForce, (t.adapt 1).inForce)) =
        some ((100, 50), (20, 10)) :=
  Run.exists_of_exec (approach () ++ takeAndFail ()) (by decide +kernel)

end PaymentQueue
