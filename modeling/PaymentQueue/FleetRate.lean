import Mathlib.Algebra.BigOperators.Pi
import Mathlib.Algebra.BigOperators.Ring.Finset
import Mathlib.Algebra.Order.BigOperators.Group.Finset
import PaymentQueue.Fleet
import PaymentQueue.RateLimit

/-!
# PaymentQueue.FleetRate

How much do the rate limiters of a fleet let through to one gateway?

Every worker process has a token bucket of its own for the gateway, and a new one, which is
full, whenever it is started again. So a fleet of `n` processes lets through `n` times what
one bucket grants, and a bucket more for every restart (`fleet_rate`), and the bursts do add
up (`fleet_rate_burst`): adding workers does raise the load on the gateway.

Each bucket is followed by the potential of `PaymentQueue.RateLimit`, from the moment at which
one starts to count.
-/

namespace PaymentQueue

open Async

/-! ### What a world does to a bucket -/

/-- The rate limiter of the gateway lets a payment through. -/
def admits (gatewayId : String) : ProcEvent → Bool
  | ⟨.tryConsume g, granted⟩ => g == gatewayId && granted
  | _ => false

namespace World

variable {w w' : World} {g : String}

/-- A breaker that changes its state may call a method of the bucket. -/
theorem limiter_setBreaker (gatewayId : String) (gw : RegisteredGateway) (b : CircuitBreaker)
    (g : String) : (w.setBreaker gatewayId gw b).rateLimiters g = w.rateLimiters g ∨
      ∃ t call, w.rateLimiters g = some t ∧
        (w.setBreaker gatewayId gw b).rateLimiters g = some (TokenBucket.object.next t call) ∧
        (call = .adapt 1 ∨ call = .reset) := by
  unfold setBreaker
  extract_lets w₁
  split
  · exact Or.inl rfl
  · by_cases hg : g = gatewayId
    · subst hg
      cases ht : w.rateLimiters g with
      | none =>
          left
          unfold onStateChange
          split <;> simp [w₁, ht]
      | some t =>
          unfold onStateChange
          split
          · exact Or.inr ⟨t, .adapt 1, rfl, by simp [w₁, ht]; rfl, Or.inl rfl⟩
          · exact Or.inr ⟨t, .reset, rfl, by simp [w₁, ht]; rfl, Or.inr rfl⟩
          · exact Or.inl ht
    · left
      unfold onStateChange
      split <;> simp [w₁, hg]

/-- An operation leaves the bucket of a gateway alone, or is a call of one of its methods at
the time of the clock, which grants a token exactly if a payment is let through. -/
theorem limiter_perform {o : Op} {a : Answer} {r : o.Ret} (h : w.perform o a = some (r, w'))
    (g : String) :
    (w'.rateLimiters g = w.rateLimiters g ∧ admits g ⟨o, r⟩ = false) ∨
    ∃ t call, w.rateLimiters g = some t ∧
      w'.rateLimiters g = some (TokenBucket.object.next t call) ∧ call.Positive ∧
      (∀ now, call.reading = some now → now = w.now) ∧
      t.granted call = if admits g ⟨o, r⟩ then 1 else 0 := by
  cases o with
  | canAttempt g' | recordSuccess g' | recordFailure g' =>
      cases a <;> simp only [perform, reduceCtorEq, Option.map_eq_some_iff, Prod.mk.injEq] at h
      obtain ⟨gw, -, -, rfl⟩ := h
      rcases w.limiter_setBreaker g' gw _ g with hsame | ⟨t, call, ht, ht', rfl | rfl⟩
      · exact Or.inl ⟨hsame, rfl⟩
      · exact Or.inr ⟨t, _, ht, ht', trivial, by simp [TokenBucket.Call.reading], rfl⟩
      · exact Or.inr ⟨t, _, ht, ht', trivial, by simp [TokenBucket.Call.reading], rfl⟩
  | tryConsume g' =>
      cases a <;> simp only [perform, reduceCtorEq, Option.map_eq_some_iff, Prod.mk.injEq] at h
      obtain ⟨t, ht, rfl, rfl⟩ := h
      by_cases hg : g' = g
      · subst hg
        refine Or.inr ⟨t, .tryConsume w.now 1, ht, by simp [setBucket, TokenBucket.object,
          Object.next], zero_lt_one, by simp [TokenBucket.Call.reading, eq_comm], ?_⟩
        simp [TokenBucket.granted, admits]
      · exact Or.inl ⟨by simp [setBucket, Ne.symm hg], by simp [admits, hg]⟩
  | msUntilAvailable g' =>
      cases a <;> simp only [perform, reduceCtorEq, Option.map_eq_some_iff, Prod.mk.injEq] at h
      obtain ⟨t, ht, -, rfl⟩ := h
      by_cases hg : g' = g
      · subst hg
        exact Or.inr ⟨t, .msUntilAvailable w.now 1, ht, by simp [setBucket, TokenBucket.object,
          Object.next], trivial, by simp [TokenBucket.Call.reading, eq_comm], rfl⟩
      · exact Or.inl ⟨by simp [setBucket, Ne.symm hg], rfl⟩
  | semaphoreAcquire g' | semaphoreRelease g' =>
      cases a <;> simp only [perform, reduceCtorEq, Option.map_eq_some_iff, Prod.mk.injEq] at h
      obtain ⟨gw, -, -, rfl⟩ := h
      exact Or.inl ⟨rfl, rfl⟩
  | semaphoreGranted g' ticket =>
      cases a <;> simp only [perform, reduceCtorEq, Option.bind_eq_some_iff] at h
      obtain ⟨gw, -, h⟩ := h
      split at h
      · exact absurd h (by simp)
      · obtain ⟨-, rfl⟩ : () = r ∧ w = w' := by simpa using h
        exact Or.inl ⟨rfl, rfl⟩
  | _ =>
      cases a <;> simp only [perform, reduceCtorEq, Option.some.injEq, Prod.mk.injEq] at h
      all_goals
        obtain ⟨-, rfl⟩ := h
        exact Or.inl ⟨rfl, rfl⟩

end World

/-! ### One bucket -/

namespace TokenBucket

/-- What has been granted since `t₀` by a bucket and, before it was made anew `m` times, by
the buckets in its place: `n` tokens in all, which fit in `m + 1` full buckets and what rate `R`
has refilled. -/
structure Spent (C : Int) (R : ℚ) (t₀ now : Int) (n m : Nat) (t : TokenBucket) : Prop where
  bounded : t.Bounded C R
  past : t.lastRefillMs ≤ now
  spent : n = 0 ∨ (n : ℚ) + t.potential R ≤ (m + 1) * C - R * t₀ / 1000

variable {C : Int} {R : ℚ} {t₀ now : Int} {n m k : Nat} {t : TokenBucket}

theorem Spent.tick {now' : Int} (h : Spent C R t₀ now n m t) (hnow : now ≤ now') :
    Spent C R t₀ now' n m t :=
  ⟨h.bounded, h.past.trans hnow, h.spent⟩

/-- The clock reading of a call is the time of the last refill, unless that is later. -/
theorem lastRefillMs_next (t : TokenBucket) {c : Call}
    (hnow : ∀ now', c.reading = some now' → now' = now) (hpast : t.lastRefillMs ≤ now) :
    (object.next t c).lastRefillMs ≤ now ∧
      (t.granted c ≠ 0 → (object.next t c).lastRefillMs = now) := by
  have hlast := t.after_lastRefillMs [c]
  simp only [Object.after_cons, Object.after_nil, latestReading] at hlast
  rw [hlast]
  cases c with
  | tryConsume now' cost =>
      obtain rfl := hnow now' rfl
      simp [Call.reading, hpast]
  | msUntilAvailable now' cost | snapshot now' =>
      obtain rfl := hnow now' rfl
      simp [Call.reading, hpast, granted]
  | adapt | reset => exact ⟨hpast, fun hgranted => absurd rfl hgranted⟩

/-- A call of a method. -/
theorem Spent.next (hC : 1 ≤ C) (hR : 1 / 2 ≤ R) (h : Spent C R t₀ now n m t) (ht₀ : t₀ ≤ now)
    {c : Call} (hc : c.Positive) (hnow : ∀ now', c.reading = some now' → now' = now)
    (hk : t.granted c = k) : Spent C R t₀ now (n + k) m (object.next t c) := by
  have hbounded := Bounded.next hC hR t c hc h.bounded
  obtain ⟨hpast, hread⟩ := t.lastRefillMs_next hnow h.past
  refine ⟨hbounded, hpast, ?_⟩
  have hgain := h.bounded.granted_add_potential c
  rw [hk] at hgain
  rcases h.spent with rfl | hspent
  · by_cases hzero : k = 0
    · exact Or.inl (by simp [hzero])
    · -- the first token since `t₀`
      right
      have hfits := h.bounded.granted_add_tokens hbounded
      have hlast := hread (by rw [hk]; exact_mod_cast hzero)
      have hrate : R * t₀ / 1000 ≤ R * now / 1000 := by
        have hlater : (t₀ : ℚ) ≤ now := by exact_mod_cast ht₀
        have hR₀ : 0 ≤ R := by linarith
        gcongr
      have hfull : (0 : ℚ) ≤ m * C := by
        have hC₀ : (0 : ℚ) ≤ C := by exact_mod_cast (by omega : 0 ≤ C)
        positivity
      rw [hk] at hfits
      simp only [potential, hlast]
      push_cast
      linarith
  · right
    push_cast
    linarith

/-- The potential falls no lower than the time allows. -/
theorem Bounded.le_potential (h : Bounded C R t) (hR : 1 / 2 ≤ R) (hpast : t.lastRefillMs ≤ now) :
    0 ≤ t.potential R + R * now / 1000 := by
  have hlast : (t.lastRefillMs : ℚ) ≤ now := by exact_mod_cast hpast
  have hrate : R * t.lastRefillMs / 1000 ≤ R * now / 1000 := by
    have hR₀ : 0 ≤ R := by linarith
    gcongr
  simp only [potential]
  linarith [h.tokens_nonneg]

/-- What has been granted. -/
theorem Spent.le (hC : 1 ≤ C) (hR : 1 / 2 ≤ R) (h : Spent C R t₀ now n m t) (ht₀ : t₀ ≤ now) :
    (n : ℚ) ≤ (m + 1) * C + R * ((now - t₀ : Int) : ℚ) / 1000 := by
  have hC₀ : (0 : ℚ) ≤ C := by exact_mod_cast (by omega : 0 ≤ C)
  rcases h.spent with rfl | hspent
  · have hlater : (0 : ℚ) ≤ ((now - t₀ : Int) : ℚ) := by exact_mod_cast (by omega : 0 ≤ now - t₀)
    have hR₀ : 0 ≤ R := by linarith
    push_cast [Nat.cast_zero] at hlater ⊢
    positivity
  · have hpotential := h.bounded.le_potential hR h.past
    push_cast
    linarith

theorem bounded_new (hC : 1 ≤ C) (hR : 1 / 2 ≤ R) : Bounded C R (new now C R) := by
  have hC' : (1 : ℚ) ≤ C := by exact_mod_cast hC
  refine ⟨⟨rfl, rfl⟩, ?_, ?_, le_refl _, le_refl _, ?_, le_refl _⟩
  · norm_num [new]
  · simp only [new]
    linarith
  · simp only [new]
    linarith

/-- The bucket is made anew. -/
theorem Spent.restart (hC : 1 ≤ C) (hR : 1 / 2 ≤ R) (h : Spent C R t₀ now n m t) :
    Spent C R t₀ now n (m + 1) (new now C R) := by
  refine ⟨bounded_new hC hR, le_refl _, h.spent.imp id fun hspent => ?_⟩
  have hpotential := h.bounded.le_potential hR h.past
  show (n : ℚ) + (C - R * now / 1000) ≤ _
  push_cast
  linarith

end TokenBucket

/-! ### The buckets of a fleet -/

section

variable {κ ι : Type} [DecidableEq κ] [DecidableEq ι] {configs : List GatewayConfig}
variable {jobs : ι → Job} {G G' : Guard ((worker configs).fleet κ) ι Thrown Unit}
variable {s₀ s s' : FleetState configs κ ι} {σ σ' : ι → Stage}
variable {cfg : GatewayConfig} {C : Int} {R : ℚ} {now₀ t₀ : Int}

/-- How many payments have been let through to the gateway. -/
def admitted (gatewayId : String) (log : List (Entry ((worker configs).fleet κ) ι)) : Nat :=
  log.countP fun
    | .reply _ ev => admits gatewayId ev
    | _ => false

/-- How often a process has been started again. -/
def restarts (log : List (Entry ((worker configs).fleet κ) ι)) : Nat :=
  log.countP fun
    | .move (.restart _) => true
    | _ => false

omit [DecidableEq ι] in
theorem admitted_cons (g : String) (e : Entry ((worker configs).fleet κ) ι)
    (log : List (Entry ((worker configs).fleet κ) ι)) :
    admitted g (e :: log) = admitted g [e] + admitted g log := by
  show admitted g ([e] ++ log) = _
  exact List.countP_append

omit [DecidableEq ι] in
theorem restarts_cons (e : Entry ((worker configs).fleet κ) ι)
    (log : List (Entry ((worker configs).fleet κ) ι)) :
    restarts (e :: log) = restarts [e] + restarts log := by
  show restarts ([e] ++ log) = _
  exact List.countP_append

/-- A process has a full bucket when it starts. -/
theorem limiter_startedMemory (hid : (configs.map (·.id)).count cfg.id = 1) (hcfg : cfg ∈ configs)
    (hrate : cfg.rateLimit = (↑C, R)) (now : Int) :
    (startedMemory configs now).rateLimiters cfg.id = some (.new now C R) := by
  have hfind : configs.find? (·.id = cfg.id) = some cfg := by
    rw [← List.head?_filter, filter_id hid hcfg]
    rfl
  have hlimiter := (wired_of_ok (onModuleInit_ok now configs)).limiters cfg.id
  rw [hfind] at hlimiter
  exact hlimiter.trans (by simp [GatewayConfig.bucket, hrate])

variable [Fintype κ]

omit [DecidableEq ι] in
/-- What has been let through since `s₀`: by each process `n i`, while it was started again
`m i` times. -/
structure RateInv (g : String) (C : Int) (R : ℚ) (t₀ : Int) (s₀ s : FleetState configs κ ι)
    (n m : κ → Nat) : Prop where
  later : t₀ ≤ s.world.store.now
  bucket : ∀ i, ∃ t, (s.world.memory i).rateLimiters g = some t ∧
    TokenBucket.Spent C R t₀ s.world.store.now (n i) (m i) t
  count : admitted g s.log ≤ admitted g s₀.log + ∑ i, n i
  anew : restarts s.log = restarts s₀.log + ∑ i, m i

omit [DecidableEq ι] in
/-- An operation that a process performs, whether the call lives to see the answer or not. -/
theorem RateInv.perform {g : String} {n m : κ → Nat} (hC : 1 ≤ C) (hR : 1 / 2 ≤ R)
    (h : RateInv g C R t₀ s₀ s n m) {o : Op} {i : κ} {a : Answer} {r : o.Ret}
    {f' : FleetWorld (worker configs) κ}
    (hw : ((worker configs).fleet κ).perform s.world o (i, a) = some (r, f'))
    {e : Entry ((worker configs).fleet κ) ι} {threads : ι → Thread effects Thrown Unit}
    (he : admitted g [e] ≤ if admits g ⟨o, r⟩ then 1 else 0) (hrestart : restarts [e] = 0) :
    ∃ n, RateInv g C R t₀ s₀ ⟨threads, f', e :: s.log⟩ n m := by
  obtain ⟨hview, hmemory⟩ := Division.perform_iff.mp hw
  have hnow : f'.store.now = s.world.store.now := (World.perform_frame hview).now
  have hother : ∀ j, j ≠ i → f'.memory j = s.world.memory j := by
    intro j hj
    rw [hmemory, Function.update_of_ne hj]
  have hanew : restarts (e :: s.log) = restarts s₀.log + ∑ i, m i := by
    rw [restarts_cons, hrestart, zero_add, h.anew]
  have hcount : admitted g (e :: s.log) ≤
      admitted g s₀.log + ∑ i, n i + if admits g ⟨o, r⟩ then 1 else 0 := by
    have hle := h.count
    rw [admitted_cons]
    omega
  obtain ⟨t, ht, hspent⟩ := h.bucket i
  rcases World.limiter_perform hview g with ⟨hsame, hnone⟩ | ⟨t', call, ht', hnext, hc, hread, hk⟩
  · refine ⟨n, hnow ▸ h.later, fun j => ?_, by simpa [hnone] using hcount, hanew⟩
    rw [hnow]
    by_cases hj : j = i
    · subst hj
      exact ⟨t, hsame.trans ht, hspent⟩
    · rw [hother j hj]
      exact h.bucket j
  · obtain rfl : t = t' := Option.some.inj (ht.symm.trans ht')
    -- the tokens that process `i` has just granted
    let k : Nat := if admits g ⟨o, r⟩ then 1 else 0
    have hgranted : t.granted call = k := by
      rw [hk]
      split <;> simp [k, *]
    refine ⟨n + Pi.single i k, hnow ▸ h.later, fun j => ?_, ?_, hanew⟩
    · rw [hnow]
      by_cases hj : j = i
      · subst hj
        refine ⟨_, hnext, ?_⟩
        simpa using hspent.next hC hR h.later hc hread hgranted
      · rw [hother j hj]
        simpa [hj] using h.bucket j
    · have hsum : ∑ j, (n + Pi.single i k : κ → Nat) j = ∑ j, n j + k := by
        simp [Finset.sum_add_distrib]
      show admitted g (e :: s.log) ≤ _
      rw [hsum]
      omega

/-- A step of the fleet. -/
theorem RateInv.step {n m : κ → Nat}
    (hid : (configs.map (·.id)).count cfg.id = 1) (hcfg : cfg ∈ configs)
    (hrate : cfg.rateLimit = (↑C, R)) (hC : 1 ≤ C) (hR : 1 / 2 ≤ R)
    (h : RateInv cfg.id C R t₀ s₀ s n m) {a : Action ((worker configs).fleet κ) ι}
    (hT : TStep (fun c => Stage.Edge (jobs c)) s σ a s' σ') :
    ∃ n m, RateInv cfg.id C R t₀ s₀ s' n m := by
  cases hT with
  | begin hc | crash hc =>
      exact ⟨n, m, h.later, h.bucket, by simpa [admitted] using h.count,
        by simpa [restarts] using h.anew⟩
  | @answer c a o k r f' g hc hw hE =>
      obtain ⟨n', h'⟩ := h.perform hC hR hw (e := .reply c ⟨o, r⟩) (by simp [admitted])
        (by simp [restarts])
      exact ⟨n', m, h'⟩
  | @lost c a o k r f' g hc hw hE =>
      obtain ⟨n', h'⟩ := h.perform hC hR hw (e := .crash c (some o)) (by simp [admitted])
        (by simp [restarts])
      exact ⟨n', m, h'⟩
  | @move move f' hm =>
      cases move with
      | store move =>
          obtain ⟨x, hx, rfl⟩ := Option.map_eq_some_iff.mp hm
          have hnow := Stores.now_le_move hx
          refine ⟨n, m, h.later.trans hnow, fun i => ?_, by simpa [admitted] using h.count,
            by simpa [restarts] using h.anew⟩
          obtain ⟨t, ht, hspent⟩ := h.bucket i
          exact ⟨t, ht, hspent.tick hnow⟩
      | restart i =>
          obtain rfl := Option.some.inj hm
          refine ⟨n, m + Pi.single i 1, h.later, fun j => ?_, by simpa [admitted] using h.count, ?_⟩
          · by_cases hj : j = i
            · subst hj
              obtain ⟨t, -, hspent⟩ := h.bucket j
              refine ⟨_, by simpa using limiter_startedMemory hid hcfg hrate _, ?_⟩
              simpa using hspent.restart hC hR
            · simpa [hj] using h.bucket j
          · have hsum : ∑ j, (m + Pi.single i 1 : κ → Nat) j = ∑ j, m j + 1 := by
              simp [Finset.sum_add_distrib]
            have hone : restarts ([.move (.restart i)] :
                List (Entry ((worker configs).fleet κ) ι)) = 1 := by simp [restarts]
            rw [hsum, restarts_cons, hone, h.anew]
            omega

omit [DecidableEq ι] in
theorem rateInv_start (s : FleetState configs κ ι) {g : String} (hlater : t₀ ≤ s.world.store.now)
    (hbucket : ∀ i, ∃ t, (s.world.memory i).rateLimiters g = some t ∧
      TokenBucket.Spent C R t₀ s.world.store.now 0 0 t) :
    RateInv g C R t₀ s s (fun _ => 0) fun _ => 0 :=
  ⟨hlater, hbucket, by simp, by simp⟩

/-- **The rate of a fleet.** Take any run of `n` worker processes over one Redis, in which any of
them may die and be started again, and a gateway that stands in the table once, with a rate limit
of `C` and `R` per second, where `C` is an integer of at least 1 and `R` is at least 1/2. Between
any two moments of the run the rate limiters let through no more than a full bucket for every
process and every restart in between, and what `n` times `R` refills. -/
theorem fleet_rate (hid : (configs.map (·.id)).count cfg.id = 1) (hcfg : cfg ∈ configs)
    (hrate : cfg.rateLimit = (↑C, R)) (hC : 1 ≤ C) (hR : 1 / 2 ≤ R)
    (h₀ : Run G (fleetProcesses jobs (firstFleet configs κ now₀)) s₀) (h : Run G' s₀ s) :
    (admitted cfg.id s.log : ℚ) ≤ admitted cfg.id s₀.log +
      (Fintype.card κ + (restarts s.log - restarts s₀.log)) * C +
      Fintype.card κ * (R * ((s.world.store.now - s₀.world.store.now : Int) : ℚ) / 1000) := by
  obtain ⟨σ₀, hat₀, n₀, m₀, h₀⟩ := Run.staged (I := fun s _ => ∃ n m, RateInv cfg.id C R now₀
      (fleetProcesses jobs (firstFleet configs κ now₀)) s n m)
    (fun c => process_follows (jobs c))
    ⟨_, _, rateInv_start _ le_rfl fun i => ⟨_, limiter_startedMemory hid hcfg hrate now₀,
      TokenBucket.bounded_new hC hR, le_rfl, Or.inl rfl⟩⟩
    (fun _ _ ⟨_, _, hI⟩ _ hT _ => hI.step hid hcfg hrate hC hR hT) h₀
  have hstart : RateInv cfg.id C R s₀.world.store.now s₀ s₀ (fun _ => 0) fun _ => 0 := by
    refine rateInv_start s₀ le_rfl fun i => ?_
    obtain ⟨t, ht, hspent⟩ := h₀.bucket i
    exact ⟨t, ht, hspent.bounded, hspent.past, Or.inl rfl⟩
  obtain ⟨-, -, n, m, hI⟩ := Run.staged_from (I := fun s _ => ∃ n m, RateInv cfg.id C R
      s₀.world.store.now s₀ s n m) hat₀ ⟨_, _, hstart⟩
    (fun _ _ ⟨_, _, hI⟩ _ hT _ => hI.step hid hcfg hrate hC hR hT) h
  have hcount : (admitted cfg.id s.log : ℚ) ≤ admitted cfg.id s₀.log + ∑ i, (n i : ℚ) := by
    exact_mod_cast hI.count
  have hrestarts : (restarts s.log : ℚ) = restarts s₀.log + ∑ i, (m i : ℚ) := by
    exact_mod_cast hI.anew
  have hsum : ∑ i, (n i : ℚ) ≤ ∑ i, (((m i : ℚ) + 1) * C +
      R * ((s.world.store.now - s₀.world.store.now : Int) : ℚ) / 1000) := by
    refine Finset.sum_le_sum fun i _ => ?_
    obtain ⟨t, -, hspent⟩ := hI.bucket i
    exact hspent.le hC hR hI.later
  rw [Finset.sum_add_distrib, ← Finset.sum_mul, Finset.sum_add_distrib, Finset.sum_const,
    Finset.sum_const, Finset.card_univ, nsmul_eq_mul, nsmul_eq_mul, mul_one] at hsum
  rw [hrestarts]
  linarith

end

/-- A table in which `stripe` grants two payments at once and one a second. -/
def slowTable : List GatewayConfig := [⟨"stripe", 1, (2, 1)⟩]

/-- Call `c` begins and asks for a token. -/
def consume {ι : Type} (c : ι) : List (Action system ι) :=
  .begin c :: List.replicate 4 (.answer c .resolve)

/-- The process that hosts a call. -/
def hostOf (c : Fin 4) : Bool := c.val < 2

/-- Two worker processes, each of which is to process two payments. -/
abbrev twoForFour : FleetState slowTable Bool (Fin 4) :=
  fleetProcesses (fun c => inPriority c .high) (firstFleet slowTable Bool 0)

/-- Two processes let four payments through at once, where one bucket would hold two back. -/
theorem fleet_rate_burst :
    ∃ s, Run (fleetRuns hostOf) twoForFour s ∧ admitted "stripe" s.log = 4 ∧
      (admitted "stripe" s.log : ℚ) ≤ admitted "stripe" twoForFour.log +
        (Fintype.card Bool + (restarts s.log - restarts twoForFour.log)) * (2 : Int) +
        Fintype.card Bool *
          (1 * ((s.world.store.now - twoForFour.world.store.now : Int) : ℚ) / 1000) := by
  have hrun : ∃ s, Run (fleetRuns hostOf) twoForFour s ∧ admitted "stripe" s.log = 4 :=
    Run.exists_of_exec ((consume (0 : Fin 4) ++ consume 1).map (Action.on true) ++
      (consume (2 : Fin 4) ++ consume 3).map (Action.on false)) (by decide +kernel)
  obtain ⟨s, h, hadmitted⟩ := hrun
  have hstart : Run (fleetRuns hostOf) twoForFour twoForFour := .start
  have hrate := fleet_rate (C := 2) (R := 1) (by decide) (List.mem_singleton.mpr rfl)
    (by norm_num) (by decide) (by norm_num) hstart h
  exact ⟨s, h, hadmitted, hrate⟩

end PaymentQueue
