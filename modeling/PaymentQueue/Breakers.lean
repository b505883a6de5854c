import PaymentQueue.World

/-!
# PaymentQueue.Breakers

The circuit breaker of a gateway in the shared world.

Only the three calls a `process` call makes on the breaker of its own gateway change it;
`World.breaker_perform` says once what any operation does to the breaker of a gateway.
-/

namespace PaymentQueue

open Async

namespace World

/-- The breaker of a registered gateway. -/
def breaker (w : World) (gatewayId : String) : Option CircuitBreaker :=
  (w.gateways gatewayId).map (·.breaker)

end World

/-- The breaker of a gateway after an operation at time `now`. -/
def CircuitBreaker.after (b : CircuitBreaker) (gatewayId : String) (now : Int) :
    Op → CircuitBreaker
  | .canAttempt g => if g = gatewayId then (b.canAttempt now).2 else b
  | .recordSuccess g => if g = gatewayId then b.recordSuccess else b
  | .recordFailure g => if g = gatewayId then b.recordFailure now else b
  | _ => b

/-- The operation is a call on the breaker of the gateway. -/
def Op.onBreaker (gatewayId : String) : Op → Bool
  | .canAttempt g | .recordSuccess g | .recordFailure g => g == gatewayId
  | _ => false

namespace CircuitBreaker

variable {b : CircuitBreaker} {gatewayId : String} {now : Int} {o : Op}

@[simp] theorem after_opts : (b.after gatewayId now o).opts = b.opts := by
  unfold after
  split
  case h_4 => rfl
  all_goals split <;> simp

theorem after_of_not_onBreaker (h : o.onBreaker gatewayId = false) :
    b.after gatewayId now o = b := by
  unfold after
  split <;> simp_all [Op.onBreaker]

end CircuitBreaker

namespace World

variable {w w' : World} {g gatewayId : String}

@[simp] theorem breaker_setBreaker {gw : RegisteredGateway} {b : CircuitBreaker} :
    (w.setBreaker g gw b).breaker gatewayId =
      if g = gatewayId then some b else w.breaker gatewayId := by
  have hgateways : (w.setBreaker g gw b).gateways =
      Function.update w.gateways g (some { gw with breaker := b }) := by
    unfold setBreaker onStateChange
    split
    · rfl
    · split <;> rfl
  by_cases hg : g = gatewayId
  · subst hg
    simp [breaker, hgateways]
  · have hg' : gatewayId ≠ g := fun h => hg h.symm
    simp [breaker, hgateways, hg, hg']

@[simp] theorem breaker_setBucket {t : TokenBucket} :
    (w.setBucket g t).breaker gatewayId = w.breaker gatewayId := rfl

theorem breaker_setSemaphore {gw : RegisteredGateway} {s : GatewaySemaphore}
    (hgw : w.gateways g = some gw) :
    (w.setSemaphore g gw s).breaker gatewayId = w.breaker gatewayId := by
  by_cases hg : gatewayId = g
  · subst hg
    simp [breaker, setSemaphore, hgw]
  · simp [breaker, setSemaphore, hg]

/-- The breaker of a gateway changes by the calls made on it, and the time by none. -/
theorem breaker_perform {o : Op} {a : Answer} {r : o.Ret}
    (h : w.perform o a = some (r, w')) (gatewayId : String) :
    w'.now = w.now ∧
      w'.breaker gatewayId = (w.breaker gatewayId).map (·.after gatewayId w.now o) := by
  have hframe := perform_frame h
  refine ⟨hframe.now, ?_⟩
  cases o with
  | canAttempt g | recordSuccess g | recordFailure g =>
      cases a <;> simp only [perform, reduceCtorEq, Option.map_eq_some_iff,
        Prod.mk.injEq] at h
      obtain ⟨gw, hgw, -, rfl⟩ := h
      by_cases hg : g = gatewayId
      · subst hg
        have hb : w.breaker g = some gw.breaker := by simp [breaker, hgw]
        simp [CircuitBreaker.after, hb]
      · simp [CircuitBreaker.after, hg]
  | semaphoreAcquire g | semaphoreRelease g =>
      cases a <;> simp only [perform, reduceCtorEq, Option.map_eq_some_iff,
        Prod.mk.injEq] at h
      obtain ⟨gw, hgw, -, rfl⟩ := h
      rw [breaker_setSemaphore hgw]
      simp [CircuitBreaker.after]
  | _ =>
      have hsame : w'.breaker gatewayId = w.breaker gatewayId := by
        rw [breaker, hframe.gateways rfl, breaker]
      simp [hsame, CircuitBreaker.after]

/-- No breaker changes, and the time never goes back, when the world moves on its own. -/
theorem breaker_move {m : Move} (h : w.move m = some w') (gatewayId : String) :
    w.now ≤ w'.now ∧ w'.breaker gatewayId = w.breaker gatewayId := by
  obtain ⟨now, redis, hnow, rfl⟩ := move_frame h
  exact ⟨hnow, rfl⟩

/-- The breaker's gate answers from the breaker. -/
theorem canAttempt_perform {a : Answer} {r : Bool} {b : CircuitBreaker}
    (h : w.perform (.canAttempt gatewayId) a = some (r, w'))
    (hb : w.breaker gatewayId = some b) : (b.canAttempt w.now).1 = r := by
  cases a <;> simp only [perform, reduceCtorEq, Option.map_eq_some_iff, Prod.mk.injEq] at h
  obtain ⟨gw, hgw, rfl, -⟩ := h
  obtain rfl : gw.breaker = b := by simpa [breaker, hgw] using hb
  rfl

/-- The breaker of the gateway has the options `opts`, and `owed` reports to it are still
to come. -/
def Balanced (w : World) (gatewayId : String) (opts : CircuitBreakerOptions) (owed : Nat) :
    Prop :=
  ∀ b, w.breaker gatewayId = some b → b.opts = opts ∧ b.Accounted w.now owed

variable {opts : CircuitBreakerOptions} {owed owed' : Nat} {o : Op} {a : Answer} {r : o.Ret}

theorem Balanced.perform (h : w.Balanced gatewayId opts owed)
    (hw : w.perform o a = some (r, w'))
    (hstep : ∀ b, w.breaker gatewayId = some b → b.opts = opts → b.Accounted w.now owed →
      (b.after gatewayId w.now o).Accounted w.now owed') :
    w'.Balanced gatewayId opts owed' := by
  obtain ⟨hnow, hbreaker⟩ := breaker_perform hw gatewayId
  intro b hb
  rw [hbreaker] at hb
  obtain ⟨b₀, hb₀, rfl⟩ := Option.map_eq_some_iff.mp hb
  obtain ⟨hopts, hacc⟩ := h b₀ hb₀
  rw [hnow]
  exact ⟨by simpa using hopts, hstep b₀ hb₀ hopts hacc⟩

/-- An operation that is no call on the breaker leaves it alone. -/
theorem Balanced.of_not_onBreaker (h : w.Balanced gatewayId opts owed)
    (hw : w.perform o a = some (r, w')) (ho : o.onBreaker gatewayId = false) :
    w'.Balanced gatewayId opts owed :=
  h.perform hw fun _ _ _ hacc => by rwa [CircuitBreaker.after_of_not_onBreaker ho]

/-- What a breaker that is not half open is owed does not matter. -/
theorem Balanced.of_not_halfOpen (h : w.Balanced gatewayId opts owed)
    (hb : (w.breaker gatewayId).any (fun b => b.state = .halfOpen) = false) (owed' : Nat) :
    w.Balanced gatewayId opts owed' := by
  intro b hb'
  obtain ⟨hopts, hacc⟩ := h b hb'
  exact ⟨hopts, hacc.of_not_halfOpen (by simpa [hb'] using hb) owed'⟩

/-- Time passes. -/
theorem Balanced.mono (h : w.Balanced gatewayId opts owed)
    (hb : w'.breaker gatewayId = w.breaker gatewayId) (hnow : w.now ≤ w'.now) :
    w'.Balanced gatewayId opts owed := by
  intro b hb'
  obtain ⟨hopts, hacc⟩ := h b (hb ▸ hb')
  exact ⟨hopts, hacc.mono hnow le_rfl⟩

end World

end PaymentQueue
