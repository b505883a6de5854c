import PaymentQueue.Async.Driver
import PaymentQueue.Breakers
import PaymentQueue.CachedSuccess

/-!
# PaymentQueue.Eviction

Is Redis only a cache of what the repository knows?

An attempt finds out whether its payment is completed in two tiers: the cached result,
under the payment's `idempotencyKey`, and on a miss the record, under the payment's `id`.
As long as Redis keeps the result, no attempt under the key charges again. Once it is
evicted, the record answers for its own id only, and a payment that was submitted again
under another id and the same key is charged a second time (`eviction_charges_twice`).

Two runs are compared: the same attempts one after the other, in the same surroundings,
with and without evictions between them. Up to the first cached result they cannot be told
apart (`World.Alike`); from there on only the run with evictions can charge, and
`eviction_transparent` says exactly when it does not.
-/

namespace PaymentQueue

open Async IdempotencyService

/-! ### Attempts one after the other -/

/-- What lies outside the service during one attempt: how an operation is answered, and
how long (ms) it takes to be. -/
structure Surroundings where
  answer : Op → Answer
  delay : Op → Nat

/-- Time passes. -/
def World.later (w : World) (ms : Nat) : World := { w with now := w.now + ms }

/-- Redis loses the results of the given idempotency keys. -/
def World.evict (w : World) (keys : List String) : World :=
  { w with redis := fun k => if k ∈ keys.map resultKey then none else w.redis k }

/-- An operation is answered by the world, in its surroundings. -/
def Surroundings.perform (s : Surroundings) : Driver effects World :=
  fun w o => (w.later (s.delay o)).perform o (s.answer o)

/-- An attempt of a job, and what happens between the attempt before it and this one. -/
structure ProcessAttempt where
  job : Job
  surroundings : Surroundings
  /-- The time (ms) since the attempt before. -/
  idle : Nat
  /-- The idempotency keys whose results Redis has lost since. -/
  evicted : List String

/-- The calls of `gateway.process`, in order. -/
def charges (tr : List ProcEvent) : List Payment :=
  tr.filterMap fun ev => match ev.op with
    | .gatewayProcess payment => some payment
    | _ => none

/-- The event is the failure of a saga step, in an attempt that runs the saga. -/
def failsStep : ProcEvent → Bool
  | ⟨.gatewayProcess _, .ok v⟩ => !v.success
  | ⟨.gatewayProcess _, .error _⟩ => true
  | ⟨.sagaFailStep, some step⟩ => step ∈ ["capture", "ledger", "notify"]
  | ⟨.upsertStatus _ _, .error _⟩ | ⟨.storeResult _ _, .error _⟩ => true
  | ⟨.emit (.notify _), .error _⟩ => true
  | _ => false

/-- The saga of the attempt, if it runs one, succeeds in all its steps. -/
def SagaSucceeds (tr : List ProcEvent) : Prop :=
  charges tr ≠ [] → ∀ ev ∈ tr, failsStep ev = false

namespace ProcessAttempt

/-- The world in which the attempt begins, from the one the attempt before left. -/
def before (a : ProcessAttempt) (w : World) : World := (w.later a.idle).evict a.evicted

/-- The attempt: its events, its end, and the world after it. -/
def run (a : ProcessAttempt) (w : World) :
    Option (List ProcEvent × Except Thrown Unit × World) :=
  (process a.job).drive a.surroundings.perform (a.before w)

/-- The events of attempts one after the other, if each of them comes to its end. -/
def runs : World → List ProcessAttempt → Option (List (List ProcEvent))
  | _, [] => some []
  | w, a :: as => (a.run w).bind fun (tr, _, w') => (runs w' as).map (tr :: ·)

/-- The attempt without the evictions before it. -/
def kept (a : ProcessAttempt) : ProcessAttempt := { a with evicted := [] }

end ProcessAttempt

/-! ### What lets an attempt through -/

section

variable (s : Surroundings) (w : World) (job : Job)

/-- When the breaker is asked in an attempt that begins in `w`. -/
def Surroundings.breakerAt : Int :=
  w.now + s.delay (.lookupGateway job.data.gatewayId) +
    s.delay (.lookupRateLimiter job.data.gatewayId) + s.delay (.canAttempt job.data.gatewayId)

/-- When the token bucket is asked. -/
def Surroundings.bucketAt : Int :=
  s.breakerAt w job + s.delay (.tryConsume job.data.gatewayId)

/-- Breaker and token bucket of the payment's gateway let the attempt through. -/
def Surroundings.Admits : Prop :=
  (∃ gw, w.gateways job.data.gatewayId = some gw ∧
    (gw.breaker.canAttempt (s.breakerAt w job)).1 = true) ∧
  ∃ t, w.rateLimiters job.data.gatewayId = some t ∧
    (t.tryConsume (s.bucketAt w job)).1 = true

/-- Nothing keeps the attempt from the lock but what the two tiers say. -/
structure Surroundings.LetsThrough : Prop where
  admits : s.Admits w job
  started : s.answer (.emit (.started job.id job.data.gatewayId)) = .resolve
  result : s.answer (.getResult job.data.idempotencyKey) = .resolve
  record : s.answer (.getStatus job.data.id) = .resolve
  lock : s.answer (.acquireLock job.data.idempotencyKey) = .resolve

end

/-- If the attempt gets as far as to ask both tiers, and the cached result is gone, then the
repository has the payment's own id completed. -/
def ProcessAttempt.Recorded (a : ProcessAttempt) (w : World) : Prop :=
  a.surroundings.LetsThrough (a.before w) a.job →
    getResult (a.before w).redis a.job.data.idempotencyKey = none →
      ((a.before w).records a.job.data.id).map (·.status) = some .completed

/-- Every attempt that begins after a result has been cached for the key is of a payment
the repository answers for, should it find that result gone. `cached` tells whether a
result had been cached before. -/
def Remembered (key : String) : Bool → World → List ProcessAttempt → Prop
  | _, _, [] => True
  | cached, w, a :: as =>
      (cached = true → a.Recorded w) ∧
        ∀ tr res w', a.run w = some (tr, res, w') →
          Remembered key (cached || (getResult w'.redis key).isSome) w' as

/-! ### The course of one attempt -/

section

variable (s : Surroundings) (v : World) (job : Job)

/-- Nothing of what the gates read has changed since the attempt began in `v`, `ms` ago. -/
structure AtGates (ms : Int) (w : World) : Prop where
  now : w.now = v.now + ms
  gateways : w.gateways = v.gateways
  rateLimiters : w.rateLimiters = v.rateLimiters

/-- The attempt may charge: it is let through and neither tier knows its payment. -/
def MayCharge : Prop := s.LetsThrough v job ∧ (v.standing job.data).Unposted

/-- The attempt has not charged and does not: the lock is free, and a cached result is
still there. -/
structure Unpaid (w : World) (paid : List Payment) : Prop where
  barred : ¬ MayCharge s v job
  paid : paid = []
  free : (w.standing job.data).locked = false
  kept : (v.standing job.data).result.isSome = true →
    (w.standing job.data).result.isSome = true

/-- The attempt has charged once, and cached the result. -/
structure Paid (w : World) (paid : List Payment) : Prop where
  may : MayCharge s v job
  paid : paid = [job.data]
  free : (w.standing job.data).locked = false
  cached : (w.standing job.data).result.isSome = true

variable (tr : List ProcEvent)

/-- Where an attempt with the events `tr` stands at a stage, in the world `w` and with the
charges `paid`, when the lock was free at its beginning in `v`. -/
def Going (g : Stage) (w : World) (paid : List Payment) : Prop :=
  let p := job.data
  match g with
  | .entering => AtGates v 0 w ∧ w.standing p = v.standing p ∧ paid = []
  | .lookedUp registered =>
      AtGates v (s.delay (.lookupGateway p.gatewayId)) w ∧ w.standing p = v.standing p ∧
        paid = [] ∧ registered = (v.gateways p.gatewayId).isSome
  | .gated =>
      AtGates v (s.delay (.lookupGateway p.gatewayId) +
        s.delay (.lookupRateLimiter p.gatewayId)) w ∧ w.standing p = v.standing p ∧ paid = []
  | .admitted =>
      w.now = s.breakerAt v job ∧ w.rateLimiters = v.rateLimiters ∧
        w.standing p = v.standing p ∧ paid = [] ∧
        ∃ gw, v.gateways p.gatewayId = some gw ∧
          (gw.breaker.canAttempt (s.breakerAt v job)).1 = true
  | .allowed => s.Admits v job ∧ w.standing p = v.standing p ∧ paid = []
  | .checking =>
      s.Admits v job ∧ s.answer (.emit (.started job.id p.gatewayId)) = .resolve ∧
        w.standing p = v.standing p ∧ paid = []
  | .missed =>
      s.Admits v job ∧ s.answer (.emit (.started job.id p.gatewayId)) = .resolve ∧
        s.answer (.getResult p.idempotencyKey) = .resolve ∧
        w.standing p = v.standing p ∧ (v.standing p).result = none ∧ paid = []
  | .clear =>
      s.Admits v job ∧ s.answer (.emit (.started job.id p.gatewayId)) = .resolve ∧
        s.answer (.getResult p.idempotencyKey) = .resolve ∧
        s.answer (.getStatus p.id) = .resolve ∧
        w.standing p = v.standing p ∧ (v.standing p).Unposted ∧ paid = []
  | .refused | .turnedAway | .backfilling | .reporting | .reported => Unpaid s v job w paid
  | .contending | .asking | .settled | .reconciled | .dropped => False
  | .locked => MayCharge s v job ∧ paid = []
  | .authorized | .captured | .posting | .written =>
      MayCharge s v job ∧ paid = [p] ∧ ∀ ev ∈ tr, failsStep ev = false
  | .stored | .notifying | .notified | .succeeded | .recorded =>
      Paid s v job w paid ∧ ∀ ev ∈ tr, failsStep ev = false
  | .unwinding todo _ _ => todo = [] ∧ Paid s v job w paid
  | .failed _ _ | .unlocked _ | .burying _ _ | .buried _ _ | .announced _ _ | .aborted _ =>
      Paid s v job w paid
  | .done => Unpaid s v job w paid ∨ Paid s v job w paid

end

section

variable {s : Surroundings} {v w w' : World} {job : Job} {tr : List ProcEvent}
variable {paid : List Payment} {g g' : Stage} {o : Op} {r : o.Ret}

theorem Standing.Step.kept_result {t t' : Standing} (h : t.Step o r t')
    (ht : t.result.isSome = true) : t'.result.isSome = true := by
  unfold Standing.Step at h
  split at h <;> simp_all

theorem Standing.Step.stays_free {t t' : Standing} (h : t.Step o r t')
    (ht : t.locked = false) (ho : ∀ key, o ≠ .acquireLock key) : t'.locked = false := by
  by_contra hlocked
  rcases h.locked_of (by simpa using hlocked) with hheld | ⟨key, hev⟩
  · simp [ht] at hheld
  · exact ho key (congrArg Event.op hev)

/-- What an operation does to the standing of the payment it concerns. -/
theorem Surroundings.standing_perform {p : Payment} (hp : o.Concerns p)
    (h : s.perform w o = some (r, w')) : (w.standing p).Step o r (w'.standing p) :=
  World.standing_perform (w := w.later (s.delay o)) hp h

theorem Unpaid.step (h : Unpaid s v job w paid)
    (hs : (w.standing job.data).Step o r (w'.standing job.data))
    (ho : ∀ key, o ≠ .acquireLock key) : Unpaid s v job w' paid :=
  ⟨h.barred, h.paid, hs.stays_free h.free ho, fun hv => hs.kept_result (h.kept hv)⟩

theorem Paid.step (h : Paid s v job w paid)
    (hs : (w.standing job.data).Step o r (w'.standing job.data))
    (ho : ∀ key, o ≠ .acquireLock key) : Paid s v job w' paid :=
  ⟨h.may, h.paid, hs.stays_free h.free ho, hs.kept_result h.cached⟩

/-- An attempt that has stored nothing yet, and may not charge. -/
theorem Unpaid.of_same (hfree : (v.standing job.data).locked = false)
    (hbarred : ¬ MayCharge s v job) (h : w.standing job.data = v.standing job.data) :
    Unpaid s v job w [] :=
  ⟨hbarred, rfl, h ▸ hfree, h ▸ id⟩

/-! What the gates answer. -/

theorem Surroundings.lookupGateway_perform {id : String} {b : Bool}
    (h : s.perform w (.lookupGateway id) = some (b, w')) :
    b = (w.gateways id).isSome ∧ w' = w.later (s.delay (.lookupGateway id)) := by
  unfold Surroundings.perform at h
  cases ha : s.answer (.lookupGateway id) <;> rw [ha] at h <;>
    simp only [World.perform, reduceCtorEq, Option.some.injEq, Prod.mk.injEq] at h
  exact ⟨h.1.symm, h.2.symm⟩

theorem Surroundings.lookupRateLimiter_perform {id : String} {b : Bool}
    (h : s.perform w (.lookupRateLimiter id) = some (b, w')) :
    b = (w.rateLimiters id).isSome ∧ w' = w.later (s.delay (.lookupRateLimiter id)) := by
  unfold Surroundings.perform at h
  cases ha : s.answer (.lookupRateLimiter id) <;> rw [ha] at h <;>
    simp only [World.perform, reduceCtorEq, Option.some.injEq, Prod.mk.injEq] at h
  exact ⟨h.1.symm, h.2.symm⟩

/-- Asking the breaker leaves the token buckets alone: they follow its trips and recoveries,
which come with the reports to it. -/
theorem World.rateLimiters_canAttempt {gw : RegisteredGateway} {id : String} {now : Int} :
    (w.setBreaker id gw (gw.breaker.canAttempt now).2).rateLimiters = w.rateLimiters := by
  have hstate : (gw.breaker.canAttempt now).2.state = gw.breaker.state ∨
      (gw.breaker.canAttempt now).2.state = .halfOpen := by
    rcases gw.breaker.canAttempt_cases now with ⟨-, heq⟩ | ⟨-, -, heq⟩ | ⟨-, -, heq⟩ | ⟨-, heq⟩
      <;> simp [heq, CircuitBreaker.transition]
  unfold World.setBreaker World.onStateChange
  rcases hstate with hstate | hstate <;> rw [hstate]
  · simp
  · split <;> rfl

theorem Surroundings.canAttempt_perform {id : String} {b : Bool}
    (h : s.perform w (.canAttempt id) = some (b, w')) :
    w'.now = w.now + s.delay (.canAttempt id) ∧ w'.rateLimiters = w.rateLimiters ∧
      ∃ gw, w.gateways id = some gw ∧
        (gw.breaker.canAttempt (w.now + s.delay (.canAttempt id))).1 = b := by
  unfold Surroundings.perform at h
  cases ha : s.answer (.canAttempt id) <;> rw [ha] at h <;>
    simp only [World.perform, reduceCtorEq, Option.map_eq_some_iff, Prod.mk.injEq] at h
  obtain ⟨gw, hgw, rfl, rfl⟩ := h
  exact ⟨World.now_setBreaker, World.rateLimiters_canAttempt, gw, hgw, rfl⟩

theorem Surroundings.tryConsume_perform {id : String} {b : Bool}
    (h : s.perform w (.tryConsume id) = some (b, w')) :
    ∃ t, w.rateLimiters id = some t ∧
      (t.tryConsume (w.now + s.delay (.tryConsume id))).1 = b := by
  unfold Surroundings.perform at h
  cases ha : s.answer (.tryConsume id) <;> rw [ha] at h <;>
    simp only [World.perform, reduceCtorEq, Option.map_eq_some_iff, Prod.mk.injEq] at h
  obtain ⟨t, ht, rfl, -⟩ := h
  exact ⟨t, ht, rfl⟩

/-- An operation of the attempt's way to the lock that may reject. -/
def Op.fallible : Op → Bool
  | .emit _ | .getResult _ | .getStatus _ | .acquireLock _ => true
  | _ => false

/-- Such an operation has rejected. -/
def rejected : ProcEvent → Bool
  | ⟨.emit _, .error _⟩ | ⟨.getResult _, .error _⟩ | ⟨.getStatus _, .error _⟩
  | ⟨.acquireLock _, .error _⟩ => true
  | _ => false

theorem Surroundings.resolve_iff (h : s.perform w o = some (r, w')) (ho : o.fallible = true) :
    s.answer o = .resolve ↔ rejected ⟨o, r⟩ = false := by
  unfold Surroundings.perform at h
  cases o with
  | emit _ | getResult _ | getStatus _ | acquireLock _ =>
      generalize s.answer _ = a at h ⊢
      cases a <;> simp only [World.perform, reduceCtorEq, Option.some.injEq,
        Prod.mk.injEq] at h
      all_goals
        obtain ⟨rfl, -⟩ := h
        simp [rejected]
  | _ => exact absurd ho (by simp [Op.fallible])

theorem Surroundings.not_resolve (h : s.perform w o = some (r, w')) (ho : o.fallible = true)
    (hr : rejected ⟨o, r⟩ = true) : s.answer o ≠ .resolve := by
  rw [ne_eq, resolve_iff h ho, hr]
  simp

/-- The gates: each tells whether it lets the attempt through, and none touches Redis or the
repository. -/
theorem Going.step_gates (hfree : (v.standing job.data).locked = false)
    (hT : Stage.Edge job g o r g') (hw : s.perform w o = some (r, w'))
    (h : Going s v job tr g w paid) (ho : match o with
      | .lookupGateway _ | .lookupRateLimiter _ | .canAttempt _ | .tryConsume _ => True
      | _ => False) : Going s v job tr g' w' paid := by
  have hs := Surroundings.standing_perform hT.concerns hw
  cases hT with
  | lookupGateway b =>
      obtain ⟨hgates, hstand, rfl⟩ := h
      obtain ⟨rfl, rfl⟩ := Surroundings.lookupGateway_perform hw
      refine ⟨⟨?_, hgates.gateways, hgates.rateLimiters⟩, hs.trans hstand, rfl, ?_⟩
      · simp [World.later, hgates.now]
      · rw [hgates.gateways]
  | registered =>
      obtain ⟨hgates, hstand, rfl, hreg⟩ := h
      obtain ⟨-, rfl⟩ := Surroundings.lookupRateLimiter_perform hw
      refine ⟨⟨?_, hgates.gateways, hgates.rateLimiters⟩, hs.trans hstand, rfl⟩
      simp [World.later, hgates.now, add_assoc]
  | @unregistered b b' hb =>
      obtain ⟨hgates, hstand, rfl, hreg⟩ := h
      obtain ⟨rfl, -⟩ := Surroundings.lookupRateLimiter_perform hw
      refine .of_same hfree (fun hmay => ?_) (hs.trans hstand)
      obtain ⟨⟨gw, hgw, -⟩, t, ht, -⟩ := hmay.1.admits
      rw [hgates.rateLimiters] at hb
      simp [hreg, hgw, ht] at hb
  | pass =>
      obtain ⟨hgates, hstand, rfl⟩ := h
      obtain ⟨hnow, hlimiters, gw, hgw, hpass⟩ := Surroundings.canAttempt_perform hw
      rw [hgates.now] at hnow hpass
      rw [hgates.gateways] at hgw
      rw [hgates.rateLimiters] at hlimiters
      refine ⟨?_, hlimiters, hs.trans hstand, rfl, gw, hgw, ?_⟩
      · simp [Surroundings.breakerAt, hnow, add_assoc]
      · simpa [Surroundings.breakerAt, add_assoc] using hpass
  | refuse =>
      obtain ⟨hgates, hstand, rfl⟩ := h
      obtain ⟨-, -, gw, hgw, hrefuse⟩ := Surroundings.canAttempt_perform hw
      refine .of_same hfree (fun hmay => ?_) (hs.trans hstand)
      obtain ⟨⟨gw', hgw', hpass⟩, -⟩ := hmay.1.admits
      rw [hgates.gateways, hgw', Option.some.injEq] at hgw
      subst hgw
      rw [hgates.now] at hrefuse
      simp only [Surroundings.breakerAt, add_assoc] at hpass hrefuse
      simp [hpass] at hrefuse
  | consume =>
      obtain ⟨hnow, hlimiters, hstand, rfl, hbreaker⟩ := h
      obtain ⟨t, ht, hconsume⟩ := Surroundings.tryConsume_perform hw
      rw [hlimiters] at ht
      rw [hnow] at hconsume
      exact ⟨⟨hbreaker, t, ht, hconsume⟩, hs.trans hstand, rfl⟩
  | limit =>
      obtain ⟨hnow, hlimiters, hstand, rfl, hbreaker⟩ := h
      obtain ⟨t, ht, hlimit⟩ := Surroundings.tryConsume_perform hw
      rw [hlimiters] at ht
      rw [hnow] at hlimit
      refine .of_same hfree (fun hmay => ?_) (hs.trans hstand)
      obtain ⟨-, t', ht', hconsume⟩ := hmay.1.admits
      rw [ht', Option.some.injEq] at ht
      subst ht
      simp [Surroundings.bucketAt, hlimit] at hconsume
  | _ => exact ho.elim

/-- The way to the lock: each tier is asked, and either ends the attempt without a charge or
lets it go on. -/
theorem Going.step_tiers (hfree : (v.standing job.data).locked = false)
    (hT : Stage.Edge job g o r g') (hw : s.perform w o = some (r, w'))
    (h : Going s v job tr g w paid)
    (hg : g = .allowed ∨ g = .checking ∨ g = .missed ∨ g = .clear) :
    Going s v job tr g' w' paid := by
  have hs := Surroundings.standing_perform hT.concerns hw
  cases hT with
  | started =>
      obtain ⟨hadmits, hstand, rfl⟩ := h
      exact ⟨hadmits, (Surroundings.resolve_iff hw rfl).mpr rfl, hs.trans hstand, rfl⟩
  | startedErr e =>
      obtain ⟨-, hstand, rfl⟩ := h
      refine .of_same hfree (fun hmay => ?_) (hs.trans hstand)
      exact Surroundings.not_resolve hw rfl rfl hmay.1.started
  | hit value =>
      obtain ⟨-, -, hstand, rfl⟩ := h
      obtain ⟨hvalue, hsame⟩ := hs
      refine .of_same hfree (fun hmay => ?_) (hsame.trans hstand)
      rw [hstand, hmay.2.1] at hvalue
      exact absurd hvalue (by simp)
  | miss =>
      obtain ⟨hadmits, hstarted, hstand, rfl⟩ := h
      obtain ⟨hvalue, hsame⟩ := hs
      rw [hstand] at hvalue
      exact ⟨hadmits, hstarted, (Surroundings.resolve_iff hw rfl).mpr rfl,
        hsame.trans hstand, hvalue.symm, rfl⟩
  | getResultErr e =>
      obtain ⟨-, -, hstand, rfl⟩ := h
      refine .of_same hfree (fun hmay => ?_) (hs.trans hstand)
      exact Surroundings.not_resolve hw rfl rfl hmay.1.result
  | dbHit hcompleted =>
      obtain ⟨-, -, -, hstand, -, rfl⟩ := h
      obtain ⟨rfl, hsame⟩ := hs
      refine .of_same hfree (fun hmay => hmay.2.2 ?_) (hsame.trans hstand)
      rwa [hstand] at hcompleted
  | dbMiss hopen =>
      obtain ⟨hadmits, hstarted, hresult, hstand, hnone, rfl⟩ := h
      obtain ⟨rfl, hsame⟩ := hs
      rw [hstand] at hopen
      exact ⟨hadmits, hstarted, hresult, (Surroundings.resolve_iff hw rfl).mpr rfl,
        hsame.trans hstand, ⟨hnone, hopen⟩, rfl⟩
  | getStatusErr e =>
      obtain ⟨-, -, -, hstand, -, rfl⟩ := h
      refine .of_same hfree (fun hmay => ?_) (hs.trans hstand)
      exact Surroundings.not_resolve hw rfl rfl hmay.1.record
  | acquire =>
      obtain ⟨hadmits, hstarted, hresult, hrecord, hstand, hunposted, rfl⟩ := h
      have hlock := (Surroundings.resolve_iff hw rfl).mpr rfl
      exact ⟨⟨⟨hadmits, hstarted, hresult, hrecord, hlock⟩, hunposted⟩, rfl⟩
  | contend =>
      obtain ⟨-, -, -, -, hstand, -⟩ := h
      obtain ⟨hlock, -⟩ := hs
      rw [hstand, hfree] at hlock
      exact absurd hlock (by simp)
  | acquireErr e =>
      obtain ⟨-, -, -, -, hstand, -, rfl⟩ := h
      refine .of_same hfree (fun hmay => ?_) (hs.trans hstand)
      exact Surroundings.not_resolve hw rfl rfl hmay.1.lock
  | _ => exact absurd hg (by simp)

/-- The charge: in an attempt whose saga succeeds, it is accepted. -/
theorem Going.step_charge (hsaga : SagaSucceeds tr) {payment : Payment}
    {r : (Op.gatewayProcess payment).Ret}
    (hT : Stage.Edge job g (.gatewayProcess payment) r g')
    (hev : ⟨.gatewayProcess payment, r⟩ ∈ tr) (h : Going s v job tr g w paid) :
    Going s v job tr g' w' (paid ++ [payment]) := by
  have hall : ∀ ev ∈ tr, failsStep ev = false := hsaga fun hnone => by
    have := List.filterMap_eq_nil_iff.mp hnone _ hev
    simp at this
  have hok := hall _ hev
  cases hT with
  | charge hv =>
      obtain ⟨hmay, rfl⟩ := h
      exact ⟨hmay, rfl, hall⟩
  | decline hv => simp [failsStep, hv] at hok
  | chargeErr e => simp [failsStep] at hok

/-- The rest of the attempt, with and without a charge. -/
theorem Going.step_rest (hT : Stage.Edge job g o r g') (hev : ⟨o, r⟩ ∈ tr)
    (hw : s.perform w o = some (r, w')) (h : Going s v job tr g w paid)
    (hg : match g with
      | .entering | .lookedUp _ | .gated | .admitted | .allowed | .checking | .missed
      | .clear => False
      | _ => True) (ho : ∀ payment, o ≠ .gatewayProcess payment) :
    Going s v job tr g' w' paid := by
  have hs := Surroundings.standing_perform hT.concerns hw
  cases hT with
  | slot | granted => exact h
  | charge | decline | chargeErr => exact absurd rfl (ho _)
  | capture | post | write => exact h
  | captureErr | postErr | writeErr | storeErr =>
      obtain ⟨-, -, hall⟩ := h
      exact absurd (hall _ hev) (by simp [failsStep])
  | store value =>
      obtain ⟨hmay, rfl, hall⟩ := h
      have hfree := congrArg Standing.locked hs
      have hcached := congrArg Standing.result hs
      exact ⟨⟨hmay, rfl, hfree, by simp [hcached]⟩, hall⟩
  | notify | notifyEmit | complete | recordSaga =>
      exact ⟨h.1.step hs (by simp), h.2⟩
  | notifyInjected | notifyEmitErr => exact absurd (h.2 _ hev) (by simp [failsStep])
  | completeErr => exact ⟨rfl, h.1.step hs (by simp)⟩
  | freeSlot => exact Or.inr (h.1.step hs (by simp))
  | reverseLedger | refund | voidAuthorization => exact absurd h.1 (by simp)
  | freeFailed => exact ⟨rfl, h.2.step hs (by simp)⟩
  | recordFailed => exact h.2.step hs (by simp)
  | recordReported => exact Or.inl (h.step hs (by simp))
  | wait | backfill | backfillErr | report | reportErr => exact h.step hs (by simp)
  | stillLocked | vanished | hasLockErr | toldSettled | toldOther | askErr | reconcileStore
  | reconcileStoreErr | reportSettled => exact h.elim
  | unlockPermanent => exact Or.inr (h.step hs (by simp))
  | failPermanent | failPermanentErr | unlock | unlockErr | failExhausted | failExhaustedErr
  | bury | buryErr | announce | announceErr | unlockPermanentErr => exact h.step hs (by simp)
  | _ => exact hg.elim

theorem charges_append (tr tr' : List ProcEvent) :
    charges (tr ++ tr') = charges tr ++ charges tr' :=
  List.filterMap_append

theorem charges_of_ne (ho : ∀ payment, o ≠ .gatewayProcess payment) :
    charges [⟨o, r⟩] = [] := by
  rw [charges, List.filterMap_eq_nil_iff]
  intro ev hev
  obtain rfl := List.mem_singleton.mp hev
  cases o <;> first | rfl | exact absurd rfl (ho _)

/-- One step of an attempt. -/
theorem Going.step (hfree : (v.standing job.data).locked = false) (hsaga : SagaSucceeds tr)
    (hT : Stage.Edge job g o r g') (hev : ⟨o, r⟩ ∈ tr) (hw : s.perform w o = some (r, w'))
    (h : Going s v job tr g w paid) :
    Going s v job tr g' w' (paid ++ charges [⟨o, r⟩]) := by
  by_cases hcharge : ∃ payment, o = .gatewayProcess payment
  · obtain ⟨payment, rfl⟩ := hcharge
    exact Going.step_charge hsaga hT hev h
  · have ho : ∀ payment, o ≠ .gatewayProcess payment := fun payment heq =>
      hcharge ⟨payment, heq⟩
    rw [charges_of_ne ho, List.append_nil]
    match g with
    | .entering | .lookedUp _ | .gated | .admitted =>
        refine Going.step_gates hfree hT hw h ?_
        cases hT <;> trivial
    | .allowed | .checking | .missed | .clear =>
        exact Going.step_tiers hfree hT hw h (by simp)
    | .refused | .backfilling | .reporting | .reported | .turnedAway | .contending | .asking
    | .settled | .reconciled | .dropped | .locked | .authorized | .captured | .posting
    | .written | .stored | .notifying | .notified | .succeeded | .recorded
    | .unwinding _ _ _ | .failed _ _ | .unlocked _ | .burying _ _ | .buried _ _
    | .announced _ _ | .aborted _ | .done =>
        exact Going.step_rest hT hev hw h trivial ho

/-- Every end of an attempt is one without a charge, or one after it. -/
theorem Going.ends {res : Except Thrown Unit} (h : Going s v job tr g w paid)
    (hend : Stage.Ends job g res) : Unpaid s v job w paid ∨ Paid s v job w paid := by
  cases g with
  | done => exact h
  | refused | turnedAway => exact Or.inl h
  | announced _ _ | aborted _ | unlocked _ => exact Or.inr h
  | dropped => exact h.elim
  | _ => cases res <;> exact hend.elim

/-- **What an attempt comes to**, when the lock is free at its beginning and its saga
succeeds: nothing charged, or one charge and its result cached. -/
theorem ProcessAttempt.run_ends {a : ProcessAttempt} {res : Except Thrown Unit}
    (hrun : a.run w = some (tr, res, w')) (hsaga : SagaSucceeds tr)
    (hfree : ((a.before w).standing a.job.data).locked = false) :
    Unpaid a.surroundings (a.before w) a.job w' (charges tr) ∨
      Paid a.surroundings (a.before w) a.job w' (charges tr) := by
  have hstart : Going a.surroundings (a.before w) a.job tr .entering (a.before w)
      (charges []) := ⟨⟨by simp, rfl, rfl⟩, rfl, rfl⟩
  obtain ⟨g, hgoing, hend⟩ := (process_follows a.job).driven
    (I := fun g u pre => Going a.surroundings (a.before w) a.job tr g u (charges pre))
    hrun hstart (fun hT hev hd h => by
      rw [charges_append]
      exact Going.step hfree hsaga hT hev hd h)
  exact Going.ends hgoing hend

end

/-! ### Worlds a payment cannot tell apart -/

/-- The worlds differ at most in what Redis holds for other keys. -/
def World.Alike (key : String) (w v : World) : Prop :=
  ∃ redis, v = { w with redis := redis } ∧ hasLock redis key = hasLock w.redis key ∧
    getResult redis key = getResult w.redis key

/-- The operation is a command to Redis. -/
def Op.onRedis : Op → Bool
  | .getResult _ | .acquireLock _ | .releaseLock _ | .hasLock _ | .storeResult _ _ => true
  | _ => false

namespace World

variable {w w' v : World} {key id : String} {redis : Redis}

theorem Alike.hasLock_eq (h : Alike key w v) : hasLock v.redis key = hasLock w.redis key := by
  obtain ⟨redis, rfl, hlock, -⟩ := h
  exact hlock

theorem Alike.getResult_eq (h : Alike key w v) :
    getResult v.redis key = getResult w.redis key := by
  obtain ⟨redis, rfl, -, hresult⟩ := h
  exact hresult

theorem setBreaker_redis {gw : RegisteredGateway} {b : CircuitBreaker} :
    ({ w with redis := redis } : World).setBreaker id gw b =
      { w.setBreaker id gw b with redis := redis } := by
  unfold setBreaker onStateChange
  split
  · rfl
  · split <;> rfl

/-- Any other operation does not see Redis, and leaves it as it is. -/
theorem perform_redis {o : Op} {a : Answer} {r : o.Ret} (ho : o.onRedis = false)
    (hw : w.perform o a = some (r, w')) (redis : Redis) : w'.redis = w.redis ∧
      ({ w with redis := redis } : World).perform o a =
        some (r, { w' with redis := redis }) := by
  cases o with
  | canAttempt g | recordSuccess g | recordFailure g =>
      cases a <;> simp only [perform, reduceCtorEq, Option.map_eq_some_iff,
        Prod.mk.injEq] at hw
      obtain ⟨gw, hgw, hr, rfl⟩ := hw
      simp [perform, hgw, setBreaker_redis, hr]
  | tryConsume g | msUntilAvailable g =>
      cases a <;> simp only [perform, reduceCtorEq, Option.map_eq_some_iff,
        Prod.mk.injEq] at hw
      obtain ⟨t, ht, rfl, rfl⟩ := hw
      simp [perform, ht, setBucket]
  | semaphoreAcquire g | semaphoreRelease g =>
      cases a <;> simp only [perform, reduceCtorEq, Option.map_eq_some_iff,
        Prod.mk.injEq] at hw
      obtain ⟨gw, hgw, hr, rfl⟩ := hw
      simp [perform, hgw, setSemaphore, hr]
  | semaphoreGranted g ticket =>
      cases a <;> simp only [perform, reduceCtorEq, Option.bind_eq_some_iff] at hw
      obtain ⟨gw, hgw, hw⟩ := hw
      split at hw <;> simp_all [perform]
  | getResult _ | acquireLock _ | releaseLock _ | hasLock _ | storeResult _ _ =>
      exact absurd ho (by simp [Op.onRedis])
  | _ =>
      cases a <;> simp only [perform, reduceCtorEq, Option.some.injEq, Prod.mk.injEq] at hw
      all_goals
        obtain ⟨hr, rfl⟩ := hw
        simp [perform, hr]

/-- An operation on a payment answers alike in such worlds, and leaves them alike. -/
theorem Alike.perform {p : Payment} {o : Op} {a : Answer} {r : o.Ret}
    (h : Alike p.idempotencyKey w v) (ho : o.Concerns p) (hw : w.perform o a = some (r, w')) :
    ∃ v', v.perform o a = some (r, v') ∧ Alike p.idempotencyKey w' v' := by
  obtain ⟨redis, rfl, hlock, hresult⟩ := h
  cases o with
  | getResult key | acquireLock key | releaseLock key | hasLock key | storeResult key value =>
      obtain rfl : key = p.idempotencyKey := ho
      cases a <;> simp only [World.perform, reduceCtorEq, Option.some.injEq,
        Prod.mk.injEq] at hw
      all_goals
        obtain ⟨rfl, rfl⟩ := hw
        simp [World.perform, Alike, hlock, hresult]
  | _ =>
      obtain ⟨hsame, hv⟩ := perform_redis rfl hw redis
      exact ⟨_, hv, redis, rfl, by rw [hsame, hlock], by rw [hsame, hresult]⟩

end World

/-! ### Attempts under one key -/

namespace ProcessAttempt

variable {a : ProcessAttempt} {as : List ProcessAttempt} {w w' : World} {key : String}
variable {tr : List ProcEvent} {trs : List (List ProcEvent)} {res : Except Thrown Unit}

@[simp] theorem hasLock_before :
    hasLock (a.before w).redis key = hasLock w.redis key := by
  have hne : ∀ k, resultKey k ≠ lockKey key := fun k => (lockKey_ne_resultKey key k).symm
  simp [before, World.evict, World.later, hasLock, hne]

theorem getResult_before :
    getResult (a.before w).redis key =
      if key ∈ a.evicted then none else getResult w.redis key := by
  simp only [before, World.evict, World.later, getResult,
    List.mem_map_of_injective resultKey_injective]
  split_ifs <;> rfl

theorem runs_cons : runs w (a :: as) = some trs ↔
    ∃ tr res w' trs', a.run w = some (tr, res, w') ∧ runs w' as = some trs' ∧
      trs = tr :: trs' := by
  simp only [runs, Option.bind_eq_some_iff, Option.map_eq_some_iff]
  constructor
  · intro h
    obtain ⟨⟨tr, res, w'⟩, ha, trs', hrest, rfl⟩ := h
    exact ⟨tr, res, w', trs', ha, hrest, rfl⟩
  · intro h
    obtain ⟨tr, res, w', trs', ha, hrest, rfl⟩ := h
    exact ⟨(tr, res, w'), ha, trs', hrest, rfl⟩

theorem recorded_iff :
    a.Recorded w ↔ ¬ MayCharge a.surroundings (a.before w) a.job := by
  simp only [Recorded, MayCharge, Standing.Unposted, Standing.recordedCompleted,
    World.standing]
  tauto

/-! Before a result is cached the evictions make no difference. -/

/-- Between attempts such worlds stay alike: time passes, and Redis loses results. -/
theorem alike_before {v : World} (h : World.Alike key w v)
    (hnone : getResult w.redis key = none) :
    World.Alike key (a.kept.before w) (a.before v) := by
  obtain ⟨redis, rfl, hlock, hresult⟩ := h
  refine ⟨(a.before { w with redis := redis }).redis, rfl, ?_, ?_⟩
  · rw [hasLock_before, hasLock_before, hlock]
  · rw [getResult_before, getResult_before, hresult, hnone]
    simp

/-- An attempt in such worlds is the same. -/
theorem alike_run {v : World} (h : World.Alike key w v) (hnone : getResult w.redis key = none)
    (hkey : a.job.data.idempotencyKey = key) (hrun : a.kept.run w = some (tr, res, w')) :
    ∃ v', a.run v = some (tr, res, v') ∧ World.Alike key w' v' := by
  subst hkey
  refine (process_follows a.job).drive_congr (alike_before h hnone) hrun ?_
  intro g g' o r w₁ w₂ v₁ hT halike hw
  obtain ⟨redis, rfl, hlock, hresult⟩ := halike
  have hlater : World.Alike a.job.data.idempotencyKey (w₁.later (a.surroundings.delay o))
      (World.later { w₁ with redis := redis } (a.surroundings.delay o)) :=
    ⟨redis, rfl, hlock, hresult⟩
  exact hlater.perform hT.concerns hw

/-! What an attempt under the key leaves. -/

section

variable (hrun : a.run w = some (tr, res, w')) (hsaga : SagaSucceeds tr)
  (hkey : a.job.data.idempotencyKey = key) (hfree : hasLock w.redis key = false)

include hrun hsaga hkey hfree

theorem ends_under : Unpaid a.surroundings (a.before w) a.job w' (charges tr) ∨
    Paid a.surroundings (a.before w) a.job w' (charges tr) := by
  refine run_ends hrun hsaga ?_
  show hasLock (a.before w).redis a.job.data.idempotencyKey = false
  rw [hkey, hasLock_before, hfree]

/-- The lock is free again. -/
theorem hasLock_run : hasLock w'.redis key = false := by
  subst hkey
  rcases ends_under hrun hsaga rfl hfree with h | h
  · exact h.free
  · exact h.free

/-- A charge leaves a cached result. -/
theorem charges_run (hnone : (getResult w'.redis key).isSome = false) : charges tr = [] := by
  subst hkey
  rcases ends_under hrun hsaga rfl hfree with h | h
  · exact h.paid
  · have hcached : (getResult w'.redis a.job.data.idempotencyKey).isSome = true := h.cached
    exact absurd hcached (by simp [hnone])

/-- A cached result is not given up. -/
theorem cached_run (hcached : (getResult (a.before w).redis key).isSome = true) :
    (getResult w'.redis key).isSome = true := by
  subst hkey
  rcases ends_under hrun hsaga rfl hfree with h | h
  · exact h.kept hcached
  · exact h.cached

/-- An attempt charges its payment once at most. -/
theorem length_charges_run : (charges tr).length ≤ 1 := by
  rcases ends_under hrun hsaga hkey hfree with h | h <;> simp [h.paid]

/-- An attempt charges unless the repository answers for its payment or a gate or a store
keeps it from asking. -/
theorem charges_run_iff : charges tr = [] ↔ ¬ MayCharge a.surroundings (a.before w) a.job := by
  rcases ends_under hrun hsaga hkey hfree with h | h
  · exact iff_of_true h.paid h.barred
  · refine iff_of_false ?_ (not_not.mpr h.may)
    simp [h.paid]

end

/-! ### The two runs -/

theorem length_runs (h : runs w as = some trs) : trs.length = as.length := by
  induction as generalizing w trs with
  | nil =>
      obtain rfl : [] = trs := by simpa [runs] using h
      rfl
  | cons a as ih =>
      obtain ⟨tr, res, w', trs', -, hrest, rfl⟩ := runs_cons.mp h
      simp [ih hrest]

theorem remembered_cons {cached : Bool} (h : a.run w = some (tr, res, w')) :
    Remembered key cached w (a :: as) ↔ (cached = true → a.Recorded w) ∧
      Remembered key (cached || (getResult w'.redis key).isSome) w' as := by
  simp only [Remembered, h, Option.some.injEq, Prod.mk.injEq]
  refine and_congr_right fun _ => ⟨fun hall => hall tr res w' ⟨rfl, rfl, rfl⟩, ?_⟩
  intro hrest tr' res' w'' heq
  obtain ⟨rfl, rfl, rfl⟩ := heq
  exact hrest

/-- As long as Redis keeps the cached result, no attempt charges. -/
theorem silent_of_kept (hkey : ∀ a ∈ as, a.job.data.idempotencyKey = key)
    (hfree : hasLock w.redis key = false) (hcached : (getResult w.redis key).isSome = true)
    (hruns : runs w (as.map kept) = some trs) (hsaga : ∀ tr ∈ trs, SagaSucceeds tr) :
    ∀ tr ∈ trs, charges tr = [] := by
  induction as generalizing w trs with
  | nil =>
      obtain rfl : [] = trs := by simpa [runs] using hruns
      simp
  | cons a as ih =>
      obtain ⟨tr, res, w', trs', hrun, hrest, rfl⟩ := runs_cons.mp hruns
      simp only [List.forall_mem_cons] at hkey hsaga ⊢
      have hbefore : getResult (a.kept.before w).redis key = getResult w.redis key := by
        simp [getResult_before, kept]
      refine ⟨?_, ih hkey.2 (hasLock_run hrun hsaga.1 hkey.1 hfree) ?_ hrest hsaga.2⟩
      · rw [charges_run_iff hrun hsaga.1 hkey.1 hfree]
        intro hmay
        have hnone : getResult (a.kept.before w).redis key = none := hkey.1 ▸ hmay.2.1
        rw [← hbefore, hnone] at hcached
        exact absurd hcached (by simp)
      · exact cached_run hrun hsaga.1 hkey.1 hfree (by rw [hbefore, hcached])

/-- Once a result has been cached, attempts under evictions charge nothing exactly if the
repository answers for each payment whose result is gone. -/
theorem silent_iff_remembered (hkey : ∀ a ∈ as, a.job.data.idempotencyKey = key)
    (hfree : hasLock w.redis key = false) (hruns : runs w as = some trs)
    (hsaga : ∀ tr ∈ trs, SagaSucceeds tr) :
    (∀ tr ∈ trs, charges tr = []) ↔ Remembered key true w as := by
  induction as generalizing w trs with
  | nil =>
      obtain rfl : [] = trs := by simpa [runs] using hruns
      simp [Remembered]
  | cons a as ih =>
      obtain ⟨tr, res, w', trs', hrun, hrest, rfl⟩ := runs_cons.mp hruns
      simp only [List.forall_mem_cons] at hkey hsaga ⊢
      rw [remembered_cons hrun, Bool.true_or, charges_run_iff hrun hsaga.1 hkey.1 hfree,
        ih hkey.2 (hasLock_run hrun hsaga.1 hkey.1 hfree) hrest hsaga.2, recorded_iff]
      simp

end ProcessAttempt

/-- Two runs of the same attempts make the same calls of `gateway.process`, attempt by
attempt, and at most one each. -/
def SameCharges (trs trs' : List (List ProcEvent)) : Prop :=
  trs'.map charges = trs.map charges ∧ (trs.flatMap charges).length ≤ 1 ∧
    (trs'.flatMap charges).length ≤ 1

/-- Against a run that charges nothing any more, the other may not either. -/
theorem sameCharges_append_iff {pre trs trs' : List (List ProcEvent)}
    (hpre : (pre.flatMap charges).length ≤ 1) (hlength : trs'.length = trs.length)
    (hsilent : ∀ tr ∈ trs, charges tr = []) :
    SameCharges (pre ++ trs) (pre ++ trs') ↔ ∀ tr ∈ trs', charges tr = [] := by
  have hnone : ∀ {l : List (List ProcEvent)}, (∀ tr ∈ l, charges tr = []) →
      l.map charges = List.replicate l.length [] ∧ l.flatMap charges = [] := by
    intro l hl
    exact ⟨List.map_eq_replicate_iff.mpr hl, List.flatMap_eq_nil_iff.mpr hl⟩
  constructor
  · intro h
    have hsame := h.1
    rw [List.map_append, List.map_append, List.append_cancel_left_eq, (hnone hsilent).1,
      ← hlength, List.map_eq_replicate_iff] at hsame
    exact hsame
  · intro h
    obtain ⟨hmap, hflat⟩ := hnone hsilent
    obtain ⟨hmap', hflat'⟩ := hnone h
    refine ⟨?_, ?_, ?_⟩
    · rw [List.map_append, List.map_append, hmap, hmap', hlength]
    · simpa [hflat] using hpre
    · simpa [hflat'] using hpre

open ProcessAttempt

/-- From worlds that cannot be told apart and hold no result: the runs go together up to the
first cached result. -/
theorem sameCharges_iff_of_alike {key : String} {w v : World} {as : List ProcessAttempt}
    {trs trs' : List (List ProcEvent)} (hkey : ∀ a ∈ as, a.job.data.idempotencyKey = key)
    (halike : World.Alike key w v) (hfree : hasLock w.redis key = false)
    (hnone : getResult w.redis key = none) (hkept : runs w (as.map kept) = some trs)
    (hevicted : runs v as = some trs') (hsaga : ∀ tr ∈ trs, SagaSucceeds tr)
    (hsaga' : ∀ tr ∈ trs', SagaSucceeds tr) :
    SameCharges trs trs' ↔ Remembered key false v as := by
  induction as generalizing w v trs trs' with
  | nil =>
      obtain rfl : [] = trs := by simpa [runs] using hkept
      obtain rfl : [] = trs' := by simpa [runs] using hevicted
      simp [SameCharges, Remembered]
  | cons a as ih =>
      obtain ⟨tr, res, w₁, trs, hrun, hrest, rfl⟩ := runs_cons.mp hkept
      obtain ⟨tr', res', v₁, trs', hrun', hrest', rfl⟩ := runs_cons.mp hevicted
      simp only [List.forall_mem_cons] at hkey hsaga hsaga'
      -- the attempt is the same in both runs
      obtain ⟨v₂, hrun₂, halike₁⟩ := alike_run halike hnone hkey.1 hrun
      obtain ⟨rfl, rfl, rfl⟩ : tr = tr' ∧ res = res' ∧ v₂ = v₁ := by
        simpa [hrun'] using hrun₂.symm
      have hfree₁ := hasLock_run hrun hsaga.1 hkey.1 hfree
      rw [remembered_cons hrun', halike₁.getResult_eq]
      cases hcached : (getResult w₁.redis key).isSome with
      | false =>
          have hnone₁ : getResult w₁.redis key = none := by simpa using hcached
          have hcharges := charges_run hrun hsaga.1 hkey.1 hfree hcached
          rw [Bool.or_false, ← ih hkey.2 halike₁ hfree₁ hnone₁ hrest hrest' hsaga.2 hsaga'.2]
          simp [SameCharges, hcharges]
      | true =>
          have hsilent := silent_of_kept hkey.2 hfree₁ hcached hrest hsaga.2
          have hlength : trs'.length = trs.length := by
            rw [length_runs hrest, length_runs hrest', List.length_map]
          have hpre : ([tr].flatMap charges).length ≤ 1 := by
            simpa using length_charges_run hrun hsaga.1 hkey.1 hfree
          have hiff := sameCharges_append_iff hpre hlength hsilent
          rw [List.singleton_append, List.singleton_append] at hiff
          rw [hiff, silent_iff_remembered hkey.2 (halike₁.hasLock_eq.trans hfree₁) hrest'
            hsaga'.2]
          simp

/-- **Eviction.** Attempts of payments that share an idempotency key, one after the other and
with their sagas succeeding, in a run that loses results between them and in one that does
not: both make the same charges, and at most one each, exactly if in the run with evictions
every attempt that gets to ask the two tiers, after a result had been cached for the key and
finding it gone, is of a payment whose own id the repository has as completed. -/
theorem eviction_transparent {key : String} {w : World} {as : List ProcessAttempt}
    {trs trs' : List (List ProcEvent)} (hkey : ∀ a ∈ as, a.job.data.idempotencyKey = key)
    (hfree : hasLock w.redis key = false) (hkept : runs w (as.map kept) = some trs)
    (hevicted : runs w as = some trs') (hsaga : ∀ tr ∈ trs, SagaSucceeds tr)
    (hsaga' : ∀ tr ∈ trs', SagaSucceeds tr) :
    SameCharges trs trs' ↔ Remembered key (getResult w.redis key).isSome w as := by
  cases hcached : (getResult w.redis key).isSome with
  | false =>
      have hnone : getResult w.redis key = none := by simpa using hcached
      exact sameCharges_iff_of_alike hkey ⟨w.redis, rfl, rfl, rfl⟩ hfree hnone hkept hevicted
        hsaga hsaga'
  | true =>
      have hsilent := silent_of_kept hkey hfree hcached hkept hsaga
      have hlength : trs'.length = trs.length := by
        rw [length_runs hkept, length_runs hevicted, List.length_map]
      rw [← silent_iff_remembered hkey hfree hevicted hsaga']
      have hpre : (([] : List (List ProcEvent)).flatMap charges).length ≤ 1 := by simp
      exact sameCharges_append_iff hpre hlength hsilent

/-! ### A payment submitted twice -/

instance : DecidablePred SagaSucceeds := fun tr =>
  inferInstanceAs (Decidable (charges tr ≠ [] → ∀ ev ∈ tr, failsStep ev = false))

/-- Everything answers at once, and the gateway accepts the charge. -/
def smooth : Surroundings where
  answer
    | .gatewayProcess _ => .response accepted
    | .sagaFailStep => .env none
    | _ => .resolve
  delay _ := 0

/-- An attempt of a payment, a second after the one before. -/
def attemptOf (payment : Payment) (evicted : List String) : ProcessAttempt where
  job := ⟨"job_1", payment, 0⟩
  surroundings := smooth
  idle := 1000
  evicted := evicted

/-- The client submits the payment again: another id, the same idempotency key. -/
def resubmitted : Payment := { cardPayment with id := "pay_2" }

/-- A concrete sequence of attempts with the decidable property `P`. -/
theorem exists_of_runs {w : World} {as : List ProcessAttempt}
    {P : List (List ProcEvent) → Prop} [DecidablePred P]
    (h : (runs w as).any (fun trs => decide (P trs)) = true) :
    ∃ trs, runs w as = some trs ∧ P trs := by
  obtain ⟨trs, hruns, hP⟩ := (Option.any_eq_true _ _).mp h
  exact ⟨trs, hruns, of_decide_eq_true hP⟩

/-- The same payment attempted again after its result was evicted: the record answers. -/
theorem eviction_transparent_same_id :
    ∃ trs trs', trs'.map charges = [[cardPayment], []] ∧ SameCharges trs trs' ∧
      (SameCharges trs trs' ↔ Remembered "idem_1" false startedUp
        [attemptOf cardPayment [], attemptOf cardPayment ["idem_1"]]) := by
  have hkept : ∃ trs, runs startedUp [attemptOf cardPayment [], attemptOf cardPayment []] =
      some trs ∧ (∀ tr ∈ trs, SagaSucceeds tr) ∧ trs.map charges = [[cardPayment], []] :=
    exists_of_runs (by decide +kernel)
  have hevicted : ∃ trs, runs startedUp
      [attemptOf cardPayment [], attemptOf cardPayment ["idem_1"]] = some trs ∧
      (∀ tr ∈ trs, SagaSucceeds tr) ∧ trs.map charges = [[cardPayment], []] :=
    exists_of_runs (by decide +kernel)
  obtain ⟨trs, hkept, hsaga, hcharges⟩ := hkept
  obtain ⟨trs', hevicted, hsaga', hcharges'⟩ := hevicted
  refine ⟨trs, trs', hcharges', ?_, eviction_transparent (by simp [attemptOf, cardPayment])
    rfl hkept hevicted hsaga hsaga'⟩
  simp [SameCharges, List.flatMap_def, hcharges, hcharges']

/-- A payment is charged, its cached result evicted, and the payment submitted again under
another id: neither tier knows it, and it is charged a second time. With the result still
cached it is not. -/
theorem eviction_charges_twice :
    ∃ trs trs',
      runs startedUp [attemptOf cardPayment [], attemptOf resubmitted []] = some trs ∧
      runs startedUp [attemptOf cardPayment [], attemptOf resubmitted ["idem_1"]] = some trs' ∧
      resubmitted.idempotencyKey = cardPayment.idempotencyKey ∧
      (∀ tr ∈ trs ++ trs', SagaSucceeds tr) ∧
      trs.map charges = [[cardPayment], []] ∧
      trs'.map charges = [[cardPayment], [resubmitted]] ∧ ¬ SameCharges trs trs' := by
  have hkept : ∃ trs, runs startedUp [attemptOf cardPayment [], attemptOf resubmitted []] =
      some trs ∧ (∀ tr ∈ trs, SagaSucceeds tr) ∧ trs.map charges = [[cardPayment], []] :=
    exists_of_runs (by decide +kernel)
  have hevicted : ∃ trs, runs startedUp
      [attemptOf cardPayment [], attemptOf resubmitted ["idem_1"]] = some trs ∧
      (∀ tr ∈ trs, SagaSucceeds tr) ∧ trs.map charges = [[cardPayment], [resubmitted]] :=
    exists_of_runs (by decide +kernel)
  obtain ⟨trs, hkept, hsaga, hcharges⟩ := hkept
  obtain ⟨trs', hevicted, hsaga', hcharges'⟩ := hevicted
  refine ⟨trs, trs', hkept, hevicted, rfl, ?_, hcharges, hcharges', fun hsame => ?_⟩
  · simp only [List.forall_mem_append]
    exact ⟨hsaga, hsaga'⟩
  · have hlength := hsame.2.2
    simp [List.flatMap_def, hcharges'] at hlength

end PaymentQueue
