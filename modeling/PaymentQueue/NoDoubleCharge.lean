import PaymentQueue.Holding

/-!
# PaymentQueue.NoDoubleCharge

Is a customer charged once, however many `process` calls of the payment overlap?

The decision to charge is split over three awaits: `getResult`, `getStatus`,
`acquireLock`. `storeResult` caches the result and drops the lock, so a call whose two
lookups are older than that finds the lock free and charges again
(`double_charge_reachable`). As long as nobody acquires the lock while a result is
cached, a charge that is not voided belongs to the one call that holds the lock, or its
result is cached (`ChargeInv`), and no charge is repeated (`no_double_charge`).
-/

namespace PaymentQueue

open Async Stage

variable {ι : Type} [DecidableEq ι]

/-- Call `c` charged the customer: its `gateway.process` returned success. -/
def charged (c : ι) : LogEntry ι → Bool
  | .reply c' ⟨.gatewayProcess _, .ok v⟩ => decide (c' = c) && v.success
  | _ => false

/-- Call `c` voided its authorization, which is the last of its compensations. -/
def voided (c : ι) : LogEntry ι → Bool
  | .reply c' ⟨.voidAuthorization _, _⟩ => decide (c' = c)
  | _ => false

/-- No `gateway.process` returns success while an earlier success of any call has not
been compensated. -/
def NoDoubleCharge (log : List (LogEntry ι)) : Prop :=
  Throughout (fun e before => ∀ c, charged c e = true →
    ∀ d, ¬ Pending (charged d) (voided d) before) log

instance [Fintype ι] : DecidablePred (NoDoubleCharge (ι := ι)) :=
  fun _ => inferInstanceAs (Decidable (Throughout _ _))

/-- Nothing crashes or expires, and the stores answer. -/
def Undisturbed (s : State ι) (a : Action system ι) : Prop :=
  NoCrash s a ∧ NoExpiry s a ∧ StoresUp s a

instance (s : State ι) : DecidablePred (Undisturbed s) :=
  fun _ => inferInstanceAs (Decidable (_ ∧ _))

/-- Whoever finds the lock of `p` free acquires it at a moment when no result for `p` is
cached: neither of the two lookups before it is stale. -/
def FreshAcquire (p : Payment) (s : State ι) : Action system ι → Prop
  | .answer c _ =>
      (s.thread c).awaiting = some (.acquireLock p.idempotencyKey) →
      (s.world.standing p).locked = false → (s.world.standing p).result = none
  | _ => True

instance (p : Payment) (s : State ι) : DecidablePred (FreshAcquire p s)
  | .answer _ _ => inferInstanceAs (Decidable (_ → _ → _))
  | .begin _ | .crash _ _ | .move _ => .isTrue trivial

/-- Undisturbed steps without a stale acquisition. -/
abbrev freshRuns (p : Payment) : Guard system ι Thrown Unit :=
  fun s a => Undisturbed s a ∧ FreshAcquire p s a

/-! ### What keeps a charge from being repeated -/

/-- The call's charge has been accepted, and is to be voided should the saga fail. -/
def Stage.hasCharge : Stage → Bool
  | .authorized | .captured | .posting | .written => true
  | .unwinding todo _ kept => kept && todo.contains .voidAuthorization
  | _ => false

theorem Stage.holds_of_hasCharge {g : Stage} (h : g.hasCharge = true) : g.holds = true := by
  cases g <;> simp_all [Stage.hasCharge, Stage.holds]

/-- With the stores up, a charged call stays charged until it voids the charge or has
its result cached. -/
theorem Stage.Edge.hasCharge_step {job : Job} {g g' : Stage} {o : Op} {r : o.Ret}
    (h : Edge job g o r g') (hup : o.isStore = true → o.Rejected r = false)
    (hg : g.hasCharge = true) :
    g'.hasCharge = true ∨
      (∃ txn, (⟨o, r⟩ : Event effects) = ⟨.voidAuthorization txn, ()⟩) ∨
      (∃ key v, (⟨o, r⟩ : Event effects) = ⟨.storeResult key v, .ok ()⟩) := by
  cases h
  case voidAuthorization txn => exact Or.inr (Or.inl ⟨txn, rfl⟩)
  case store v => exact Or.inr (Or.inr ⟨_, v, rfl⟩)
  case writeErr => exact absurd (hup rfl) (by simp [Op.Rejected])
  case storeErr => exact absurd (hup rfl) (by simp [Op.Rejected])
  case reverseLedger r =>
    cases r with
    | error e => exact absurd (hup rfl) (by simp [Op.Rejected])
    | ok _ => exact Or.inl (by simpa [Stage.hasCharge] using hg)
  all_goals
    simp_all [Stage.hasCharge, remaining, injectedSagaFailure, Thrown.nullish]

/-- An accepted charge takes the call from the lock to the charge. -/
theorem Stage.Edge.of_charge {job : Job} {g g' : Stage} {q : Payment} {v : GatewayResponse}
    (h : Edge job g (.gatewayProcess q) (.ok v) g') (hv : v.success = true) :
    g = .locked ∧ g' = .authorized := by
  cases h with
  | charge => exact ⟨rfl, rfl⟩
  | decline hv' => simp_all

/-- What keeps a charge from being repeated. -/
structure ChargeInv (t : Standing) (σ : ι → Stage) (log : List (LogEntry ι)) : Prop where
  holder : SoleHolder t σ
  /-- Without a cached result, only the holder can have charged. -/
  owned : t.result = none → ∀ c, Pending (charged c) (voided c) log →
    (σ c).hasCharge = true
  /-- Nothing is charged when a call sets out to charge. -/
  clean : ∀ c, σ c = .locked → ∀ d, ¬ Pending (charged d) (voided d) log
  safe : NoDoubleCharge log

theorem of_charged_reply {c d : ι} {o : Op} {r : o.Ret}
    (h : charged d (.reply c ⟨o, r⟩ : LogEntry ι) = true) :
    d = c ∧ ∃ q v, (⟨o, r⟩ : Event effects) = ⟨.gatewayProcess q, .ok v⟩ ∧
      v.success = true := by
  unfold charged at h
  split at h
  · next heq =>
    simp only [Entry.reply.injEq] at heq
    obtain ⟨rfl, heq⟩ := heq
    simp only [Bool.and_eq_true, decide_eq_true_eq] at h
    exact ⟨h.1.symm, _, _, heq, h.2⟩
  · exact absurd h (by simp)

/-- What is charged after a reply was charged by it, or was charged before it and is
not voided by it. -/
theorem pending_charge_reply {c d : ι} {o : Op} {r : o.Ret} {log : List (LogEntry ι)}
    (h : Pending (charged d) (voided d) (.reply c ⟨o, r⟩ :: log)) :
    (d = c ∧ ∃ q v, (⟨o, r⟩ : Event effects) = ⟨.gatewayProcess q, .ok v⟩ ∧
      v.success = true) ∨
    (Pending (charged d) (voided d) log ∧
      (d = c → ∀ txn, (⟨o, r⟩ : Event effects) ≠ ⟨.voidAuthorization txn, ()⟩)) := by
  rcases pending_cons.mp h with hA | ⟨hR, hlog⟩
  · exact Or.inl (of_charged_reply hA)
  · refine Or.inr ⟨hlog, ?_⟩
    intro hd txn heq
    subst hd
    simp only [heq, voided, decide_eq_false_iff_not, not_true_eq_false] at hR

namespace ChargeInv

variable {t t' : Standing} {σ : ι → Stage} {log : List (LogEntry ι)} {job : Job}
variable {c : ι} {o : Op} {r : o.Ret} {g : Stage}

/-- Whoever acquires the lock finds nothing charged. -/
theorem of_acquire (h : ChargeInv t σ log) (hlock : t.locked = false)
    (hres : t.result = none) (d : ι) : ¬ Pending (charged d) (voided d) log := by
  intro hd
  have := holds_of_hasCharge (h.owned hres d hd)
  simp [h.holder.of_acquire hlock hres d] at this

theorem step (h : ChargeInv t σ log) (hT : Edge job (σ c) o r g) (ht : t.Step o r t')
    (hup : o.isStore = true → o.Rejected r = false)
    (hfresh : (⟨o, r⟩ : Event effects) = ⟨.acquireLock job.data.idempotencyKey, .ok true⟩ →
      t.result = none) :
    ChargeInv t' (Function.update σ c g) (.reply c ⟨o, r⟩ :: log) := by
  -- a charge is made from the lock, and then the log is clean
  have hcharge : ∀ q v, (⟨o, r⟩ : Event effects) = ⟨.gatewayProcess q, .ok v⟩ →
      v.success = true → σ c = .locked ∧ g = .authorized := by
    intro q v heq hv
    cases heq
    exact hT.of_charge hv
  have howned : t'.result = none → ∀ d,
      Pending (charged d) (voided d) (.reply c ⟨o, r⟩ :: log) →
      ((Function.update σ c g) d).hasCharge = true := by
    intro hres' d hd
    rcases pending_charge_reply hd with ⟨rfl, q, v, heq, hv⟩ | ⟨hpend, hnv⟩
    · obtain ⟨-, rfl⟩ := hcharge q v heq hv
      simp [Stage.hasCharge]
    have hch := h.owned (ht.result_kept hres') d hpend
    by_cases hdc : d = c
    · subst hdc
      rw [Function.update_self]
      rcases hT.hasCharge_step hup hch with hg | ⟨txn, heq⟩ | ⟨key, v, ⟨⟩⟩
      · exact hg
      · exact absurd heq (hnv rfl txn)
      · simp [ht.of_storeResult] at hres'
    · rwa [Function.update_of_ne hdc]
  have hclean : ∀ d, (Function.update σ c g) d = .locked → ∀ e,
      ¬ Pending (charged e) (voided e) (.reply c ⟨o, r⟩ :: log) := by
    intro d hd e he
    rcases pending_charge_reply he with ⟨rfl, q, v, heq, hv⟩ | ⟨hpend, -⟩
    · obtain ⟨he', rfl⟩ := hcharge q v heq hv
      by_cases hdc : d = e
      · subst hdc
        simp at hd
      · rw [Function.update_of_ne hdc] at hd
        exact hdc (h.holder.exclusive d e (by rw [hd]; rfl) (by rw [he']; rfl))
    · by_cases hdc : d = c
      · subst hdc
        rw [Function.update_self] at hd
        subst hd
        rcases hT.locked_of with ⟨hlocked, -⟩ | ⟨-, ⟨⟩⟩
        · exact h.clean d hlocked e hpend
        · obtain ⟨hl, -⟩ := ht.of_acquireLock
          exact h.of_acquire hl (hfresh rfl) e hpend
      · exact h.clean d (by rwa [Function.update_of_ne hdc] at hd) e hpend
  refine ⟨h.holder.step hT ht hfresh, howned, hclean, throughout_cons.mpr ⟨?_, h.safe⟩⟩
  intro d hd e
  obtain ⟨-, q, v, heq, hv⟩ := of_charged_reply hd
  exact h.clean c (hcharge q v heq hv).1 e

/-- Entries that are no charge and no void change nothing. -/
theorem of_quiet (h : ChargeInv t σ log) {e : LogEntry ι} (he : quiet e = true) :
    ChargeInv t σ (e :: log) := by
  have hA : ∀ d, charged d e = false := by
    rcases quiet_iff.mp he with ⟨c, rfl⟩ | ⟨ms, rfl⟩ <;> exact fun _ => rfl
  have hR : ∀ d, voided d e = false := by
    rcases quiet_iff.mp he with ⟨c, rfl⟩ | ⟨ms, rfl⟩ <;> exact fun _ => rfl
  refine ⟨h.holder, ?_, ?_, throughout_cons.mpr ⟨?_, h.safe⟩⟩
  · intro hres d hd
    exact h.owned hres d ((pending_skip (hA d) (hR d)).mp hd)
  · intro d hd e he
    exact h.clean d hd e ((pending_skip (hA e) (hR e)).mp he)
  · intro d hd
    simp [hA d] at hd

end ChargeInv

/-- **No double charge.** In every run without crash, expiry and store failure, of any
number of overlapping calls, in which no call acquires the lock on a stale lookup:
`gateway.process` returns success again only after the earlier success was voided. -/
theorem no_double_charge {jobs : ι → Job} {p : Payment} {w : World}
    (hjobs : ∀ c, (jobs c).data = p) {s : State ι}
    (h : Run (freshRuns p) (processes jobs w) s) : NoDoubleCharge s.log := by
  have h₀ : ChargeInv (w.standing p) (fun _ : ι => .entering) [] := by
    refine ⟨.start, ?_, ?_, throughout_nil⟩ <;> simp
  obtain ⟨σ, hI⟩ := run_calm (I := ChargeInv) hjobs (fun hG => hG.1.1)
    (fun hG => hG.1.2.1) h₀ (fun hI he => hI.of_quiet he)
    (fun hI hG hc hw hT ht => hI.step hT ht
      (fun ho => hG.1.2.2.not_rejected hc ho hw)
      (by
        intro heq
        cases heq
        exact hG.2 (by rw [hc, hjobs]) ht.of_acquireLock.1)) h
  exact hI.safe

/-- Two overlapping calls, one of which charges while the other is turned away. -/
theorem no_double_charge_overlapping :
    ∃ s, Run (freshRuns cardPayment) (processes (fun _ : Fin 2 => cardJob 0) startedUp) s ∧
      s.log.any (charged 0) = true ∧ NoDoubleCharge s.log := by
  have hrun : ∃ s, Run (freshRuns cardPayment)
      (processes (fun _ : Fin 2 => cardJob 0) startedUp) s ∧
      s.log.any (charged 0) = true :=
    Run.exists_of_exec (approach 0 ++ approach 1 ++ takeAndCharge 0 ++
      [.answer 1 .resolve] ++ captureAndPost 0) (by decide +kernel)
  obtain ⟨s, h, hcharged⟩ := hrun
  exact ⟨s, h, hcharged, no_double_charge (by intro c; rfl) h⟩

/-- Two overlapping calls that both charge: the second acquires the lock, which the
first has dropped, on lookups older than the first one's result. -/
theorem double_charge_reachable :
    ∃ s, Run Undisturbed (processes (fun _ : Fin 2 => cardJob 0) startedUp) s ∧
      ¬ NoDoubleCharge s.log :=
  Run.exists_of_exec
    (approach 0 ++ approach 1 ++ takeAndCharge 0 ++ captureAndPost 0 ++ takeAndCharge 1)
    (by decide +kernel)

end PaymentQueue
