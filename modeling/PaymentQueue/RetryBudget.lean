import PaymentQueue.GivingUp

/-!
# PaymentQueue.RetryBudget

How many attempts does a payment get whose saga always fails?

`enqueue` sets `attempts` to `maxRetries + 1`, the first try plus the retries. `process`
takes an attempt for the last one as soon as `attemptsMade + 1 ≥ maxRetries`, which is
one attempt early for every `maxRetries ≥ 1`: after `maxRetries` sagas the payment is
dead-lettered and the job returns (`retry_budget_cut`). Only a failing handling of that
failure lets the job go on to the attempt it is entitled to (`retry_budget_iff`).
-/

namespace PaymentQueue

open Async Stage

/-- The handling of a failed saga does not go through: the error has no message to report,
the lock is not released, or the failure cannot be reported. -/
def mishandled (payment : Payment) (tr : List ProcEvent) : Bool :=
  (match sagaOutcome payment tr with
    | some (.error e) => e.nullish
    | _ => false) ||
  tr.any isReleaseReject || tr.any isBurialReject

/-- The number of attempts that ran the saga. -/
def sagaRuns (payment : Payment) (runs : List Tried) : Nat :=
  runs.countP fun out => (sagaOutcome payment out.events).isSome

/-- The saga was run `n + 1` times, and the payment dead-lettered in attempt `n + 1` and in
no other. Attempts are counted from zero, as `attemptsMade` does. -/
def ExactBudget (payment : Payment) (n : Nat) (runs : List Tried) : Prop :=
  sagaRuns payment runs = n + 1 ∧
    ∀ k out, runs[k]? = some out → (out.events.any isDeadLettered = true ↔ k = n)

/-- The gates let the attempt through, it acquired the lock, and its saga failed in a way
that may be retried. -/
def failsRetryably (payment : Payment) (tr : List ProcEvent) : Bool :=
  match sagaOutcome payment tr with
  | some (.error e) => decide (classifyFailure e ≠ .permanent)
  | _ => false

theorem of_failsRetryably {payment : Payment} {tr : List ProcEvent}
    (h : failsRetryably payment tr = true) :
    ∃ e, sagaOutcome payment tr = some (.error e) ∧ classifyFailure e ≠ .permanent := by
  unfold failsRetryably at h
  split at h
  · next e he => exact ⟨e, he, by simpa using h⟩
  · exact absurd h (by simp)

/-- An attempt whose saga failed retryably: it is left to another attempt if the job
seems to have one, or if the handling fails. -/
theorem Outcome.of_failsRetryably {job : Job} {tr : List ProcEvent}
    {res : Except Thrown Unit} (h : Outcome job tr res)
    (hfail : failsRetryably job.data tr = true) :
    (tr.any isDeadLettered = true ↔ Exhausted job ∧ mishandled job.data tr = false) ∧
      (tr.any isDeadLettered = false → Attempt.threw ⟨tr, res⟩ = true) := by
  obtain ⟨e, hsaga, herr⟩ := PaymentQueue.of_failsRetryably hfail
  obtain ⟨hdead, hthrew⟩ := h.of_failed hsaga
  have hopen : LeftOpen job tr e ↔ ¬ (Exhausted job ∧ mishandled job.data tr = false) := by
    simp only [LeftOpen, mishandled, hsaga, ne_eq, herr, not_false_eq_true, true_and,
      Bool.or_eq_false_iff, not_and_or, Bool.not_eq_false]
    tauto
  refine ⟨by rw [hdead, hopen, not_not], fun hd => hthrew ?_⟩
  by_contra hcon
  simp [hdead.mpr hcon] at hd

/-- **The retry budget.** When the saga of every attempt fails in a way that may be
retried: an enqueued payment gets its `maxRetries + 1` sagas, and is dead-lettered in the
last of them, exactly if the handling of the failure goes wrong in each attempt that
`process` takes for the last one but is not, and not in the one that is. -/
theorem retry_budget_iff {q : QueueManager} {payment : Payment} {delayMs : Option Int}
    {job : QueuedJob} {runs : List Tried} {n : Nat} (hretries : payment.maxRetries = n)
    (hdelay : QueueManager.delayed delayMs = false)
    (hadd : q.enqueue payment delayMs = .ok job) (h : job.Runs runs)
    (hfail : ∀ out ∈ runs, failsRetryably payment out.events = true) :
    ExactBudget payment n runs ↔
      ∀ k out, runs[k]? = some out → Exhausted (job.attempt k) →
        (mishandled payment out.events = true ↔ k < n) := by
  obtain ⟨hdata, htries⟩ := QueueManager.enqueue_now hdelay hadd
  have hattempts : job.attempts = n + 1 := by omega
  subst hdata
  have hexh : ∀ k : ℕ, Exhausted (job.attempt k) ↔ n ≤ k + 1 := by
    intro k
    show (k : Int) + 1 ≥ job.data.maxRetries ↔ n ≤ k + 1
    omega
  have hout : ∀ {k : ℕ} {out : Tried}, runs[k]? = some out →
      (out.events.any isDeadLettered = true ↔
        Exhausted (job.attempt k) ∧ mishandled job.data out.events = false) ∧
      (out.events.any isDeadLettered = false → out.threw = true) := by
    intro k out hk
    have := h.executed hk
    rw [Nat.zero_add] at this
    exact (process_outcome this).of_failsRetryably (hfail out (List.mem_of_getElem? hk))
  have hlt : ∀ {k : ℕ} {out : Tried}, runs[k]? = some out → k ≤ n := by
    intro k out hk
    have := (List.getElem?_eq_some_iff.mp hk).1
    have := h.length_le
    omega
  constructor
  · intro hbudgeted k out hk hex
    obtain ⟨-, hbudget⟩ := hbudgeted
    have hdead := (hout hk).1.symm.trans (hbudget k out hk)
    have := hlt hk
    cases hm : mishandled job.data out.events with
    | true =>
        simp only [hm, Bool.true_eq_false, and_false, false_iff] at hdead
        simp only [true_iff]
        omega
    | false =>
        simp only [hm, hex, and_self, true_iff] at hdead
        simp [hdead]
  · intro hcond
    have hdead : ∀ k out, runs[k]? = some out →
        (out.events.any isDeadLettered = true ↔ k = n) := by
      intro k out hk
      have := hlt hk
      rw [(hout hk).1]
      constructor
      · intro hlast
        obtain ⟨hex, hm⟩ := hlast
        have := (hcond k out hk hex).not.mp (by simp [hm])
        omega
      · intro heq
        subst heq
        have hex := (hexh k).mpr (by omega)
        exact ⟨hex, by simpa using (hcond k out hk hex).not.mpr (by omega)⟩
    have hlength : runs.length = n + 1 := by
      rw [← hattempts]
      refine h.length_eq fun k out hk hleft => (hout hk).2 ?_
      have := (hdead k out hk).not.mpr (by omega)
      simpa using this
    refine ⟨?_, hdead⟩
    rw [← hlength, sagaRuns, List.countP_eq_length]
    intro out hmem
    obtain ⟨e, he, -⟩ := of_failsRetryably (hfail out hmem)
    simp [he]

/-- A payment without retries: one saga, and then the dead-letter queue. -/
theorem retry_budget_zero :
    ∃ runs, ExactBudget (cardPaymentWith 0) 0 runs ∧
      (ExactBudget (cardPaymentWith 0) 0 runs ↔
        ∀ k out, runs[k]? = some out → Exhausted ((cardQueued 0).attempt k) →
          (mishandled (cardPaymentWith 0) out.events = true ↔ k < 0)) := by
  have hrun : ∃ runs w', JobRun (fun k => process ((cardQueued 0).attempt k)) 0 1 runs ∧
      system.Answers startedUp (runs.flatMap (·.events)) w' ∧
      ((∀ out ∈ runs, failsRetryably (cardPaymentWith 0) out.events = true) ∧
        ∀ out ∈ runs, mishandled (cardPaymentWith 0) out.events = false) :=
    Machine.exists_of_soloJob [chargeFails ++ List.replicate 3 .resolve] (by decide +kernel)
  obtain ⟨runs, -, h, -, hfail, hmis⟩ := hrun
  have hiff := retry_budget_iff (n := 0) rfl rfl (enqueue_cardPayment 0) h hfail
  refine ⟨runs, hiff.mpr fun k out hk _ => ?_, hiff⟩
  simp [hmis out (List.mem_of_getElem? hk)]

/-- A payment with three retries whose charge always times out: the third attempt is taken
for the last, and there is no fourth. The `add` of the dead letter resolves here; if BullMQ
refuses its id, there is a fourth attempt, and never a dead letter. -/
theorem retry_budget_cut :
    ∃ runs w', (cardQueued 3).Runs runs ∧
      system.Answers startedUp (runs.flatMap (·.events)) w' ∧
      ((∀ out ∈ runs, failsRetryably cardPayment out.events = true) ∧
        sagaRuns cardPayment runs = 3 ∧ ¬ ExactBudget cardPayment 3 runs) := by
  have hrun : ∃ runs w', (cardQueued 3).Runs runs ∧
      system.Answers startedUp (runs.flatMap (·.events)) w' ∧
      ((∀ out ∈ runs, failsRetryably cardPayment out.events = true) ∧
        sagaRuns cardPayment runs = 3) :=
    Machine.exists_of_soloJob [chargeFails, chargeFails,
      chargeFails ++ List.replicate 3 .resolve] (by decide +kernel)
  obtain ⟨runs, w', h, hans, hfail, hruns⟩ := hrun
  refine ⟨runs, w', h, hans, hfail, hruns, fun hbudget => ?_⟩
  have := hbudget.1
  omega

end PaymentQueue
