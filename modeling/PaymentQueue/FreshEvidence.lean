import PaymentQueue.Recovery

/-!
# PaymentQueue.FreshEvidence

On whose word does a breaker close?

`recordSuccess` does not know which attempt reports to it: an attempt admitted before the
breaker opened may report its success while the breaker is HALF_OPEN, where it counts like
the success of a trial. So a breaker can close without any trial having succeeded
(`closed_on_stale`). When no such report comes in, it closes only after
`halfOpenTrialCount` trials of the current episode have (`closed_on_evidence`).
-/

namespace PaymentQueue

open Async

namespace CircuitBreaker

variable {ι : Type}

/-- The entries of the log since the breaker last became HALF_OPEN, the call that made it so
included. -/
def episode : List (Entry ι) → List (Entry ι)
  | [] => []
  | e :: log => if e.before ≠ .halfOpen ∧ e.after = .halfOpen then [e] else e :: episode log

/-- The entry is a report of success. -/
def Entry.isSuccess (e : Entry ι) : Bool :=
  match e.call with
  | .recordSuccess _ => true
  | _ => false

/-- In these entries, `c` was admitted. -/
def Admitted (c : ι) (log : List (Entry ι)) : Prop :=
  ∃ e ∈ log, e.attempt = c ∧ e.admitted = true

section

variable {e : Entry ι} {log : List (Entry ι)} {c : ι}

theorem Admitted.cons (h : Admitted c log) : Admitted c (e :: log) := by
  obtain ⟨e', he', hc⟩ := h
  exact ⟨e', List.mem_cons_of_mem _ he', hc⟩

theorem episode_cons (h : e.before = .halfOpen) : episode (e :: log) = e :: episode log := by
  rw [episode, if_neg fun hand => hand.1 h]

theorem episode_subset : episode log ⊆ log := by
  induction log with
  | nil => exact List.Subset.refl _
  | cons e log ih =>
      rw [episode]
      split
      · simp
      · exact List.cons_subset_cons e ih

end

variable [DecidableEq ι]

instance (c : ι) (log : List (Entry ι)) : Decidable (Admitted c log) :=
  inferInstanceAs (Decidable (∃ e ∈ log, _))

/-- The attempts admitted during the current episode that have reported a success in it. -/
def evidence (log : List (Entry ι)) : Finset ι :=
  (((episode log).filter (·.isSuccess)).map (·.attempt)).toFinset.filter
    fun c => Admitted c (episode log)

/-- Whenever the breaker went from HALF_OPEN to CLOSED, `k` attempts admitted during that
episode had reported a success in it. -/
def ClosedOnEvidence (k : Nat) : List (Entry ι) → Prop :=
  Throughout fun e before =>
    e.before = .halfOpen → e.after = .closed → k ≤ (evidence (e :: before)).card

instance (k : Nat) (log : List (Entry ι)) : Decidable (ClosedOnEvidence k log) :=
  Throughout.decide log

/-- A success that is reported while the breaker is HALF_OPEN is that of an attempt admitted
during the episode. -/
def FreshReport (s : Attempts ι) : ι × Call → Prop
  | (c, .recordSuccess _) => s.breaker.state = .halfOpen → Admitted c (episode s.log)
  | _ => True

instance (s : Attempts ι) : DecidablePred (FreshReport s)
  | (_, .recordSuccess _) => inferInstanceAs (Decidable (_ → _))
  | (_, .canAttempt _) | (_, .recordFailure _) => .isTrue trivial

/-! ### The evidence grows within an episode -/

variable {e : Entry ι} {log : List (Entry ι)} {c : ι}

theorem mem_evidence : c ∈ evidence log ↔
    (∃ e ∈ episode log, e.isSuccess = true ∧ e.attempt = c) ∧ Admitted c (episode log) := by
  simp [evidence, and_assoc]

theorem evidence_subset (h : e.before = .halfOpen) : evidence log ⊆ evidence (e :: log) := by
  intro c hc
  obtain ⟨⟨e', he', hsucc⟩, hadm⟩ := mem_evidence.mp hc
  rw [mem_evidence, episode_cons h]
  exact ⟨⟨e', List.mem_cons_of_mem _ he', hsucc⟩, hadm.cons⟩

/-- A first success of an attempt admitted in the episode adds to the evidence. -/
theorem card_evidence_lt (hbefore : e.before = .halfOpen) (hsucc : e.isSuccess = true)
    (hadm : Admitted e.attempt (episode log))
    (hfirst : ∀ e' ∈ log, e'.isSuccess = true → e'.attempt ≠ e.attempt) :
    (evidence log).card + 1 ≤ (evidence (e :: log)).card := by
  have hnew : e.attempt ∉ evidence log := by
    intro hmem
    obtain ⟨⟨e', he', hsucc', heq⟩, -⟩ := mem_evidence.mp hmem
    exact hfirst e' (episode_subset he') hsucc' heq
  have hmem : e.attempt ∈ evidence (e :: log) := by
    rw [mem_evidence, episode_cons hbefore]
    exact ⟨⟨e, List.mem_cons_self, hsucc, rfl⟩, hadm.cons⟩
  rw [← Finset.card_insert_of_notMem hnew]
  exact Finset.card_le_card (Finset.insert_subset hmem (evidence_subset hbefore))

/-! ### Every counted success is fresh -/

/-- What a breaker has counted is evidence of the current episode. -/
structure FreshInv (k : Nat) (s : Attempts ι) : Prop where
  opts : s.breaker.opts.halfOpenTrialCount = k
  counted : s.breaker.state = .halfOpen → s.breaker.halfOpenSuccesses ≤ (evidence s.log).card
  reported : ∀ e ∈ s.log, e.isSuccess = true → s.progress e.attempt = .over
  closed : ClosedOnEvidence k s.log

namespace FreshInv

variable {k : Nat} {s : Attempts ι} {a : ι} {call : Call}

/-- What has been reported stays reported. -/
theorem reported_step (h : FreshInv k s) (hc : InTurn s (a, call)) :
    ∀ e ∈ (attempts.next s (a, call)).log, e.isSuccess = true →
      (attempts.next s (a, call)).progress e.attempt = .over := by
  intro e he hsucc
  show Function.update s.progress a _ e.attempt = .over
  rcases List.mem_cons.mp he with rfl | he
  · cases call with
    | recordSuccess now => simp [admits]
    | canAttempt now | recordFailure now => simp [Entry.isSuccess] at hsucc
  · have hover := h.reported e he hsucc
    have hne : e.attempt ≠ a := by
      intro heq
      exact hc.not_over (heq ▸ hover)
    rw [Function.update_of_ne hne]
    exact hover

/-- A call keeps the invariant when the breaker has not counted more than the evidence. -/
theorem step_of (h : FreshInv k s) (hc : InTurn s (a, call))
    (hcounted : (object.next s.breaker call).state = .halfOpen →
      (object.next s.breaker call).halfOpenSuccesses ≤
        (evidence (attempts.next s (a, call)).log).card)
    (hclosed : s.breaker.state = .halfOpen → (object.next s.breaker call).state = .closed →
      k ≤ (evidence (attempts.next s (a, call)).log).card) :
    FreshInv k (attempts.next s (a, call)) where
  opts := by rw [attempts_breaker, next_opts, h.opts]
  counted := hcounted
  reported := h.reported_step hc
  closed := ⟨hclosed, h.closed⟩

theorem canAttempt {now : Int} (h : FreshInv k s) (hc : InTurn s (a, .canAttempt now)) :
    FreshInv k (attempts.next s (a, .canAttempt now)) := by
  have hnext : object.next s.breaker (.canAttempt now) = (s.breaker.canAttempt now).2 := rfl
  rcases s.breaker.canAttempt_cases now with ⟨hb, heq⟩ | ⟨hb, -, heq⟩ | ⟨hb, -, heq⟩ | ⟨hb, heq⟩
  · exact h.step_of hc (by simp [hnext, heq, hb]) (by simp [hb])
  · exact h.step_of hc (by simp [hnext, heq, hb]) (by simp [hb])
  · exact h.step_of hc (by simp [hnext, heq]) (by simp [hb])
  · refine h.step_of hc (fun _ => ?_) (by simp [hnext, heq, hb])
    rw [hnext, heq, admitTrial_successes]
    exact (h.counted hb).trans (Finset.card_le_card (evidence_subset hb))

theorem recordSuccess {now : Int} (h : FreshInv k s) (hc : InTurn s (a, .recordSuccess now))
    (hfresh : FreshReport s (a, .recordSuccess now)) :
    FreshInv k (attempts.next s (a, .recordSuccess now)) := by
  have hnext : object.next s.breaker (.recordSuccess now) = s.breaker.recordSuccess := rfl
  have hmore : s.breaker.state = .halfOpen → s.breaker.halfOpenSuccesses + 1 ≤
      (evidence (attempts.next s (a, .recordSuccess now)).log).card := by
    intro hb
    have hfirst : ∀ e ∈ s.log, e.isSuccess = true → e.attempt ≠ a := by
      intro e he hsucc heq
      exact hc.not_over (heq ▸ h.reported e he hsucc)
    have hlt : (evidence s.log).card + 1 ≤
        (evidence (attempts.next s (a, .recordSuccess now)).log).card :=
      card_evidence_lt hb rfl (hfresh hb) hfirst
    exact (Nat.succ_le_succ (h.counted hb)).trans hlt
  rcases s.breaker.recordSuccess_cases with ⟨hb, hb', -⟩ | ⟨hb, -, hb', -, -, hsucc⟩ |
    ⟨hb, hk, hb'⟩
  · exact h.step_of hc (by simp [hnext, hb', hb]) (by simp [hb])
  · refine h.step_of hc (fun _ => ?_) (by simp [hnext, hb'])
    rw [hnext, hsucc]
    exact hmore hb
  · refine h.step_of hc (by simp [hnext, hb']) fun _ _ => ?_
    have hk' := h.opts
    have hcard := hmore hb
    omega

theorem recordFailure {now : Int} (h : FreshInv k s) (hc : InTurn s (a, .recordFailure now)) :
    FreshInv k (attempts.next s (a, .recordFailure now)) := by
  have hnext : object.next s.breaker (.recordFailure now) = s.breaker.recordFailure now := rfl
  rcases s.breaker.recordFailure_cases now with ⟨hb', -⟩ | ⟨hb, hb', -⟩
  · exact h.step_of hc (by simp [hnext, hb']) (by simp [hnext, hb'])
  · exact h.step_of hc (by simp [hnext, hb', hb]) (by simp [hb])

end FreshInv

/-- **Fresh evidence.** In every run of attempts in which no attempt from before the current
HALF_OPEN episode reports a success while the breaker is HALF_OPEN: whenever the breaker goes
from HALF_OPEN to CLOSED, `halfOpenTrialCount` attempts admitted during that episode have
reported a success in it. -/
theorem closed_on_evidence {opts : CircuitBreakerOptions} {start : Int} {s : Attempts ι}
    (h : attempts.Reached (fun s c => InTurn s c ∧ FreshReport s c)
      (Attempts.start ι opts start) s) :
    ClosedOnEvidence opts.halfOpenTrialCount s.log := by
  have hinv : FreshInv opts.halfOpenTrialCount s := by
    induction h with
    | start => exact ⟨rfl, by simp [Attempts.start], by simp [Attempts.start], trivial⟩
    | @step s c _ hG ih =>
        obtain ⟨a, call⟩ := c
        cases call with
        | canAttempt now => exact ih.canAttempt hG.1
        | recordSuccess now => exact ih.recordSuccess hG.1 hG.2
        | recordFailure now => exact ih.recordFailure hG.1
  exact hinv.closed

/-- The attempts before an outage: all are admitted at time 0, and the first five of them
fail. -/
def outage (ι : Type) [DecidableEq ι] (cs : List ι) : List (ι × Call) :=
  cs.map (fun c => (c, .canAttempt 0)) ++ (cs.take 5).map fun c => (c, .recordFailure 10)

/-- Three trials succeed after the outage, which closes the breaker. -/
theorem closed_on_evidence_trials :
    ∃ s : Attempts (Fin 8), attempts.Reached (fun s c => InTurn s c ∧ FreshReport s c)
        (Attempts.start (Fin 8) .defaults 0) s ∧
      (s.breaker.state = .closed ∧ s.breaker.halfOpenSuccesses = 3) ∧
      ClosedOnEvidence 3 s.log := by
  have hrun : ∃ s : Attempts (Fin 8), attempts.Reached (fun s c => InTurn s c ∧ FreshReport s c)
      (Attempts.start (Fin 8) .defaults 0) s ∧
      (s.breaker.state = .closed ∧ s.breaker.halfOpenSuccesses = 3) :=
    Object.Reached.exists_of_allowed (outage (Fin 8) [0, 1, 2, 3, 4] ++
      [(5, .canAttempt 30010), (6, .canAttempt 30020), (7, .canAttempt 30030),
        (6, .recordSuccess 30040), (5, .recordSuccess 30050), (7, .recordSuccess 30060)])
      (by decide +kernel) (by decide +kernel)
  obtain ⟨s, h, hs⟩ := hrun
  exact ⟨s, h, hs, closed_on_evidence h⟩

/-- Three attempts from before the outage succeed only when the breaker is HALF_OPEN, which
closes it while its one trial is still to report. -/
theorem closed_on_stale :
    ∃ s : Attempts (Fin 9), attempts.Reached InTurn (Attempts.start (Fin 9) .defaults 0) s ∧
      ¬ ClosedOnEvidence 3 s.log :=
  Object.Reached.exists_of_allowed (outage (Fin 9) [0, 1, 2, 3, 4, 5, 6, 7] ++
    [(8, .canAttempt 30010), (5, .recordSuccess 30020), (6, .recordSuccess 30030),
      (7, .recordSuccess 30040)])
    (by decide +kernel) (by decide +kernel)

end CircuitBreaker

end PaymentQueue
