import Mathlib.Data.Finset.Card
import PaymentQueue.LoadShedding

/-!
# PaymentQueue.Recovery

Attempts on one breaker, and how the breaker recovers.

An attempt asks `canAttempt` and, when it is admitted, later reports one outcome; between
the two any number of other attempts may come and go. When every admitted attempt has
reported, `halfOpenTrialCount` successes in a row close the breaker (`recovers`): no trial
is lost as long as every attempt reports.
-/

namespace PaymentQueue

open Async

namespace CircuitBreaker

/-- How far an attempt has got. -/
inductive Progress
  | waiting
  /-- Admitted, and still to report its outcome. -/
  | outstanding
  | over
  deriving DecidableEq

/-- A log entry: who called which method, and the breaker before and after. -/
structure Entry (ι : Type) where
  attempt : ι
  call : Call
  admitted : Bool
  before : CircuitState
  after : CircuitState

/-- Attempts on one breaker, the latest clock reading, and the log, latest entry first. -/
structure Attempts (ι : Type) where
  breaker : CircuitBreaker
  now : Int
  progress : ι → Progress
  log : List (Entry ι)

variable {ι : Type} [DecidableEq ι]

/-- The call is an attempt that the breaker admits. -/
def admits (b : CircuitBreaker) : Call → Bool
  | .canAttempt now => (b.canAttempt now).1
  | _ => false

/-- The attempts as an object: a call of the breaker's methods by one of them. -/
def attempts : Object (Attempts ι) (ι × Call) (fun c => c.2.Ret) where
  run s c :=
    ((object.run s.breaker c.2).1,
      { breaker := object.next s.breaker c.2
        now := c.2.now
        progress := Function.update s.progress c.1
          (if s.breaker.admits c.2 then .outstanding else .over)
        log := { attempt := c.1, call := c.2, admitted := s.breaker.admits c.2,
                 before := s.breaker.state
                 after := (object.next s.breaker c.2).state } :: s.log })

/-- Attempts on a new breaker. -/
def Attempts.start (ι : Type) (opts : CircuitBreakerOptions) (now : Int) : Attempts ι where
  breaker := { opts := opts }
  now := now
  progress _ := .waiting
  log := []

/-- An attempt begins with `canAttempt`, and reports once if it is admitted. The clock does
not go back. -/
def InTurn (s : Attempts ι) : ι × Call → Prop
  | (c, .canAttempt now) => s.progress c = .waiting ∧ s.now ≤ now
  | (c, .recordSuccess now) | (c, .recordFailure now) =>
      s.progress c = .outstanding ∧ s.now ≤ now

instance (s : Attempts ι) : DecidablePred (InTurn s)
  | (_, .canAttempt _) | (_, .recordSuccess _) | (_, .recordFailure _) =>
      inferInstanceAs (Decidable (_ ∧ _))

omit [DecidableEq ι] in
theorem InTurn.not_over {s : Attempts ι} {a : ι} {call : Call} (h : InTurn s (a, call)) :
    s.progress a ≠ .over := by
  cases call with
  | canAttempt now | recordSuccess now | recordFailure now =>
      obtain ⟨hprogress, -⟩ := h
      simp [hprogress]

/-! ### Every trial is accounted for -/

variable {s : Attempts ι} {c : ι × Call} {opts : CircuitBreakerOptions} {start : Int}

/-- The attempts in `owing` are outstanding, and among them are all those that the breaker
still counts on. -/
def Owed (s : Attempts ι) (owing : Finset ι) : Prop :=
  (∀ c ∈ owing, s.progress c = .outstanding) ∧ s.breaker.Accounted s.now owing.card

theorem Owed.canAttempt {owing : Finset ι} {a : ι} {now : Int}
    (hk : 1 ≤ s.breaker.opts.halfOpenTrialCount) (hc : InTurn s (a, .canAttempt now))
    (h : Owed s owing) : ∃ owing, Owed (attempts.next s (a, .canAttempt now)) owing := by
  obtain ⟨howing, hacc⟩ := h
  obtain ⟨hwaiting, hnow⟩ := hc
  have hnew : a ∉ owing := fun ha => by simp [howing a ha] at hwaiting
  have hkeep : ∀ (g : Progress), ∀ d ∈ owing,
      Function.update s.progress a g d = .outstanding := by
    intro g d hd
    have hda : d ≠ a := by
      intro hda
      exact hnew (hda ▸ hd)
    rw [Function.update_of_ne hda]
    exact howing d hd
  have hadm := (hacc.mono hnow le_rfl).canAttempt hk now
  cases hb : (s.breaker.canAttempt now).1 with
  | true =>
      refine ⟨insert a owing, ?_, ?_⟩
      · rw [Finset.forall_mem_insert]
        exact ⟨by simp [attempts, Object.next, admits, hb], hkeep _⟩
      · rw [Finset.card_insert_of_notMem hnew]
        rw [hb, if_pos rfl] at hadm
        exact hadm
  | false =>
      rw [hb, if_neg Bool.false_ne_true] at hadm
      exact ⟨owing, hkeep _, hadm⟩

theorem Owed.recordSuccess {owing : Finset ι} {a : ι} {now : Int}
    (hc : InTurn s (a, .recordSuccess now)) (h : Owed s owing) :
    ∃ owing, Owed (attempts.next s (a, .recordSuccess now)) owing := by
  obtain ⟨howing, hacc⟩ := h
  refine ⟨owing.erase a, fun d hd => ?_, ?_⟩
  · obtain ⟨hda, hd⟩ := Finset.mem_erase.mp hd
    show Function.update s.progress a _ d = _
    rw [Function.update_of_ne hda]
    exact howing d hd
  · have hcard : owing.card ≤ (owing.erase a).card + 1 := by
      have := Finset.pred_card_le_card_erase (s := owing) (a := a)
      omega
    exact (hacc.mono hc.2 hcard).recordSuccess

theorem Owed.recordFailure {owing : Finset ι} {a : ι} {now : Int}
    (hc : InTurn s (a, .recordFailure now)) (h : Owed s owing) :
    ∃ owing, Owed (attempts.next s (a, .recordFailure now)) owing :=
  ⟨∅, by simp, (h.2.mono hc.2 le_rfl).recordFailure 0⟩

theorem attempts_breaker (s : Attempts ι) (c : ι × Call) :
    (attempts.next s c).breaker = object.next s.breaker c.2 := rfl

/-- However the attempts interleave, the breaker counts on none but outstanding ones. -/
theorem exists_owed (hk : 1 ≤ opts.halfOpenTrialCount)
    (h : attempts.Reached InTurn (Attempts.start ι opts start) s) :
    s.breaker.opts = opts ∧ ∃ owing, Owed s owing := by
  induction h with
  | start => exact ⟨rfl, ∅, by simp, .of_new⟩
  | @step s c _ hc ih =>
      obtain ⟨hopts, owing, h⟩ := ih
      refine ⟨by rw [attempts_breaker, next_opts, hopts], ?_⟩
      obtain ⟨a, call⟩ := c
      cases call with
      | canAttempt now => exact h.canAttempt (hopts ▸ hk) hc
      | recordSuccess now => exact h.recordSuccess hc
      | recordFailure now => exact h.recordFailure hc

/-! ### Rounds of trials -/

/-- A round is an attempt and its success, at the times given. -/
def rounds (times : List (Int × Int)) : List Call :=
  times.flatMap fun t => [.canAttempt t.1, .recordSuccess t.2]

/-- How many successes the breaker needs to be CLOSED. -/
def missing (b : CircuitBreaker) : Nat :=
  match b.state with
  | .closed => 0
  | .open => b.opts.halfOpenTrialCount
  | .halfOpen => b.opts.halfOpenTrialCount - b.halfOpenSuccesses

variable {b : CircuitBreaker} {now : Int}

theorem missing_canAttempt (h : (b.canAttempt now).1 = true) :
    (b.canAttempt now).2.missing = b.missing ∧ (b.canAttempt now).2.state ≠ .open := by
  rcases b.canAttempt_cases now with ⟨hb, heq⟩ | ⟨-, -, heq⟩ | ⟨hb, -, heq⟩ | ⟨hb, heq⟩
  · rw [heq]
    exact ⟨rfl, by simp [hb]⟩
  · simp [heq] at h
  · rcases b.tryOut.admitTrial_cases with ⟨-, hadm⟩ | ⟨-, hadm⟩
    · simp [heq, hadm] at h
    · rw [heq, hadm]
      simp [missing, transition, hb]
  · rcases b.admitTrial_cases with ⟨-, hadm⟩ | ⟨-, hadm⟩
    · simp [heq, hadm] at h
    · rw [heq, hadm]
      simp [missing, hb]

theorem missing_recordSuccess (hb : b.state ≠ .open) :
    b.recordSuccess.missing ≤ b.missing - 1 ∧ b.recordSuccess.state ≠ .open := by
  rcases b.recordSuccess_cases with ⟨hhalf, hb', -⟩ | ⟨hhalf, -, hb', -, -, hsucc⟩ |
    ⟨-, -, hb'⟩
  · have hclosed : b.state = .closed := by
      cases hs : b.state with
      | closed => rfl
      | «open» => exact absurd hs hb
      | halfOpen => exact absurd hs hhalf
    simp [missing, hb', hclosed]
  · simp only [missing, hb', hhalf, hsucc, recordSuccess_opts]
    exact ⟨by omega, by simp⟩
  · simp [missing, hb']

/-- A round is admitted and brings the breaker a success nearer to CLOSED. -/
theorem Accounted.round (h : b.Accounted now 0) (hk : 1 ≤ b.opts.halfOpenTrialCount)
    {t : Int × Int}
    (helapsed : b.state = .open → b.opts.openDurationMs ≤ ((t.1 - b.openedAt : Int) : ℚ)) :
    b.admissions (rounds [t]) = [t.1] ∧
      (object.after b (rounds [t])).Accounted now 0 ∧
      (object.after b (rounds [t])).state ≠ .open ∧
      (object.after b (rounds [t])).missing ≤ b.missing - 1 := by
  have hadm := h.admits_of_elapsed hk helapsed
  have hacc := h.canAttempt hk t.1
  rw [hadm, if_pos rfl] at hacc
  obtain ⟨hmissing, hopen⟩ := missing_canAttempt hadm
  obtain ⟨hmissing', hopen'⟩ := missing_recordSuccess hopen
  refine ⟨?_, hacc.recordSuccess, hopen', hmissing'.trans (by omega)⟩
  show (b.admission (.canAttempt t.1) ++ ([] ++ [])) = _
  simp [admission, hadm]

/-- Each of the rounds is admitted, and brings the breaker a success nearer to CLOSED. -/
theorem Accounted.rounds (h : b.Accounted now 0) (hk : 1 ≤ b.opts.halfOpenTrialCount)
    (times : List (Int × Int)) (helapsed : b.state = .open → ∀ t ∈ times,
      b.opts.openDurationMs ≤ ((t.1 - b.openedAt : Int) : ℚ)) :
    b.admissions (rounds times) = times.map Prod.fst ∧
      (object.after b (rounds times)).Accounted now 0 ∧
      (times ≠ [] → (object.after b (rounds times)).state ≠ .open) ∧
      (object.after b (rounds times)).missing ≤ b.missing - times.length := by
  induction times generalizing b with
  | nil => exact ⟨rfl, h, fun hne => absurd rfl hne, le_rfl⟩
  | cons t times ih =>
      obtain ⟨hadm, hacc, hopen, hmissing⟩ :=
        h.round hk fun hb => helapsed hb t List.mem_cons_self
      have hopts : (object.after b (CircuitBreaker.rounds [t])).opts = b.opts := object_opts
      obtain ⟨hadms, hacc', hopen', hmissing'⟩ :=
        ih hacc (hopts ▸ hk) fun hb => absurd hb hopen
      have hsplit : CircuitBreaker.rounds (t :: times) =
          CircuitBreaker.rounds [t] ++ CircuitBreaker.rounds times := rfl
      rw [hsplit, admissions_append, hadm, hadms, Object.after_append]
      refine ⟨rfl, hacc', fun _ => ?_, ?_⟩
      · cases times with
        | nil => exact hopen
        | cons t' times => exact hopen' (List.cons_ne_nil _ _)
      · rw [List.length_cons]
        omega

/-- A breaker that is not open and needs no more successes is CLOSED. -/
theorem Accounted.closed_of_missing (h : b.Accounted now 0) (hopen : b.state ≠ .open)
    (hmissing : b.missing = 0) : b.state = .closed := by
  cases hs : b.state with
  | closed => rfl
  | «open» => exact absurd hs hopen
  | halfOpen =>
      have := h.unfinished hs
      simp only [missing, hs] at hmissing
      omega

theorem missing_le (b : CircuitBreaker) : b.missing ≤ b.opts.halfOpenTrialCount := by
  unfold missing
  split <;> omega

/-- **Recovery.** However attempts that each report once have interleaved on a breaker: when
none of them is outstanding, `halfOpenTrialCount` rounds of an attempt and its success, begun
`openDurationMs` or more after the breaker opened, are all admitted and leave it CLOSED. -/
theorem recovers {ι : Type} [DecidableEq ι] {opts : CircuitBreakerOptions}
    (hk : 1 ≤ opts.halfOpenTrialCount) {start : Int} {s : Attempts ι}
    (h : attempts.Reached InTurn (Attempts.start ι opts start) s)
    (hrest : ∀ c, s.progress c ≠ .outstanding) {times : List (Int × Int)}
    (htimes : times.length = opts.halfOpenTrialCount)
    (helapsed : s.breaker.state = .open →
      ∀ t ∈ times, opts.openDurationMs ≤ ((t.1 - s.breaker.openedAt : Int) : ℚ)) :
    s.breaker.admissions (rounds times) = times.map Prod.fst ∧
      (object.after s.breaker (rounds times)).state = .closed := by
  obtain ⟨rfl, owing, howing, hacc⟩ := exists_owed hk h
  have hempty : owing = ∅ :=
    Finset.eq_empty_of_forall_notMem fun c hc => hrest c (howing c hc)
  rw [hempty] at hacc
  obtain ⟨hadm, hacc', hopen, hmissing⟩ := hacc.rounds hk times helapsed
  have hne : times ≠ [] := by
    intro hnil
    simp only [hnil, List.length_nil] at htimes
    omega
  have hle := s.breaker.missing_le
  exact ⟨hadm, hacc'.closed_of_missing (hopen hne) (by omega)⟩

/-- Five attempts fail, which trips the breaker; half a minute later three close it. -/
theorem recovers_outage :
    let s := attempts.after (Attempts.start (Fin 5) .defaults 0)
      ([0, 1, 2, 3, 4].map (fun c => (c, .canAttempt 0)) ++
        [0, 1, 2, 3, 4].map fun c => (c, .recordFailure 10))
    let times := [(30010, 30400), (30500, 30900), (30900, 31000)]
    s.breaker.state = .open ∧ s.breaker.admissions (rounds times) = times.map Prod.fst ∧
      (object.after s.breaker (rounds times)).state = .closed :=
  ⟨by decide +kernel, @recovers (Fin 5) _ .defaults (by decide) 0 _
    (Object.Reached.start.of_allowed (by decide +kernel)) (by decide +kernel) _ rfl
    (by decide +kernel)⟩

end CircuitBreaker

end PaymentQueue
