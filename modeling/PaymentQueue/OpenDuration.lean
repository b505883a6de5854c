import PaymentQueue.TripCondition

/-!
# PaymentQueue.OpenDuration

How long does an open breaker stay open?

While the breaker is OPEN it refuses every attempt, but attempts that it admitted before may
still report. A success changes nothing; a failure after which the record warrants opening
opens the breaker once more, as of that failure (`Retriggered`), although it is open already.
So an attempt made `openDurationMs` after the breaker entered OPEN is admitted exactly if no
such failure came less than `openDurationMs` before it (`open_duration_iff`).
-/

namespace PaymentQueue

namespace CircuitBreaker

open Async

/-- Among the calls `between`, made after those `before`, a failure at time `t` is reported
after which the record warrants opening. -/
def Retriggered (opts : CircuitBreakerOptions) (before between : List Call) (t : Int) : Prop :=
  ∃ pre post, between = pre ++ .recordFailure t :: post ∧
    Warrants opts (recorded (before ++ pre ++ [.recordFailure t]))

section

variable {opts : CircuitBreakerOptions} {before between : List Call} {c : Call} {t : Int}

theorem not_retriggered_nil : ¬ Retriggered opts before [] t := by
  rintro ⟨pre, post, heq, -⟩
  simp at heq

theorem retriggered_append_singleton :
    Retriggered opts before (between ++ [c]) t ↔ Retriggered opts before between t ∨
      (c = .recordFailure t ∧ Warrants opts (recorded (before ++ between ++ [c]))) := by
  constructor
  · rintro ⟨pre, post, heq, hwarr⟩
    cases post using List.reverseRecOn with
    | nil =>
        obtain ⟨rfl, hc⟩ := List.append_inj' heq rfl
        obtain rfl : c = .recordFailure t := by simpa using hc
        exact Or.inr ⟨rfl, hwarr⟩
    | append_singleton post d =>
        rw [← List.cons_append, ← List.append_assoc] at heq
        exact Or.inl ⟨pre, post, (List.append_inj' heq rfl).1, hwarr⟩
  · rintro (⟨pre, post, rfl, hwarr⟩ | ⟨rfl, hwarr⟩)
    · exact ⟨pre, post ++ [c], by simp, hwarr⟩
    · exact ⟨between, [], rfl, hwarr⟩

theorem Retriggered.mem (h : Retriggered opts before between t) :
    .recordFailure t ∈ between := by
  obtain ⟨pre, post, rfl, -⟩ := h
  simp

end

/-! ### A breaker that stays open -/

/-- The breaker has been open since `opened`, and counts from the latest failure that
warranted opening it. -/
structure Waits (opened : Int) (before between : List Call) (b : CircuitBreaker) : Prop where
  state : b.state = .open
  since : opened ≤ b.openedAt
  latest : ∀ t, Retriggered b.opts before between t → t ≤ b.openedAt
  source : b.openedAt = opened ∨ Retriggered b.opts before between b.openedAt

section

variable {b : CircuitBreaker} {opened : Int} {before between : List Call} {c : Call} {now : Int}

/-- An attempt that comes too early is refused. -/
theorem Waits.refuses (h : Waits opened before between b)
    (hearly : ((now - opened : Int) : ℚ) < b.opts.openDurationMs) :
    b.canAttempt now = (false, b) := by
  have hsince := h.since
  refine canAttempt_of_early h.state (lt_of_le_of_lt ?_ hearly)
  exact_mod_cast by omega

/-- A call that retriggers nothing and leaves the breaker open as of when it was. -/
theorem Waits.keep {b' : CircuitBreaker} (h : Waits opened before between b)
    (hstate : b'.state = b.state) (hat : b'.openedAt = b.openedAt) (hopts : b'.opts = b.opts)
    (hc : ∀ t, c = .recordFailure t → ¬ Warrants b.opts (recorded (before ++ between ++ [c]))) :
    Waits opened before (between ++ [c]) b' := by
  have hsame : ∀ t, Retriggered b'.opts before (between ++ [c]) t ↔
      Retriggered b.opts before between t := by
    intro t
    rw [hopts, retriggered_append_singleton]
    exact or_iff_left fun hand => hc t hand.1 hand.2
  refine ⟨hstate.trans h.state, hat ▸ h.since, fun t ht => ?_, ?_⟩
  · rw [hat]
    exact h.latest t ((hsame t).mp ht)
  · rw [hsame, hat]
    exact h.source

/-- What any call does to an open breaker that it finds too early to try the gateway. -/
theorem Waits.step (h : Waits opened before between b)
    (hkeeps : Keeps (recorded (before ++ between)) b) (hopened : opened ≤ c.now)
    (hnow : ∀ d ∈ between, d.now ≤ c.now)
    (hearly : ∀ t, c = .canAttempt t → ((t - opened : Int) : ℚ) < b.opts.openDurationMs) :
    Waits opened before (between ++ [c]) (object.next b c) := by
  cases c with
  | canAttempt t =>
      show Waits _ _ _ (b.canAttempt t).2
      rw [h.refuses (hearly t rfl)]
      exact h.keep rfl rfl rfl (by simp)
  | recordSuccess t =>
      show Waits _ _ _ b.recordSuccess
      rcases b.recordSuccess_cases with ⟨-, hstate, hat, -⟩ | ⟨hhalf, -⟩ | ⟨hhalf, -⟩
      · exact h.keep hstate hat b.recordSuccess_opts (by simp)
      · exact absurd (h.state.symm.trans hhalf) (by decide)
      · exact absurd (h.state.symm.trans hhalf) (by decide)
  | recordFailure t =>
      show Waits _ _ _ (b.recordFailure t)
      have hrecord : recorded (before ++ between) ++ [false] =
          recorded (before ++ between ++ [.recordFailure t]) := by
        rw [recorded_append_singleton]
        rfl
      rcases hkeeps.recordFailure_cases (by simp [h.state]) t with ⟨hwarr, heq⟩ | ⟨hwarr, heq⟩
      · -- open already, it opens once more
        rw [hrecord] at hwarr
        rw [heq]
        refine ⟨rfl, hopened, fun t' ht' => ?_, Or.inr ?_⟩
        · rcases retriggered_append_singleton.mp ht' with hold | ⟨heq', -⟩
          · exact hnow _ hold.mem
          · exact (Call.recordFailure.inj heq').ge
        · exact retriggered_append_singleton.mpr (Or.inr ⟨rfl, hwarr⟩)
      · rw [hrecord] at hwarr
        rw [heq]
        exact h.keep rfl rfl rfl fun _ _ => hwarr

variable {opts : CircuitBreakerOptions}

/-- The breaker waits all the time until an attempt finds that `openDurationMs` has elapsed
since it entered OPEN. -/
theorem Waits.after (h : Waits opened before [] (object.after { opts := opts } before))
    (hopened : ∀ d ∈ between, opened ≤ d.now) (hcs : InOrder between)
    (hearly : ∀ t, .canAttempt t ∈ between → ((t - opened : Int) : ℚ) < opts.openDurationMs) :
    Waits opened before between (object.after { opts := opts } (before ++ between)) := by
  induction between using List.reverseRecOn with
  | nil => simpa using h
  | append_singleton between c ih =>
      rw [InOrder, List.pairwise_append] at hcs
      have hwaits := ih (fun d hd => hopened d (List.mem_append_left _ hd)) hcs.1
        fun t ht => hearly t (List.mem_append_left _ ht)
      rw [← List.append_assoc, Object.after_append_singleton]
      refine hwaits.step (keeps_after _) (hopened c (by simp))
        (fun d hd => hcs.2.2 d hd c (by simp)) fun t ht => ?_
      rw [object_opts]
      exact hearly t (by simp [ht])

/-- A call that takes the breaker to OPEN opens it as of when it is made. -/
theorem next_opened (hb : b.state ≠ .open) (hopen : (object.next b c).state = .open) :
    (object.next b c).openedAt = c.now := by
  cases next_outcome b c with
  | closed hb' => exact absurd (hb'.symm.trans hopen) (by decide)
  | opened _ hat _ => exact hat
  | same hb' => exact absurd (hb'.symm.trans hopen) hb
  | tried _ _ hb' | trial _ _ hb' => exact absurd (hb'.symm.trans hopen) (by decide)

/-- An open breaker that admits trials at all admits an attempt exactly if `openDurationMs`
has elapsed, and then tries out the gateway. -/
theorem canAttempt_open_iff (hb : b.state = .open) (hk : 1 ≤ b.opts.halfOpenTrialCount) :
    (b.canAttempt now).1 = true ∧ (b.canAttempt now).2.state = .halfOpen ↔
      b.opts.openDurationMs ≤ ((now - b.openedAt : Int) : ℚ) := by
  rcases lt_or_ge ((now - b.openedAt : Int) : ℚ) b.opts.openDurationMs with hlt | hle
  · rw [canAttempt_of_early hb hlt]
    simpa using hlt
  · rw [canAttempt_of_elapsed hb hle, admitTrial_state]
    rcases b.tryOut.admitTrial_cases with ⟨hused, -⟩ | ⟨-, hadm⟩
    · exact absurd (hk.trans hused) (by simp)
    · exact iff_of_true ⟨by rw [hadm], rfl⟩ hle

end

/-- **The open duration.** A call `c` takes the breaker to OPEN, and no attempt is made
`openDurationMs` or more after it, before one at `now`: this one is admitted and takes the
breaker to HALF_OPEN exactly if every failure reported since after which the record warrants
opening, lies `openDurationMs` or more before it too. -/
theorem open_duration_iff {opts : CircuitBreakerOptions} (hk : 1 ≤ opts.halfOpenTrialCount)
    {before between : List Call} {c : Call} {now : Int}
    (hcs : InOrder (before ++ [c] ++ between ++ [.canAttempt now]))
    (hbefore : (object.after { opts := opts } before).state ≠ .open)
    (hopen : (object.after { opts := opts } (before ++ [c])).state = .open)
    (hearly : ∀ t, .canAttempt t ∈ between → ((t - c.now : Int) : ℚ) < opts.openDurationMs)
    (hnow : opts.openDurationMs ≤ ((now - c.now : Int) : ℚ)) :
    let b := object.after { opts := opts } (before ++ [c] ++ between)
    ((b.canAttempt now).1 = true ∧ (b.canAttempt now).2.state = .halfOpen) ↔
      ∀ t, Retriggered opts (before ++ [c]) between t →
        opts.openDurationMs ≤ ((now - t : Int) : ℚ) := by
  intro b
  have hopts : b.opts = opts := object_opts
  rw [InOrder, List.pairwise_append, List.pairwise_append] at hcs
  obtain ⟨⟨-, hbetween, hafter⟩, -, -⟩ := hcs
  have hopened : (object.after { opts := opts } (before ++ [c])).openedAt = c.now := by
    rw [Object.after_append_singleton] at hopen ⊢
    exact next_opened hbefore hopen
  have hstart : Waits c.now (before ++ [c]) [] (object.after { opts := opts } (before ++ [c])) :=
    ⟨hopen, hopened.ge, fun t ht => absurd ht not_retriggered_nil, Or.inl hopened⟩
  have hwaits : Waits c.now (before ++ [c]) between b :=
    hstart.after (hafter c (by simp)) hbetween hearly
  rw [canAttempt_open_iff hwaits.state (by rwa [hopts]), hopts]
  have hlatest := hwaits.latest
  have hsource := hwaits.source
  rw [hopts] at hlatest hsource
  constructor
  · intro helapsed t ht
    have hle := hlatest t ht
    refine helapsed.trans ?_
    exact_mod_cast by omega
  · intro hall
    rcases hsource with hat | hat
    · rwa [hat]
    · exact hall _ hat

/-- Of six attempts admitted at once, five fail at time 0 and the sixth a second later. An
attempt that comes half a minute after that is the first one since and is admitted. -/
theorem open_duration_iff_later :
    let before := List.replicate 6 (Call.canAttempt 0) ++ List.replicate 4 (.recordFailure 0)
    let b := object.after { opts := .defaults }
      (before ++ [.recordFailure 0] ++ [.recordFailure 1000])
    (b.canAttempt 31000).1 = true ∧ (b.canAttempt 31000).2.state = .halfOpen := by
  have hbefore : (object.after {} (List.replicate 6 (Call.canAttempt 0) ++
      List.replicate 4 (.recordFailure 0))).state ≠ .open := by decide +kernel
  have hlate : ∀ t, Retriggered .defaults (List.replicate 6 (Call.canAttempt 0) ++
      List.replicate 4 (.recordFailure 0) ++ [.recordFailure 0]) [.recordFailure 1000] t →
      CircuitBreakerOptions.defaults.openDurationMs ≤ ((31000 - t : Int) : ℚ) := by
    intro t ht
    obtain rfl : t = 1000 := Call.recordFailure.inj (List.mem_singleton.mp ht.mem)
    decide +kernel
  exact (@open_duration_iff .defaults (by decide) _ _ (.recordFailure 0) 31000 (by decide)
    hbefore (by decide +kernel) (by simp) (by decide +kernel)).mpr hlate

/-- The same six attempts. Half a minute after the breaker entered OPEN it refuses the first
attempt made since, because of the failure reported a second after it had opened. -/
theorem open_duration_extended :
    let before := List.replicate 6 (Call.canAttempt 0) ++ List.replicate 4 (.recordFailure 0)
    let between : List Call := [.recordFailure 1000]
    let b := object.after {} (before ++ [.recordFailure 0] ++ between)
    InOrder (before ++ [.recordFailure 0] ++ between ++ [.canAttempt 30000]) ∧
      (admissions {} before).length = 6 ∧
      (object.after {} before).state = .closed ∧
      (object.after {} (before ++ [.recordFailure 0])).state = .open ∧
      CircuitBreakerOptions.defaults.openDurationMs ≤ ((30000 - 0 : Int) : ℚ) ∧
      (b.canAttempt 30000).1 = false ∧ (b.canAttempt 30000).2.state = .open := by
  decide +kernel

end CircuitBreaker

end PaymentQueue
