import Mathlib.Data.Rat.Floor
import Mathlib.Tactic.Linarith
import PaymentQueue.Async.History
import PaymentQueue.Async.Object
import PaymentQueue.CircuitBreaker

/-!
# PaymentQueue.LoadShedding

How many attempts reach a gateway whose breaker has tripped?

A breaker that is not CLOSED admits at most `halfOpenTrialCount` attempts in each
HALF_OPEN episode, and the next episode begins `openDurationMs` or more after it re-opened.
So among the admissions of such a stretch each is `openDurationMs` later than all but the
last `halfOpenTrialCount` (`Shedding.spaced`), whatever outcomes are reported in between.
-/

namespace PaymentQueue

open Async

namespace CircuitBreaker

/-- A call of a method, with the time it is made at. `recordSuccess` does not look at the
clock. -/
inductive Call
  | canAttempt (now : Int)
  | recordSuccess (now : Int)
  | recordFailure (now : Int)
  deriving DecidableEq

/-- When the call is made. -/
def Call.now : Call → Int
  | canAttempt now | recordSuccess now | recordFailure now => now

/-- What the call returns. -/
def Call.Ret : Call → Type
  | canAttempt _ => Bool
  | recordSuccess _ | recordFailure _ => Unit

/-- The breaker as an object. -/
def object : Object CircuitBreaker Call Call.Ret where
  run b
    | .canAttempt now => b.canAttempt now
    | .recordSuccess _ => ((), b.recordSuccess)
    | .recordFailure now => ((), b.recordFailure now)

/-- The time of the call, if it is an attempt and the breaker admits it. -/
def admission (b : CircuitBreaker) : Call → List Int
  | .canAttempt now => if (b.canAttempt now).1 then [now] else []
  | _ => []

/-- The time of the call, if it is a failure that takes the breaker to OPEN. -/
def opening (b : CircuitBreaker) (c : Call) : List Int :=
  if b.state ≠ .open ∧ (object.next b c).state = .open then [c.now] else []

/-- The times of the admissions in a history of calls. -/
def admissions (b : CircuitBreaker) (cs : List Call) : List Int :=
  (object.gains admission b cs).flatten

/-- When the breaker last entered OPEN in a history of calls. -/
def lastOpening (b : CircuitBreaker) (cs : List Call) : Option Int :=
  (object.gains opening b cs).flatten.getLast?

/-- The history is in the order of time. -/
abbrev InOrder (cs : List Call) : Prop := cs.Pairwise fun c d => c.now ≤ d.now

/-- The breaker is CLOSED at no point of the history. -/
def Shedding (b : CircuitBreaker) (cs : List Call) : Prop :=
  ∀ n ≤ cs.length, (object.after b (cs.take n)).state ≠ .closed

instance (b : CircuitBreaker) (cs : List Call) : Decidable (Shedding b cs) :=
  inferInstanceAs (Decidable (∀ n ≤ cs.length, _))

section

variable {b : CircuitBreaker} {cs : List Call} {c : Call}

@[simp] theorem next_opts : (object.next b c).opts = b.opts := by
  cases c with
  | canAttempt now => exact b.canAttempt_opts now
  | recordSuccess now => exact b.recordSuccess_opts
  | recordFailure now => exact b.recordFailure_opts now

@[simp] theorem object_opts : (object.after b cs).opts = b.opts := by
  induction cs generalizing b with
  | nil => rfl
  | cons c cs ih => simp [ih]

theorem admissions_append (cs' : List Call) :
    b.admissions (cs ++ cs') = b.admissions cs ++ (object.after b cs).admissions cs' := by
  simp [admissions, Object.gains_append]

theorem admissions_append_singleton :
    b.admissions (cs ++ [c]) = b.admissions cs ++ (object.after b cs).admission c := by
  simp [admissions, Object.gains_append]

theorem lastOpening_append_singleton :
    b.lastOpening (cs ++ [c]) =
      ((object.after b cs).opening c).getLast?.or (b.lastOpening cs) := by
  simp [lastOpening, Object.gains_append, List.getLast?_append]

end

/-! ### What one call does -/

/-- What a call of a breaker can lead to. -/
inductive Outcome (b : CircuitBreaker) (c : Call) (b' : CircuitBreaker) : Prop
  | closed (hb' : b'.state = .closed)
  /-- A failure opens the breaker, as of now. -/
  | opened (hb' : b'.state = .open) (hat : b'.openedAt = c.now) (hnone : b.admission c = [])
  /-- The breaker goes on as before. -/
  | same (hb' : b'.state = b.state) (hat : b'.openedAt = b.openedAt)
      (htrials : b'.halfOpenInFlight = b.halfOpenInFlight) (hnone : b.admission c = [])
  /-- `openDurationMs` has elapsed, and the breaker begins to try out the gateway. -/
  | tried (hb : b.state = .open)
      (helapsed : b.opts.openDurationMs ≤ ((c.now - b.openedAt : Int) : ℚ))
      (hb' : b'.state = .halfOpen)
      (hadm : b.admission c = [] ∨
        (b.admission c = [c.now] ∧ 0 < b.opts.halfOpenTrialCount ∧ b'.halfOpenInFlight = 1))
  /-- One more trial. -/
  | trial (hb : b.state = .halfOpen) (hfree : b.halfOpenInFlight < b.opts.halfOpenTrialCount)
      (hb' : b'.state = .halfOpen) (htrials : b'.halfOpenInFlight = b.halfOpenInFlight + 1)
      (hadm : b.admission c = [c.now])

theorem next_outcome (b : CircuitBreaker) (c : Call) : Outcome b c (object.next b c) := by
  cases c with
  | canAttempt now =>
      show Outcome b _ (b.canAttempt now).2
      rcases b.canAttempt_cases now with ⟨hb, heq⟩ | ⟨hb, -, heq⟩ | ⟨hb, helapsed, heq⟩ | ⟨hb, heq⟩
      · rw [heq]
        exact .closed hb
      · rw [heq]
        exact .same rfl rfl rfl (by simp [admission, heq])
      · rcases b.tryOut.admitTrial_cases with ⟨-, hadm⟩ | ⟨hfree, hadm⟩
        · rw [heq, hadm]
          exact .tried hb helapsed rfl (Or.inl (by simp [admission, heq, hadm]))
        · rw [heq, hadm]
          exact .tried hb helapsed rfl
            (Or.inr ⟨by simp [admission, heq, hadm, Call.now], hfree, rfl⟩)
      · rcases b.admitTrial_cases with ⟨-, hadm⟩ | ⟨hfree, hadm⟩
        · rw [heq, hadm]
          exact .same rfl rfl rfl (by simp [admission, heq, hadm])
        · rw [heq, hadm]
          exact .trial hb hfree hb rfl (by simp [admission, heq, hadm, Call.now])
  | recordSuccess now =>
      show Outcome b _ b.recordSuccess
      rcases b.recordSuccess_cases with ⟨-, hb', hat, htrials⟩ | ⟨hb, -, hb', hat, htrials, -⟩ |
        ⟨-, -, hb'⟩
      · exact .same hb' hat htrials rfl
      · exact .same (hb'.trans hb.symm) hat htrials rfl
      · exact .closed hb'
  | recordFailure now =>
      show Outcome b _ (b.recordFailure now)
      rcases b.recordFailure_cases now with ⟨hb', hat⟩ | ⟨-, hb', hat, htrials⟩
      · exact .opened hb' hat rfl
      · exact .same hb' hat htrials rfl

/-! ### When the breaker was last opened -/

/-- What the state of the breaker has to do with when it was last opened. -/
structure SinceOpening (b₀ : CircuitBreaker) (cs : List Call) (b : CircuitBreaker) : Prop where
  tripped : b.state ≠ .closed → ∃ t, b₀.lastOpening cs = some t
  made : ∀ t ∈ b₀.lastOpening cs, ∃ d ∈ cs, d.now = t
  opened : b.state = .open → ∀ t ∈ b₀.lastOpening cs, t ≤ b.openedAt
  tried : b.state = .halfOpen → ∀ t ∈ b₀.lastOpening cs,
    ∃ d ∈ cs, b.opts.openDurationMs ≤ ((d.now - t : Int) : ℚ)

variable {b₀ b : CircuitBreaker} {cs : List Call} {c : Call}

/-- A call that does not take the breaker to OPEN leaves its last opening as it was. -/
theorem lastOpening_of_not_opening
    (h : (object.next (object.after b₀ cs) c).state = .open →
      (object.after b₀ cs).state = .open) :
    b₀.lastOpening (cs ++ [c]) = b₀.lastOpening cs := by
  rw [lastOpening_append_singleton, opening, if_neg fun hand => hand.1 (h hand.2)]
  rfl

theorem lastOpening_of_opening (h : (object.after b₀ cs).state ≠ .open)
    (h' : (object.next (object.after b₀ cs) c).state = .open) :
    b₀.lastOpening (cs ++ [c]) = some c.now := by
  rw [lastOpening_append_singleton, opening, if_pos ⟨h, h'⟩]
  rfl

theorem mem_lastOpening {t : Int} (ht : t ∈ b₀.lastOpening (cs ++ [c])) :
    t = c.now ∨ t ∈ b₀.lastOpening cs := by
  rw [lastOpening_append_singleton, opening] at ht
  split at ht
  · exact Or.inl (Option.some.inj ht).symm
  · exact Or.inr ht

theorem SinceOpening.step (hnow : ∀ d ∈ cs, d.now ≤ c.now)
    (h : SinceOpening b₀ cs (object.after b₀ cs)) :
    SinceOpening b₀ (cs ++ [c]) (object.next (object.after b₀ cs) c) := by
  have hmade : ∀ t ∈ b₀.lastOpening (cs ++ [c]), ∃ d ∈ cs ++ [c], d.now = t := by
    intro t ht
    rcases mem_lastOpening ht with rfl | ht
    · exact ⟨c, by simp, rfl⟩
    · obtain ⟨d, hd, hdt⟩ := h.made t ht
      exact ⟨d, List.mem_append_left _ hd, hdt⟩
  have hpast : ∀ t ∈ b₀.lastOpening (cs ++ [c]), t ≤ c.now := by
    intro t ht
    obtain ⟨d, hd, rfl⟩ := hmade t ht
    rcases List.mem_append.mp hd with hd | hd
    · exact hnow d hd
    · rw [List.mem_singleton.mp hd]
  cases next_outcome (object.after b₀ cs) c with
  | closed hb' => exact ⟨fun h => absurd hb' h, hmade, by simp [hb'], by simp [hb']⟩
  | opened hb' hat _ =>
      refine ⟨fun _ => ?_, hmade, fun _ t ht => (hpast t ht).trans_eq hat.symm, by simp [hb']⟩
      by_cases hb : (object.after b₀ cs).state = .open
      · rw [lastOpening_of_not_opening fun _ => hb]
        exact h.tripped (by simp [hb])
      · exact ⟨c.now, lastOpening_of_opening hb hb'⟩
  | same hb' hat _ _ =>
      have hlast : b₀.lastOpening (cs ++ [c]) = b₀.lastOpening cs :=
        lastOpening_of_not_opening fun hopen => hb'.symm.trans hopen
      refine ⟨?_, hmade, ?_, ?_⟩
      · rw [hb', hlast]
        exact h.tripped
      · rw [hb', hat, hlast]
        exact h.opened
      · intro hhalf t ht
        rw [hlast] at ht
        obtain ⟨d, hd, hdt⟩ := h.tried (hb' ▸ hhalf) t ht
        exact ⟨d, List.mem_append_left _ hd, by rwa [next_opts]⟩
  | tried hb helapsed hb' _ =>
      have hlast : b₀.lastOpening (cs ++ [c]) = b₀.lastOpening cs :=
        lastOpening_of_not_opening fun _ => hb
      refine ⟨fun _ => hlast ▸ h.tripped (by simp [hb]), hmade, by simp [hb'],
        fun _ t ht => ⟨c, by simp, ?_⟩⟩
      rw [hlast] at ht
      have hle := h.opened hb t ht
      rw [next_opts]
      refine helapsed.trans ?_
      exact_mod_cast by omega
  | trial hb _ hb' _ _ =>
      have hlast : b₀.lastOpening (cs ++ [c]) = b₀.lastOpening cs :=
        lastOpening_of_not_opening fun hopen => by simp [hb'] at hopen
      refine ⟨fun _ => hlast ▸ h.tripped (by simp [hb]), hmade, by simp [hb'], fun _ t ht => ?_⟩
      rw [hlast] at ht
      obtain ⟨d, hd, hdt⟩ := h.tried hb t ht
      exact ⟨d, List.mem_append_left _ hd, by rwa [next_opts]⟩

/-- The invariant at every point of a history. -/
theorem SinceOpening.after (opts : CircuitBreakerOptions) (hcs : InOrder cs) :
    SinceOpening { opts := opts } cs (object.after { opts := opts } cs) :=
  object.induct_history _ cs ⟨by simp, by simp [lastOpening], by simp, by simp⟩
    (fun _ _ hnow h => h.step hnow) hcs

/-! ### The admissions of a stretch -/

/-- What a breaker that is not CLOSED has admitted so far, latest first. -/
structure ShedInv (cs : List Call) (admitted : List Int) (b : CircuitBreaker) : Prop where
  spaced : Spaced b.opts.halfOpenTrialCount b.opts.openDurationMs (admitted.map Int.cast)
  made : ∀ t ∈ admitted, ∃ d ∈ cs, d.now = t
  opened : b.state = .open → ∀ t ∈ admitted, t ≤ b.openedAt
  /-- All but the trials of the current episode are `openDurationMs` ago. -/
  tried : b.state = .halfOpen → ∀ t ∈ admitted.drop b.halfOpenInFlight,
    ∃ d ∈ cs, b.opts.openDurationMs ≤ ((d.now - t : Int) : ℚ)

theorem spaced_cons {k n : Nat} {D : ℚ} {now : Int} {admitted : List Int}
    (h : Spaced k D (admitted.map Int.cast)) (hn : n < k)
    (hold : ∀ t ∈ admitted.drop n, D ≤ ((now - t : Int) : ℚ)) :
    Spaced k D ((now :: admitted).map Int.cast) := by
  refine ⟨fun t' ht' => ?_, h⟩
  obtain ⟨j, rfl⟩ : ∃ j, k = j + 1 := ⟨k - 1, by omega⟩
  rw [List.drop_succ_cons, ← List.map_drop] at ht'
  obtain ⟨t, ht, rfl⟩ := List.mem_map.mp ht'
  have hgap := hold t (List.drop_subset_drop_left _ (by omega) ht)
  push_cast at hgap
  linarith

theorem ShedInv.step {admitted : List Int} (hnow : ∀ d ∈ cs, d.now ≤ c.now)
    (hb' : (object.next b c).state ≠ .closed) (h : ShedInv cs admitted b) :
    ShedInv (cs ++ [c]) (b.admission c ++ admitted) (object.next b c) := by
  have hmade : ∀ t ∈ admitted, ∃ d ∈ cs ++ [c], d.now = t := by
    intro t ht
    obtain ⟨d, hd, hdt⟩ := h.made t ht
    exact ⟨d, List.mem_append_left _ hd, hdt⟩
  have hpast : ∀ t ∈ admitted, t ≤ c.now := by
    intro t ht
    obtain ⟨d, hd, rfl⟩ := h.made t ht
    exact hnow d hd
  cases next_outcome b c with
  | closed hclosed => exact absurd hclosed hb'
  | opened hopen hat hnone =>
      rw [hnone]
      exact ⟨by simpa using h.spaced, hmade, fun _ t ht => (hpast t ht).trans_eq hat.symm,
        by simp [hopen]⟩
  | same hsame hat htrials hnone =>
      rw [hnone]
      refine ⟨by simpa using h.spaced, hmade, by rw [hsame, hat]; exact h.opened, ?_⟩
      intro hhalf t ht
      rw [htrials] at ht
      obtain ⟨d, hd, hdt⟩ := h.tried (hsame ▸ hhalf) t ht
      exact ⟨d, List.mem_append_left _ hd, by simpa using hdt⟩
  | tried hb helapsed hhalf hadm =>
      have hold : ∀ t ∈ admitted, b.opts.openDurationMs ≤ ((c.now - t : Int) : ℚ) := by
        intro t ht
        have hle := h.opened hb t ht
        refine helapsed.trans ?_
        exact_mod_cast by omega
      rcases hadm with hnone | ⟨hadm, hpos, htrials⟩
      · rw [hnone]
        refine ⟨by simpa using h.spaced, hmade, by simp [hhalf], fun _ t ht => ?_⟩
        exact ⟨c, by simp, by simpa using hold t (List.mem_of_mem_drop ht)⟩
      · rw [hadm]
        refine ⟨?_, ?_, by simp [hhalf], fun _ t ht => ?_⟩
        · rw [next_opts]
          exact spaced_cons h.spaced hpos hold
        · exact List.forall_mem_cons.mpr ⟨⟨c, by simp, rfl⟩, hmade⟩
        · rw [htrials] at ht
          exact ⟨c, by simp, by simpa using hold t ht⟩
  | trial hb hfree hhalf htrials hadm =>
      have hold : ∀ t ∈ admitted.drop b.halfOpenInFlight,
          b.opts.openDurationMs ≤ ((c.now - t : Int) : ℚ) := by
        intro t ht
        obtain ⟨d, hd, hdt⟩ := h.tried hb t ht
        have hle := hnow d hd
        refine hdt.trans ?_
        exact_mod_cast by omega
      rw [hadm]
      refine ⟨?_, ?_, by simp [hhalf], fun _ t ht => ?_⟩
      · rw [next_opts]
        exact spaced_cons h.spaced hfree hold
      · exact List.forall_mem_cons.mpr ⟨⟨c, by simp, rfl⟩, hmade⟩
      · rw [htrials] at ht
        exact ⟨c, by simp, by simpa using hold t ht⟩

theorem Shedding.init (h : Shedding b (cs ++ [c])) : Shedding b cs := by
  intro n hn
  have hn' := h n (by simp; omega)
  rwa [List.take_append_of_le_length hn] at hn'

/-- The invariant at every point of a stretch. -/
theorem ShedInv.after (hcs : InOrder cs) (hshed : Shedding b cs) :
    ShedInv cs (b.admissions cs).reverse (object.after b cs) := by
  refine object.induct_history (I := fun cs s =>
    Shedding b cs → ShedInv cs (b.admissions cs).reverse s) b cs ?_ ?_ hcs hshed
  · intro _
    exact ⟨trivial, by simp [admissions], by simp [admissions], by simp [admissions]⟩
  · intro cs c hnow h hshed
    have hb' : (object.next (object.after b cs) c).state ≠ .closed := by
      have hlast := hshed (cs ++ [c]).length le_rfl
      rwa [List.take_length, Object.after_append_singleton] at hlast
    have hrev : (b.admissions (cs ++ [c])).reverse =
        (object.after b cs).admission c ++ (b.admissions cs).reverse := by
      rw [admissions_append_singleton, List.reverse_append]
      congr 1
      cases c with
      | canAttempt now =>
          simp only [admission]
          split <;> rfl
      | recordSuccess now | recordFailure now => rfl
    rw [hrev]
    exact (h hshed.init).step hnow hb'

/-- **Load shedding.** In every stretch `cs` of a run in which the breaker is never CLOSED,
whatever calls led up to it (`before`): at most `halfOpenTrialCount` attempts are admitted in
each `openDurationMs` begun of a time window of length `L`, and none is admitted before
`openDurationMs` has passed since the breaker last entered OPEN. -/
theorem load_shedding {opts : CircuitBreakerOptions} (hD : 0 < opts.openDurationMs)
    {before cs : List Call} (hcs : InOrder (before ++ cs))
    (hshed : Shedding (object.after { opts := opts } before) cs) :
    (∀ a L : ℚ, (((object.after { opts := opts } before).admissions cs).filter
        fun t : Int => a ≤ (t : ℚ) ∧ (t : ℚ) ≤ a + L).length ≤
      opts.halfOpenTrialCount * (⌊L / opts.openDurationMs⌋₊ + 1)) ∧
    ∀ n now, cs[n]? = some (.canAttempt now) →
      ((object.after { opts := opts } (before ++ cs.take n)).canAttempt now).1 = true →
      ∃ opened, lastOpening { opts := opts } (before ++ cs.take n) = some opened ∧
        opts.openDurationMs ≤ ((now - opened : Int) : ℚ) := by
  constructor
  · intro a L
    have hspaced : Spaced opts.halfOpenTrialCount opts.openDurationMs
        (((object.after { opts := opts } before).admissions cs).reverse.map Int.cast) := by
      have hinv := ShedInv.after (hcs.sublist (List.sublist_append_right before cs)) hshed
      simpa using hinv.spaced
    have hL : L < (⌊L / opts.openDurationMs⌋₊ + 1 : Nat) • opts.openDurationMs := by
      rw [nsmul_eq_mul, ← div_lt_iff₀ hD]
      exact_mod_cast Nat.lt_floor_add_one (L / opts.openDurationMs)
    -- the admissions in the window are spaced as all of them are
    have hsub := ((List.filter_sublist
      (p := fun t : Int => decide (a ≤ (t : ℚ) ∧ (t : ℚ) ≤ a + L))
      (l := (object.after { opts := opts } before).admissions cs)).reverse.map
        (Int.cast : Int → ℚ))
    have hlen := (hspaced.sublist hsub).length_le (a := a)
      (q := ⌊L / opts.openDurationMs⌋₊ + 1) fun t ht => ?_
    · simpa using hlen
    · simp only [List.mem_map, List.mem_reverse, List.mem_filter, decide_eq_true_eq] at ht
      obtain ⟨t, ⟨-, ha, hle⟩, rfl⟩ := ht
      exact ⟨ha, by linarith⟩
  · intro n now hn hadm
    obtain ⟨hlt, hget⟩ := List.getElem?_eq_some_iff.mp hn
    -- the calls up to the attempt are in the order of time
    have horder : InOrder (before ++ cs.take n ++ [.canAttempt now]) := by
      have hprefix : cs.take n ++ [.canAttempt now] = cs.take (n + 1) := by
        rw [List.take_succ_eq_append_getElem hlt, hget]
      rw [List.append_assoc, hprefix]
      exact hcs.sublist ((List.take_sublist (n + 1) cs).append_left before)
    rw [InOrder, List.pairwise_append] at horder
    have hinv := SinceOpening.after opts horder.1
    have hb : (object.after { opts := opts } (before ++ cs.take n)).state ≠ .closed := by
      rw [Object.after_append]
      exact hshed n hlt.le
    obtain ⟨opened, hopened⟩ := hinv.tripped hb
    refine ⟨opened, hopened, ?_⟩
    rcases canAttempt_cases (object.after { opts := opts } (before ++ cs.take n)) now with
      ⟨hclosed, -⟩ | ⟨-, -, heq⟩ | ⟨hopen, helapsed, -⟩ | ⟨hhalf, -⟩
    · exact absurd hclosed hb
    · simp [heq] at hadm
    · have hle := hinv.opened hopen opened hopened
      rw [object_opts] at helapsed
      refine helapsed.trans ?_
      exact_mod_cast by omega
    · obtain ⟨d, hd, hdt⟩ := hinv.tried hhalf opened hopened
      have hle : d.now ≤ now := horder.2.2 d hd _ (List.mem_singleton_self _)
      rw [object_opts] at hdt
      refine hdt.trans ?_
      exact_mod_cast by omega

/-- Five failures trip the breaker; half a minute later three of four attempts are
admitted, one of them fails, and so it goes on. -/
theorem load_shedding_outage :
    (((object.after {} (List.replicate 5 (.recordFailure 0))).admissions
        ([.canAttempt 30000, .canAttempt 30000, .canAttempt 30001, .canAttempt 30002,
          .recordFailure 31000, .canAttempt 60999, .canAttempt 61000])).filter
      fun t : Int => (30000 : ℚ) ≤ (t : ℚ) ∧ (t : ℚ) ≤ 30000 + 31000).length ≤
      3 * (⌊(31000 : ℚ) / 30000⌋₊ + 1) :=
  (@load_shedding .defaults (by decide +kernel) _ _ (by decide) (by decide +kernel)).1 30000
    31000

end CircuitBreaker

end PaymentQueue
