import PaymentQueue.Holding

/-!
# PaymentQueue.Sequential

Runs in which the calls of one payment do not overlap.

Then the payment's standing, the stage of the one call in flight (if any) and the log
say everything. `run_sequential` is the induction rule for such runs: one step lemma
over the edges of the automaton, and one for each way an attempt can begin, end, or be
cut short by a crash.
-/

namespace PaymentQueue

open Async

variable {ι : Type} [DecidableEq ι]

/-- Redis keys expire between attempts only. -/
def ExpiryBetween (s : State ι) : Action system ι → Prop
  | .move (.expire _) => ∀ c, (s.thread c).inFlight = false
  | _ => True

instance [Fintype ι] (s : State ι) : DecidablePred (ExpiryBetween s)
  | .move (.expire _) => inferInstanceAs (Decidable (∀ _, _))
  | .move (.tick _) | .begin _ | .answer _ _ | .crash _ _ => .isTrue trivial

omit [DecidableEq ι] in
theorem NoExpiry.between {s : State ι} {a : Action system ι} (h : NoExpiry s a) :
    ExpiryBetween s a := by
  match a with
  | .move (.expire _) => exact h.elim
  | .move (.tick _) | .begin _ | .answer _ _ | .crash _ _ => trivial

/-- The stage of the one call in flight, as `I` needs it. -/
def Current (I : Option Stage → Prop) (s : State ι) (σ : ι → Stage) : Prop :=
  (∃ c, (s.thread c).inFlight = true ∧ (∀ d, d ≠ c → (s.thread d).inFlight = false) ∧
    I (some (σ c))) ∨
  ((∀ c, (s.thread c).inFlight = false) ∧ I none)

/-- After a step of call `c`, when no other is in flight: `c` is the current call, or
there is none. -/
theorem Current.of_acting {I : Option Stage → Prop} {s : State ι} {σ : ι → Stage} {c : ι}
    (hothers : ∀ d, d ≠ c → (s.thread d).inFlight = false)
    (hon : (s.thread c).inFlight = true → I (some (σ c)))
    (hover : (s.thread c).inFlight = false → I none) : Current I s σ := by
  cases hc : (s.thread c).inFlight with
  | true => exact Or.inl ⟨c, hc, hothers, hon hc⟩
  | false =>
      refine Or.inr ⟨fun d => ?_, hover hc⟩
      by_cases hd : d = c
      · rw [hd, hc]
      · exact hothers d hd

/-- The call that acts is the current one. -/
theorem Current.of_inFlight {I : Option Stage → Prop} {s : State ι} {σ : ι → Stage}
    {c : ι} (h : Current I s σ) (hc : (s.thread c).inFlight = true) :
    I (some (σ c)) ∧ ∀ d, d ≠ c → (s.thread d).inFlight = false := by
  rcases h with ⟨d, -, hothers, hI⟩ | ⟨hnone, -⟩
  · have hcd : c = d := by
      by_contra hne
      simp [hothers c hne] at hc
    subst hcd
    exact ⟨hI, hothers⟩
  · simp [hnone c] at hc

omit [DecidableEq ι] in
theorem Current.of_none {I : Option Stage → Prop} {s : State ι} {σ : ι → Stage}
    (h : Current I s σ) (hnone : ∀ c, (s.thread c).inFlight = false) : I none := by
  rcases h with ⟨d, hd, -⟩ | ⟨-, hI⟩
  · simp [hnone d] at hd
  · exact hI

omit [DecidableEq ι] in
theorem Current.imp {I I' : Option Stage → Prop} {s s' : State ι} {σ : ι → Stage}
    (h : Current I s σ) (hthread : s'.thread = s.thread) (hI : ∀ g, I g → I' g) :
    Current I' s' σ := by
  unfold Current
  rw [hthread]
  rcases h with ⟨c, hc, hothers, hg⟩ | ⟨hnone, hg⟩
  · exact Or.inl ⟨c, hc, hothers, hI _ hg⟩
  · exact Or.inr ⟨hnone, hI _ hg⟩

/-- `I` is preserved by whatever can happen to attempts that do not overlap: an attempt
begins, awaits an operation, ends, or is cut short by a crash, and between attempts
keys expire. -/
structure PreservedOneByOne (G : Guard system ι Thrown Unit) (jobs : ι → Job) (p : Payment)
    (I : Standing → Option Stage → List (LogEntry ι) → Prop) : Prop where
  begin : ∀ {t log c}, I t none log → I t (some .entering) (.begun c :: log)
  ended : ∀ {t g log c r}, I t (some g) log → Stage.Ends (jobs c) g r → I t none log
  tick : ∀ {t g log ms}, I t g log → I t g (.move (.tick ms) :: log)
  expire : ∀ {s : State ι} {key w'}, I (s.world.standing p) none s.log →
    G s (.move (.expire key)) → s.world.move (.expire key) = some w' →
    I (w'.standing p) none (.move (.expire key) :: s.log)
  crash : ∀ {s : State ι} {c g}, I (s.world.standing p) (some g) s.log →
    G s (.crash c none) → I (s.world.standing p) none (.crash c none :: s.log)
  reply : ∀ {s : State ι} {c a o r w' g g'}, I (s.world.standing p) (some g) s.log →
    G s (.answer c a) → (s.thread c).awaiting = some o →
    s.world.perform o a = some (r, w') → Stage.Edge (jobs c) g o r g' →
    (s.world.standing p).Step o r (w'.standing p) →
    I (w'.standing p) (some g') (.reply c ⟨o, r⟩ :: s.log)
  lost : ∀ {s : State ι} {c a o r w' g g'}, I (s.world.standing p) (some g) s.log →
    G s (.crash c (some a)) → (s.thread c).awaiting = some o →
    s.world.perform o a = some (r, w') → Stage.Edge (jobs c) g o r g' →
    (s.world.standing p).Step o r (w'.standing p) →
    I (w'.standing p) none (.crash c (some o) :: s.log)

/-- **Attempts one after the other.** What they preserve holds throughout their runs. -/
theorem run_sequential {G : Guard system ι Thrown Unit} {jobs : ι → Job} {p : Payment}
    {w : World} {I : Standing → Option Stage → List (LogEntry ι) → Prop}
    (hjobs : ∀ c, (jobs c).data = p) (hseq : ∀ {s a}, G s a → Sequential s a)
    (hexp : ∀ {s a}, G s a → ExpiryBetween s a) (hpres : PreservedOneByOne G jobs p I)
    (h₀ : I (w.standing p) none []) {s : State ι} (h : Run G (processes jobs w) s) :
    ∃ g, I (s.world.standing p) g s.log := by
  have hstep : ∀ {s : State ι} {σ a} {s' : State ι} {σ'}, Run G (processes jobs w) s →
      AtStages jobs s σ → Current (fun g => I (s.world.standing p) g s.log) s σ → G s a →
      TStep (fun c => Stage.Edge (jobs c)) s σ a s' σ' → AtStages jobs s' σ' →
      Current (fun g => I (s'.world.standing p) g s'.log) s' σ' := by
    intro s σ a s' σ' _ hat hI hG hT hat'
    cases hT with
    | @begin c q hc =>
        have hnone := hseq hG
        have hσ := hat c
        rw [hc] at hσ
        have hI' := hpres.begin (c := c) (hI.of_none hnone)
        have hat' := hat' c
        simp only [Function.update_self] at hat'
        refine Current.of_acting (c := c) (fun d hd => ?_) (fun _ => ?_) (fun hover => ?_)
        · simpa [hd] using hnone d
        · rwa [hσ.1]
        · simp only [Function.update_self] at hover
          obtain ⟨r, hr⟩ := ends_of_over hat' hover
          exact hpres.ended hI' (hσ.1 ▸ hr)
    | @answer c a o k r w' g hc hw hT =>
        obtain ⟨hI, hothers⟩ := hI.of_inFlight (c := c) (by rw [hc]; rfl)
        have hI' := hpres.reply hI hG (by rw [hc]; rfl) hw hT
          (World.standing_perform (hjobs c ▸ hT.concerns) hw)
        have hat' := hat' c
        simp only [Function.update_self] at hat'
        refine Current.of_acting (c := c) (fun d hd => ?_) (fun _ => ?_) (fun hover => ?_)
        · simpa [hd] using hothers d hd
        · rwa [Function.update_self]
        · simp only [Function.update_self] at hover
          obtain ⟨r', hr'⟩ := ends_of_over hat' hover
          exact hpres.ended hI' hr'
    | @crash c o k hc =>
        obtain ⟨hI, hothers⟩ := hI.of_inFlight (c := c) (by rw [hc]; rfl)
        refine Current.of_acting (c := c) (fun d hd => ?_) (fun hrun => ?_)
          (fun _ => hpres.crash hI hG)
        · simpa [hd] using hothers d hd
        · simp [Thread.inFlight, Thread.awaiting] at hrun
    | @lost c a o k r w' g hc hw hT =>
        obtain ⟨hI, hothers⟩ := hI.of_inFlight (c := c) (by rw [hc]; rfl)
        have hI' := hpres.lost hI hG (by rw [hc]; rfl) hw hT
          (World.standing_perform (hjobs c ▸ hT.concerns) hw)
        refine Current.of_acting (c := c) (fun d hd => ?_) (fun hrun => ?_) (fun _ => hI')
        · simpa [hd] using hothers d hd
        · simp [Thread.inFlight, Thread.awaiting] at hrun
    | @move m w' hw =>
        cases m with
        | tick ms =>
            obtain rfl := Option.some.inj hw
            exact hI.imp rfl fun g hg => hpres.tick hg
        | expire key =>
            have hnone : ∀ c, (s.thread c).inFlight = false := hexp hG
            exact Or.inr ⟨hnone, hpres.expire (hI.of_none hnone) hG hw⟩
  obtain ⟨σ, -, hI⟩ := Run.staged (fun c => process_follows (jobs c))
    (I := fun (s : State ι) σ => Current (fun g => I (s.world.standing p) g s.log) s σ)
    (Or.inr ⟨fun _ => rfl, h₀⟩) hstep h
  rcases hI with ⟨c, -, -, hI⟩ | ⟨-, hI⟩
  · exact ⟨_, hI⟩
  · exact ⟨_, hI⟩

end PaymentQueue
