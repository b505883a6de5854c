import PaymentQueue.Async.System

/-!
# PaymentQueue.Async.Recording

**Runs with a history variable.**

`Recording G next s₀ b₀ s b` says that a guarded run has come to `s` while a variable, which
every step updates by `next` and none reads, has come from `b₀` to `b`. It says of a run what
its last configuration no longer shows. Every run has a recording (`Run.exists_recording`),
and invariants of recordings are proved as those of runs are (`Recording.staged`).
-/

namespace PaymentQueue.Async

variable {S : Signature} {M : Machine S} {ι ε α β γ : Type} [DecidableEq ι]

/-- The configurations reachable from `s₀` by steps that satisfy `G`, with the value of the
history variable. -/
inductive Recording (G : Guard M ι ε α) (next : β → Config M ι ε α → Action M ι → β)
    (s₀ : Config M ι ε α) (b₀ : β) : Config M ι ε α → β → Prop
  | start : Recording G next s₀ b₀ s₀ b₀
  | step {s s' : Config M ι ε α} {b : β} {a : Action M ι} :
      Recording G next s₀ b₀ s b → G s a → s.step a = some s' →
      Recording G next s₀ b₀ s' (next b s a)

section

variable {G : Guard M ι ε α} {next : β → Config M ι ε α → Action M ι → β}
variable {s₀ s : Config M ι ε α} {b₀ b : β}

theorem Run.exists_recording (next : β → Config M ι ε α → Action M ι → β) (b₀ : β)
    (h : Run G s₀ s) : ∃ b, Recording G next s₀ b₀ s b := by
  induction h with
  | start => exact ⟨b₀, .start⟩
  | step _ hG hs ih =>
      obtain ⟨b, hb⟩ := ih
      exact ⟨_, .step hb hG hs⟩

/-- **Invariants of recordings.** The rule of `Run.staged`, with the history variable. -/
theorem Recording.staged {T : ι → γ → (o : S.Op) → S.Ret o → γ → Prop} {start : γ}
    {Q : ι → γ → Except ε α → Prop} {p : ι → Program S ε α} {w : M.World}
    {I : Config M ι ε α → β → (ι → γ) → Prop}
    (hp : ∀ c, Follows (T c) (p c) (Q c) start)
    (h₀ : I (Config.start p w) b₀ (fun _ => start))
    (hstep : ∀ {s b σ a s' σ'}, s.At T start Q σ → I s b σ → G s a →
      TStep T s σ a s' σ' → I s' (next b s a) σ')
    (h : Recording G next (Config.start p w) b₀ s b) : ∃ σ, s.At T start Q σ ∧ I s b σ := by
  induction h with
  | start => exact ⟨fun _ => start, fun c => ⟨rfl, hp c⟩, h₀⟩
  | step _ hG hs ih =>
      obtain ⟨σ, hat, hI⟩ := ih
      obtain ⟨σ', hT, hat'⟩ := hat.step hs
      exact ⟨σ', hat', hstep hat hI hG hT⟩

/-- Carry out a list of actions, as long as each is possible and meets `G`. -/
def Config.record (G : Guard M ι ε α) [∀ s a, Decidable (G s a)]
    (next : β → Config M ι ε α → Action M ι → β) (s : Config M ι ε α) (b : β) :
    List (Action M ι) → Option (Config M ι ε α × β)
  | [] => some (s, b)
  | a :: as =>
      if G s a then (s.step a).bind (fun s' => s'.record G next (next b s a) as) else none

theorem Recording.of_record [∀ s a, Decidable (G s a)] {as : List (Action M ι)}
    {s' : Config M ι ε α} {b' : β} (h₀ : Recording G next s₀ b₀ s b)
    (h : s.record G next b as = some (s', b')) : Recording G next s₀ b₀ s' b' := by
  induction as generalizing s b with
  | nil =>
      obtain ⟨rfl, rfl⟩ : s = s' ∧ b = b' := by simpa [Config.record] using h
      exact h₀
  | cons a as ih =>
      rw [Config.record] at h
      split at h
      · next hG =>
        obtain ⟨s₁, hs, h⟩ := Option.bind_eq_some_iff.mp h
        exact ih (.step h₀ hG hs) h
      · exact absurd h (by simp)

/-- A concrete recording that ends with the decidable property `P`. -/
theorem Recording.exists_of_record [∀ s a, Decidable (G s a)]
    {P : Config M ι ε α → β → Prop} [∀ s b, Decidable (P s b)] (as : List (Action M ι))
    (h : (s₀.record G next b₀ as).any (fun out => decide (P out.1 out.2)) = true) :
    ∃ s b, Recording G next s₀ b₀ s b ∧ P s b := by
  obtain ⟨⟨s, b⟩, hrecord, hP⟩ := (Option.any_eq_true _ _).mp h
  exact ⟨s, b, .of_record .start hrecord, of_decide_eq_true hP⟩

end

end PaymentQueue.Async
