import Mathlib.Logic.Function.Basic
import PaymentQueue.Async.Control

/-!
# PaymentQueue.Async.System

**Interleaved runs** of many programs over one shared world.

A `Machine` gives the operations of a signature their meaning: `perform` answers
one operation in a world, `move` is what the world may do on its own. Both are
partial functions of an explicit choice (`Answer`, `Move`), so that every kind of
nondeterminism (a reply of an outside service, a rejected call, the passing of
time) is an input of the run and a concrete run can be computed.

A `Config` holds one thread for every call, the world, and the log of all that
happened so far, latest entry first. Each operation is atomic; between two
operations of a call any number of steps of the others may take place. Calls are
indexed by an arbitrary type, so a statement about all runs is about any number
of calls.

* `Run G` are the runs whose steps all satisfy the guard `G`; assumptions about
  the environment and conditions on a run are guards.
* `Config.exec` computes a guarded run from its list of actions.
* `Run.staged` is the induction rule for threads that follow a control automaton:
  it pairs the configuration with the stage of every call and leaves one goal, a
  step (`TStep`) preserves the invariant.
-/

namespace PaymentQueue.Async

/-- The meaning of a signature: a world that answers operations. -/
structure Machine (S : Signature) where
  World : Type
  /-- What the environment contributes to an answer. -/
  Answer : Type
  /-- What the world may do on its own. -/
  Move : Type
  perform : World → (o : S.Op) → Answer → Option (S.Ret o × World)
  move : World → Move → Option World

/-- One call of a program. -/
inductive Thread (S : Signature) (ε α : Type)
  /-- Not begun. -/
  | idle (p : Program S ε α)
  /-- Begun, with `p` still to run; over when `p` has returned or thrown. -/
  | running (p : Program S ε α)
  /-- Its process died. -/
  | crashed

/-- The operation the call awaits, if it has begun and is neither over nor dead. -/
def Thread.awaiting {S : Signature} {ε α : Type} : Thread S ε α → Option S.Op
  | .running (.await o _) => some o
  | _ => none

/-- The call has begun and is neither over nor dead. -/
def Thread.inFlight {S : Signature} {ε α : Type} (t : Thread S ε α) : Bool :=
  t.awaiting.isSome

variable {S : Signature} {M : Machine S} {ι ε α γ : Type}

/-- A log entry. -/
inductive Entry (M : Machine S) (ι : Type)
  | begun (c : ι)
  /-- Call `c` awaited an operation and received its answer. -/
  | reply (c : ι) (ev : Event S)
  /-- Call `c` died, having issued the operation (if any) but not received its
  answer. -/
  | crash (c : ι) (issued : Option S.Op)
  | move (m : M.Move)

/-- One step of a run: who acts, and what the environment contributes. -/
inductive Action (M : Machine S) (ι : Type)
  | begin (c : ι)
  | answer (c : ι) (a : M.Answer)
  | crash (c : ι) (issued : Option M.Answer)
  | move (m : M.Move)

/-- All calls, the shared world, and the log, latest entry first. -/
structure Config (M : Machine S) (ι ε α : Type) where
  thread : ι → Thread S ε α
  world : M.World
  log : List (Entry M ι)

namespace Config

/-- The configuration in which no call has begun. -/
def start (p : ι → Program S ε α) (w : M.World) : Config M ι ε α :=
  { thread := fun c => .idle (p c), world := w, log := [] }

variable [DecidableEq ι]

/-- Carry out one action, if it is possible. -/
def step (s : Config M ι ε α) : Action M ι → Option (Config M ι ε α)
  | .begin c =>
      match s.thread c with
      | .idle p => some
          { thread := Function.update s.thread c (.running p)
            world := s.world, log := .begun c :: s.log }
      | _ => none
  | .answer c a =>
      match s.thread c with
      | .running (.await o k) =>
          (M.perform s.world o a).map fun rw =>
            { thread := Function.update s.thread c (.running (k rw.1))
              world := rw.2, log := .reply c ⟨o, rw.1⟩ :: s.log }
      | _ => none
  | .crash c none =>
      match s.thread c with
      | .running (.await _ _) => some
          { thread := Function.update s.thread c .crashed
            world := s.world, log := .crash c none :: s.log }
      | _ => none
  | .crash c (some a) =>
      match s.thread c with
      | .running (.await o _) =>
          (M.perform s.world o a).map fun rw =>
            { thread := Function.update s.thread c .crashed
              world := rw.2, log := .crash c (some o) :: s.log }
      | _ => none
  | .move m =>
      (M.move s.world m).map fun w =>
        { thread := s.thread, world := w, log := .move m :: s.log }

omit [DecidableEq ι] in
/-- In the action call `c` performs the operation `o`, whether it lives to see the answer or
not. -/
def Issues (s : Config M ι ε α) : Action M ι → ι → S.Op → Prop
  | .answer d _, c, o | .crash d (some _), c, o => d = c ∧ (s.thread c).awaiting = some o
  | _, _, _ => False

omit [DecidableEq ι] in
theorem Issues.awaiting {s : Config M ι ε α} {a : Action M ι} {c : ι} {o : S.Op}
    (h : s.Issues a c o) : (s.thread c).awaiting = some o := by
  match a with
  | .answer _ _ | .crash _ (some _) => exact h.2
  | .begin _ | .crash _ none | .move _ => exact h.elim

omit [DecidableEq ι] in
/-- The event that call `c` goes through when it is answered `a`. -/
def received (s : Config M ι ε α) (c : ι) (a : M.Answer) : Option (Event S) :=
  (s.thread c).awaiting.bind fun o => (M.perform s.world o a).map fun rw => ⟨o, rw.1⟩

end Config

/-- No step touches a call that is over. -/
theorem Config.thread_of_over [DecidableEq ι] {s s' : Config M ι ε α} {a : Action M ι} {c : ι}
    {p : Program S ε α} (hs : s.step a = some s') (hc : s.thread c = .running p)
    (hover : (s.thread c).awaiting = none) : s'.thread c = .running p := by
  have hother : ∀ {d : ι} {t : Thread S ε α}, s.thread d ≠ s.thread c →
      Function.update s.thread d t c = .running p := by
    intro d t hd
    have hne : c ≠ d := fun heq => hd (by rw [heq])
    rw [Function.update_of_ne hne, hc]
  have hawait : ∀ {d : ι} {o : S.Op} {k : S.Ret o → Program S ε α},
      s.thread d = .running (.await o k) → s.thread d ≠ s.thread c := by
    intro d o k hd heq
    rw [← heq, hd] at hover
    exact absurd hover (by simp [Thread.awaiting])
  match a with
  | .begin d =>
      simp only [Config.step] at hs
      split at hs
      · next q hq =>
        obtain rfl := Option.some.inj hs
        exact hother (by rw [hq, hc]; simp)
      · exact absurd hs (by simp)
  | .answer d a | .crash d (some a) =>
      simp only [Config.step] at hs
      split at hs
      · next o k hq =>
        obtain ⟨rw', -, rfl⟩ := Option.map_eq_some_iff.mp hs
        exact hother (hawait hq)
      · exact absurd hs (by simp)
  | .crash d none =>
      simp only [Config.step] at hs
      split at hs
      · next o k hq =>
        obtain rfl := Option.some.inj hs
        exact hother (hawait hq)
      · exact absurd hs (by simp)
  | .move m =>
      simp only [Config.step] at hs
      obtain ⟨w, -, rfl⟩ := Option.map_eq_some_iff.mp hs
      exact hc

/-! ### Guarded runs -/

/-- A condition on the steps of a run: on the configuration before the step and
the action taken in it. -/
abbrev Guard (M : Machine S) (ι ε α : Type) := Config M ι ε α → Action M ι → Prop

variable [DecidableEq ι]

/-- The configurations reachable from `s₀` by steps that satisfy `G`. -/
inductive Run (G : Guard M ι ε α) (s₀ : Config M ι ε α) : Config M ι ε α → Prop
  | start : Run G s₀ s₀
  | step {s s' : Config M ι ε α} {a : Action M ι} :
      Run G s₀ s → G s a → s.step a = some s' → Run G s₀ s'

theorem Run.mono {G G' : Guard M ι ε α} (hG : ∀ s a, G s a → G' s a)
    {s₀ s : Config M ι ε α} (h : Run G s₀ s) : Run G' s₀ s := by
  induction h with
  | start => exact .start
  | step _ ha hs ih => exact .step ih (hG _ _ ha) hs

/-- Carry out a list of actions, as long as each is possible and meets `G`. -/
def Config.exec (G : Guard M ι ε α) [∀ s a, Decidable (G s a)]
    (s : Config M ι ε α) : List (Action M ι) → Option (Config M ι ε α)
  | [] => some s
  | a :: as => if G s a then (s.step a).bind (fun s' => s'.exec G as) else none

theorem Run.of_exec {G : Guard M ι ε α} [∀ s a, Decidable (G s a)]
    {s₀ s s' : Config M ι ε α} {as : List (Action M ι)}
    (h₀ : Run G s₀ s) (h : s.exec G as = some s') : Run G s₀ s' := by
  induction as generalizing s with
  | nil =>
      obtain rfl : s = s' := by simpa [Config.exec] using h
      exact h₀
  | cons a as ih =>
      rw [Config.exec] at h
      split at h
      · next hG =>
        obtain ⟨s₁, hs, h⟩ := Option.bind_eq_some_iff.mp h
        exact ih (.step h₀ hG hs) h
      · exact absurd h (by simp)

/-- A step leaves the world alone, performs an operation or is a move of the world. -/
theorem Config.step_world {s s' : Config M ι ε α} {a : Action M ι} (h : s.step a = some s') :
    s'.world = s.world ∨
      (∃ c o a' r, s.Issues a c o ∧ M.perform s.world o a' = some (r, s'.world)) ∨
      ∃ m, M.move s.world m = some s'.world := by
  match a with
  | .begin c | .crash c none =>
      simp only [Config.step] at h
      split at h
      · obtain rfl := Option.some.inj h
        exact Or.inl rfl
      · exact absurd h (by simp)
  | .answer c a | .crash c (some a) =>
      simp only [Config.step] at h
      split at h
      · next o k hp =>
        obtain ⟨⟨r, w⟩, hw, rfl⟩ := Option.map_eq_some_iff.mp h
        exact Or.inr (Or.inl ⟨c, o, a, r, ⟨rfl, by rw [hp]; rfl⟩, hw⟩)
      · exact absurd h (by simp)
  | .move m =>
      obtain ⟨w, hw, rfl⟩ := Option.map_eq_some_iff.mp h
      exact Or.inr (Or.inr ⟨m, hw⟩)

/-- What operations and moves keep of the world holds throughout a run. -/
theorem Run.world_induct {G : Guard M ι ε α} {I : M.World → Prop} {s₀ s : Config M ι ε α}
    (h₀ : I s₀.world)
    (hperform : ∀ {w o a r w'}, I w → M.perform w o a = some (r, w') → I w')
    (hmove : ∀ {w m w'}, I w → M.move w m = some w' → I w')
    (h : Run G s₀ s) : I s.world := by
  induction h with
  | start => exact h₀
  | step _ _ hs ih =>
      rcases Config.step_world hs with heq | ⟨c, o, a, r, -, hw⟩ | ⟨m, hw⟩
      · rwa [heq]
      · exact hperform ih hw
      · exact hmove ih hw

/-! ### One step of many stages -/

/-- What held of every call after a step: of the acting call at its new stage, of the
others as before. -/
theorem forall_update {P : ι → γ → Prop} {σ : ι → γ} {c : ι} {g : γ} (hc : P c g)
    (h : ∀ d, d ≠ c → P d (σ d)) (d : ι) : P d (Function.update σ c g d) := by
  by_cases hd : d = c
  · subst hd
    simpa using hc
  · simpa [hd] using h d hd

/-- At most one call is at a stage in `P`. -/
def AtMostOne (P : γ → Bool) (σ : ι → γ) : Prop :=
  ∀ c d, P (σ c) = true → P (σ d) = true → c = d

/-- A call enters `P` only when no other is in it, so at most one stays in it. -/
theorem AtMostOne.update {P : γ → Bool} {σ : ι → γ} {c : ι} {g : γ}
    (h : AtMostOne P σ)
    (hg : P g = true → P (σ c) = true ∨ ∀ d, P (σ d) = false) :
    AtMostOne P (Function.update σ c g) := by
  have key : ∀ d, d ≠ c → P g = true → P (σ d) = false := by
    intro d hd hPg
    rcases hg hPg with hPc | hnone
    · by_contra hPd
      exact hd (h d c (by simpa using hPd) hPc)
    · exact hnone d
  intro a b ha hb
  by_cases hac : a = c <;> by_cases hbc : b = c
  · rw [hac, hbc]
  · subst hac
    simp only [Function.update_self, ne_eq, hbc, not_false_eq_true,
      Function.update_of_ne] at ha hb
    simp [key b hbc ha] at hb
  · subst hbc
    simp only [Function.update_self, ne_eq, hac, not_false_eq_true,
      Function.update_of_ne] at ha hb
    simp [key a hac hb] at ha
  · simp only [ne_eq, hac, hbc, not_false_eq_true, Function.update_of_ne] at ha hb
    exact h a b ha hb

/-! ### Runs of threads that follow an automaton -/

/-- A thread is in accord with the stage `g`: not begun it is at `start`, and what
it still has to run follows `T` from `g`. -/
def Thread.At (T : γ → (o : S.Op) → S.Ret o → γ → Prop) (start : γ)
    (Q : γ → Except ε α → Prop) : Thread S ε α → γ → Prop
  | .idle p, g => g = start ∧ Follows T p Q g
  | .running p, g => Follows T p Q g
  | .crashed, _ => True

/-- One step of a configuration paired with the stage of every call. -/
inductive TStep (T : ι → γ → (o : S.Op) → S.Ret o → γ → Prop) :
    Config M ι ε α → (ι → γ) → Action M ι → Config M ι ε α → (ι → γ) → Prop
  | begin {s : Config M ι ε α} {σ : ι → γ} {c : ι} {p : Program S ε α} :
      s.thread c = .idle p →
      TStep T s σ (.begin c)
        ⟨Function.update s.thread c (.running p), s.world, .begun c :: s.log⟩ σ
  | answer {s : Config M ι ε α} {σ : ι → γ} {c : ι} {a : M.Answer} {o : S.Op}
      {k : S.Ret o → Program S ε α} {r : S.Ret o} {w : M.World} {g : γ} :
      s.thread c = .running (.await o k) →
      M.perform s.world o a = some (r, w) →
      T c (σ c) o r g →
      TStep T s σ (.answer c a)
        ⟨Function.update s.thread c (.running (k r)), w, .reply c ⟨o, r⟩ :: s.log⟩
        (Function.update σ c g)
  | crash {s : Config M ι ε α} {σ : ι → γ} {c : ι} {o : S.Op}
      {k : S.Ret o → Program S ε α} :
      s.thread c = .running (.await o k) →
      TStep T s σ (.crash c none)
        ⟨Function.update s.thread c .crashed, s.world, .crash c none :: s.log⟩ σ
  | lost {s : Config M ι ε α} {σ : ι → γ} {c : ι} {a : M.Answer} {o : S.Op}
      {k : S.Ret o → Program S ε α} {r : S.Ret o} {w : M.World} {g : γ} :
      s.thread c = .running (.await o k) →
      M.perform s.world o a = some (r, w) →
      T c (σ c) o r g →
      TStep T s σ (.crash c (some a))
        ⟨Function.update s.thread c .crashed, w, .crash c (some o) :: s.log⟩ σ
  | move {s : Config M ι ε α} {σ : ι → γ} {m : M.Move} {w : M.World} :
      M.move s.world m = some w →
      TStep T s σ (.move m) ⟨s.thread, w, .move m :: s.log⟩ σ

/-- Every thread is at its stage. -/
def Config.At (T : ι → γ → (o : S.Op) → S.Ret o → γ → Prop) (start : γ)
    (Q : ι → γ → Except ε α → Prop) (s : Config M ι ε α) (σ : ι → γ) : Prop :=
  ∀ c, (s.thread c).At (T c) start (Q c) (σ c)

section Staged

variable {T : ι → γ → (o : S.Op) → S.Ret o → γ → Prop} {start : γ}
variable {Q : ι → γ → Except ε α → Prop}

/-- A step keeps the threads that do not act at their stages. -/
theorem Config.At.update {s : Config M ι ε α} {σ : ι → γ} (h : s.At T start Q σ)
    {c : ι} {t : Thread S ε α} {g : γ} (ht : t.At (T c) start (Q c) g) (w : M.World)
    (l : List (Entry M ι)) :
    Config.At T start Q ⟨Function.update s.thread c t, w, l⟩
      (Function.update σ c g) := by
  intro c'
  by_cases hc : c' = c
  · subst hc
    simpa using ht
  · simpa [hc] using h c'

omit [DecidableEq ι] in
/-- A call awaits what its stage allows. -/
theorem Config.At.edge {s : Config M ι ε α} {σ : ι → γ} (h : s.At T start Q σ) {c : ι}
    {o : S.Op} (hc : (s.thread c).awaiting = some o) (r : S.Ret o) :
    ∃ g, T c (σ c) o r g := by
  have hat := h c
  match ht : s.thread c with
  | .running (.await o' k) =>
      rw [ht] at hat hc
      obtain rfl : o' = o := by simpa [Thread.awaiting] using hc
      obtain ⟨g, hT, -⟩ := hat r
      exact ⟨g, hT⟩
  | .idle _ | .running (.ret _) | .running (.throw _) | .crashed =>
      simp [ht, Thread.awaiting] at hc

omit [DecidableEq ι] in
/-- A call that is not in flight has not begun, has ended, or is dead. -/
theorem Config.At.ends {s : Config M ι ε α} {σ : ι → γ} (h : s.At T start Q σ) {c : ι}
    (hc : (s.thread c).inFlight = false) (halive : s.thread c ≠ .crashed) :
    σ c = start ∨ ∃ r, Q c (σ c) r := by
  have hat := h c
  match ht : s.thread c with
  | .idle p =>
      rw [ht] at hat
      exact Or.inl hat.1
  | .running (.ret a) =>
      rw [ht] at hat
      exact Or.inr ⟨_, hat⟩
  | .running (.throw e) =>
      rw [ht] at hat
      exact Or.inr ⟨_, hat⟩
  | .running (.await o k) => simp [ht, Thread.inFlight, Thread.awaiting] at hc
  | .crashed => exact absurd ht halive

/-- Every step of threads that follow `T` is a step of their stages. -/
theorem Config.At.step {s s' : Config M ι ε α} {σ : ι → γ} {a : Action M ι}
    (h : s.At T start Q σ) (hs : s.step a = some s') :
    ∃ σ', TStep T s σ a s' σ' ∧ s'.At T start Q σ' := by
  have keep : ∀ c, Function.update σ c (σ c) = σ := fun c => Function.update_eq_self c σ
  match a with
  | .begin c =>
      simp only [Config.step] at hs
      split at hs
      · next p hp =>
        obtain rfl := Option.some.inj hs
        have hc := h c
        rw [hp] at hc
        refine ⟨σ, .begin hp, ?_⟩
        have := h.update (c := c) (t := .running p) hc.2 s.world (.begun c :: s.log)
        rwa [keep c] at this
      · exact absurd hs (by simp)
  | .answer c a =>
      simp only [Config.step] at hs
      split at hs
      · next o k hp =>
        obtain ⟨⟨r, w⟩, hw, rfl⟩ := Option.map_eq_some_iff.mp hs
        have hc := h c
        rw [hp] at hc
        obtain ⟨g, hT, hk⟩ := hc r
        exact ⟨_, .answer hp hw hT, h.update (t := .running (k r)) hk w _⟩
      · exact absurd hs (by simp)
  | .crash c none =>
      simp only [Config.step] at hs
      split at hs
      · next o k hp =>
        obtain rfl := Option.some.inj hs
        refine ⟨σ, .crash hp, ?_⟩
        have := h.update (c := c) (t := .crashed) (g := σ c) trivial s.world
          (.crash c none :: s.log)
        rwa [keep c] at this
      · exact absurd hs (by simp)
  | .crash c (some a) =>
      simp only [Config.step] at hs
      split at hs
      · next o k hp =>
        obtain ⟨⟨r, w⟩, hw, rfl⟩ := Option.map_eq_some_iff.mp hs
        have hc := h c
        rw [hp] at hc
        obtain ⟨g, hT, -⟩ := hc r
        refine ⟨σ, .lost hp hw hT, ?_⟩
        have := h.update (c := c) (t := .crashed) (g := σ c) trivial w
          (.crash c (some o) :: s.log)
        rwa [keep c] at this
      · exact absurd hs (by simp)
  | .move m =>
      simp only [Config.step] at hs
      obtain ⟨w, hw, rfl⟩ := Option.map_eq_some_iff.mp hs
      exact ⟨σ, .move hw, h⟩

/-- What holds of a configuration and the stages its threads are at, and is preserved by
every step, holds however the run goes on. -/
theorem Run.staged_from {G : Guard M ι ε α} {s₀ s : Config M ι ε α} {σ₀ : ι → γ}
    {I : Config M ι ε α → (ι → γ) → Prop} (hat₀ : s₀.At T start Q σ₀) (h₀ : I s₀ σ₀)
    (hstep : ∀ {s σ a s' σ'}, Run G s₀ s → s.At T start Q σ → I s σ → G s a →
      TStep T s σ a s' σ' → s'.At T start Q σ' → I s' σ')
    (h : Run G s₀ s) : ∃ σ, s.At T start Q σ ∧ I s σ := by
  induction h with
  | start => exact ⟨σ₀, hat₀, h₀⟩
  | step hrun ha hs ih =>
      obtain ⟨σ, hat, hI⟩ := ih
      obtain ⟨σ', hT, hat'⟩ := hat.step hs
      exact ⟨σ', hat', hstep hrun hat hI ha hT hat'⟩

/-- **Invariants of interleaved runs.** If every program follows its automaton
from `start`, then what holds at the start and is preserved by every step of
configuration and stages holds in every configuration of a guarded run, for some
assignment of stages its threads are at. -/
theorem Run.staged {G : Guard M ι ε α} {p : ι → Program S ε α} {w : M.World}
    {I : Config M ι ε α → (ι → γ) → Prop}
    (hp : ∀ c, Follows (T c) (p c) (Q c) start)
    (h₀ : I (Config.start p w) (fun _ => start))
    (hstep : ∀ {s σ a s' σ'}, Run G (Config.start p w) s → s.At T start Q σ → I s σ →
      G s a → TStep T s σ a s' σ' → s'.At T start Q σ' → I s' σ')
    {s : Config M ι ε α} (h : Run G (Config.start p w) s) :
    ∃ σ, s.At T start Q σ ∧ I s σ := by
  have hat₀ : (Config.start p w).At T start Q fun _ => start := fun c => ⟨rfl, hp c⟩
  exact h.staged_from hat₀ h₀ hstep

end Staged

end PaymentQueue.Async
