import PaymentQueue.Async.Program

/-!
# PaymentQueue.Async.Control

**Control automata** for asynchronous programs.

A step relation `T : γ → (o : S.Op) → S.Ret o → γ → Prop` over stages `γ` says
which operations a program may await at a stage and where each answer takes it.
`Follows T p Q g` holds when `p`, started at stage `g`, only ever awaits what
`T` allows and ends in accord with `Q`. It is a Hoare judgment whose ghost state
is the stage: `Follows.bind`, `Follows.attempt` and `Follows.mono` are its rules,
and a function is verified once, by one lemma, however many callers it has.

`Awaits P p` is the special case of one stage: `p` awaits operations in `P` only.

What follows an automaton leaves a path in it (`Follows.path`), so facts about
the traces of a program are proved by induction over paths, one case an edge.
-/

namespace PaymentQueue.Async

variable {S : Signature} {ε α β γ : Type}
variable {T : γ → (o : S.Op) → S.Ret o → γ → Prop}

/-- From stage `g`, whatever the answers, `p` takes only steps of `T` and ends
at a stage and with a result that satisfy `Q`. -/
def Follows (T : γ → (o : S.Op) → S.Ret o → γ → Prop) :
    Program S ε α → (γ → Except ε α → Prop) → γ → Prop
  | .ret a, Q, g => Q g (.ok a)
  | .throw e, Q, g => Q g (.error e)
  | .await o k, Q, g => ∀ r, ∃ g', T g o r g' ∧ Follows T (k r) Q g'

namespace Follows

theorem ret_iff {a : α} {Q : γ → Except ε α → Prop} {g : γ} :
    Follows T (.ret a) Q g ↔ Q g (.ok a) := .rfl

theorem throw_iff {e : ε} {Q : γ → Except ε α → Prop} {g : γ} :
    Follows T (.throw e) Q g ↔ Q g (.error e) := .rfl

theorem mono {Q Q' : γ → Except ε α → Prop} (hQ : ∀ g r, Q g r → Q' g r)
    {p : Program S ε α} {g : γ} (h : Follows T p Q g) : Follows T p Q' g := by
  induction p generalizing g with
  | ret a => exact hQ g _ h
  | throw e => exact hQ g _ h
  | await o k ih =>
      intro r
      obtain ⟨g', hT, hk⟩ := h r
      exact ⟨g', hT, ih r hk⟩

/-- Sequencing: the first program establishes what the second starts from. -/
theorem bind {p : Program S ε α} {f : α → Program S ε β}
    {Q : γ → Except ε β → Prop} {g : γ}
    (h : Follows T p (fun g' r => match r with
      | .ok a => Follows T (f a) Q g'
      | .error e => Q g' (.error e)) g) :
    Follows T (p >>= f) Q g := by
  induction p generalizing g with
  | ret a => exact h
  | throw e => exact h
  | await o k ih =>
      intro r
      obtain ⟨g', hT, hk⟩ := h r
      exact ⟨g', hT, ih r hk⟩

/-- Awaiting one operation: a step of `T` for every answer. -/
theorem perform {o : S.Op} {Q : γ → Except ε (S.Ret o) → Prop} {g : γ}
    (h : ∀ r, ∃ g', T g o r g' ∧ Q g' (.ok r)) :
    Follows T (Program.perform o) Q g := h

theorem perform_bind {o : S.Op} {f : S.Ret o → Program S ε β}
    {Q : γ → Except ε β → Prop} {g : γ}
    (h : ∀ r, ∃ g', T g o r g' ∧ Follows T (f r) Q g') :
    Follows T (Program.perform o >>= f) Q g := h

theorem attempt {p : Program S ε α} {Q : γ → Except ε (Except ε α) → Prop} {g : γ}
    (h : Follows T p (fun g' r => Q g' (.ok r)) g) :
    Follows T p.attempt Q g := by
  induction p generalizing g with
  | ret a => exact h
  | throw e => exact h
  | await o k ih =>
      intro r
      obtain ⟨g', hT, hk⟩ := h r
      exact ⟨g', hT, ih r hk⟩

theorem tryCatch {p : Program S ε α} {f : ε → Program S ε α}
    {Q : γ → Except ε α → Prop} {g : γ}
    (h : Follows T p (fun g' r => match r with
      | .ok a => Q g' (.ok a)
      | .error e => Follows T (f e) Q g') g) :
    Follows T (p.tryCatch f) Q g := by
  refine bind (attempt (mono ?_ h))
  intro g' res hr
  rcases res with e | a
  · exact hr
  · exact hr

theorem tryFinally {p : Program S ε α} {f : Program S ε Unit}
    {Q : γ → Except ε α → Prop} {g : γ}
    (h : Follows T p (fun g' r =>
      Follows T f (fun g'' u => match u with
        | .ok _ => Q g'' r
        | .error e => Q g'' (.error e)) g') g) :
    Follows T (p.tryFinally f) Q g := by
  refine bind (attempt (mono ?_ h))
  intro g' r hr
  refine bind (mono ?_ hr)
  intro g'' res hu
  rcases res with e | u
  · exact hu
  · cases r <;> exact hu

end Follows

/-! ### Programs that await certain operations only -/

/-- The program awaits no operation but those in `P`. -/
def Awaits (P : S.Op → Prop) (p : Program S ε α) : Prop :=
  Follows (fun (_ : Unit) o _ _ => P o) p (fun _ _ => True) ()

namespace Awaits

variable {P : S.Op → Prop} {p : Program S ε α}

theorem ret (a : α) : Awaits P (.ret a : Program S ε α) := trivial

theorem throw (e : ε) : Awaits P (.throw e : Program S ε α) := trivial

theorem ofExcept (r : Except ε α) : Awaits P (Program.ofExcept r : Program S ε α) := by
  cases r <;> trivial

theorem perform {o : S.Op} (ho : P o) :
    Awaits P (Program.perform o : Program S ε (S.Ret o)) :=
  fun _ => ⟨(), ho, trivial⟩

theorem bind {f : α → Program S ε β} (h : Awaits P p) (hf : ∀ a, Awaits P (f a)) :
    Awaits P (p >>= f) := by
  refine Follows.bind (Follows.mono ?_ h)
  intro _ r _
  cases r with
  | ok a => exact hf a
  | error e => trivial

theorem attempt (h : Awaits P p) : Awaits P p.attempt :=
  Follows.attempt (Follows.mono (fun _ _ _ => trivial) h)

theorem tryCatch {f : ε → Program S ε α} (h : Awaits P p) (hf : ∀ e, Awaits P (f e)) :
    Awaits P (p.tryCatch f) := by
  refine bind h.attempt fun r => ?_
  cases r with
  | ok a => trivial
  | error e => exact hf e

/-- A program whose operations leave the automaton at its stage ends there. -/
theorem follows {Q : γ → Except ε α → Prop} {g : γ} (h : Awaits P p)
    (hT : ∀ o r, P o → T g o r g) (hQ : ∀ r, Q g r) : Follows T p Q g := by
  induction p with
  | ret a => exact hQ _
  | throw e => exact hQ _
  | await o k ih =>
      intro r
      obtain ⟨_, ho, hk⟩ := h r
      exact ⟨g, hT o r ho, ih r hk⟩

/-- A program awaits what its automaton allows. -/
theorem of_follows {Q : γ → Except ε α → Prop} {g : γ} (h : Follows T p Q g)
    (hT : ∀ {g o r g'}, T g o r g' → P o) : Awaits P p := by
  induction p generalizing g with
  | ret a => trivial
  | throw e => trivial
  | await o k ih =>
      intro r
      obtain ⟨g', hstep, hk⟩ := h r
      exact ⟨(), hT hstep, ih r hk⟩

/-- Such a program before another. -/
theorem follows_bind {f : α → Program S ε β} {Q : γ → Except ε β → Prop} {g : γ}
    (h : Awaits P p) (hT : ∀ o r, P o → T g o r g) (hf : ∀ a, Follows T (f a) Q g)
    (hQ : ∀ e, Q g (.error e)) : Follows T (p >>= f) Q g := by
  refine Follows.bind (h.follows hT fun r => ?_)
  cases r with
  | ok a => exact hf a
  | error e => exact hQ e

end Awaits

/-! ### Paths -/

/-- The automaton can go from one stage to another along the events `tr`. -/
inductive Path (T : γ → (o : S.Op) → S.Ret o → γ → Prop) :
    γ → List (Event S) → γ → Prop
  | nil (g : γ) : Path T g [] g
  | cons {g g' g'' : γ} {o : S.Op} {r : S.Ret o} {tr : List (Event S)} :
      T g o r g' → Path T g' tr g'' → Path T g (⟨o, r⟩ :: tr) g''

theorem Path.snoc {g g' g'' : γ} {o : S.Op} {r : S.Ret o} {tr : List (Event S)}
    (h : Path T g tr g') (hT : T g' o r g'') : Path T g (tr ++ [⟨o, r⟩]) g'' := by
  induction h with
  | nil g => exact .cons hT (.nil _)
  | cons hT' _ ih => exact .cons hT' (ih hT)

/-- A run of a program that follows `T` is a path of `T` to an end that `Q`
allows. -/
theorem Follows.path {p : Program S ε α} {Q : γ → Except ε α → Prop} {g : γ}
    {tr : List (Event S)} {res : Except ε α}
    (h : Follows T p Q g) (hex : Exec p tr res) :
    ∃ g', Path T g tr g' ∧ Q g' res := by
  induction hex generalizing g with
  | ret a => exact ⟨g, .nil g, h⟩
  | throw e => exact ⟨g, .nil g, h⟩
  | await hex ih =>
      obtain ⟨g', hT, hk⟩ := h _
      obtain ⟨g'', hpath, hQ⟩ := ih hk
      exact ⟨g'', .cons hT hpath, hQ⟩

/-- What every step preserves, with the events so far in view, holds at the end
of a path. -/
theorem Path.induct {P : γ → List (Event S) → Prop}
    (step : ∀ {g o r g'} pre, P g pre → T g o r g' → P g' (pre ++ [⟨o, r⟩]))
    {g g' : γ} {tr : List (Event S)} (h : Path T g tr g') (h₀ : P g []) : P g' tr := by
  have hfrom : ∀ pre, P g pre → P g' (pre ++ tr) := by
    clear h₀
    induction h with
    | nil g => simp
    | cons hT _ ih => exact fun pre hpre => by simpa using ih _ (step pre hpre hT)
  simpa using hfrom [] h₀

/-- The same, of a path with no event in `f`. -/
theorem Path.induct_without {f : Event S → Bool} {P : γ → List (Event S) → Prop}
    (step : ∀ {g o r g'} pre, P g pre → T g o r g' → f ⟨o, r⟩ = false →
      P g' (pre ++ [⟨o, r⟩]))
    {g g' : γ} {tr : List (Event S)} (h : Path T g tr g') (hf : tr.any f = false)
    (h₀ : P g []) : P g' tr := by
  refine Path.induct (P := fun g pre => pre.any f = false → P g pre) ?_ h (fun _ => h₀) hf
  intro g o r g' pre hpre hT hsnoc
  simp only [List.any_append, List.any_cons, List.any_nil, Bool.or_false,
    Bool.or_eq_false_iff] at hsnoc
  exact step pre (hpre hsnoc.1) hT hsnoc.2

/-- What every step grants its event holds of all events of a path. -/
theorem Path.forall_mem {P : Event S → Prop}
    (step : ∀ {g o r g'}, T g o r g' → P ⟨o, r⟩) {g g' : γ} {tr : List (Event S)}
    (h : Path T g tr g') : ∀ ev ∈ tr, P ev := by
  induction h with
  | nil g => simp
  | cons hT _ ih => simpa using ⟨step hT, ih⟩

end PaymentQueue.Async
