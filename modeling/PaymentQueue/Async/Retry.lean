import PaymentQueue.Async.Solo

/-!
# PaymentQueue.Async.Retry

**A program that is tried again when it throws**, up to a number of attempts.

`JobRun attempt k left runs` says that with `k` attempts made and `left` more allowed the
attempts `runs` took place: all but the last threw, and the last returned unless no
attempt was left. Nothing is assumed about what the attempts are answered.

An attempt is known by its events, which `Program.replay` turns back into the end of the
program; `Grows` is the automaton whose stage is the trace itself, so that the rules of
`Follows` also prove what a trace has to do with the end of a program.
-/

namespace PaymentQueue.Async

variable {S : Signature} {ε α γ : Type}

/-! ### Events as answers -/

/-- The end of a program that is answered by the given events, if they suffice. -/
def Program.replay [DecidableEq S.Op] :
    Program S ε α → List (Event S) → Option (Except ε α)
  | .ret a, _ => some (.ok a)
  | .throw e, _ => some (.error e)
  | .await _ _, [] => none
  | .await o k, ev :: tr => if h : ev.op = o then (k (h ▸ ev.ret)).replay tr else none

/-- A program that was executed replays to its end, whatever happened afterwards. -/
theorem Exec.replay [DecidableEq S.Op] {p : Program S ε α} {tr post : List (Event S)}
    {res : Except ε α} (h : Exec p tr res) : p.replay (tr ++ post) = some res := by
  induction h with
  | ret a => rfl
  | throw e => rfl
  | await _ ih => simpa [Program.replay] using ih

/-- The automaton whose stage is the trace so far. -/
def Grows (tr : List (Event S)) (o : S.Op) (r : S.Ret o) (tr' : List (Event S)) : Prop :=
  tr' = tr ++ [⟨o, r⟩]

/-- What holds after every execution of `p` may be used where `p` is called. -/
theorem Follows.of_exec {p : Program S ε α} {Q : List (Event S) → Except ε α → Prop}
    {pre : List (Event S)} (h : ∀ tr res, Exec p tr res → Q (pre ++ tr) res) :
    Follows Grows p Q pre := by
  induction p generalizing pre with
  | ret a => simpa [Follows] using h [] _ (.ret a)
  | throw e => simpa [Follows] using h [] _ (.throw e)
  | await o k ih =>
      refine fun r => ⟨_, rfl, ih r fun tr res hex => ?_⟩
      simpa using h _ _ (.await hex)

/-- What follows the traces holds after every execution. -/
theorem Follows.exec {p : Program S ε α} {Q : List (Event S) → Except ε α → Prop}
    {tr : List (Event S)} {res : Except ε α} (h : Follows Grows p Q [])
    (hex : Exec p tr res) : Q tr res := by
  obtain ⟨tr', hpath, hQ⟩ := h.path hex
  have heq : tr' = [] ++ tr :=
    hpath.induct (P := fun g pre => g = pre) (fun _ hg hT => hg ▸ hT) rfl
  simpa [heq] using hQ

/-- Earlier events may be set aside. -/
theorem Follows.set_aside {p : Program S ε α} {Q : List (Event S) → Except ε α → Prop}
    {pre : List (Event S)} (h : Follows Grows p (fun tr res => Q (pre ++ tr) res) []) :
    Follows Grows p Q pre :=
  Follows.of_exec fun _ _ hex => h.exec hex

/-! ### Attempts -/

/-- An attempt that was made: its events and how it ended. -/
structure Attempt (S : Signature) (ε α : Type) where
  events : List (Event S)
  result : Except ε α

/-- The attempt threw. -/
def Attempt.threw (a : Attempt S ε α) : Bool := a.result matches .error _

/-- The attempts of a job after `k` that threw, with `left` more allowed: it is tried
until an attempt returns or all have thrown. -/
inductive JobRun (attempt : Nat → Program S ε α) : Nat → Nat → List (Attempt S ε α) → Prop
  | exhausted (k : Nat) : JobRun attempt k 0 []
  | returned {k left : Nat} {tr : List (Event S)} {a : α} :
      Exec (attempt k) tr (.ok a) → JobRun attempt k (left + 1) [⟨tr, .ok a⟩]
  | retried {k left : Nat} {tr : List (Event S)} {e : ε} {runs : List (Attempt S ε α)} :
      Exec (attempt k) tr (.error e) → JobRun attempt (k + 1) left runs →
      JobRun attempt k (left + 1) (⟨tr, .error e⟩ :: runs)

namespace JobRun

variable {attempt : Nat → Program S ε α} {k left i : Nat} {runs : List (Attempt S ε α)}
variable {out : Attempt S ε α}

/-- Each attempt is an execution of the program for its number. -/
theorem executed (h : JobRun attempt k left runs) (hi : runs[i]? = some out) :
    Exec (attempt (k + i)) out.events out.result := by
  induction h generalizing i with
  | exhausted k => simp at hi
  | returned hex =>
      cases i with
      | zero =>
          obtain rfl := Option.some.inj hi
          exact hex
      | succ i => simp at hi
  | @retried k left tr e runs hex _ ih =>
      cases i with
      | zero =>
          obtain rfl := Option.some.inj hi
          exact hex
      | succ i =>
          have := ih (by simpa using hi)
          rwa [show k + (i + 1) = k + 1 + i by omega]

/-- There are no more attempts than allowed. -/
theorem length_le (h : JobRun attempt k left runs) : runs.length ≤ left := by
  induction h with
  | exhausted => simp
  | returned => simp
  | retried _ _ ih => simpa using ih

/-- When every attempt that was not the last one allowed threw, all were made. -/
theorem length_eq (h : JobRun attempt k left runs)
    (hthrew : ∀ i out, runs[i]? = some out → i + 1 < left → out.threw = true) :
    runs.length = left := by
  induction h with
  | exhausted => rfl
  | @returned k left tr a hex =>
      cases left with
      | zero => rfl
      | succ left =>
          have := hthrew 0 ⟨tr, .ok a⟩ rfl (by omega)
          simp [Attempt.threw] at this
  | retried _ _ ih =>
      simp only [List.length_cons, Nat.add_right_cancel_iff]
      exact ih fun i out hi hleft => hthrew (i + 1) out (by simpa using hi) (by omega)

end JobRun

/-! ### A job alone -/

variable {M : Machine S}

theorem Machine.Answers.append {w w' w'' : M.World} {tr tr' : List (Event S)}
    (h : M.Answers w tr w') (h' : M.Answers w' tr' w'') : M.Answers w (tr ++ tr') w'' := by
  induction tr generalizing w with
  | nil =>
      obtain rfl := h
      exact h'
  | cons ev tr ih =>
      obtain ⟨a, w₁, hw, h⟩ := h
      exact ⟨a, w₁, hw, ih h⟩

/-- Run the attempts of a job alone, one after the other, each with its answers. -/
def Machine.soloJob (M : Machine S) (attempt : Nat → Program S ε α) :
    M.World → Nat → Nat → List (List M.Answer) → Option (List (Attempt S ε α) × M.World)
  | w, _, 0, [] => some ([], w)
  | w, k, left + 1, as :: rest =>
      (M.solo w (attempt k) as).bind fun (tr, res, w₁) =>
        match res, rest with
        | .ok a, [] => some ([⟨tr, .ok a⟩], w₁)
        | .ok _, _ :: _ => none
        | .error e, rest =>
            (M.soloJob attempt w₁ (k + 1) left rest).map fun (runs, w') =>
              (⟨tr, .error e⟩ :: runs, w')
  | _, _, _, _ => none

theorem Machine.soloJob_spec {attempt : Nat → Program S ε α} {w w' : M.World} {k left : Nat}
    {ass : List (List M.Answer)} {runs : List (Attempt S ε α)}
    (h : M.soloJob attempt w k left ass = some (runs, w')) :
    JobRun attempt k left runs ∧ M.Answers w (runs.flatMap (·.events)) w' := by
  induction left generalizing w k ass runs with
  | zero =>
      cases ass with
      | nil =>
          obtain ⟨rfl, rfl⟩ : [] = runs ∧ w = w' := by simpa [Machine.soloJob] using h
          exact ⟨.exhausted k, rfl⟩
      | cons as rest => exact absurd h (by simp [Machine.soloJob])
  | succ left ih =>
      cases ass with
      | nil => exact absurd h (by simp [Machine.soloJob])
      | cons as rest =>
          simp only [Machine.soloJob, Option.bind_eq_some_iff] at h
          obtain ⟨⟨tr, res, w₁⟩, hsolo, h⟩ := h
          obtain ⟨hexec, hans⟩ := Machine.solo_spec hsolo
          cases res with
          | ok a =>
              cases rest with
              | nil =>
                  obtain ⟨rfl, rfl⟩ : [⟨tr, .ok a⟩] = runs ∧ w₁ = w' := by simpa using h
                  exact ⟨.returned hexec, by simpa using hans⟩
              | cons as' rest => exact absurd h (by simp)
          | error e =>
              simp only [Option.map_eq_some_iff, Prod.mk.injEq] at h
              obtain ⟨⟨runs', w''⟩, hrest, rfl, rfl⟩ := h
              obtain ⟨hruns, hans'⟩ := ih hrest
              exact ⟨.retried hexec hruns, by simpa using hans.append hans'⟩

/-- A concrete job whose attempts have the decidable property `P`. -/
theorem Machine.exists_of_soloJob {attempt : Nat → Program S ε α} {w : M.World} {left : Nat}
    {P : List (Attempt S ε α) → Prop} [DecidablePred P] (ass : List (List M.Answer))
    (h : (M.soloJob attempt w 0 left ass).any (fun out => decide (P out.1)) = true) :
    ∃ runs w', JobRun attempt 0 left runs ∧
      M.Answers w (runs.flatMap (·.events)) w' ∧ P runs := by
  obtain ⟨⟨runs, w'⟩, hsolo, hP⟩ := (Option.any_eq_true _ _).mp h
  obtain ⟨hruns, hans⟩ := Machine.soloJob_spec hsolo
  exact ⟨runs, w', hruns, hans, of_decide_eq_true hP⟩

end PaymentQueue.Async
