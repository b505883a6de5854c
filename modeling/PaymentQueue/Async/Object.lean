import Mathlib.Algebra.BigOperators.Group.List.Basic
import Mathlib.Algebra.Order.Group.Defs
import Mathlib.Data.List.Induction

/-!
# PaymentQueue.Async.Object

An **object**: a state behind methods that each run to completion, so that a
history of the object is a list of calls.

`Object.induct` is the invariant rule for such a history, `Object.sum_gains_le` the
potential argument (what the calls gain is paid for by the state),
`Object.simulates` the simulation rule (two objects that stay related while they give
the same answers cannot be told apart) and `Object.log_filter` the rule for calls
that do not matter to the answers of others.
-/

namespace PaymentQueue.Async

/-- States of type `σ` with methods `Call`, each of which answers and changes the state. -/
structure Object (σ Call : Type) (Ret : Call → Type) where
  run : σ → (c : Call) → Ret c × σ

namespace Object

variable {σ τ Call : Type} {Ret : Call → Type} (o : Object σ Call Ret) (s : σ) (c : Call)
  (cs : List Call)

/-- The state after a call. -/
def next : σ := (o.run s c).2

/-- The state after a list of calls. -/
def after (cs : List Call) : σ := cs.foldl o.next s

@[simp] theorem after_nil : o.after s [] = s := rfl

@[simp] theorem after_cons : o.after s (c :: cs) = o.after (o.next s c) cs := rfl

theorem after_append (cs' : List Call) :
    o.after s (cs ++ cs') = o.after (o.after s cs) cs' := by
  simp [after]

/-- The invariant rule, for calls that are all `V`. -/
theorem induct {V : Call → Prop} {I : σ → Prop}
    (hstep : ∀ s c, V c → I s → I (o.next s c)) (hs : I s) (hcs : ∀ c ∈ cs, V c) :
    I (o.after s cs) := by
  induction cs generalizing s with
  | nil => exact hs
  | cons c cs ih =>
      rw [List.forall_mem_cons] at hcs
      exact ih _ (hstep s c hcs.1 hs) hcs.2

@[simp] theorem after_append_singleton :
    o.after s (cs ++ [c]) = o.next (o.after s cs) c := by
  simp [after_append]

/-- The invariant rule for what a state has to do with the calls that led to it. The calls
are pairwise `R`, as successive clock readings are. -/
theorem induct_history {R : Call → Call → Prop} {I : List Call → σ → Prop} (hs : I [] s)
    (hstep : ∀ cs c, (∀ d ∈ cs, R d c) → I cs (o.after s cs) →
      I (cs ++ [c]) (o.next (o.after s cs) c))
    (hcs : cs.Pairwise R) : I cs (o.after s cs) := by
  induction cs using List.reverseRecOn with
  | nil => exact hs
  | append_singleton cs c ih =>
      rw [List.pairwise_append] at hcs
      rw [after_append_singleton]
      exact hstep cs c (fun d hd => hcs.2.2 d hd c (List.mem_singleton_self c)) (ih hcs.1)

/-! ### The log of a history -/

/-- The calls of a history and what they answered, latest first. -/
def log (cs : List Call) : List (Σ c, Ret c) :=
  (cs.foldl (fun sl c => (o.next sl.1 c, ⟨c, (o.run sl.1 c).1⟩ :: sl.2)) (s, [])).2

@[simp] theorem log_nil : o.log s [] = [] := rfl

@[simp] theorem log_append_singleton :
    o.log s (cs ++ [c]) = ⟨c, (o.run (o.after s cs) c).1⟩ :: o.log s cs := by
  have hstate : ∀ (l : List (Σ c, Ret c)), (cs.foldl (fun sl c =>
      (o.next sl.1 c, ⟨c, (o.run sl.1 c).1⟩ :: sl.2)) (s, l)).1 = o.after s cs := by
    induction cs generalizing s with
    | nil => exact fun _ => rfl
    | cons c cs ih => exact fun l => ih _ _
  rw [log, List.foldl_append, List.foldl_cons, List.foldl_nil, hstate]
  rfl

variable {o s cs} {t : τ} {p : Object τ Call Ret}

/-- The invariant rule for what a state has to do with the log that led to it. -/
theorem induct_log {I : List (Σ c, Ret c) → σ → Prop} (hs : I [] s)
    (hstep : ∀ log s c, I log s → I (⟨c, (o.run s c).1⟩ :: log) (o.next s c)) :
    I (o.log s cs) (o.after s cs) := by
  induction cs using List.reverseRecOn with
  | nil => exact hs
  | append_singleton cs c ih =>
      rw [log_append_singleton, after_append_singleton]
      exact hstep _ _ c ih

/-- The simulation rule: objects related by `I` answer alike and stay related. -/
theorem simulates {R : Call → Call → Prop} {I : List Call → σ → τ → Prop} (hst : I [] s t)
    (hstep : ∀ cs c s t, (∀ d ∈ cs, R d c) → I cs s t →
      (o.run s c).1 = (p.run t c).1 ∧ I (cs ++ [c]) (o.next s c) (p.next t c))
    (hcs : cs.Pairwise R) : o.log s cs = p.log t cs ∧ I cs (o.after s cs) (p.after t cs) := by
  induction cs using List.reverseRecOn with
  | nil => exact ⟨rfl, hst⟩
  | append_singleton cs c ih =>
      rw [List.pairwise_append] at hcs
      obtain ⟨hlog, hI⟩ := ih hcs.1
      obtain ⟨hret, hnext⟩ := hstep cs c _ _
        (fun d hd => hcs.2.2 d hd c (List.mem_singleton_self c)) hI
      refine ⟨?_, by simpa using hnext⟩
      rw [log_append_singleton, log_append_singleton, hret, hlog]

/-- Related objects cannot be told apart. -/
theorem log_eq {R : Call → Call → Prop} {I : List Call → σ → τ → Prop} (hst : I [] s t)
    (hstep : ∀ cs c s t, (∀ d ∈ cs, R d c) → I cs s t →
      (o.run s c).1 = (p.run t c).1 ∧ I (cs ++ [c]) (o.next s c) (p.next t c))
    (hcs : cs.Pairwise R) : o.log s cs = p.log t cs := (simulates hst hstep hcs).1

/-- Calls outside `Q` that leave the state related to what it was do not matter to the
answers of the others. -/
theorem log_filter {Q : Call → Bool} {I : σ → σ → Prop} {s' : σ} (hs : I s s')
    (hsame : ∀ c s s', Q c = true → I s s' →
      (o.run s c).1 = (o.run s' c).1 ∧ I (o.next s c) (o.next s' c))
    (hother : ∀ c s s', Q c = false → I s s' → I (o.next s c) s') :
    (o.log s cs).filter (fun e => Q e.1) = o.log s' (cs.filter Q) := by
  have key : (o.log s cs).filter (fun e => Q e.1) = o.log s' (cs.filter Q) ∧
      I (o.after s cs) (o.after s' (cs.filter Q)) := by
    induction cs using List.reverseRecOn with
    | nil => exact ⟨rfl, hs⟩
    | append_singleton cs c ih =>
        obtain ⟨hlog, hI⟩ := ih
        cases hQ : Q c with
        | false => simpa [hQ, hlog] using hother c _ _ hQ hI
        | true =>
            obtain ⟨hret, hnext⟩ := hsame c _ _ hQ hI
            simpa [hQ, hlog, hret] using hnext
  exact key.1

/-! ### Guarded histories -/

variable (o s cs)

/-- The states reached from `s` by calls that are `G` when they are made. -/
inductive Reached (G : σ → Call → Prop) (s : σ) : σ → Prop
  | start : Reached G s s
  | step {s' : σ} {c : Call} : Reached G s s' → G s' c → Reached G s (o.next s' c)

/-- Each of the calls is `G` when it is made. -/
def Allowed (G : σ → Call → Prop) : σ → List Call → Prop
  | _, [] => True
  | s, c :: cs => G s c ∧ Allowed G (o.next s c) cs

instance Allowed.decide (G : σ → Call → Prop) [∀ s c, Decidable (G s c)] :
    (s : σ) → (cs : List Call) → Decidable (o.Allowed G s cs)
  | _, [] => .isTrue trivial
  | s, c :: cs =>
      have := Allowed.decide G (o.next s c) cs
      inferInstanceAs (Decidable (_ ∧ _))

variable {o s cs} in
theorem Reached.of_allowed {G : σ → Call → Prop} {s₀ : σ} (h : o.Reached G s₀ s)
    (hcs : o.Allowed G s cs) : o.Reached G s₀ (o.after s cs) := by
  induction cs generalizing s with
  | nil => exact h
  | cons c cs ih => exact ih (.step h hcs.1) hcs.2

variable {o s} in
/-- A concrete history that ends in a state with the property `P`. -/
theorem Reached.exists_of_allowed {G : σ → Call → Prop} {P : σ → Prop} (cs : List Call)
    (hcs : o.Allowed G s cs) (hP : P (o.after s cs)) : ∃ s', o.Reached G s s' ∧ P s' :=
  ⟨_, Reached.start.of_allowed hcs, hP⟩

variable {o s} in
/-- A log of what is read off a state that only grows. Each entry is behind the state, and
comes after all that was behind the state when it was added; so the log is in order. -/
theorem Reached.readings {β : Type} {G : σ → Call → Prop} {s₀ : σ} {L : σ → List β}
    {R : β → β → Prop} {B : β → σ → Prop} (h₀ : L s₀ = [])
    (hgrow : ∀ s c x, o.Reached G s₀ s → G s c → B x s → B x (o.next s c))
    (hlog : ∀ s c, o.Reached G s₀ s → G s c → L (o.next s c) = L s ∨
      ∃ x, L (o.next s c) = L s ++ [x] ∧ B x (o.next s c) ∧
        ∀ y, B y s → R y x)
    (h : o.Reached G s₀ s) : (L s).Pairwise R ∧ ∀ x ∈ L s, B x s := by
  induction h with
  | start => simp [h₀]
  | @step s c hs hG ih =>
      have hbehind : ∀ x ∈ L s, B x (o.next s c) :=
        fun x hx => hgrow s c x hs hG (ih.2 x hx)
      rcases hlog s c hs hG with heq | ⟨x, heq, hx, hafter⟩
      · rw [heq]
        exact ⟨ih.1, hbehind⟩
      · rw [heq, List.pairwise_append]
        refine ⟨⟨ih.1, by simp, fun y hy z hz => ?_⟩, fun y hy => ?_⟩
        · obtain rfl := List.mem_singleton.mp hz
          exact hafter y (ih.2 y hy)
        · rcases List.mem_append.mp hy with hy | hy
          · exact hbehind y hy
          · obtain rfl := List.mem_singleton.mp hy
            exact hx

/-! ### What the calls of a history gain -/

section

variable {α : Type} (gain : σ → Call → α)

/-- The gain of each call of a history. -/
def gains : σ → List Call → List α
  | _, [] => []
  | s, c :: cs => gain s c :: gains (o.next s c) cs

@[simp] theorem gains_nil : o.gains gain s [] = [] := rfl

@[simp] theorem gains_cons :
    o.gains gain s (c :: cs) = gain s c :: o.gains gain (o.next s c) cs := rfl

theorem gains_append (cs' : List Call) :
    o.gains gain s (cs ++ cs') = o.gains gain s cs ++ o.gains gain (o.after s cs) cs' := by
  induction cs generalizing s with
  | nil => rfl
  | cons c cs ih => simp [ih]

@[simp] theorem length_gains : (o.gains gain s cs).length = cs.length := by
  induction cs generalizing s with
  | nil => rfl
  | cons c cs ih => simp [ih]

theorem take_gains (n : Nat) : (o.gains gain s cs).take n = o.gains gain s (cs.take n) := by
  induction cs generalizing s n with
  | nil => simp
  | cons c cs ih =>
      cases n with
      | zero => rfl
      | succ n => simp [ih]

theorem drop_gains (n : Nat) :
    (o.gains gain s cs).drop n = o.gains gain (o.after s (cs.take n)) (cs.drop n) := by
  induction cs generalizing s n with
  | nil => simp
  | cons c cs ih =>
      cases n with
      | zero => rfl
      | succ n => simp [ih]

/-- The calls from number `i` to number `j` are call `i` and a rest. -/
theorem exists_window {i j : Nat} (hij : i ≤ j) (hj : j < cs.length) :
    ∃ rest, cs.take (j + 1) = cs.take i ++ cs[i] :: rest ∧
      ((o.gains gain s cs).take (j + 1)).drop i =
        o.gains gain (o.after s (cs.take i)) (cs[i] :: rest) := by
  have hdrop : (cs.take (j + 1)).drop i = cs[i] :: (cs.take (j + 1)).drop (i + 1) := by
    rw [List.drop_eq_getElem_cons (by rw [List.length_take]; omega), List.getElem_take]
  have htake : (cs.take (j + 1)).take i = cs.take i := by
    rw [List.take_take, min_eq_left (by omega)]
  refine ⟨(cs.take (j + 1)).drop (i + 1), ?_, ?_⟩
  · rw [← hdrop, ← htake, List.take_append_drop]
  · rw [take_gains, drop_gains, htake, hdrop]

/-- The potential argument: a call gains no more than it takes from the potential. -/
theorem sum_gains_le [AddCommGroup α] [PartialOrder α] [IsOrderedAddMonoid α] {V : Call → Prop}
    {I : σ → Prop} {Φ : σ → α} (hstep : ∀ s c, V c → I s → I (o.next s c))
    (hgain : ∀ s c, V c → I s → gain s c + Φ (o.next s c) ≤ Φ s) (hs : I s)
    (hcs : ∀ c ∈ cs, V c) :
    (o.gains gain s cs).sum + Φ (o.after s cs) ≤ Φ s := by
  induction cs generalizing s with
  | nil => simp
  | cons c cs ih =>
      rw [List.forall_mem_cons] at hcs
      have hrest := ih (o.next s c) (hstep s c hcs.1 hs) hcs.2
      calc (o.gains gain s (c :: cs)).sum + Φ (o.after s (c :: cs))
          = gain s c + ((o.gains gain (o.next s c) cs).sum + Φ (o.after (o.next s c) cs)) := by
            simp [add_assoc]
        _ ≤ gain s c + Φ (o.next s c) := by gcongr
        _ ≤ Φ s := hgain s c hcs.1 hs

end

end Object

end PaymentQueue.Async
