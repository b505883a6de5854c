import Mathlib.Algebra.Order.Group.Defs
import Mathlib.Data.List.Infix
import PaymentQueue.Async.System

/-!
# PaymentQueue.Async.History

**Properties of a log**, and how one step of a run changes them.

A log is a list with its latest entry first. `Pending A R log` says that some entry
in `A` has not been followed by one in `R`: a charge that was not voided, a request
whose outcome is still open. `Throughout P log` says that `P` held of every entry
and of what had been logged before it. Both are recursive, so that a concrete log
decides them and a step of a run is one use of `pending_cons` or `throughout_cons`;
`pending_iff` and `throughout_iff` say the same without recursion. `since A log` is what
was logged after the last entry in `A`. `Spaced k D times`
says that no more than `k` times ever fall within a distance `D`.
-/

namespace PaymentQueue.Async

section

variable {E : Type}

/-- Some entry in `A` is not followed by any entry in `R`. -/
def Pending (A R : E → Bool) : List E → Prop
  | [] => False
  | e :: before => A e = true ∨ (R e = false ∧ Pending A R before)

/-- `P` held of every entry, given what had been logged before it. -/
def Throughout (P : E → List E → Prop) : List E → Prop
  | [] => True
  | e :: before => P e before ∧ Throughout P before

variable {A R : E → Bool} {P : E → List E → Prop} {e : E} {log : List E}

instance Pending.decide : (log : List E) → Decidable (Pending A R log)
  | [] => .isFalse id
  | _ :: before =>
      have := Pending.decide before
      inferInstanceAs (Decidable (_ ∨ _))

instance Throughout.decide [∀ e before, Decidable (P e before)] :
    (log : List E) → Decidable (Throughout P log)
  | [] => .isTrue trivial
  | _ :: before =>
      have := Throughout.decide before
      inferInstanceAs (Decidable (_ ∧ _))

@[simp] theorem pending_nil : ¬ Pending A R [] := id

theorem pending_cons :
    Pending A R (e :: log) ↔ A e = true ∨ (R e = false ∧ Pending A R log) := .rfl

@[simp] theorem throughout_nil : Throughout P [] := trivial

theorem throughout_cons :
    Throughout P (e :: log) ↔ P e log ∧ Throughout P log := .rfl

/-- An entry neither in `A` nor in `R` leaves what is pending as it was. -/
theorem pending_skip (hA : A e = false) (hR : R e = false) :
    Pending A R (e :: log) ↔ Pending A R log := by
  simp [pending_cons, hA, hR]

theorem pending_iff : Pending A R log ↔
    ∃ after e before, log = after ++ e :: before ∧ A e = true ∧
      ∀ x ∈ after, R x = false := by
  induction log with
  | nil => simp
  | cons e log ih =>
      rw [pending_cons, ih]
      constructor
      · intro hor
        rcases hor with he | ⟨hR, after, e', before, rfl, he', hafter⟩
        · exact ⟨[], e, log, rfl, he, by simp⟩
        · exact ⟨e :: after, e', before, rfl, he', by simpa [hR] using hafter⟩
      · intro hex
        obtain ⟨after, e', before, heq, he', hafter⟩ := hex
        cases after with
        | nil =>
            obtain ⟨rfl, rfl⟩ := List.cons.inj heq
            exact Or.inl he'
        | cons x after =>
            obtain ⟨rfl, rfl⟩ := List.cons.inj heq
            simp only [List.mem_cons, forall_eq_or_imp] at hafter
            exact Or.inr ⟨hafter.1, after, e', before, rfl, he', hafter.2⟩

theorem throughout_iff :
    Throughout P log ↔ ∀ e before, e :: before <:+ log → P e before := by
  induction log with
  | nil => simp
  | cons e log ih =>
      rw [throughout_cons, ih]
      constructor
      · intro hand e' before hsuf
        obtain ⟨he, hlog⟩ := hand
        rcases List.suffix_cons_iff.mp hsuf with heq | hsuf
        · obtain ⟨rfl, rfl⟩ := List.cons.inj heq
          exact he
        · exact hlog e' before hsuf
      · intro h
        exact ⟨h e log (List.suffix_refl _), fun e' before hsuf =>
          h e' before (hsuf.trans (List.suffix_cons _ _))⟩

/-- The entries since the last one in `A`; all of them, if there is none. -/
def since (A : E → Bool) (log : List E) : List E := log.takeWhile fun e => !A e

@[simp] theorem since_nil : since A [] = [] := rfl

@[simp] theorem since_cons_of (h : A e = true) : since A (e :: log) = [] := by
  simp [since, h]

@[simp] theorem since_cons_of_not (h : A e = false) :
    since A (e :: log) = e :: since A log := by
  simp [since, h]

end

/-! ### Events that keep their distance -/

section

variable {α : Type} [AddCommGroup α] [LinearOrder α] {k : Nat} {D : α}

/-- Of the times in the log, latest first, each is `D` later than all but the last `k` up
to it. -/
def Spaced (k : Nat) (D : α) : List α → Prop :=
  Throughout fun t before => ∀ t' ∈ (t :: before).drop k, t' + D ≤ t

theorem Spaced.sublist {l l' : List α} (h : Spaced k D l) (hl : l'.Sublist l) :
    Spaced k D l' := by
  induction hl with
  | slnil => exact trivial
  | cons t hl ih => exact ih h.2
  | cons_cons t hl ih =>
      exact ⟨fun t' ht' => h.1 t' (((hl.cons_cons t).drop k).subset ht'), ih h.2⟩

theorem Spaced.drop {l : List α} (h : Spaced k D l) (n : Nat) : Spaced k D (l.drop n) :=
  h.sublist (List.drop_sublist n l)

/-- Within less than `q` distances there are at most `k * q` of them. -/
theorem Spaced.length_le [IsOrderedAddMonoid α] {l : List α} (h : Spaced k D l) {a : α}
    {q : Nat} (hl : ∀ t ∈ l, a ≤ t ∧ t < a + q • D) : l.length ≤ k * q := by
  induction q generalizing l with
  | zero =>
      cases l with
      | nil => simp
      | cons t l =>
          obtain ⟨ha, hlt⟩ := hl t (List.mem_cons_self)
          rw [zero_nsmul, add_zero] at hlt
          exact absurd ha (not_le.mpr hlt)
  | succ q ih =>
      cases l with
      | nil => simp
      | cons t l =>
          -- all but the first `k` are a distance before the first
          have hrest : ((t :: l).drop k).length ≤ k * q := by
            refine ih (h.drop k) fun t' ht' => ?_
            have ht := (hl t List.mem_cons_self).2
            refine ⟨(hl t' (List.mem_of_mem_drop ht')).1, ?_⟩
            rw [succ_nsmul, ← add_assoc] at ht
            exact lt_of_add_lt_add_right ((h.1 t' ht').trans_lt ht)
          rw [List.length_drop] at hrest
          rw [Nat.mul_succ]
          omega

end

/-! ### Running concrete actions -/

variable {S : Signature} {M : Machine S} {ι ε α : Type} [DecidableEq ι]

/-- A concrete run that ends in a configuration with the decidable property `P`. -/
theorem Run.exists_of_exec {G : Guard M ι ε α} [∀ s a, Decidable (G s a)]
    {s₀ : Config M ι ε α} {P : Config M ι ε α → Prop} [DecidablePred P]
    (as : List (Action M ι)) (h : (s₀.exec G as).any (fun s => decide (P s)) = true) :
    ∃ s, Run G s₀ s ∧ P s := by
  obtain ⟨s, hs, hP⟩ := (Option.any_eq_true _ _).mp h
  exact ⟨s, Run.of_exec .start hs, of_decide_eq_true hP⟩

end PaymentQueue.Async
