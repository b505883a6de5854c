import Mathlib.Algebra.Order.Floor.Ring
import Mathlib.Data.List.Sort
import Mathlib.Tactic.Linarith

/-!
# PaymentQueue.Async.Quantile

**Quantiles** of a list.

The entry of the sorted list at index `⌊q * n⌋`, or at the last one, is a `q`-quantile
(`isQuantile_getElem`), and the index grows with `q` (`quantileIndex_mono`).
-/

namespace PaymentQueue.Async

section

variable {α : Type} [LinearOrder α] {xs : List α} {i : Nat}

/-- Entries of a sorted list up to `i` are at most the one at `i`. -/
theorem succ_le_countP_le (hxs : xs.SortedLE) (hi : i < xs.length) :
    i + 1 ≤ xs.countP (· ≤ xs[i]) := by
  have hall : ∀ x ∈ xs.take (i + 1), x ≤ xs[i] := by
    intro x hx
    obtain ⟨j, hj, rfl⟩ := List.mem_take_iff_getElem.mp hx
    exact hxs.getElem_le_getElem_of_le (by omega)
  have hcount : (xs.take (i + 1)).countP (· ≤ xs[i]) = i + 1 := by
    rw [List.countP_eq_length.mpr (by simpa using hall), List.length_take]
    omega
  rw [← hcount]
  exact (List.take_sublist _ _).countP_le

/-- Entries of a sorted list from `i` on are at least the one at `i`. -/
theorem sub_le_countP_ge (hxs : xs.SortedLE) (hi : i < xs.length) :
    xs.length - i ≤ xs.countP (xs[i] ≤ ·) := by
  have hall : ∀ x ∈ xs.drop i, xs[i] ≤ x := by
    intro x hx
    obtain ⟨j, hj, rfl⟩ := List.mem_drop_iff_getElem.mp hx
    exact hxs.getElem_le_getElem_of_le (by omega)
  have hcount : (xs.drop i).countP (xs[i] ≤ ·) = xs.length - i := by
    rw [List.countP_eq_length.mpr (by simpa using hall), List.length_drop]
  rw [← hcount]
  exact (List.drop_sublist _ _).countP_le

/-- The entry at `i` of a sorted list is over `v` exactly if as many entries are as there are
from `i` on. -/
theorem lt_getElem_iff (hxs : xs.SortedLE) (hi : i < xs.length) {v : α} :
    v < xs[i] ↔ xs.length - i ≤ xs.countP (v < ·) := by
  constructor
  · intro hv
    refine (sub_le_countP_ge hxs hi).trans (List.countP_mono_left fun x _ hx => ?_)
    exact decide_eq_true (hv.trans_le (of_decide_eq_true hx))
  · intro hcount
    by_contra hv
    have hle : i + 1 ≤ xs.countP (· ≤ v) := by
      refine (succ_le_countP_le hxs hi).trans (List.countP_mono_left fun x _ hx => ?_)
      exact decide_eq_true ((of_decide_eq_true hx).trans (not_lt.mp hv))
    have hsplit := List.length_eq_countP_add_countP (fun x => decide (v < x)) (l := xs)
    have hnot : xs.countP (fun x => decide ¬ decide (v < x) = true) = xs.countP (· ≤ v) := by
      refine List.countP_congr fun x _ => ?_
      simp
    omega

end

variable {F : Type} [Field F] [LinearOrder F] [FloorRing F]

/-- `v` is an entry, at least a fraction `q` of the entries are at most `v`, and at least a
fraction `1 - q` of them are at least `v`. -/
def IsQuantile (q : F) (xs : List F) (v : F) : Prop :=
  v ∈ xs ∧ q * xs.length ≤ xs.countP (· ≤ v) ∧ (1 - q) * xs.length ≤ xs.countP (v ≤ ·)

/-- The index of a `q`-quantile in a sorted list of length `n`. -/
def quantileIndex (q : F) (n : Nat) : Int := min ((n : Int) - 1) ⌊q * n⌋

omit [FloorRing F] in
theorem IsQuantile.perm {q v : F} {xs ys : List F} (h : IsQuantile q xs v)
    (hperm : xs.Perm ys) : IsQuantile q ys v := by
  obtain ⟨hmem, hle, hge⟩ := h
  rw [hperm.length_eq, hperm.countP_eq] at hle hge
  exact ⟨hperm.mem_iff.mp hmem, hle, hge⟩

variable [IsStrictOrderedRing F] {q q' : F} {n : Nat}

theorem quantileIndex_mono (h : q ≤ q') : quantileIndex q n ≤ quantileIndex q' n := by
  unfold quantileIndex
  gcongr

/-- The index lies in the list. -/
theorem quantileIndex_mem (hq : 0 ≤ q) (hn : 0 < n) :
    0 ≤ quantileIndex q n ∧ quantileIndex q n < n := by
  have hfloor : 0 ≤ ⌊q * n⌋ := Int.floor_nonneg.mpr (mul_nonneg hq (Nat.cast_nonneg n))
  unfold quantileIndex
  omega

/-- The index is `q * n`, rounded down. -/
theorem le_quantileIndex_add_one (hq : q ≤ 1) : q * n ≤ quantileIndex q n + 1 := by
  have hall : q * n ≤ n := mul_le_of_le_one_left (Nat.cast_nonneg n) hq
  have hfloor := Int.lt_floor_add_one (q * n)
  rw [quantileIndex, Int.cast_min, ← min_add_add_right]
  push_cast
  exact le_min (by linarith) hfloor.le

theorem quantileIndex_le : (quantileIndex q n : F) ≤ q * n :=
  (Int.cast_le.mpr (min_le_right _ _)).trans (Int.floor_le _)

theorem isQuantile_getElem {xs : List F} (hxs : xs.SortedLE) (hq1 : q ≤ 1)
    {i : Nat} (hi : (i : Int) = quantileIndex q xs.length) (hlt : i < xs.length) :
    IsQuantile q xs xs[i] := by
  have hlower := le_quantileIndex_add_one (n := xs.length) hq1
  have hupper := quantileIndex_le (q := q) (n := xs.length)
  rw [← hi] at hlower hupper
  push_cast at hlower hupper
  refine ⟨List.getElem_mem hlt, hlower.trans ?_, ?_⟩
  · exact_mod_cast succ_le_countP_le hxs hlt
  · have hcount := sub_le_countP_ge hxs hlt
    have hsub : (xs.length : F) ≤ xs.countP (xs[i] ≤ ·) + i := by exact_mod_cast by omega
    linarith

end PaymentQueue.Async
