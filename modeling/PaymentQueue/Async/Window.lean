import Mathlib.Data.List.DropRight
import Mathlib.Order.Lattice

/-!
# PaymentQueue.Async.Window

A **sliding window**: the latest entries of a record that grows at its end.

`slide` is one push, which lets the oldest entry go when there are too many. Whatever is
pushed, the window is the end of the record (`foldl_slide`). Of a record in order, a window
in time can be had by dropping what comes before it (`dropWhile_lt`).
-/

namespace PaymentQueue.Async

variable {α : Type} {w : Nat} {record : List α} {x : α}

/-- Push an entry into a window of `w`. -/
def slide (w : Nat) (window : List α) (x : α) : List α :=
  let window := window ++ [x]
  if window.length > w then window.tail else window

theorem length_rtake : (record.rtake w).length = min record.length w := by
  rw [List.rtake, List.length_drop]
  omega

theorem slide_rtake : slide w (record.rtake w) x = (record ++ [x]).rtake w := by
  cases w with
  | zero => simp [slide]
  | succ k =>
      rw [List.rtake_concat_succ, slide]
      simp only [List.length_append, length_rtake, List.length_singleton]
      split
      · next hfull =>
        -- the oldest entry is pushed out
        have hne : record.rtake (k + 1) ≠ [] := by
          rw [ne_eq, ← List.length_eq_zero_iff, length_rtake]
          omega
        rw [List.tail_append_of_ne_nil hne, List.rtake, List.tail_drop, List.rtake]
        congr 2
        omega
      · next hroom =>
        rw [List.rtake, List.rtake, Nat.sub_eq_zero_of_le (by omega),
          Nat.sub_eq_zero_of_le (by omega)]

/-- A record that fills the window hides what was recorded before it. -/
theorem rtake_append_of_le {before : List α} (h : w ≤ record.length) :
    (before ++ record).rtake w = record.rtake w := by
  rw [List.rtake, List.rtake, List.length_append, List.drop_append,
    List.drop_eq_nil_of_le (by omega), List.nil_append]
  congr 1
  omega

/-- What is in the window after more has been recorded was in it before, or is new. -/
theorem mem_rtake_append {before : List α} (h : x ∈ (before ++ record).rtake w) :
    x ∈ before.rtake w ∨ x ∈ record := by
  rw [List.rtake, List.drop_append, List.mem_append] at h
  rcases h with h | h
  · rw [List.length_append] at h
    exact Or.inl (List.drop_subset_drop_left _ (by omega) h)
  · exact Or.inr (List.mem_of_mem_drop h)

/-- The window is the end of the record. -/
theorem foldl_slide : record.foldl (slide w) [] = record.rtake w := by
  induction record using List.reverseRecOn with
  | nil => simp
  | append_singleton record x ih => rw [List.foldl_concat, ih, slide_rtake]

/-- Of a list in order, to drop what comes before `c` is to keep what does not. -/
theorem dropWhile_lt [LinearOrder α] {c : α} (h : record.Pairwise (· ≤ ·)) :
    record.dropWhile (· < c) = record.filter (c ≤ ·) := by
  induction record with
  | nil => rfl
  | cons x record ih =>
      rw [List.pairwise_cons] at h
      by_cases hx : x < c
      · rw [List.dropWhile_cons_of_pos (by simpa using hx), ih h.2,
          List.filter_cons_of_neg (by simpa using hx)]
      · have hall : ∀ y ∈ x :: record, c ≤ y := by
          intro y hy
          rcases List.mem_cons.mp hy with rfl | hy
          · exact not_lt.mp hx
          · exact (not_lt.mp hx).trans (h.1 y hy)
        rw [List.dropWhile_cons_of_neg (by simpa using hx),
          List.filter_eq_self.mpr (by simpa using hall)]

/-- A list has as many entries that are `p` as entries that are `q`, which are fewer in
general, exactly if each that is `p` is `q`. -/
theorem length_filter_eq_iff {p q : α → Bool} (h : ∀ x ∈ record, q x = true → p x = true) :
    (record.filter p).length = (record.filter q).length ↔
      ∀ x ∈ record, p x = true → q x = true := by
  have hsub : record.filter q = (record.filter p).filter q := by
    rw [List.filter_filter]
    refine List.filter_congr fun x hx => ?_
    cases hq : q x with
    | false => rfl
    | true => rw [h x hx hq, Bool.true_and]
  rw [hsub, eq_comm, List.length_filter_eq_length_iff]
  simp

end PaymentQueue.Async
