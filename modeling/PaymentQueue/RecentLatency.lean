import PaymentQueue.Async.Quantile
import PaymentQueue.Async.Window
import PaymentQueue.MetricsCollector

/-!
# PaymentQueue.RecentLatency

Are the percentiles of a latency window quantiles of the latest latencies?

The window is the end of all that was recorded (`samples_recorded`), and `percentile` takes
the entry of the sorted window at the index of a quantile (`percentile_eq`), so that it is
one, and grows with `p` (`percentile_quantile`).
-/

namespace PaymentQueue

open Async

namespace LatencyWindow

variable {w : LatencyWindow} {p q : ℚ}

/-- Record latencies one after the other. -/
def recordAll (w : LatencyWindow) (latencies : List ℚ) : LatencyWindow :=
  latencies.foldl record w

/-- A window of `maxSize` samples, after latencies have been recorded. -/
def recorded (maxSize : Nat) (latencies : List ℚ) : LatencyWindow :=
  recordAll { maxSize := maxSize } latencies

/-- To record is to push into the window. -/
theorem recordAll_samples (latencies : List ℚ) :
    (w.recordAll latencies).samples = latencies.foldl (slide w.maxSize) w.samples := by
  induction latencies generalizing w with
  | nil => rfl
  | cons ms latencies ih => exact ih

/-- The window holds the latest latencies. -/
theorem samples_recorded (maxSize : Nat) (latencies : List ℚ) :
    (recorded maxSize latencies).samples = latencies.rtake maxSize := by
  rw [recorded, recordAll_samples]
  exact foldl_slide

/-- The percentile is the entry of the sorted window at the index of a quantile. -/
theorem percentile_eq (hw : w.samples ≠ []) (hp : 0 ≤ p) :
    ∃ i : Nat, (i : Int) = quantileIndex (p / 100) w.samples.length ∧
      ∃ hi : i < (w.samples.insertionSort (· ≤ ·)).length,
        w.percentile p = some (w.samples.insertionSort (· ≤ ·))[i] := by
  have hlen : 0 < w.samples.length := List.length_pos_iff.mpr hw
  have hq : 0 ≤ p / 100 := by positivity
  obtain ⟨hnonneg, hlt⟩ := quantileIndex_mem hq hlen
  obtain ⟨i, hi⟩ := Int.eq_ofNat_of_zero_le hnonneg
  rw [hi] at hlt
  have hsorted : i < (w.samples.insertionSort (· ≤ ·)).length := by
    rw [List.length_insertionSort]
    exact_mod_cast hlt
  refine ⟨i, hi.symm, hsorted, ?_⟩
  have hidx : min (((w.samples.insertionSort (· ≤ ·)).length : Int) - 1)
      ⌊p / 100 * ((w.samples.insertionSort (· ≤ ·)).length : ℚ)⌋ = i := by
    rw [List.length_insertionSort]
    exact hi
  simp only [percentile, hlen.ne', if_false, hidx]
  rw [if_neg (by omega), Int.toNat_natCast, List.getElem?_eq_getElem hsorted]

/-- A percentile is a quantile of the window. -/
theorem isQuantile_percentile (hw : w.samples ≠ []) (hp : 0 ≤ p) (hp' : p ≤ 100) :
    ∃ v, w.percentile p = some v ∧ IsQuantile (p / 100) w.samples v := by
  obtain ⟨i, hidx, hi, heq⟩ := percentile_eq hw hp
  have hq : p / 100 ≤ 1 := by linarith
  refine ⟨_, heq, IsQuantile.perm ?_ (List.perm_insertionSort (· ≤ ·) w.samples)⟩
  refine isQuantile_getElem List.sortedLE_insertionSort hq ?_ hi
  rwa [List.length_insertionSort]

/-- Percentiles grow with `p`. -/
theorem percentile_mono (hp : 0 ≤ p) (hpq : p ≤ q) :
    ∃ u v, w.percentile p = some u ∧ w.percentile q = some v ∧ u ≤ v := by
  by_cases hw : w.samples = []
  · exact ⟨0, 0, by simp [percentile, hw], by simp [percentile, hw], le_rfl⟩
  obtain ⟨i, hi, hilt, hieq⟩ := percentile_eq hw hp
  obtain ⟨j, hj, hjlt, hjeq⟩ := percentile_eq hw (hp.trans hpq)
  have hij : i ≤ j := by
    have hmono : quantileIndex (p / 100) w.samples.length ≤
        quantileIndex (q / 100) w.samples.length := quantileIndex_mono (by linarith)
    rw [← hi, ← hj] at hmono
    exact_mod_cast hmono
  exact ⟨_, _, hieq, hjeq, List.sortedLE_insertionSort.getElem_le_getElem_of_le hij⟩

/-- **Percentiles of the recent latencies.** After any latencies have been recorded, the window
holds the latest of them, `maxSize` or all there are; a percentile of a window that is not
empty is a quantile of it; and percentiles grow with `p`. -/
theorem percentile_quantile (maxSize : Nat) (latencies : List ℚ) :
    (recorded maxSize latencies).samples = latencies.rtake (min latencies.length maxSize) ∧
    ((recorded maxSize latencies).samples ≠ [] → ∀ p, 0 ≤ p → p ≤ 100 →
      ∃ v, (recorded maxSize latencies).percentile p = some v ∧
        IsQuantile (p / 100) (recorded maxSize latencies).samples v) ∧
    ∀ p q, 0 ≤ p → p ≤ q →
      ∃ u v, (recorded maxSize latencies).percentile p = some u ∧
        (recorded maxSize latencies).percentile q = some v ∧ u ≤ v := by
  refine ⟨?_, fun hw p hp hp' => isQuantile_percentile hw hp hp',
    fun p q hp hpq => percentile_mono hp hpq⟩
  rw [samples_recorded, List.rtake, List.rtake]
  congr 1
  omega

/-- The P99 of ten latencies, of which the window has kept the last four. -/
theorem percentile_quantile_four :
    let w := recorded 4 [900, 20, 30, 10, 40, 800, 30, 70, 20, 30]
    ∃ u v, w.percentile 95 = some u ∧ w.percentile 99 = some v ∧ u ≤ v ∧
      IsQuantile (99 / 100) [30, 70, 20, 30] v := by
  intro w
  obtain ⟨hsamples, hquantile, hmono⟩ := percentile_quantile 4
    [900, 20, 30, 10, 40, 800, 30, 70, 20, 30]
  obtain ⟨u, v, hu, hv, huv⟩ := hmono 95 99 (by norm_num) (by norm_num)
  have hlast : w.samples = [30, 70, 20, 30] := hsamples.trans (by decide +kernel)
  obtain ⟨v', hv', hq⟩ := hquantile (by rw [hlast]; simp) 99 (by norm_num) (by norm_num)
  obtain rfl : v' = v := Option.some.inj (hv'.symm.trans hv)
  exact ⟨u, v', hu, hv, huv, hlast ▸ hq⟩

end LatencyWindow

end PaymentQueue
