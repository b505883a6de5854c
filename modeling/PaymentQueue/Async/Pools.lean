import Mathlib.Algebra.BigOperators.Group.Finset.Basic
import Mathlib.Algebra.GroupWithZero.Nat
import Mathlib.Algebra.Order.BigOperators.Group.Finset
import Mathlib.Data.Fintype.Basic
import PaymentQueue.Async.System

/-!
# PaymentQueue.Async.Pools

**Calls in pools of a limited size.**

Every call belongs to a pool, and a pool begins a call only while fewer of its calls are in
flight than it has places (`Pooled`). Since a call becomes busy by beginning and in no other
way, no pool is ever over its size (`Run.pooled`), nor are several together over the sum of
their sizes (`Run.card_busy_le`).
-/

namespace PaymentQueue.Async

variable {S : Signature} {M : Machine S} {ι ε α κ : Type} [DecidableEq ι]

/-- Only what begins becomes busy. -/
theorem Config.inFlight_of_step {s s' : Config M ι ε α} {a : Action M ι}
    (hs : s.step a = some s') {c : ι} (hc : (s'.thread c).inFlight = true) :
    (s.thread c).inFlight = true ∨ a = .begin c := by
  by_cases hbusy : (s.thread c).inFlight = true
  · exact Or.inl hbusy
  right
  have hother : ∀ {d : ι} {o : S.Op} {k : S.Ret o → Program S ε α} {t : Thread S ε α},
      s.thread d = .running (.await o k) →
      (Function.update s.thread d t c).inFlight ≠ true := by
    intro d o k t hd
    have hne : c ≠ d := by
      rintro rfl
      exact hbusy (by simp [hd, Thread.inFlight, Thread.awaiting])
    rwa [Function.update_of_ne hne]
  cases a with
  | begin d =>
      simp only [Config.step] at hs
      split at hs
      · obtain rfl := Option.some.inj hs
        by_cases hcd : c = d
        · rw [hcd]
        · exact absurd (by simpa [Function.update_of_ne hcd] using hc) hbusy
      · exact absurd hs (by simp)
  | answer d a =>
      simp only [Config.step] at hs
      split at hs
      · next hd =>
        obtain ⟨rw', -, rfl⟩ := Option.map_eq_some_iff.mp hs
        exact absurd hc (hother hd)
      · exact absurd hs (by simp)
  | crash d lost =>
      cases lost with
      | none =>
          simp only [Config.step] at hs
          split at hs
          · next hd =>
            obtain rfl := Option.some.inj hs
            exact absurd hc (hother hd)
          · exact absurd hs (by simp)
      | some a =>
          simp only [Config.step] at hs
          split at hs
          · next hd =>
            obtain ⟨rw', -, rfl⟩ := Option.map_eq_some_iff.mp hs
            exact absurd hc (hother hd)
          · exact absurd hs (by simp)
  | move m =>
      simp only [Config.step] at hs
      obtain ⟨w, -, rfl⟩ := Option.map_eq_some_iff.mp hs
      exact absurd hc hbusy

variable [Fintype ι] [DecidableEq κ] {pool : ι → κ} {size : κ → Nat}

omit [DecidableEq ι] in
/-- The calls of a pool that are in flight. -/
def Config.busy (s : Config M ι ε α) (pool : ι → κ) (k : κ) : Finset ι :=
  Finset.univ.filter fun c => pool c = k ∧ (s.thread c).inFlight = true

omit [DecidableEq ι] in
@[simp] theorem Config.mem_busy {s : Config M ι ε α} {k : κ} {c : ι} :
    c ∈ s.busy pool k ↔ pool c = k ∧ (s.thread c).inFlight = true := by
  simp [Config.busy]

omit [DecidableEq ι] in
/-- A pool begins a call only in a free place. -/
def Pooled (pool : ι → κ) (size : κ → Nat) : Guard M ι ε α
  | s, .begin c => (s.busy pool (pool c)).card < size (pool c)
  | _, _ => True

instance (s : Config M ι ε α) : DecidablePred (Pooled pool size s)
  | .begin c => inferInstanceAs (Decidable ((s.busy pool (pool c)).card < size (pool c)))
  | .answer _ _ | .crash _ _ | .move _ => .isTrue trivial

/-- No pool is over its size. -/
theorem Run.pooled {G : Guard M ι ε α} (hG : ∀ {s a}, G s a → Pooled pool size s a)
    {p : ι → Program S ε α} {w : M.World} {s : Config M ι ε α}
    (h : Run G (Config.start p w) s) (k : κ) : (s.busy pool k).card ≤ size k := by
  induction h with
  | start => simp [Config.busy, Config.start, Thread.inFlight, Thread.awaiting]
  | @step s s' a _ ha hs ih =>
      have hsub : ∀ c ∈ s'.busy pool k, c ∈ s.busy pool k ∨ (a = .begin c ∧ pool c = k) := by
        intro c hc
        obtain ⟨hpool, hc⟩ := Config.mem_busy.mp hc
        exact (Config.inFlight_of_step hs hc).imp (fun h => Config.mem_busy.mpr ⟨hpool, h⟩)
          fun h => ⟨h, hpool⟩
      by_cases hbegin : ∃ c, a = .begin c ∧ pool c = k
      · obtain ⟨c, rfl, rfl⟩ := hbegin
        have hroom : (s.busy pool (pool c)).card < size (pool c) := hG ha
        refine le_trans (Finset.card_le_card (t := insert c (s.busy pool (pool c))) ?_)
          ((Finset.card_insert_le _ _).trans hroom)
        intro d hd
        rcases hsub d hd with hd | ⟨heq, -⟩
        · exact Finset.mem_insert_of_mem hd
        · cases heq
          exact Finset.mem_insert_self _ _
      · refine le_trans (Finset.card_le_card fun c hc => ?_) ih
        exact (hsub c hc).resolve_right fun hc => hbegin ⟨c, hc⟩

/-- The calls in flight in several pools are no more than the pools have places. -/
theorem Run.card_busy_le {G : Guard M ι ε α} (hG : ∀ {s a}, G s a → Pooled pool size s a)
    {p : ι → Program S ε α} {w : M.World} {s : Config M ι ε α}
    (h : Run G (Config.start p w) s) {pools : List κ} {cs : Finset ι}
    (hcs : ∀ c ∈ cs, pool c ∈ pools ∧ (s.thread c).inFlight = true) :
    cs.card ≤ (pools.map size).sum := by
  induction pools generalizing cs with
  | nil =>
      have hnone : cs = ∅ := Finset.eq_empty_of_forall_notMem fun c hc => by simpa using hcs c hc
      simp [hnone]
  | cons k pools ih =>
      have hrest : (cs.filter fun c => ¬ pool c = k).card ≤ (pools.map size).sum := by
        refine ih fun c hc => ?_
        obtain ⟨hc, hne⟩ := Finset.mem_filter.mp hc
        obtain ⟨hmem, hbusy⟩ := hcs c hc
        exact ⟨(List.mem_cons.mp hmem).resolve_left hne, hbusy⟩
      have hfirst : (cs.filter fun c => pool c = k).card ≤ size k := by
        refine le_trans (Finset.card_le_card fun c hc => ?_) (h.pooled hG k)
        obtain ⟨hc, hk⟩ := Finset.mem_filter.mp hc
        exact Config.mem_busy.mpr ⟨hk, (hcs c hc).2⟩
      calc cs.card
          = (cs.filter fun c => pool c = k).card + (cs.filter fun c => ¬ pool c = k).card :=
            (Finset.card_filter_add_card_filter_not _).symm
        _ ≤ size k + (pools.map size).sum := Nat.add_le_add hfirst hrest
        _ = ((k :: pools).map size).sum := by rw [List.map_cons, List.sum_cons]

end PaymentQueue.Async
