import Mathlib.Data.Finset.Card
import Mathlib.Data.List.Nodup

/-!
# PaymentQueue.Async.Slots

**A resource with a number of slots**, handed out in the order in which they are asked for.

`Slots ι` says which calls are inside, which wait, and in which order the slots were granted
so far. A call that asks goes in or joins the queue; one that leaves hands its slot to the
first in the queue. `Sound` is what every order of asking and leaving keeps
(`Sound.enter`, `Sound.join`, `Sound.leave`), and `asked` never changes but at its end: the
slots are granted in the order of asking.

How long may a call wait? `Covered` says that of the calls inside more have been there for
as long as a waiting call has waited than there are calls before it in the queue; so while
nobody stays inside for long, nobody waits for long (`Covered.lt`). It holds of a call that
joins behind fewer others than there are slots (`Covered.join`), and from then on.
-/

namespace PaymentQueue.Async

/-- Who is inside, who waits, and who has ever been granted a slot, in this order. -/
structure Slots (ι : Type) where
  inside : Finset ι
  queue : List ι
  granted : List ι

namespace Slots

variable {ι : Type}

/-- Nobody has asked yet. -/
def empty : Slots ι := ⟨∅, [], []⟩

/-- Everybody who has asked for a slot, in the order of asking. -/
def asked (q : Slots ι) : List ι := q.granted ++ q.queue

/-- Call `c` is granted a free slot. -/
def enter [DecidableEq ι] (c : ι) (q : Slots ι) : Slots ι :=
  { q with inside := insert c q.inside, granted := q.granted ++ [c] }

/-- Call `c` joins the queue. -/
def join (c : ι) (q : Slots ι) : Slots ι := { q with queue := q.queue ++ [c] }

/-- Call `c` leaves, and the first in the queue is granted its slot. -/
def leave [DecidableEq ι] (c : ι) (q : Slots ι) : Slots ι :=
  match q.queue with
  | [] => { q with inside := q.inside.erase c }
  | d :: rest => ⟨insert d (q.inside.erase c), rest, q.granted ++ [d]⟩

variable {q : Slots ι} {c d : ι} {rest : List ι}

theorem leave_nil [DecidableEq ι] (h : q.queue = []) :
    q.leave c = { q with inside := q.inside.erase c } := by
  simp [leave, h]

theorem leave_cons [DecidableEq ι] (h : q.queue = d :: rest) :
    q.leave c = ⟨insert d (q.inside.erase c), rest, q.granted ++ [d]⟩ := by
  simp [leave, h]

/-! ### The order of asking -/

theorem asked_enter [DecidableEq ι] (h : q.queue = []) :
    (q.enter c).asked = q.asked ++ [c] := by
  simp [asked, enter, h]

theorem asked_join : (q.join c).asked = q.asked ++ [c] := by
  simp [asked, join]

theorem asked_leave [DecidableEq ι] : (q.leave c).asked = q.asked := by
  cases h : q.queue with
  | nil => simp [asked, leave_nil h]
  | cons d rest => simp [asked, leave_cons h, h]

/-! ### What is kept -/

/-- There are no more inside than `m`, no slot is free while somebody waits, and whoever
waits is waiting once and not inside. -/
structure Sound (m : Nat) (q : Slots ι) : Prop where
  card_le : q.inside.card ≤ m
  full : q.queue ≠ [] → q.inside.card = m
  nodup : q.queue.Nodup
  outside : ∀ c ∈ q.queue, c ∉ q.inside

variable {m : Nat}

theorem Sound.empty : (Slots.empty : Slots ι).Sound m := by
  refine ⟨by simp [Slots.empty], ?_, ?_, ?_⟩ <;> simp [Slots.empty]

/-- While there is a free slot, nobody waits. -/
theorem Sound.queue_eq_nil (h : q.Sound m) (hfree : q.inside.card < m) : q.queue = [] := by
  by_contra hne
  exact absurd (h.full hne) hfree.ne

theorem Sound.enter [DecidableEq ι] (h : q.Sound m) (hfree : q.inside.card < m) :
    (q.enter c).Sound m := by
  have hnil := h.queue_eq_nil hfree
  refine ⟨(Finset.card_insert_le _ _).trans hfree, ?_, ?_, ?_⟩
  all_goals simp [Slots.enter, hnil]

theorem Sound.join (h : q.Sound m) (hfull : ¬ q.inside.card < m) (hin : c ∉ q.inside)
    (hqueue : c ∉ q.queue) : (q.join c).Sound m where
  card_le := h.card_le
  full _ := le_antisymm h.card_le (not_lt.mp hfull)
  nodup := by
    rw [Slots.join, List.nodup_append]
    refine ⟨h.nodup, List.nodup_singleton c, fun a ha b hb heq => hqueue ?_⟩
    rw [← List.mem_singleton.mp hb, ← heq]
    exact ha
  outside := by
    intro d hd
    rcases List.mem_append.mp hd with hd | hd
    · exact h.outside d hd
    · rwa [List.mem_singleton.mp hd]

/-- The first in the queue takes exactly the slot that is left. -/
theorem Sound.card_handOver [DecidableEq ι] (h : q.Sound m) (hc : c ∈ q.inside)
    (hq : q.queue = d :: rest) :
    (insert d (q.inside.erase c)).card = q.inside.card := by
  have hd : d ∉ q.inside := h.outside d (by simp [hq])
  rw [Finset.card_insert_of_notMem fun hd' => hd (Finset.mem_of_mem_erase hd'),
    Finset.card_erase_add_one hc]

theorem Sound.leave [DecidableEq ι] (h : q.Sound m) (hc : c ∈ q.inside) :
    (q.leave c).Sound m := by
  cases hq : q.queue with
  | nil =>
      rw [leave_nil hq]
      refine ⟨(Finset.card_le_card (Finset.erase_subset _ _)).trans h.card_le, ?_, ?_, ?_⟩
      all_goals simp [hq]
  | cons d rest =>
      rw [leave_cons hq]
      obtain ⟨hdrest, hrest⟩ := List.nodup_cons.mp (hq ▸ h.nodup)
      refine ⟨(h.card_handOver hc hq).trans_le h.card_le, fun _ => ?_, hrest, ?_⟩
      · exact (h.card_handOver hc hq).trans (h.full (by simp [hq]))
      · intro e he
        have hout : e ∉ q.inside := h.outside e (by simp [hq, he])
        have hne : e ≠ d := fun heq => hdrest (heq ▸ he)
        simp [hne, hout]

/-! ### How long a call waits -/

section

variable {α : Type} [LinearOrder α] {held waited held' waited' : ι → α}

/-- For each waiting call, more of the calls inside have been there for as long as it has
waited than there are calls before it in the queue. -/
def Covered (q : Slots ι) (held waited : ι → α) : Prop :=
  ∀ before c after, q.queue = before ++ c :: after →
    before.length < (q.inside.filter fun d => waited c ≤ held d).card

theorem Covered.of_queue_eq_nil (h : q.queue = []) : q.Covered held waited := by
  intro before c after heq
  simp [h] at heq

/-- As long as nobody has been inside for a time `T`, nobody has waited for it. -/
theorem Covered.lt (h : q.Covered held waited) {T : α} (hT : ∀ d ∈ q.inside, held d < T)
    (hc : c ∈ q.queue) : waited c < T := by
  obtain ⟨before, after, heq⟩ := List.append_of_mem hc
  obtain ⟨d, hd⟩ := Finset.card_pos.mp (Nat.zero_lt_of_lt (h before c after heq))
  obtain ⟨hin, hle⟩ := Finset.mem_filter.mp hd
  exact hle.trans_lt (hT d hin)

/-- Time passes. -/
theorem Covered.mono (h : q.Covered held waited)
    (hle : ∀ c ∈ q.queue, ∀ d ∈ q.inside, waited c ≤ held d → waited' c ≤ held' d) :
    q.Covered held' waited' := by
  intro before c after heq
  refine (h before c after heq).trans_le (Finset.card_le_card ?_)
  intro d hd
  obtain ⟨hin, hd⟩ := Finset.mem_filter.mp hd
  exact Finset.mem_filter.mpr ⟨hin, hle c (by simp [heq]) d hin hd⟩

/-- A call joins behind fewer others than there are slots, and everybody inside has been
there for as long as it. -/
theorem Covered.join (h : q.Covered held waited) (hfull : q.inside.card = m)
    (hlt : q.queue.length < m) (hle : ∀ d ∈ q.inside, waited c ≤ held d) :
    (q.join c).Covered held waited := by
  intro before e after heq
  rcases List.eq_nil_or_concat after with rfl | ⟨after, e', rfl⟩
  · obtain ⟨rfl, hce⟩ := List.append_inj' heq rfl
    obtain rfl : c = e := by simpa using hce
    rw [Slots.join, Finset.filter_true_of_mem hle, hfull]
    exact hlt
  · have hqueue : q.queue ++ [c] = before ++ e :: after ++ [e'] := by
      simpa [Slots.join] using heq
    exact h before e after (List.append_inj_left' hqueue rfl)

/-- A call leaves: the others in the queue have one less before them, and one less at most
that has been inside for as long. -/
theorem Covered.leave [DecidableEq ι] (h : q.Covered held waited)
    (hle : ∀ e ∈ q.queue, ∀ d ∈ q.inside, d ≠ c → waited e ≤ held d → waited' e ≤ held' d) :
    (q.leave c).Covered held' waited' := by
  cases hq : q.queue with
  | nil => exact .of_queue_eq_nil (by simp [leave_nil hq, hq])
  | cons d rest =>
      rw [leave_cons hq]
      intro before e after heq
      have heq' : q.queue = (d :: before) ++ e :: after := by
        rw [hq, show rest = before ++ e :: after from heq, List.cons_append]
      have hbefore := h (d :: before) e after heq'
      have hsub : (q.inside.filter fun f => waited e ≤ held f).erase c ⊆
          (insert d (q.inside.erase c)).filter fun f => waited' e ≤ held' f := by
        intro f hf
        obtain ⟨hfc, hf⟩ := Finset.mem_erase.mp hf
        obtain ⟨hin, hf⟩ := Finset.mem_filter.mp hf
        refine Finset.mem_filter.mpr ⟨?_, hle e (by simp [heq']) f hin hfc hf⟩
        exact Finset.mem_insert_of_mem (Finset.mem_erase.mpr ⟨hfc, hin⟩)
      have hcard := Finset.card_le_card hsub
      have herase := Finset.pred_card_le_card_erase
        (s := q.inside.filter fun f => waited e ≤ held f) (a := c)
      rw [List.length_cons] at hbefore
      exact lt_of_lt_of_le (by omega) hcard

end

end Slots

end PaymentQueue.Async
