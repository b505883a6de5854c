import Mathlib.Algebra.BigOperators.Group.Finset.Piecewise
import Mathlib.Algebra.Order.BigOperators.Group.Finset
import PaymentQueue.Async.Solo

/-!
# PaymentQueue.Async.Credits

**Time credits**: how many operations a program can await, and a run can answer.

Every awaited operation costs a credit. `Affords n p left` says that `p` gets by on `n`
credits whatever it is answered, and that an end `r` leaves it `left r` of them; since the
rest depends on how the program ends, a cheap end can pay for what only follows that end.
The judgment is `Follows` in the automaton whose stage is the number of credits, so it has
a rule for every construct of programs.

In a run the credits of a call in flight bound the answers it can still be given
(`Config.Worth.answersTo_le`), and so all of them together, in whatever order the calls are
answered (`Config.Worth.answers_le`).
-/

namespace PaymentQueue.Async

variable {S : Signature} {M : Machine S} {ι ε α β : Type}

/-- The automaton of credits: an operation costs one at least. -/
def Pays (n : Nat) (o : S.Op) (_ : S.Ret o) (n' : Nat) : Prop := n' < n

/-- With `n` credits `p` pays for every operation, and ends with `left` of them. -/
def Affords (n : Nat) (p : Program S ε α) (left : Except ε α → Nat) : Prop :=
  Follows Pays p (fun k r => left r ≤ k) n

namespace Affords

variable {n m : Nat} {p : Program S ε α} {left left' : Except ε α → Nat}

theorem ret {a : α} (h : left (.ok a) ≤ n) : Affords n (.ret a : Program S ε α) left := h

theorem throw {e : ε} (h : left (.error e) ≤ n) : Affords n (.throw e : Program S ε α) left :=
  h

theorem perform {o : S.Op} {left : Except ε (S.Ret o) → Nat}
    (h : ∀ r, left (.ok r) < n) : Affords n (Program.perform o) left :=
  fun r => ⟨left (.ok r), h r, le_rfl⟩

/-- More credits do no harm, and need not be handed on. -/
theorem mono (h : Affords n p left) (hn : n ≤ m) (hleft : ∀ r, left' r ≤ left r) :
    Affords m p left' := by
  have hweak : Affords n p left' := Follows.mono (fun _ r hr => (hleft r).trans hr) h
  cases p with
  | ret a => exact hweak.trans hn
  | throw e => exact hweak.trans hn
  | await o k =>
      intro r
      obtain ⟨n', hlt, hk⟩ := hweak r
      exact ⟨n', Nat.lt_of_lt_of_le hlt hn, hk⟩

theorem bind {f : α → Program S ε β} {left' : Except ε β → Nat} (h : Affords n p left)
    (hf : ∀ a, Affords (left (.ok a)) (f a) left')
    (hthrow : ∀ e, left' (.error e) ≤ left (.error e)) : Affords n (p >>= f) left' := by
  refine Follows.bind (Follows.mono (fun k r hr => ?_) h)
  cases r with
  | ok a => exact (hf a).mono hr fun _ => le_rfl
  | error e => exact (hthrow e).trans hr

theorem ofExcept {r : Except ε α} (h : left r ≤ n) :
    Affords n (Program.ofExcept r : Program S ε α) left := by
  cases r <;> exact h

theorem attempt {left : Except ε (Except ε α) → Nat}
    (h : Affords n p fun r => left (.ok r)) : Affords n p.attempt left :=
  Follows.attempt h

theorem tryCatch {f : ε → Program S ε α} (h : Affords n p left)
    (hf : ∀ e, Affords (left (.error e)) (f e) left')
    (hret : ∀ a, left' (.ok a) ≤ left (.ok a)) : Affords n (p.tryCatch f) left' := by
  refine Follows.tryCatch (Follows.mono (fun k r hr => ?_) h)
  cases r with
  | ok a => exact (hret a).trans hr
  | error e => exact (hf e).mono hr fun _ => le_rfl

/-- What runs in the end is paid from what either end leaves. -/
theorem tryFinally {f : Program S ε Unit} (h : Affords n p left)
    (hf : ∀ r, Affords (left r) f fun u => match u with
      | .ok _ => left' r
      | .error e => left' (.error e)) : Affords n (p.tryFinally f) left' := by
  refine Follows.tryFinally (Follows.mono (fun k r hr => ?_) h)
  refine Follows.mono (fun k' u hu => ?_) ((hf r).mono hr fun _ => le_rfl)
  cases u <;> exact hu

end Affords

/-- However `p` ends, it has cost `m` at most. -/
def Costs (m : Nat) (p : Program S ε α) : Prop := ∀ k, Affords (k + m) p fun _ => k

namespace Costs

variable {n m : Nat} {p : Program S ε α}

theorem ret (a : α) : Costs m (.ret a : Program S ε α) := fun _ => .ret (Nat.le_add_right _ _)

theorem throw (e : ε) : Costs m (.throw e : Program S ε α) :=
  fun _ => .throw (Nat.le_add_right _ _)

theorem ofExcept (r : Except ε α) : Costs m (Program.ofExcept r : Program S ε α) :=
  fun _ => .ofExcept (Nat.le_add_right _ _)

theorem perform (o : S.Op) : Costs 1 (Program.perform o : Program S ε (S.Ret o)) :=
  fun k => .perform fun _ => Nat.lt_succ_self k

theorem mono (h : Costs n p) (hn : n ≤ m) : Costs m p :=
  fun k => (h k).mono (Nat.add_le_add_left hn k) fun _ => le_rfl

theorem bind {f : α → Program S ε β} (h : Costs n p) (hf : ∀ a, Costs m (f a)) :
    Costs (n + m) (p >>= f) := by
  intro k
  have hp := h (k + m)
  rw [Nat.add_assoc, Nat.add_comm m n] at hp
  exact hp.bind (fun a => hf a k) fun _ => Nat.le_add_right _ _

theorem tryCatch {f : ε → Program S ε α} (h : Costs n p) (hf : ∀ e, Costs m (f e)) :
    Costs (n + m) (p.tryCatch f) := by
  intro k
  have hp := h (k + m)
  rw [Nat.add_assoc, Nat.add_comm m n] at hp
  exact hp.tryCatch (fun e => hf e k) fun _ => Nat.le_add_right _ _

end Costs

/-! ### Answers in a run -/

/-- The action answers a call. -/
def Action.isAnswer : Action M ι → Bool
  | .answer _ _ => true
  | _ => false

/-- The action answers call `c`. -/
def Action.answers [DecidableEq ι] (c : ι) : Action M ι → Bool
  | .answer d _ => decide (d = c)
  | _ => false

/-- In the action a call begins. -/
def Action.isBegin : Action M ι → Bool
  | .begin _ => true
  | _ => false

variable [DecidableEq ι]

omit [DecidableEq ι] in
/-- The credits of a call that is in flight. -/
def Config.credits (s : Config M ι ε α) (σ : ι → Nat) (c : ι) : Nat :=
  if (s.thread c).inFlight then σ c else 0

/-- The calls are worth their credits. -/
abbrev Config.Worth (s : Config M ι ε α) (start : Nat) (σ : ι → Nat) : Prop :=
  s.At (fun _ => Pays) start (fun _ _ _ => True) σ

section

variable {s s' : Config M ι ε α} {start : Nat} {σ σ' : ι → Nat} {a : Action M ι}

theorem Config.credits_update_of_ne {c d : ι} {t : Thread S ε α} {g : Nat} {w : M.World}
    {log : List (Entry M ι)} (hd : d ≠ c) :
    Config.credits (M := M) ⟨Function.update s.thread c t, w, log⟩ (Function.update σ c g) d =
      s.credits σ d := by
  simp [Config.credits, hd]

/-- A dead call has no credits. -/
theorem Config.credits_crashed_le {c : ι} {w : M.World} {log : List (Entry M ι)} (d : ι) :
    Config.credits (M := M) ⟨Function.update s.thread c .crashed, w, log⟩ σ d ≤
      s.credits σ d := by
  by_cases hd : d = c
  · subst hd
    simp [Config.credits, Thread.inFlight, Thread.awaiting]
  · simp [Config.credits, hd]

/-- Unless a call begins, a step adds to nobody's credits, and a call pays for its answer. -/
theorem Config.credits_step (hT : TStep (fun _ => Pays) s σ a s' σ')
    (hbegin : a.isBegin = false) (d : ι) :
    s'.credits σ' d + (if a.answers d then 1 else 0) ≤ s.credits σ d := by
  cases hT with
  | begin => simp [Action.isBegin] at hbegin
  | @answer c a o k r w g hc _ hT =>
      by_cases hd : d = c
      · subst hd
        have hlt : g < σ d := hT
        have hpaid : (if (Thread.running (k r)).inFlight then g else 0) < s.credits σ d := by
          rw [Config.credits, hc, if_pos (c := (Thread.running (.await o k)).inFlight = true) rfl]
          split <;> omega
        simpa [Config.credits, Action.answers] using Nat.succ_le_of_lt hpaid
      · rw [Config.credits_update_of_ne hd]
        simp [Action.answers, Ne.symm hd]
  | crash | lost => simpa [Action.answers] using Config.credits_crashed_le d
  | move => simp [Action.answers, Config.credits]

/-- **Answers are paid for.** As long as no further call begins, the credits of a call bound
the answers it is given, whoever is answered in between. -/
theorem Config.Worth.answersTo_le {G : Guard M ι ε α} [∀ s a, Decidable (G s a)]
    (h : s.Worth start σ) {as : List (Action M ι)} (hbegin : ∀ a ∈ as, a.isBegin = false)
    (hexec : s.exec G as = some s') (c : ι) :
    as.countP (Action.answers c) ≤ s.credits σ c := by
  induction as generalizing s σ with
  | nil => simp
  | cons a as ih =>
      rw [Config.exec] at hexec
      split at hexec
      · obtain ⟨s₁, hs, hrest⟩ := Option.bind_eq_some_iff.mp hexec
        obtain ⟨σ₁, hT, hat⟩ := Config.At.step h hs
        have hle := ih hat (fun b hb => hbegin b (List.mem_cons_of_mem a hb)) hrest
        have hpaid := Config.credits_step hT (hbegin a List.mem_cons_self) c
        rw [List.countP_cons]
        omega
      · exact absurd hexec (by simp)

/-- Every answer is an answer to one call. -/
theorem countP_isAnswer [Fintype ι] (as : List (Action M ι)) :
    as.countP Action.isAnswer = ∑ c, as.countP (Action.answers c) := by
  induction as with
  | nil => simp
  | cons a as ih =>
      simp only [List.countP_cons, Finset.sum_add_distrib, ← ih, Nat.add_left_cancel_iff]
      cases a <;> simp [Action.isAnswer, Action.answers]

/-- The credits of the calls in flight bound the answers. -/
theorem Config.Worth.answers_le [Fintype ι] {G : Guard M ι ε α} [∀ s a, Decidable (G s a)]
    (h : s.Worth start σ) {as : List (Action M ι)} (hbegin : ∀ a ∈ as, a.isBegin = false)
    (hexec : s.exec G as = some s') : as.countP Action.isAnswer ≤ ∑ c, s.credits σ c := by
  rw [countP_isAnswer]
  exact Finset.sum_le_sum fun c _ => h.answersTo_le hbegin hexec c

end

/-- In every run the calls have what their programs can do with. -/
theorem Run.worth {G : Guard M ι ε α} {p : ι → Program S ε α} {w : M.World} {n : Nat}
    (hp : ∀ c, Affords n (p c) fun _ => 0) {s : Config M ι ε α}
    (h : Run G (Config.start p w) s) :
    ∃ σ, s.Worth n σ ∧ ∀ c, (eventsOf c s.log).length + σ c ≤ n := by
  have hprog : ∀ c, Follows Pays (p c) (fun _ _ => True) n :=
    fun c => Follows.mono (fun _ _ _ => trivial) (hp c)
  have hstep : ∀ {s s' : Config M ι ε α} {σ σ' : ι → Nat} {a},
      (∀ c, (eventsOf c s.log).length + σ c ≤ n) → TStep (fun _ => Pays) s σ a s' σ' →
      ∀ c, (eventsOf c s'.log).length + σ' c ≤ n := by
    intro s s' σ σ' a hI hT
    cases hT with
    | begin | move => simpa using hI
    | @answer c a o k r w g _ _ hT =>
        refine forall_update_events (P := fun _ k tr => tr.length + k ≤ n) ?_ fun d _ => hI d
        have hlt : g < σ c := hT
        have := hI c
        simp only [List.length_append, List.length_singleton]
        omega
    | crash | lost => simpa [eventsOf_cons, Entry.eventOf] using hI
  exact Run.staged hprog (by simp [Config.start]) (fun _ _ hI _ hT _ => hstep hI hT) h

end PaymentQueue.Async
