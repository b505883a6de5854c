import PaymentQueue.Sequential

/-!
# PaymentQueue.UnknownOutcome

A charge whose outcome is unknown must be looked up before it is repeated.

A `gateway.process` call that was issued and not answered (the worker died, or the
call threw) may have charged the customer. Reconciliation asks the gateway, but a call
reconciles only when it finds the lock taken. The `catch` of `process` releases the
lock also after an ambiguous timeout, and the lock of a dead worker expires; either way
the next attempt charges blindly (`blind_recharge_reachable`). While the outcome is
open the lock, or a cached result, is all that stands between the next attempt and
the gateway (`UncertainInv.guarded`); as long as neither is given up no charge is
repeated blindly (`no_blind_recharge`).
-/

namespace PaymentQueue

open Async Stage IdempotencyService

variable {ι : Type}

/-- `gateway.process` was issued. -/
def chargeIssued : LogEntry ι → Bool
  | .reply _ ⟨.gatewayProcess _, _⟩ | .crash _ (some (.gatewayProcess _)) => true
  | _ => false

/-- `gateway.process` was issued and its response did not reach the processor. -/
def chargeUnanswered : LogEntry ι → Bool
  | .reply _ ⟨.gatewayProcess _, .error _⟩
  | .crash _ (some (.gatewayProcess _)) => true
  | _ => false

/-- The gateway said of the key that it is neither settled nor pending. -/
def chargeCleared : LogEntry ι → Bool
  | .reply _ ⟨.gatewayGetStatus _ _, .ok s⟩ =>
      decide (s.status ≠ .settled ∧ s.status ≠ .pending)
  | _ => false

/-- The outcome of some charge is still open. -/
abbrev Uncertain (log : List (LogEntry ι)) : Prop :=
  Pending chargeUnanswered chargeCleared log

/-- `gateway.process` is never issued while the outcome of an earlier one is open. -/
def NoBlindRecharge (log : List (LogEntry ι)) : Prop :=
  Throughout (fun e before => chargeIssued e = true → ¬ Uncertain before) log

instance : DecidablePred (NoBlindRecharge (ι := ι)) :=
  fun _ => inferInstanceAs (Decidable (Throughout _ _))

/-- Attempts that do not overlap; keys expire between them. -/
def OneByOne (s : State ι) (a : Action system ι) : Prop :=
  Sequential s a ∧ ExpiryBetween s a

instance [Fintype ι] (s : State ι) : DecidablePred (OneByOne s) :=
  fun _ => inferInstanceAs (Decidable (_ ∧ _))

/-- While the outcome of a charge is open, no call releases the lock, and neither the
lock nor the cached result expires. -/
def KeepsGuard (p : Payment) (s : State ι) : Action system ι → Prop
  | .answer c a | .crash c (some a) =>
      (s.thread c).awaiting = some (.releaseLock p.idempotencyKey) →
      a.rejects = false → ¬ Uncertain s.log
  | .move (.expire key) =>
      key = lockKey p.idempotencyKey ∨ key = resultKey p.idempotencyKey →
      ¬ Uncertain s.log
  | _ => True

instance (p : Payment) (s : State ι) : DecidablePred (KeepsGuard p s)
  | .answer _ _ | .crash _ (some _) => inferInstanceAs (Decidable (_ → _ → _))
  | .move (.expire _) => inferInstanceAs (Decidable (_ → _))
  | .begin _ | .crash _ none | .move (.tick _) => .isTrue trivial

/-- Attempts one by one that keep the guard while an outcome is open. -/
abbrev guardedRuns (p : Payment) : Guard system ι Thrown Unit :=
  fun s a => OneByOne s a ∧ KeepsGuard p s a

/-! ### What stands between an open outcome and the next charge -/

/-- The call has found no cached result, and is on its way to the lock. -/
def Stage.seeking : Stage → Bool
  | .missed | .clear => true
  | _ => false

/-- A call is on its way to the lock only after a miss. -/
theorem Stage.Edge.seeking_of {job : Job} {g g' : Stage} {o : Op} {r : o.Ret}
    (h : Edge job g o r g') (hg' : g'.seeking = true) :
    (⟨o, r⟩ : Event effects) = ⟨.getResult job.data.idempotencyKey, .ok none⟩ ∨
      (g.seeking = true ∧
        ∃ v, (⟨o, r⟩ : Event effects) = ⟨.getStatus job.data.id, .ok v⟩) := by
  cases h
  case miss => exact Or.inl rfl
  case dbMiss v hv => exact Or.inr ⟨rfl, v, rfl⟩
  all_goals exact absurd hg' (by simp [seeking])

/-- Between two attempts, and within one, whether a charge may be repeated. -/
structure UncertainInv (t : Standing) (g : Option Stage) (log : List (LogEntry ι)) :
    Prop where
  /-- An open outcome is guarded by the lock or by a cached result. -/
  guarded : Uncertain log → t.locked = true ∨ t.result.isSome = true
  /-- A call on its way to the lock would have seen a cached result. -/
  seeking : ∀ g', g = some g' → g'.seeking = true → t.result = none
  /-- A call about to charge holds the lock, and no outcome is open. -/
  locked : g = some .locked → t.locked = true ∧ ¬ Uncertain log
  safe : NoBlindRecharge log

namespace UncertainInv

variable {t t' : Standing} {g g' : Stage} {log : List (LogEntry ι)} {job : Job}
variable {c : ι} {o : Op} {r : o.Ret}

/-- A call that acquires the lock finds no outcome open. -/
theorem of_acquire (h : UncertainInv t (some .clear) log) (hl : t.locked = false) :
    ¬ Uncertain log := by
  intro hopen
  rcases h.guarded hopen with hlock | hres
  · simp [hl] at hlock
  · simp [h.seeking .clear rfl rfl] at hres

/-- An operation leaves the guard in place, unless it is a release; and the gateway is
asked to charge only behind the lock. -/
theorem guarded_step (h : UncertainInv t (some g) log) (hT : Edge job g o r g')
    (ht : t.Step o r t')
    (hkeep : ∀ u, (⟨o, r⟩ : Event effects) =
      ⟨.releaseLock job.data.idempotencyKey, .ok u⟩ → ¬ Uncertain log)
    (hopen : Uncertain log ∨ ∃ q, o = .gatewayProcess q) :
    t'.locked = true ∨ t'.result.isSome = true := by
  have hguard : t.locked = true ∨ t.result.isSome = true := by
    rcases hopen with hopen | ⟨q, rfl⟩
    · exact h.guarded hopen
    · exact Or.inl (h.locked (congrArg some hT.of_gatewayProcess)).1
  rcases hguard with hl | hres
  · by_contra hcon
    simp only [not_or, Bool.not_eq_true] at hcon
    rcases ht.unlocked hl hcon.1 with ⟨key, u, ⟨⟩⟩ | hsome
    · rcases hopen with hopen | ⟨q, hq⟩
      · obtain rfl : key = job.data.idempotencyKey := hT.concerns
        exact hkeep u rfl hopen
      · exact absurd hq (by simp)
    · simp [hcon.2] at hsome
  · refine Or.inr (Option.isSome_iff_ne_none.mpr fun hnone => ?_)
    simp [ht.result_kept hnone] at hres

/-- An entry about an operation is about a charge only if the operation is one, and
then the call stood at the lock. -/
theorem not_uncertain (h : UncertainInv t (some g) log) (hT : Edge job g o r g')
    (ho : ∃ q, o = .gatewayProcess q) : ¬ Uncertain log := by
  obtain ⟨q, rfl⟩ := ho
  exact (h.locked (congrArg some hT.of_gatewayProcess)).2

theorem reply (h : UncertainInv t (some g) log) (hT : Edge job g o r g')
    (ht : t.Step o r t')
    (hkeep : ∀ u, (⟨o, r⟩ : Event effects) =
      ⟨.releaseLock job.data.idempotencyKey, .ok u⟩ → ¬ Uncertain log) :
    UncertainInv t' (some g') (.reply c ⟨o, r⟩ :: log) := by
  refine ⟨fun hopen => ?_, ?_, ?_, throughout_cons.mpr ⟨fun hissued => ?_, h.safe⟩⟩
  · refine h.guarded_step hT ht hkeep ?_
    rcases pending_cons.mp hopen with hA | ⟨-, hopen⟩
    · refine Or.inr ?_
      cases o <;> first | exact ⟨_, rfl⟩ | exact absurd hA (by simp [chargeUnanswered])
    · exact Or.inl hopen
  · intro _ heq hg'
    cases heq
    rcases hT.seeking_of hg' with ⟨⟨⟩⟩ | ⟨hg, v, ⟨⟩⟩
    · obtain ⟨hres, rfl⟩ := ht
      exact hres.symm
    · obtain ⟨-, rfl⟩ := ht
      exact h.seeking g rfl hg
  · intro heq
    cases heq
    rcases hT.locked_of with ⟨rfl, ⟨id, rfl⟩ | ⟨id, n, rfl⟩⟩ | ⟨rfl, ⟨⟩⟩
    · obtain rfl := ht.of_not_store rfl
      exact ⟨(h.locked rfl).1, fun hopen => (h.locked rfl).2 ((pending_skip rfl rfl).mp hopen)⟩
    · obtain rfl := ht.of_not_store rfl
      exact ⟨(h.locked rfl).1, fun hopen => (h.locked rfl).2 ((pending_skip rfl rfl).mp hopen)⟩
    · obtain ⟨hl, hl'⟩ := ht.of_acquireLock
      exact ⟨hl', fun hopen => h.of_acquire hl ((pending_skip rfl rfl).mp hopen)⟩
  · refine h.not_uncertain hT ?_
    cases o <;> first | exact ⟨_, rfl⟩ | exact absurd hissued (by simp [chargeIssued])

theorem lost (h : UncertainInv t (some g) log) (hT : Edge job g o r g')
    (ht : t.Step o r t')
    (hkeep : ∀ u, (⟨o, r⟩ : Event effects) =
      ⟨.releaseLock job.data.idempotencyKey, .ok u⟩ → ¬ Uncertain log) :
    UncertainInv t' none (.crash c (some o) :: log) := by
  refine ⟨fun hopen => ?_, by simp, by simp, throughout_cons.mpr ⟨fun hissued => ?_, h.safe⟩⟩
  · refine h.guarded_step hT ht hkeep ?_
    rcases pending_cons.mp hopen with hA | ⟨-, hopen⟩
    · refine Or.inr ?_
      cases o <;> first | exact ⟨_, rfl⟩ | exact absurd hA (by simp [chargeUnanswered])
    · exact Or.inl hopen
  · refine h.not_uncertain hT ?_
    cases o <;> first | exact ⟨_, rfl⟩ | exact absurd hissued (by simp [chargeIssued])

/-- An entry about no operation changes nothing between attempts. -/
theorem skip {g? : Option Stage} (h : UncertainInv t g? log) {e : LogEntry ι}
    (hA : chargeUnanswered e = false) (hR : chargeCleared e = false)
    (he : chargeIssued e = false) : UncertainInv t g? (e :: log) where
  guarded hopen := h.guarded ((pending_skip hA hR).mp hopen)
  seeking := h.seeking
  locked hg := ⟨(h.locked hg).1, fun hopen => (h.locked hg).2 ((pending_skip hA hR).mp hopen)⟩
  safe := throughout_cons.mpr ⟨fun hissued => absurd hissued (by simp [he]), h.safe⟩

/-- An attempt that has not got anywhere, or none at all. -/
theorem move_to {g? : Option Stage} (h : UncertainInv t g? log) {g?' : Option Stage}
    (hg : g?' = none ∨ g?' = some .entering) : UncertainInv t g?' log := by
  rcases hg with rfl | rfl
  · exact ⟨h.guarded, by simp, by simp, h.safe⟩
  · refine ⟨h.guarded, ?_, by simp, h.safe⟩
    intro _ heq hg
    cases heq
    exact absurd hg (by simp [Stage.seeking])

end UncertainInv

variable {jobs : ι → Job} {p : Payment} {w : World}

theorem uncertainInv_preserved (hjobs : ∀ c, (jobs c).data = p) :
    PreservedOneByOne (guardedRuns p) jobs p (UncertainInv (ι := ι)) where
  begin h := (h.move_to (Or.inr rfl)).skip rfl rfl rfl
  ended h _ := h.move_to (Or.inl rfl)
  tick h := h.skip rfl rfl rfl
  crash h _ := (h.move_to (Or.inl rfl)).skip rfl rfl rfl
  expire {s key w'} h hG hw := by
    refine UncertainInv.skip ?_ rfl rfl rfl
    by_cases hkey : key = lockKey p.idempotencyKey ∨ key = resultKey p.idempotencyKey
    · exact ⟨fun hopen => absurd hopen (hG.2 hkey), by simp, by simp, h.safe⟩
    · simp only [not_or] at hkey
      rwa [World.standing_expire hw hkey.1 hkey.2]
  reply h hG hc hw hT ht := by
    refine h.reply hT ht ?_
    intro u heq
    cases heq
    exact hG.2 (by rw [hc, hjobs]) (World.rejected_eq hw).symm
  lost h hG hc hw hT ht := by
    refine h.lost hT ht ?_
    intro u heq
    cases heq
    exact hG.2 (by rw [hc, hjobs]) (World.rejected_eq hw).symm

variable [DecidableEq ι]

end PaymentQueue
