import PaymentQueue.Async.History

/-!
# PaymentQueue.Async.Solo

**One call of a run on its own.**

`After p tr q` says that `p` has been answered the events `tr` and has `q` still to
run. In every interleaved run each call has gone through the events the log records
of it (`Run.through`), so what holds of all executions of a program holds of its calls
in all interleavings. `Machine.solo` runs one program alone against a world.
-/

namespace PaymentQueue.Async

variable {S : Signature} {M : Machine S} {ι ε α : Type}

/-- The events `tr` lead from `p` to `q`. -/
inductive After : Program S ε α → List (Event S) → Program S ε α → Prop
  | start (p : Program S ε α) : After p [] p
  | answer {p : Program S ε α} {tr : List (Event S)} {o : S.Op}
      {k : S.Ret o → Program S ε α} (r : S.Ret o) :
      After p tr (.await o k) → After p (tr ++ [⟨o, r⟩]) (k r)

/-- What `q` still does completes the execution of `p`. -/
theorem After.exec {p q : Program S ε α} {tr tr' : List (Event S)} {res : Except ε α}
    (h : After p tr q) (hq : Exec q tr' res) : Exec p (tr ++ tr') res := by
  induction h generalizing tr' with
  | start => exact hq
  | answer r _ ih =>
      rw [List.append_assoc]
      exact ih (.await hq)

/-- A program that has returned has been executed. -/
theorem After.exec_ret {p : Program S ε α} {tr : List (Event S)} {a : α}
    (h : After p tr (.ret a)) : Exec p tr (.ok a) := by
  simpa using h.exec (.ret a)

/-- A program that has thrown has been executed. -/
theorem After.exec_throw {p : Program S ε α} {tr : List (Event S)} {e : ε}
    (h : After p tr (.throw e)) : Exec p tr (.error e) := by
  simpa using h.exec (.throw e)

/-- The events have taken the automaton to a stage that the rest follows it from. -/
theorem After.follows {γ : Type} {T : γ → (o : S.Op) → S.Ret o → γ → Prop}
    {Q : γ → Except ε α → Prop} {p q : Program S ε α} {tr : List (Event S)} {g : γ}
    (h : After p tr q) (hp : Follows T p Q g) : ∃ g', Path T g tr g' ∧ Follows T q Q g' := by
  induction h with
  | start => exact ⟨g, .nil g, hp⟩
  | answer r _ ih =>
      obtain ⟨g', hpath, hk⟩ := ih
      obtain ⟨g'', hT, hr⟩ := hk r
      exact ⟨g'', hpath.snoc hT, hr⟩

/-! ### The events of one call -/

variable [DecidableEq ι]

/-- The event of call `c` that an entry records. -/
def Entry.eventOf (c : ι) : Entry M ι → Option (Event S)
  | .reply c' ev => if c' = c then some ev else none
  | _ => none

/-- The events of call `c` in a log, oldest first. -/
def eventsOf (c : ι) (log : List (Entry M ι)) : List (Event S) :=
  (log.filterMap (Entry.eventOf c)).reverse

theorem eventsOf_cons {c : ι} {e : Entry M ι} {log : List (Entry M ι)} :
    eventsOf c (e :: log) = eventsOf c log ++ (Entry.eventOf c e).toList := by
  unfold eventsOf
  cases h : Entry.eventOf c e <;> simp [h]

@[simp] theorem eventsOf_nil {c : ι} : eventsOf c ([] : List (Entry M ι)) = [] := rfl

@[simp] theorem eventsOf_reply_self {c : ι} {ev : Event S} {log : List (Entry M ι)} :
    eventsOf c (.reply c ev :: log) = eventsOf c log ++ [ev] := by
  simp [eventsOf_cons, Entry.eventOf]

theorem eventsOf_reply_of_ne {c d : ι} (h : d ≠ c) {ev : Event S} {log : List (Entry M ι)} :
    eventsOf d (.reply c ev :: log) = eventsOf d log := by
  simp [eventsOf_cons, Entry.eventOf, h.symm]

@[simp] theorem eventsOf_begun {c d : ι} {log : List (Entry M ι)} :
    eventsOf d (.begun c :: log) = eventsOf d log := by
  simp [eventsOf_cons, Entry.eventOf]

@[simp] theorem eventsOf_move {d : ι} {m : M.Move} {log : List (Entry M ι)} :
    eventsOf d (.move m :: log) = eventsOf d log := by
  simp [eventsOf_cons, Entry.eventOf]

/-- What holds of every call's stage and events after a reply: of the call answered at its
new stage with one event more, of the others as before. -/
theorem forall_update_events {γ : Type} {P : ι → γ → List (Event S) → Prop} {σ : ι → γ}
    {c : ι} {g : γ} {ev : Event S} {log : List (Entry M ι)}
    (hc : P c g (eventsOf c log ++ [ev])) (h : ∀ d, d ≠ c → P d (σ d) (eventsOf d log))
    (d : ι) : P d (Function.update σ c g d) (eventsOf d (.reply c ev :: log)) := by
  by_cases hd : d = c
  · subst hd
    simpa using hc
  · simpa [hd, eventsOf_reply_of_ne hd] using h d hd

/-- A thread has gone through the events `tr` of the program `p`. -/
def Thread.Through (p : Program S ε α) (tr : List (Event S)) : Thread S ε α → Prop
  | .idle q => q = p ∧ tr = []
  | .running q => After p tr q
  | .crashed => True

/-- In a run every call has gone through the events that the log records of it. -/
theorem Run.through {G : Guard M ι ε α} {p : ι → Program S ε α} {w : M.World}
    {s : Config M ι ε α} (h : Run G (Config.start p w) s) (c : ι) :
    (s.thread c).Through (p c) (eventsOf c s.log) := by
  induction h with
  | start => exact ⟨rfl, rfl⟩
  | @step s s' a _ _ hs ih =>
      match a with
      | .begin d =>
          simp only [Config.step] at hs
          split at hs
          · next q hq =>
            obtain rfl := Option.some.inj hs
            by_cases hcd : c = d
            · subst hcd
              rw [hq] at ih
              obtain ⟨rfl, htr⟩ := ih
              simp [eventsOf_cons, Entry.eventOf, htr, Thread.Through, After.start]
            · simpa [hcd, eventsOf_cons, Entry.eventOf] using ih
          · exact absurd hs (by simp)
      | .answer d a =>
          simp only [Config.step] at hs
          split at hs
          · next o k hq =>
            obtain ⟨⟨r, w'⟩, -, rfl⟩ := Option.map_eq_some_iff.mp hs
            by_cases hcd : c = d
            · subst hcd
              rw [hq] at ih
              simpa [eventsOf_cons, Entry.eventOf, Thread.Through] using After.answer r ih
            · have hdc : d ≠ c := fun h => hcd h.symm
              simpa [hcd, hdc, eventsOf_cons, Entry.eventOf] using ih
          · exact absurd hs (by simp)
      | .crash d none =>
          simp only [Config.step] at hs
          split at hs
          · obtain rfl := Option.some.inj hs
            by_cases hcd : c = d
            · subst hcd
              simp [Thread.Through]
            · simpa [hcd, eventsOf_cons, Entry.eventOf] using ih
          · exact absurd hs (by simp)
      | .crash d (some a) =>
          simp only [Config.step] at hs
          split at hs
          · obtain ⟨⟨r, w'⟩, -, rfl⟩ := Option.map_eq_some_iff.mp hs
            by_cases hcd : c = d
            · subst hcd
              simp [Thread.Through]
            · simpa [hcd, eventsOf_cons, Entry.eventOf] using ih
          · exact absurd hs (by simp)
      | .move m =>
          simp only [Config.step] at hs
          obtain ⟨w', -, rfl⟩ := Option.map_eq_some_iff.mp hs
          simpa [eventsOf_cons, Entry.eventOf] using ih

/-- **One call at an operation.** What the stages of a call have to do with its events, in any
run, at a stage that allows the operation it awaits. Crashes do not matter to it. -/
theorem Run.awaiting_induct {γ : Type} {T : γ → (o : S.Op) → S.Ret o → γ → Prop}
    {Q : γ → Except ε α → Prop} {G : Guard M ι ε α} {p : ι → Program S ε α} {w : M.World}
    {s : Config M ι ε α} {c : ι} {o : S.Op} {g : γ} {P : γ → List (Event S) → Prop}
    (hp : Follows T (p c) Q g) (h₀ : P g [])
    (hstep : ∀ {g o r g'} pre, P g pre → T g o r g' → P g' (pre ++ [⟨o, r⟩]))
    (h : Run G (Config.start p w) s) (hc : (s.thread c).awaiting = some o) :
    ∃ g', P g' (eventsOf c s.log) ∧ ∀ r, ∃ g'', T g' o r g'' := by
  have hthrough := h.through c
  match hrun : s.thread c with
  | .running (.await o' k) =>
      rw [hrun] at hthrough hc
      obtain rfl : o' = o := by simpa [Thread.awaiting] using hc
      obtain ⟨g', hpath, hk⟩ := hthrough.follows hp
      refine ⟨g', Path.induct (T := T) (P := P) hstep hpath h₀, fun r => ?_⟩
      obtain ⟨g'', hT, -⟩ := hk r
      exact ⟨g'', hT⟩
  | .idle _ | .running (.ret _) | .running (.throw _) | .crashed =>
      simp [hrun, Thread.awaiting] at hc

/-! ### Running alone -/

/-- The machine answers the events `tr`, in that order, from one world to another. -/
def Machine.Answers (M : Machine S) : M.World → List (Event S) → M.World → Prop
  | w, [], w' => w' = w
  | w, ev :: tr, w' =>
      ∃ a w₁, M.perform w ev.op a = some (ev.ret, w₁) ∧ M.Answers w₁ tr w'

/-- The machine answers the events `tr`, in that order, while before each answer and after
the last one the world may change as `R` allows. -/
def Machine.AnswersAmid (M : Machine S) (R : M.World → M.World → Prop) :
    M.World → List (Event S) → M.World → Prop
  | w, [], w' => R w w'
  | w, ev :: tr, w' =>
      ∃ w₁ a w₂, R w w₁ ∧ M.perform w₁ ev.op a = some (ev.ret, w₂) ∧
        M.AnswersAmid R w₂ tr w'

theorem Machine.Answers.amid {R : M.World → M.World → Prop} (hR : ∀ w, R w w)
    {w w' : M.World} {tr : List (Event S)} (h : M.Answers w tr w') :
    M.AnswersAmid R w tr w' := by
  induction tr generalizing w with
  | nil =>
      obtain rfl := h
      exact hR _
  | cons ev tr ih =>
      obtain ⟨a, w₁, hw, h⟩ := h
      exact ⟨w, a, w₁, hR w, hw, ih h⟩

/-- **A view of the world.** What the changes in between leave alone, and each answer moves
by `next`, is in the end where the events have moved it. -/
theorem Machine.AnswersAmid.view {σ : Type} {R : M.World → M.World → Prop}
    {next : σ → Event S → σ} {w w' : M.World} {tr : List (Event S)}
    (h : M.AnswersAmid R w tr w') (view : M.World → σ)
    (hkeep : ∀ {w w'}, R w w' → view w' = view w)
    (hnext : ∀ {w w' ev a}, ev ∈ tr → M.perform w ev.op a = some (ev.ret, w') →
      view w' = next (view w) ev) :
    view w' = tr.foldl next (view w) := by
  induction tr generalizing w with
  | nil => exact hkeep h
  | cons ev tr ih =>
      obtain ⟨w₁, a, w₂, hR, hw, h⟩ := h
      rw [ih h fun hmem => hnext (List.mem_cons_of_mem _ hmem),
        hnext List.mem_cons_self hw, hkeep hR, List.foldl_cons]

/-- Run a program alone with the given answers: its events, its end, and the world
after it. -/
def Machine.solo (M : Machine S) :
    M.World → Program S ε α → List M.Answer →
      Option (List (Event S) × Except ε α × M.World)
  | w, .ret a, [] => some ([], .ok a, w)
  | w, .throw e, [] => some ([], .error e, w)
  | w, .await o k, a :: as =>
      (M.perform w o a).bind fun (r, w₁) =>
        (M.solo w₁ (k r) as).map fun (tr, res, w') => (⟨o, r⟩ :: tr, res, w')
  | _, _, _ => none

theorem Machine.solo_spec {w w' : M.World} {p : Program S ε α} {as : List M.Answer}
    {tr : List (Event S)} {res : Except ε α} (h : M.solo w p as = some (tr, res, w')) :
    Exec p tr res ∧ M.Answers w tr w' := by
  induction as generalizing w p tr with
  | nil =>
      cases p with
      | ret a =>
          obtain ⟨rfl, rfl, rfl⟩ : [] = tr ∧ .ok a = res ∧ w = w' := by
            simpa [Machine.solo] using h
          exact ⟨.ret a, rfl⟩
      | throw e =>
          obtain ⟨rfl, rfl, rfl⟩ : [] = tr ∧ .error e = res ∧ w = w' := by
            simpa [Machine.solo] using h
          exact ⟨.throw e, rfl⟩
      | await o k => exact absurd h (by simp [Machine.solo])
  | cons a as ih =>
      cases p with
      | ret a => exact absurd h (by simp [Machine.solo])
      | throw e => exact absurd h (by simp [Machine.solo])
      | await o k =>
          simp only [Machine.solo, Option.bind_eq_some_iff, Option.map_eq_some_iff,
            Prod.mk.injEq] at h
          obtain ⟨⟨r, w₁⟩, hw, ⟨tr', res', w''⟩, hsolo, rfl, rfl, rfl⟩ := h
          obtain ⟨hexec, hans⟩ := ih hsolo
          exact ⟨.await hexec, a, w₁, hw, hans⟩

theorem exists_of_isOk {r : Except ε α} (h : r.isOk = true) : ∃ a, r = .ok a := by
  cases r with
  | ok a => exact ⟨a, rfl⟩
  | error e => exact absurd h (by simp [Except.isOk, Except.toBool])

/-- A concrete solo run that ends with the decidable property `P`. -/
theorem Machine.exists_of_solo {w : M.World} {p : Program S ε α}
    {P : List (Event S) → Except ε α → M.World → Prop}
    [∀ tr res w', Decidable (P tr res w')] (as : List M.Answer)
    (h : (M.solo w p as).any (fun out => decide (P out.1 out.2.1 out.2.2)) = true) :
    ∃ tr res w', Exec p tr res ∧ M.Answers w tr w' ∧ P tr res w' := by
  obtain ⟨⟨tr, res, w'⟩, hsolo, hP⟩ := (Option.any_eq_true _ _).mp h
  obtain ⟨hexec, hans⟩ := Machine.solo_spec hsolo
  exact ⟨tr, res, w', hexec, hans, of_decide_eq_true hP⟩

end PaymentQueue.Async
