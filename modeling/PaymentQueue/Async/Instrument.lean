import PaymentQueue.Async.Solo

/-!
# PaymentQueue.Async.Instrument

**Instrumented programs**, and what is left when the instruments are taken away.

A program over `S.sum S'` awaits operations of `S` and, in between, operations of `S'` that
nobody else can notice: an *instrument* answers each of them by itself (`answer`). `erase`
takes them away. It commutes with everything a program is built from, so what an instrumented
function comes to can be computed; and an interleaved run of instrumented calls is, without
the instruments, a run of the erased ones (`Run.erase`), step by step in the same world.

The instruments may have a say in the error a call ends with (`mapError`), which no other call
notices either.
-/

namespace PaymentQueue.Async

/-- The operations of both signatures. -/
def Signature.sum (S S' : Signature) : Signature where
  Op := S.Op ⊕ S'.Op
  Ret
    | .inl o => S.Ret o
    | .inr o => S'.Ret o

variable {S S' : Signature} {M : Machine S} {ι ε ε' α β : Type}

/-- The event, if it is one of the first signature. -/
def Event.plain : Event (S.sum S') → Option (Event S)
  | ⟨.inl o, r⟩ => some ⟨o, r⟩
  | ⟨.inr _, _⟩ => none

namespace Program

/-- A program that uses no instruments. -/
def plain : Program S ε α → Program (S.sum S') ε α
  | .ret a => .ret a
  | .throw e => .throw e
  | .await o k => .await (S := S.sum S') (.inl o) fun r => (k r).plain

/-- What is left of a program when its instruments are taken away. -/
def erase (answer : (o : S'.Op) → S'.Ret o) : Program (S.sum S') ε α → Program S ε α
  | .ret a => .ret a
  | .throw e => .throw e
  | .await (.inl o) k => .await o fun r => (k r).erase answer
  | .await (.inr o) k => (k (answer o)).erase answer

/-- The program with `f e` thrown for `e`. -/
def mapError (f : ε → ε') : Program S ε α → Program S ε' α
  | .ret a => .ret a
  | .throw e => .throw (f e)
  | .await o k => .await o fun r => (k r).mapError f

variable {answer : (o : S'.Op) → S'.Ret o} {p : Program (S.sum S') ε α}

@[simp] theorem erase_ret (a : α) :
    (Program.ret (S := S.sum S') (ε := ε) a).erase answer = .ret a := rfl

@[simp] theorem erase_throw (e : ε) :
    (Program.throw (S := S.sum S') (α := α) e).erase answer = .throw e := rfl

@[simp] theorem erase_plain (q : Program S ε α) :
    (q.plain : Program (S.sum S') ε α).erase answer = q := by
  induction q with
  | ret | throw => rfl
  | await o k ih => exact congrArg (Program.await o) (funext ih)

@[simp] theorem erase_bind (f : α → Program (S.sum S') ε β) :
    (p >>= f).erase answer = p.erase answer >>= fun a => (f a).erase answer := by
  induction p with
  | ret | throw => rfl
  | await o k ih =>
      match o with
      | .inl o => exact congrArg (Program.await o) (funext ih)
      | .inr o => exact ih (answer o)

@[simp] theorem erase_attempt : p.attempt.erase answer = (p.erase answer).attempt := by
  induction p with
  | ret | throw => rfl
  | await o k ih =>
      match o with
      | .inl o => exact congrArg (Program.await o) (funext ih)
      | .inr o => exact ih (answer o)

@[simp] theorem erase_ofExcept (r : Except ε α) :
    (ofExcept r : Program (S.sum S') ε α).erase answer = ofExcept r := by
  cases r <;> rfl

@[simp] theorem erase_tryCatch (h : ε → Program (S.sum S') ε α) :
    (p.tryCatch h).erase answer = (p.erase answer).tryCatch fun e => (h e).erase answer := by
  rw [tryCatch, erase_bind, erase_attempt, tryCatch]
  refine congrArg _ (funext fun r => ?_)
  cases r <;> rfl

@[simp] theorem erase_tryFinally (f : Program (S.sum S') ε Unit) :
    (p.tryFinally f).erase answer = (p.erase answer).tryFinally (f.erase answer) := by
  rw [tryFinally, erase_bind, erase_attempt, tryFinally]
  refine congrArg _ (funext fun r => ?_)
  rw [erase_bind]
  exact congrArg _ (funext fun _ => erase_ofExcept r)

/-- An instrument that is read, and what follows. -/
@[simp] theorem erase_perform_inr (o : S'.Op) :
    (perform (S := S.sum S') (ε := ε) (.inr o)).erase answer = .ret (answer o) := rfl

theorem mapError_eq_await {f : ε → ε'} {q : Program S ε α} {o : S.Op}
    {k : S.Ret o → Program S ε' α} (h : Program.await o k = q.mapError f) :
    ∃ k', q = .await o k' ∧ ∀ r, k r = (k' r).mapError f := by
  cases q with
  | ret | throw => simp [mapError] at h
  | await o' k' =>
      rw [mapError, await.injEq] at h
      obtain ⟨rfl, h⟩ := h
      exact ⟨k', rfl, fun r => congrFun (eq_of_heq h) r⟩

end Program

/-! ### Interleaved runs -/

/-- The machine with instruments that answer by themselves and leave the world alone. -/
abbrev Machine.instrumented (M : Machine S) (answer : (o : S'.Op) → S'.Ret o) :
    Machine (S.sum S') where
  World := M.World
  Answer := M.Answer
  Move := M.Move
  perform
    | w, .inl o, a => M.perform w o a
    | w, .inr o, _ => some (answer o, w)
  move := M.move

variable {answer : (o : S'.Op) → S'.Ret o} {f : ε → ε'}

/-- A thread without its instruments. One that has died among its last instruments had no
operation left. -/
inductive Thread.Erased (answer : (o : S'.Op) → S'.Ret o) (f : ε → ε') :
    Thread (S.sum S') ε' α → Thread S ε α → Prop
  | idle {p : Program (S.sum S') ε' α} {q : Program S ε α} :
      p.erase answer = q.mapError f → Erased answer f (.idle p) (.idle q)
  | running {p : Program (S.sum S') ε' α} {q : Program S ε α} :
      p.erase answer = q.mapError f → Erased answer f (.running p) (.running q)
  | crashed {t : Thread S ε α} : t.inFlight = false → Erased answer f .crashed t

/-- How the call has ended, if it has. -/
def Thread.outcome : Thread S ε α → Option (Except ε α)
  | .running (.ret a) => some (.ok a)
  | .running (.throw e) => some (.error e)
  | _ => none

/-- A call that has ended has been executed. -/
theorem Thread.Through.exec {p : Program S ε α} {tr : List (Event S)} {x : Thread S ε α}
    (h : x.Through p tr) {r : Except ε α} (hr : x.outcome = some r) : Exec p tr r := by
  cases x with
  | idle | crashed => simp [Thread.outcome] at hr
  | running q =>
      cases q with
      | ret a =>
          obtain rfl : .ok a = r := Option.some.inj hr
          exact After.exec_ret h
      | throw e =>
          obtain rfl : .error e = r := Option.some.inj hr
          exact After.exec_throw h
      | await => simp [Thread.outcome] at hr

/-- A call that has ended has ended without the instruments too. -/
theorem Thread.Erased.outcome {x : Thread (S.sum S') ε' α} {y : Thread S ε α}
    (h : x.Erased answer f y) {r : Except ε' α} (hr : x.outcome = some r) :
    ∃ r', y.outcome = some r' ∧ r = r'.mapError f := by
  cases h with
  | idle | crashed => simp [Thread.outcome] at hr
  | @running p q heq =>
      cases p with
      | ret a =>
          cases q with
          | ret => exact ⟨_, rfl, by simp_all [Thread.outcome, Program.mapError, Except.mapError]⟩
          | throw | await => cases heq
      | throw e =>
          cases q with
          | throw => exact ⟨_, rfl, by simp_all [Thread.outcome, Program.mapError, Except.mapError]⟩
          | ret | await => cases heq
      | await => simp [Thread.outcome] at hr

variable [DecidableEq ι]

/-- `t` is what `s` looks like without the instruments. -/
structure Erases (answer : (o : S'.Op) → S'.Ret o) (f : ε → ε')
    (s : Config (M.instrumented answer) ι ε' α) (t : Config M ι ε α) : Prop where
  world : t.world = s.world
  thread : ∀ c, (s.thread c).Erased answer f (t.thread c)
  events : ∀ c, eventsOf c t.log = (eventsOf c s.log).filterMap Event.plain

namespace Erases

variable {s s' : Config (M.instrumented answer) ι ε' α} {t : Config M ι ε α} {c : ι}
variable {G : Guard M ι ε α} {s₀ : Config M ι ε α}

/-- Call `c` goes on in both. -/
theorem both {x : Thread (S.sum S') ε' α} {y : Thread S ε α} {w : M.World}
    {e : Entry (M.instrumented answer) ι} {e' : Entry M ι} (h : Erases answer f s t)
    (hx : x.Erased answer f y) (he : ∀ d, e'.eventOf d = (e.eventOf d).bind Event.plain) :
    Erases answer f ⟨Function.update s.thread c x, w, e :: s.log⟩
      ⟨Function.update t.thread c y, w, e' :: t.log⟩ where
  world := rfl
  thread d := by
    by_cases hd : d = c
    · subst hd
      simpa using hx
    · simpa [hd] using h.thread d
  events d := by
    rw [eventsOf_cons, eventsOf_cons, h.events d, he d, List.filterMap_append]
    cases e.eventOf d <;> rfl

/-- Call `c` goes on among its instruments. -/
theorem skip {x : Thread (S.sum S') ε' α} {e : Entry (M.instrumented answer) ι}
    (h : Erases answer f s t) (hx : x.Erased answer f (t.thread c))
    (he : ∀ d, (e.eventOf d).bind Event.plain = none) :
    Erases answer f ⟨Function.update s.thread c x, s.world, e :: s.log⟩ t where
  world := h.world
  thread d := by
    by_cases hd : d = c
    · subst hd
      simpa using hx
    · simpa [hd] using h.thread d
  events d := by
    have := he d
    rw [eventsOf_cons, h.events d, List.filterMap_append]
    cases heq : e.eventOf d with
    | none => simp
    | some ev =>
        have hev : ev.plain = none := by simpa [heq] using this
        simp [hev]

/-- A call that dies among its instruments dies before its next operation, if it has one. -/
theorem die {e : Entry (M.instrumented answer) ι} {p : Program (S.sum S') ε' α}
    (h : Erases answer f s t) (hp : s.thread c = .running p) (ht : Run G s₀ t)
    (hG : G t (.crash c none)) (he : ∀ d, e.eventOf d = none) :
    ∃ t', Run G s₀ t' ∧
      Erases answer f ⟨Function.update s.thread c .crashed, s.world, e :: s.log⟩ t' := by
  have hthread := h.thread c
  rw [hp] at hthread
  cases hq : t.thread c with
  | idle | crashed => rw [hq] at hthread; cases hthread
  | running q =>
      cases hawait : q with
      | await o k =>
          have hstep : t.step (.crash c none) = some
              ⟨Function.update t.thread c .crashed, t.world, .crash c none :: t.log⟩ := by
            simp [Config.step, hq, hawait]
          refine ⟨_, ht.step hG hstep, ?_⟩
          rw [h.world]
          exact h.both (.crashed rfl) fun d => by rw [he d]; rfl
      | ret | throw =>
          refine ⟨t, ht, h.skip (.crashed ?_) fun d => by simp [he d]⟩
          rw [hq, hawait]
          rfl

/-- A call that awaits an operation awaits it without the instruments too. -/
theorem awaits_plain {o : S.Op} {k : S.Ret o → Program (S.sum S') ε' α}
    (h : Erases answer f s t) (hp : s.thread c = .running (.await (S := S.sum S') (.inl o) k)) :
    ∃ k', t.thread c = .running (.await o k') ∧
      ∀ r, (k r).erase answer = (k' r).mapError f := by
  have hthread := h.thread c
  rw [hp] at hthread
  cases hq : t.thread c with
  | idle | crashed => rw [hq] at hthread; cases hthread
  | running q =>
      rw [hq] at hthread
      cases hthread with
      | running heq =>
          obtain ⟨k', rfl, hk⟩ := Program.mapError_eq_await heq
          exact ⟨k', rfl, hk⟩

/-- A call at an instrument stands without it where the instrument leads. -/
theorem awaits_instrument {o : S'.Op} {k : S'.Ret o → Program (S.sum S') ε' α}
    (h : Erases answer f s t) (hp : s.thread c = .running (.await (S := S.sum S') (.inr o) k)) :
    (Thread.running (k (answer o))).Erased answer f (t.thread c) := by
  have hthread := h.thread c
  rw [hp] at hthread
  cases hq : t.thread c with
  | idle | crashed => rw [hq] at hthread; cases hthread
  | running q =>
      rw [hq] at hthread
      cases hthread with
      | running heq => exact .running heq

end Erases

/-- The step without the instruments, if there is one: of a call that dies it is not asked
which operation it had issued. -/
def Action.Stripped : Action (M.instrumented answer) ι → Action M ι → Prop
  | .begin c, .begin d => c = d
  | .answer c a, .answer d b => c = d ∧ a = b
  | .crash c _, .crash d _ => c = d
  | .move m, .move n => m = n
  | _, _ => False

/-- One step: the same step, or none. -/
theorem Erases.step {s s' : Config (M.instrumented answer) ι ε' α} {t s₀ : Config M ι ε α}
    {G : Guard M ι ε α} {T : ι → Unit → (o : (S.sum S').Op) → (S.sum S').Ret o → Unit → Prop}
    {σ σ' : ι → Unit} {a : Action (M.instrumented answer) ι} (h : Erases answer f s t)
    (ht : Run G s₀ t) (hG : ∀ b, a.Stripped b → G t b) (hT : TStep T s σ a s' σ') :
    ∃ t', Run G s₀ t' ∧ Erases answer f s' t' := by
  cases hT with
  | @begin c p hp =>
      have hthread := h.thread c
      rw [hp] at hthread
      cases hq : t.thread c with
      | running | crashed => rw [hq] at hthread; cases hthread
      | idle q =>
          rw [hq] at hthread
          cases hthread with
          | idle heq =>
              have hstep : t.step (.begin c) =
                  some ⟨Function.update t.thread c (.running q), t.world, .begun c :: t.log⟩ := by
                simp [Config.step, hq]
              refine ⟨_, ht.step (hG (.begin c) rfl) hstep, ?_⟩
              rw [h.world]
              exact h.both (.running heq) fun d => rfl
  | @answer c b o k r w g hp hw _ =>
      cases o with
      | inl o =>
          obtain ⟨k', hq, hk⟩ := h.awaits_plain hp
          have hw' : M.perform s.world o b = some (r, w) := hw
          have hstep : t.step (.answer c b) = some
              ⟨Function.update t.thread c (.running (k' r)), w, .reply c ⟨o, r⟩ :: t.log⟩ := by
            simp only [Config.step, hq, h.world, hw']
            rfl
          refine ⟨_, ht.step (hG (.answer c b) ⟨rfl, rfl⟩) hstep, ?_⟩
          refine h.both (.running (hk r)) fun d => ?_
          by_cases hd : c = d <;> simp [Entry.eventOf, Event.plain, hd]
      | inr o =>
          obtain ⟨rfl, rfl⟩ := Prod.mk.inj (Option.some.inj hw)
          refine ⟨t, ht, h.skip (h.awaits_instrument hp) fun d => ?_⟩
          by_cases hd : c = d <;> simp [Entry.eventOf, Event.plain, hd]
  | @crash c o k hp => exact h.die hp ht (hG (.crash c none) rfl) fun d => rfl
  | @lost c b o k r w g hp hw _ =>
      cases o with
      | inl o =>
          obtain ⟨k', hq, -⟩ := h.awaits_plain hp
          have hw' : M.perform s.world o b = some (r, w) := hw
          have hstep : t.step (.crash c (some b)) = some
              ⟨Function.update t.thread c .crashed, w, .crash c (some o) :: t.log⟩ := by
            simp only [Config.step, hq, h.world, hw']
            rfl
          exact ⟨_, ht.step (hG (.crash c (some b)) rfl) hstep,
            h.both (.crashed rfl) fun d => rfl⟩
      | inr o =>
          obtain ⟨-, rfl⟩ := Prod.mk.inj (Option.some.inj hw)
          exact h.die hp ht (hG (.crash c none) rfl) fun d => rfl
  | @move m w hw =>
      have hw' : M.move s.world m = some w := hw
      have hstep : t.step (.move m) = some ⟨t.thread, w, .move m :: t.log⟩ := by
        simp [Config.step, h.world, hw']
      exact ⟨_, ht.step (hG (.move m) rfl) hstep, rfl, h.thread,
        fun d => by simpa using h.events d⟩

omit [DecidableEq ι] in
theorem Awaits.all (p : Program S ε α) : Awaits (fun _ => True) p := by
  induction p with
  | ret | throw => trivial
  | await o k ih => exact fun r => ⟨(), trivial, ih r⟩

/-- **Instruments are not noticed.** A run of instrumented calls is a run of the erased
ones. -/
theorem Run.erase {G : Guard (M.instrumented answer) ι ε' α} {G' : Guard M ι ε α}
    {p : ι → Program (S.sum S') ε' α} {q : ι → Program S ε α} {w : M.World}
    (hpq : ∀ c, (p c).erase answer = (q c).mapError f)
    (hG : ∀ {s t a b}, Erases answer f s t → G s a → a.Stripped b → G' t b)
    {s : Config (M.instrumented answer) ι ε' α} (h : Run G (Config.start p w) s) :
    ∃ t, Run G' (Config.start q w) t ∧ Erases answer f s t := by
  obtain ⟨-, -, hex⟩ := Run.staged
    (I := fun s _ => ∃ t, Run G' (Config.start q w) t ∧ Erases answer f s t)
    (fun c => Awaits.all (p c))
    ⟨_, .start, rfl, fun c => .idle (hpq c), fun _ => rfl⟩
    (fun _ _ hI hGa hT _ => by
      obtain ⟨t, ht, her⟩ := hI
      exact her.step ht (fun b hb => hG her hGa hb) hT) h
  exact hex

end PaymentQueue.Async
