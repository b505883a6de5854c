import Mathlib.Data.List.Forall2
import PaymentQueue.Async.Interpret
import PaymentQueue.Saga

/-!
# PaymentQueue.SagaTrace

Which calls does the saga coordinator make, with which contexts?

Here the coordinator runs over *calls*: a step is a name, and what its `execute` or
`compensate` does is the answer the call receives. Nothing is assumed of the answers, and
whatever programs the steps of a saga are, the coordinator does with them what it does with
the calls (`run_interpret`).

The documented law (`Lawful`: execute a prefix, compensate it in reverse, throw the error of
the failed step) holds of a run unless a step throws `null` or `undefined`. Reading the
`message` of these for the log throws a `TypeError` in the middle of the error handling,
which cuts the compensations short and takes the place of the error (`runs_lawful_iff`).
-/

namespace PaymentQueue

open Async

/-! ### Interpreting the steps -/

/-- With its operations interpreted, one step is the other. -/
structure SagaStep.Interprets {S S' : Signature} {Ctx P : Type}
    (h : (o : S.Op) → Program S' Thrown (S.Ret o)) (s : SagaStep S Ctx P)
    (s' : SagaStep S' Ctx P) : Prop where
  execute : ∀ ctx, (s.execute ctx).interpret h = s'.execute ctx
  compensate : ∀ ctx, (s.compensate ctx).interpret h = s'.compensate ctx

namespace PaymentSaga

section

variable {S S' : Signature} {Ctx P : Type} {h : (o : S.Op) → Program S' Thrown (S.Ret o)}
variable {ss completed : List (SagaStep S Ctx P)} {ss' completed' : List (SagaStep S' Ctx P)}

theorem interpret_readMessage {err : Thrown} :
    (readMessage err : Program S Thrown _).interpret h = readMessage err := by
  rw [readMessage, readMessage]
  cases err.message <;> rfl

theorem interpret_compensate (hh : ∀ o, (h o).Settling) (ctx : Ctx)
    (hs : List.Forall₂ (SagaStep.Interprets h) ss ss') :
    (compensate ctx ss).interpret h = compensate ctx ss' := by
  induction hs with
  | nil => rfl
  | cons hstep _ ih =>
      rw [compensate, compensate, Program.interpret_bind, Program.interpret_tryCatch hh,
        hstep.compensate, ih]
      have hread : (fun e => (readMessage e >>= fun _ => pure () :
          Program S Thrown Unit).interpret h) = fun e => readMessage e >>= fun _ => pure () := by
        funext e
        rw [Program.interpret_bind, interpret_readMessage]
        rfl
      rw [hread]

theorem interpret_onStepFailure (hh : ∀ o, (h o).Settling) (ctx : Ctx)
    (hs : List.Forall₂ (SagaStep.Interprets h) completed completed') {α : Type} (err : Thrown) :
    (onStepFailure (α := α) ctx completed err).interpret h =
      onStepFailure ctx completed' err := by
  rw [onStepFailure, Program.interpret_bind, interpret_readMessage, onStepFailure]
  refine congrArg _ (funext fun _ => ?_)
  rw [Program.interpret_bind, interpret_compensate hh ctx (List.rel_reverse hs)]
  rfl

/-- What the steps of a saga await may be interpreted before or after the coordinator has
put them together. -/
theorem interpret_loop [Spread Ctx P] (hh : ∀ o, (h o).Settling) (ctx : Ctx)
    (hs : List.Forall₂ (SagaStep.Interprets h) ss ss')
    (hc : List.Forall₂ (SagaStep.Interprets h) completed completed') :
    (loop ss completed ctx).interpret h = loop ss' completed' ctx := by
  induction hs generalizing completed completed' ctx with
  | nil => rfl
  | cons hstep _ ih =>
      rw [loop, loop, Program.interpret_bind, Program.interpret_attempt hh, hstep.execute]
      refine congrArg _ (funext fun r => ?_)
      cases r with
      | ok patch => exact ih _ (List.rel_append hc (.cons hstep .nil))
      | error err => exact interpret_onStepFailure hh ctx hc err

end

/-- A call that the coordinator makes. -/
inductive SagaCall (ι Ctx : Type)
  | execute (step : ι) (ctx : Ctx)
  | compensate (step : ι) (ctx : Ctx)

/-- How a call is answered: it resolves or throws. -/
def SagaCall.Ret {ι Ctx : Type} (P : Type) : SagaCall ι Ctx → Type
  | execute _ _ => Except Thrown P
  | compensate _ _ => Except Thrown Unit

/-- The calls of a saga as operations. -/
abbrev calls (ι Ctx P : Type) : Signature where
  Op := SagaCall ι Ctx
  Ret := SagaCall.Ret P

variable {S : Signature} {ι Ctx P : Type}

/-- The step that does what it is told. -/
def called (i : ι) : SagaStep (calls ι Ctx P) Ctx P where
  name := ""
  execute ctx := Program.perform (S := calls ι Ctx P) (.execute i ctx) >>= .ofExcept
  compensate ctx := Program.perform (S := calls ι Ctx P) (.compensate i ctx) >>= .ofExcept

/-- What the calls stand for when the steps are programs. -/
def steps (step : ι → SagaStep S Ctx P) :
    (c : SagaCall ι Ctx) → Program S Thrown (SagaCall.Ret P c)
  | .execute i ctx => ((step i).execute ctx).attempt
  | .compensate i ctx => ((step i).compensate ctx).attempt

theorem settling_steps (step : ι → SagaStep S Ctx P) (c : SagaCall ι Ctx) :
    (steps step c).Settling := by
  cases c <;> exact Program.settling_attempt _

/-- The outcome of a called step is the answer to the call. -/
theorem attempt_execute (i : ι) (ctx : Ctx) :
    ((called (P := P) i).execute ctx).attempt =
      Program.perform (S := calls ι Ctx P) (.execute i ctx) := by
  refine congrArg (Program.await _) (funext fun r => ?_)
  cases r <;> rfl

theorem attempt_compensate (i : ι) (ctx : Ctx) :
    ((called (P := P) i).compensate ctx).attempt =
      Program.perform (S := calls ι Ctx P) (.compensate i ctx) := by
  refine congrArg (Program.await _) (funext fun r => ?_)
  cases r <;> rfl

section

variable (step : ι → SagaStep S Ctx P)

/-- A program over the calls of a saga, with the steps in place of the calls. -/
def withSteps {α : Type} (p : Program (calls ι Ctx P) Thrown α) : Program S Thrown α :=
  p.interpret (steps step)

theorem withSteps_bind {α β : Type} (p : Program (calls ι Ctx P) Thrown α)
    (f : α → Program (calls ι Ctx P) Thrown β) :
    withSteps step (p >>= f) = withSteps step p >>= fun a => withSteps step (f a) :=
  Program.interpret_bind f

theorem called_interprets (i : ι) :
    SagaStep.Interprets (steps step) (called (P := P) i) (step i) where
  execute ctx := ((step i).execute ctx).attempt_bind_ofExcept
  compensate ctx := ((step i).compensate ctx).attempt_bind_ofExcept

theorem map_called_interprets (is : List ι) :
    List.Forall₂ (SagaStep.Interprets (steps step)) (is.map (called (P := P)))
      (is.map step) := by
  rw [List.forall₂_map_left_iff, List.forall₂_map_right_iff, List.forall₂_same]
  exact fun i _ => called_interprets step i

variable [Spread Ctx P]

theorem withSteps_loop (is completed : List ι) (ctx : Ctx) :
    withSteps step (loop (is.map called) (completed.map called) ctx) =
      loop (is.map step) (completed.map step) ctx :=
  interpret_loop (settling_steps step) ctx (map_called_interprets step is)
    (map_called_interprets step completed)

omit step in
/-- The loop on an instance ends as the loop does. -/
theorem loopOn_bind {β : Type} (rest completed : List (SagaStep S Ctx P)) (ctx : Ctx)
    (f : Except Thrown Ctx → Program S Thrown β) :
    (loopOn rest completed ctx >>= fun x => f x.1) =
      (loop rest completed ctx).attempt >>= f := by
  induction rest generalizing completed ctx with
  | nil => rfl
  | cons s rest ih =>
      rw [loopOn, loop, Program.settling_attempt, Program.bind_assoc, Program.bind_assoc]
      refine congrArg _ (funext fun r => ?_)
      cases r with
      | ok patch => exact ih _ _
      | error err => exact Program.bind_assoc _ _ _

omit step in
/-- A run does not depend on what the last one has left in the field. -/
theorem runsOn_cons (ss completed : List (SagaStep S Ctx P)) (ctx : Ctx)
    (ctxs : List Ctx) :
    runsOn ss completed (ctx :: ctxs) = (run ss ctx).attempt >>= fun result =>
      runsOn ss [] ctxs >>= fun results => pure (result :: results) := by
  have hfield : ∀ field, runsOn ss field ctxs = runsOn ss [] ctxs := by
    intro field
    cases ctxs <;> rfl
  rw [run, ← loopOn_bind]
  refine congrArg _ (funext fun x => ?_)
  obtain ⟨result, field⟩ := x
  exact congrArg (· >>= fun results => pure (result :: results)) (hfield field)

/-- Whatever its steps are, the coordinator does with them what it does with the calls, in
every run on an instance. -/
theorem runsOn_withSteps (is : List ι) (completed : List (SagaStep (calls ι Ctx P) Ctx P))
    (completed' : List (SagaStep S Ctx P)) (ctxs : List Ctx) :
    withSteps step (runsOn (is.map called) completed ctxs) =
      runsOn (is.map step) completed' ctxs := by
  induction ctxs generalizing completed completed' with
  | nil => rfl
  | cons ctx ctxs ih =>
      have hrun : withSteps step (run (is.map called) ctx).attempt =
          (run (is.map step) ctx).attempt := by
        rw [withSteps, Program.interpret_attempt (settling_steps step)]
        exact congrArg Program.attempt (withSteps_loop step is [] ctx)
      rw [runsOn_cons, runsOn_cons, withSteps_bind, hrun]
      refine congrArg _ (funext fun r => ?_)
      rw [withSteps_bind, ih [] []]
      rfl

end

/-! ### The law -/

/-- A call and its answer. -/
abbrev CallEvent (ι Ctx P : Type) := Event (calls ι Ctx P)

/-- Step `i` was executed with `ctx`, and `r` is how that ended. -/
def executed (i : ι) (ctx : Ctx) (r : Except Thrown P) : CallEvent ι Ctx P :=
  ⟨.execute i ctx, r⟩

/-- Step `i` was compensated with `ctx`, and `r` is how that ended. -/
def compensated (i : ι) (ctx : Ctx) (r : Except Thrown Unit) : CallEvent ι Ctx P :=
  ⟨.compensate i ctx, r⟩

/-- The steps are executed and resolve with these patches, each with the context merged so
far. -/
def executes [Spread Ctx P] : List ι → Ctx → List P → List (CallEvent ι Ctx P)
  | i :: is, ctx, patch :: patches =>
      executed i ctx (.ok patch) :: executes is (Spread.spread ctx patch) patches
  | _, _, _ => []

/-- The context with the patches merged into it, later ones over earlier ones. -/
def merge [Spread Ctx P] (ctx : Ctx) (patches : List P) : Ctx :=
  patches.foldl Spread.spread ctx

/-- The steps are compensated, and this is how each compensation ends. -/
def compensations (ctx : Ctx) (is : List ι) (outcomes : List (Except Thrown Unit)) :
    List (CallEvent ι Ctx P) :=
  List.zipWith (fun i r => compensated i ctx r) is outcomes

/-- **The law of a saga.** Either all steps are executed in order, each with the patches of
those before it, and the run resolves with the full merge; or those before some step `i`
are, `i` throws, each of those before it is compensated once in reverse order with their
patches, however the compensations end, and the run throws the error of `i`. -/
def Lawful [Spread Ctx P] (is : List ι) (ctx : Ctx) (log : List (CallEvent ι Ctx P))
    (res : Except Thrown Ctx) : Prop :=
  (∃ patches, patches.length = is.length ∧ log = executes is ctx patches ∧
    res = .ok (merge ctx patches)) ∨
  (∃ done i later patches err outcomes, is = done ++ i :: later ∧
    patches.length = done.length ∧ outcomes.length = done.length ∧
    log = executes done ctx patches ++ executed i (merge ctx patches) (.error err) ::
      compensations (merge ctx patches) done.reverse outcomes ∧
    res = .error err)

/-- The law for the rest `is` of a run, with `completed` steps before it. -/
def LawfulAfter [Spread Ctx P] (completed is : List ι) (ctx : Ctx)
    (log : List (CallEvent ι Ctx P)) (res : Except Thrown Ctx) : Prop :=
  (∃ patches, patches.length = is.length ∧ log = executes is ctx patches ∧
    res = .ok (merge ctx patches)) ∨
  (∃ done i later patches err outcomes, is = done ++ i :: later ∧
    patches.length = done.length ∧ outcomes.length = (completed ++ done).length ∧
    log = executes done ctx patches ++ executed i (merge ctx patches) (.error err) ::
      compensations (merge ctx patches) (completed ++ done).reverse outcomes ∧
    res = .error err)

/-- What a call threw. -/
def thrown : CallEvent ι Ctx P → Option Thrown
  | ⟨.execute _ _, .error (err : Thrown)⟩ | ⟨.compensate _ _, .error (err : Thrown)⟩ => some err
  | _ => none

/-- The `message` of what the call threw, if it threw, can be read. -/
def legible (e : CallEvent ι Ctx P) : Bool := (thrown e).all fun err => !err.nullish

/-- Everything that was thrown can be read. -/
def Legible (log : List (CallEvent ι Ctx P)) : Prop := ∀ e ∈ log, legible e = true

/-- Of `n` compensations and those of the steps in the log only the last throws a nullish
value, and the `TypeError` for it looks just like the error that the failed step threw. -/
def Masked (n : Nat) (log : List (CallEvent ι Ctx P)) : Prop :=
  ∃ before i ctx e comps j ctx',
    log = before ++ executed i ctx (.error e.typeError) ::
      (comps ++ [compensated j ctx' (.error e)]) ∧
    (∀ x ∈ before, thrown x = none) ∧ Legible comps ∧ e.nullish = true ∧
    comps.length + 1 = n + before.length

/-- The completed steps are compensated, however that ends, and the error of the step that
failed is thrown. -/
def Undone (completed : List ι) (ctx : Ctx) (err : Thrown) (log : List (CallEvent ι Ctx P))
    (res : Except Thrown Ctx) : Prop :=
  ∃ outcomes, outcomes.length = completed.length ∧
    log = compensations ctx completed.reverse outcomes ∧ res = .error err

/-- Only the last of `n` compensations throws a nullish value, and its `TypeError` is `err`. -/
def CutAtLast (n : Nat) (err : Thrown) (log : List (CallEvent ι Ctx P)) : Prop :=
  ∃ comps j ctx e, log = comps ++ [compensated j ctx (.error e)] ∧ Legible comps ∧
    e.nullish = true ∧ e.typeError = err ∧ comps.length + 1 = n

/-- How the compensations of the steps `is` go: to their end, or to the first that throws a
nullish value. -/
inductive Compensates (ctx : Ctx) (is : List ι) :
    List (CallEvent ι Ctx P) → Except Thrown Unit → Prop
  | all {outcomes : List (Except Thrown Unit)} (hlen : outcomes.length = is.length)
      (hleg : Legible (compensations (P := P) ctx is outcomes)) :
      Compensates ctx is (compensations ctx is outcomes) (.ok ())
  | cut {first rest : List ι} {j : ι} {outcomes : List (Except Thrown Unit)} {e : Thrown}
      (his : is = first ++ j :: rest) (hlen : outcomes.length = first.length)
      (hleg : Legible (compensations (P := P) ctx first outcomes)) (he : e.nullish = true) :
      Compensates ctx is
        (compensations ctx first outcomes ++ [compensated j ctx (.error e)])
        (.error e.typeError)

section

variable {i i' : ι} {ctx ctx' : Ctx} {r r' : Except Thrown P} {u u' : Except Thrown Unit}
  {patch : P} {err : Thrown}

@[simp] theorem executed_inj : executed i ctx r = executed i' ctx' r' ↔
    i = i' ∧ ctx = ctx' ∧ r = r' := by
  constructor
  · intro h
    cases h
    exact ⟨rfl, rfl, rfl⟩
  · intro h
    obtain ⟨rfl, rfl, rfl⟩ := h
    rfl

@[simp] theorem compensated_inj :
    compensated (P := P) i ctx u = compensated i' ctx' u' ↔
      i = i' ∧ ctx = ctx' ∧ u = u' := by
  constructor
  · intro h
    cases h
    exact ⟨rfl, rfl, rfl⟩
  · intro h
    obtain ⟨rfl, rfl, rfl⟩ := h
    rfl

@[simp] theorem thrown_executed_ok : thrown (executed i ctx (.ok patch)) = none := rfl

@[simp] theorem thrown_executed_error :
    thrown (executed (P := P) i ctx (.error err)) = some err := rfl

@[simp] theorem thrown_compensated :
    thrown (compensated (P := P) i ctx u) =
      match u with
      | .ok _ => none
      | .error err => some err := by
  cases u <;> rfl

end

/-! ### The law, one call at a time -/

section

variable [Spread Ctx P] {completed is : List ι} {i : ι} {ctx : Ctx} {patch : P}
  {err : Thrown} {log : List (CallEvent ι Ctx P)} {res : Except Thrown Ctx}

theorem lawfulAfter_nil : LawfulAfter [] is ctx log res ↔ Lawful is ctx log res := by
  simp [LawfulAfter, Lawful]

/-- After a step that resolves the rest of the run has to be lawful. -/
theorem lawfulAfter_ok :
    LawfulAfter completed (i :: is) ctx (executed i ctx (.ok patch) :: log) res ↔
      LawfulAfter (completed ++ [i]) is (Spread.spread ctx patch) log res := by
  constructor
  · intro h
    rcases h with ⟨patches, hlen, hlog, hres⟩ |
      ⟨done, j, later, patches, err, outcomes, his, hlen, hout, hlog, hres⟩
    · cases patches with
      | nil => simp at hlen
      | cons p patches =>
          simp only [executes, List.cons.injEq, executed_inj, true_and, Except.ok.injEq] at hlog
          obtain ⟨rfl, rfl⟩ := hlog
          exact Or.inl ⟨patches, by simpa using hlen, rfl, hres⟩
    · cases done with
      | nil => simp [executes, List.length_eq_zero_iff.mp hlen] at hlog
      | cons k done =>
          cases patches with
          | nil => simp at hlen
          | cons p patches =>
              simp only [executes, List.cons_append, List.cons.injEq, executed_inj, true_and,
                Except.ok.injEq] at hlog his
              obtain ⟨⟨-, rfl⟩, rfl⟩ := hlog
              obtain ⟨rfl, rfl⟩ := his
              exact Or.inr ⟨done, j, later, patches, err, outcomes, rfl, by simpa using hlen,
                by simpa using hout, by simp [merge], hres⟩
  · intro h
    rcases h with ⟨patches, hlen, rfl, hres⟩ |
      ⟨done, j, later, patches, err, outcomes, rfl, hlen, hout, rfl, hres⟩
    · exact Or.inl ⟨patch :: patches, by simpa using hlen, rfl, hres⟩
    · exact Or.inr ⟨i :: done, j, later, patch :: patches, err, outcomes, rfl,
        by simpa using hlen, by simpa using hout, by simp [merge, executes], hres⟩

/-- After a step that throws, the completed ones have to be compensated. -/
theorem lawfulAfter_error :
    LawfulAfter completed (i :: is) ctx (executed i ctx (.error err) :: log) res ↔
      Undone completed ctx err log res := by
  constructor
  · intro h
    rcases h with ⟨patches, hlen, hlog, hres⟩ |
      ⟨done, j, later, patches, err, outcomes, his, hlen, hout, hlog, hres⟩
    · cases patches with
      | nil => simp at hlen
      | cons p patches => simp [executes] at hlog
    · cases done with
      | nil =>
          obtain rfl := List.length_eq_zero_iff.mp hlen
          simp only [executes, merge, List.foldl_nil, List.nil_append, List.cons.injEq,
            executed_inj, true_and, Except.error.injEq] at hlog
          obtain ⟨⟨-, rfl⟩, rfl⟩ := hlog
          exact ⟨outcomes, by simpa using hout, by simp, hres⟩
      | cons k done =>
          cases patches with
          | nil => simp at hlen
          | cons p patches => simp [executes] at hlog
  · intro h
    obtain ⟨outcomes, hout, rfl, hres⟩ := h
    exact Or.inr ⟨[], i, is, [], err, outcomes, rfl, rfl, by simpa using hout,
      by simp [executes, merge], hres⟩

omit [Spread Ctx P] in
theorem masked_ok {n : Nat} :
    Masked n (executed i ctx (.ok patch) :: log) ↔ Masked (n + 1) log := by
  constructor
  · intro h
    obtain ⟨before, j, ctx', e, comps, k, ctx'', hlog, hbefore, hcomps, he, hlen⟩ := h
    cases before with
    | nil => simp at hlog
    | cons x before =>
        obtain ⟨-, rfl⟩ := List.cons.inj hlog
        exact ⟨before, j, ctx', e, comps, k, ctx'', rfl,
          fun y hy => hbefore y (List.mem_cons_of_mem _ hy), hcomps, he,
          by rw [List.length_cons] at hlen; omega⟩
  · intro h
    obtain ⟨before, j, ctx', e, comps, k, ctx'', rfl, hbefore, hcomps, he, hlen⟩ := h
    refine ⟨executed i ctx (.ok patch) :: before, j, ctx', e, comps, k, ctx'', rfl, ?_, hcomps, he,
      by rw [List.length_cons]; omega⟩
    exact List.forall_mem_cons.mpr ⟨rfl, hbefore⟩

omit [Spread Ctx P] in
theorem masked_error {n : Nat} :
    Masked n (executed i ctx (.error err) :: log) ↔ CutAtLast n err log := by
  constructor
  · intro h
    obtain ⟨before, j, ctx', e, comps, k, ctx'', hlog, hbefore, hcomps, he, hlen⟩ := h
    cases before with
    | nil =>
        simp only [List.nil_append, List.cons.injEq, executed_inj, Except.error.injEq] at hlog
        obtain ⟨⟨-, -, rfl⟩, rfl⟩ := hlog
        exact ⟨comps, k, ctx'', e, rfl, hcomps, he, rfl, by simpa using hlen⟩
    | cons x before =>
        obtain ⟨rfl, -⟩ := List.cons.inj hlog
        have hnone := hbefore _ List.mem_cons_self
        simp at hnone
  · intro h
    obtain ⟨comps, j, ctx', e, rfl, hcomps, he, rfl, hlen⟩ := h
    exact ⟨[], i, ctx, e, comps, j, ctx', rfl, by simp, hcomps, he, by simpa using hlen⟩

/-! ### What the coordinator does -/

omit [Spread Ctx P] in
/-- A compensation whose error can be read goes on to the next one. -/
theorem Compensates.cons {u r : Except Thrown Unit} (h : Compensates ctx is log r)
    (hu : legible (compensated (P := P) i ctx u) = true) :
    Compensates ctx (i :: is) (compensated i ctx u :: log) r := by
  cases h with
  | @all outcomes hlen hleg =>
      have hleg' : Legible (compensations (P := P) ctx (i :: is) (u :: outcomes)) :=
        List.forall_mem_cons.mpr ⟨hu, hleg⟩
      exact .all (by simpa using hlen) hleg'
  | @cut first rest j outcomes e his hlen hleg he =>
      have hleg' : Legible (compensations (P := P) ctx (i :: first) (u :: outcomes)) :=
        List.forall_mem_cons.mpr ⟨hu, hleg⟩
      have hlen' : (u :: outcomes).length = (i :: first).length := by simpa using hlen
      have his' : i :: is = (i :: first) ++ j :: rest := congrArg (i :: ·) his
      exact .cut his' hlen' hleg' he

omit [Spread Ctx P] in
/-- The compensations go on until one of them throws a value that cannot be read. -/
theorem exec_compensate {r : Except Thrown Unit}
    (h : Exec (compensate ctx (is.map called)) log r) : Compensates ctx is log r := by
  induction is generalizing log with
  | nil =>
      obtain ⟨rfl, rfl⟩ := Exec.ret_iff.mp h
      have hnone : Legible (compensations (P := P) ctx ([] : List ι) []) := by
        simp [Legible, compensations]
      exact .all rfl hnone
  | cons i is ih =>
      rw [List.map_cons, compensate, Program.tryCatch, Program.bind_assoc,
        attempt_compensate] at h
      replace h := Exec.await_iff.mp h
      obtain ⟨(u : Except Thrown Unit), log, rfl, h⟩ := h
      show Compensates ctx (i :: is) (compensated i ctx u :: log) r
      cases u with
      | ok a => exact (ih h).cons rfl
      | error e =>
          replace h : Exec (readMessage e >>= (fun _ => pure ()) >>= fun _ =>
            compensate ctx (is.map called)) log r := h
          cases he : e.nullish with
          | false =>
              obtain ⟨m, hm⟩ := Thrown.message_of_not_nullish he
              rw [readMessage, hm] at h
              exact (ih h).cons (by simp [legible, he])
          | true =>
              rw [readMessage, Thrown.message_of_nullish he] at h
              obtain ⟨rfl, rfl⟩ := Exec.throw_iff.mp h
              have hnone : Legible (compensations (P := P) ctx ([] : List ι) []) := by
                simp [Legible, compensations]
              have his : i :: is = [] ++ i :: is := rfl
              exact .cut his rfl hnone he

omit [Spread Ctx P] in
/-- Compensations that were cut short are lawful when the last one was the last to do. -/
theorem aborted_lawful_iff (err : Thrown) {first rest : List ι} {j : ι}
    {outcomes : List (Except Thrown Unit)} {e : Thrown}
    (his : completed.reverse = first ++ j :: rest)
    (hlen : outcomes.length = first.length)
    (hleg : Legible (compensations (P := P) ctx first outcomes)) (he : e.nullish = true) :
    let log := compensations (P := P) ctx first outcomes ++ [compensated j ctx (.error e)]
    Undone completed ctx err log (.error e.typeError) ↔
      (err.nullish = false ∧ Legible log) ∨ CutAtLast completed.length err log := by
  have hfirst : (compensations (P := P) ctx first outcomes).length = first.length := by
    simp [compensations, hlen]
  constructor
  · intro hlaw
    obtain ⟨outcomes', hlen', hlog, herr⟩ := hlaw
    obtain rfl := Except.error.inj herr
    have hall : (compensations (P := P) ctx completed.reverse outcomes').length =
        completed.length := by
      simp [compensations, hlen']
    have hcount := congrArg List.length hlog
    rw [hall, List.length_append, hfirst] at hcount
    exact Or.inr ⟨_, j, ctx, e, rfl, hleg, he, rfl, by rw [hfirst]; exact hcount⟩
  · intro hor
    rcases hor with ⟨-, hall⟩ | ⟨comps, j', ctx', e', hlog, -, -, rfl, hcount⟩
    · have hlast := hall (compensated j ctx (.error e)) (by simp)
      simp [legible, he] at hlast
    · obtain ⟨rfl, hlast⟩ := List.append_inj' hlog rfl
      simp only [List.cons.injEq, compensated_inj, Except.error.injEq, and_true] at hlast
      obtain ⟨-, -, rfl⟩ := hlast
      -- the one that was cut short was the last
      have hrest : rest = [] := by
        have htotal := congrArg List.length his
        rw [List.length_reverse, List.length_append, List.length_cons] at htotal
        exact List.length_eq_zero_iff.mp (by omega)
      refine ⟨outcomes ++ [.error e], by simp; omega, ?_, rfl⟩
      rw [his, hrest, compensations, compensations, List.zipWith_append hlen.symm]
      rfl

omit [Spread Ctx P] in
/-- The handling of an error is lawful exactly when it can be read, and so can all errors of
the compensations. -/
theorem onStepFailure_lawful_iff
    (h : Exec (onStepFailure ctx (completed.map called) err) log res) :
    Undone completed ctx err log res ↔
      (err.nullish = false ∧ Legible log) ∨ CutAtLast completed.length err log := by
  rw [onStepFailure] at h
  cases herr : err.nullish with
  | true =>
      rw [readMessage, Thrown.message_of_nullish herr] at h
      obtain ⟨rfl, rfl⟩ := Exec.throw_iff.mp h
      constructor
      · intro hlaw
        obtain ⟨outcomes, -, -, hres⟩ := hlaw
        have hnot := err.typeError_not_nullish
        rw [Except.error.inj hres, herr] at hnot
        exact absurd hnot (by decide)
      · intro hor
        rcases hor with ⟨hfalse, -⟩ | ⟨comps, j, ctx', e, hlog, -⟩
        · exact absurd hfalse (by decide)
        · exact absurd hlog.symm (by simp)
  | false =>
      obtain ⟨m, hm⟩ := Thrown.message_of_not_nullish herr
      rw [readMessage, hm] at h
      replace h : Exec (compensate ctx (completed.map called).reverse >>= fun _ =>
        Program.throw err) log res := h
      rw [← List.map_reverse] at h
      rcases Exec.bind_iff.mp h with ⟨u, t₁, t₂, rfl, hcomp, hend⟩ | ⟨e, rfl, hcomp⟩
      · obtain ⟨rfl, rfl⟩ := Exec.throw_iff.mp hend
        cases exec_compensate hcomp with
        | @all outcomes hlen hleg =>
            rw [List.length_reverse] at hlen
            exact ⟨fun _ => Or.inl ⟨rfl, by simpa using hleg⟩,
              fun _ => ⟨outcomes, hlen, by simp, rfl⟩⟩
      · cases exec_compensate hcomp with
        | cut his hlen hleg he' => simpa [herr] using aborted_lawful_iff err his hlen hleg he'

/-- The run of the rest of a saga is lawful exactly when every error can be read. -/
theorem loop_lawful_iff (h : Exec (loop (is.map called) (completed.map called) ctx) log res) :
    LawfulAfter completed is ctx log res ↔ Legible log ∨ Masked completed.length log := by
  induction is generalizing completed ctx log with
  | nil =>
      obtain ⟨rfl, rfl⟩ := Exec.ret_iff.mp h
      exact ⟨fun _ => Or.inl (by simp [Legible]), fun _ => Or.inl ⟨[], rfl, rfl, rfl⟩⟩
  | cons i is ih =>
      rw [List.map_cons, loop, attempt_execute] at h
      replace h := Exec.await_iff.mp h
      obtain ⟨(r : Except Thrown P), log, rfl, h⟩ := h
      cases r with
      | ok patch =>
          replace h : Exec (loop (is.map called) (completed.map called ++ [i].map called)
            (Spread.spread ctx patch)) log res := h
          rw [← List.map_append] at h
          have hrest := ih h
          rw [List.length_append, List.length_singleton] at hrest
          have hleg : Legible (executed i ctx (.ok patch) :: log) ↔ Legible log := by
            simp [Legible, legible]
          exact lawfulAfter_ok.trans (hrest.trans (or_congr hleg.symm masked_ok.symm))
      | error err =>
          have hleg : Legible (executed (P := P) i ctx (.error err) :: log) ↔
              err.nullish = false ∧ Legible log := by
            simp [Legible, legible]
          exact lawfulAfter_error.trans ((onStepFailure_lawful_iff h).trans
            (or_congr hleg.symm masked_error.symm))

/-- A run is lawful exactly when every error can be read. -/
theorem run_lawful_iff (h : Exec (run (is.map called) ctx) log res) :
    Lawful is ctx log res ↔ Legible log ∨ Masked 0 log := by
  have hloop : Exec (loop (is.map called) (([] : List ι).map called) ctx) log res := h
  exact lawfulAfter_nil.symm.trans (loop_lawful_iff hloop)

end

/-- **The trace law of the saga.** Of any runs, one after the other, on one instance of a saga
of any steps, whatever their calls are answered: each is a run of the coordinator, and is
lawful exactly when no call in it throws `null` or `undefined` (or only the last of all
compensations does, and its `TypeError` looks like the error of the failed step). -/
theorem runs_lawful_iff [Spread Ctx P] (is : List ι)
    (field : List (SagaStep (calls ι Ctx P) Ctx P)) (ctxs : List Ctx)
    {log : List (CallEvent ι Ctx P)} {res : Except Thrown (List (Except Thrown Ctx))}
    (h : Exec (runsOn (is.map called) field ctxs) log res) :
    ∃ runs : List (List (CallEvent ι Ctx P) × Except Thrown Ctx),
      log = (runs.map Prod.fst).flatten ∧ res = .ok (runs.map Prod.snd) ∧
      List.Forall₂ (fun ctx r => Exec (run (is.map called) ctx) r.1 r.2 ∧
        (Lawful is ctx r.1 r.2 ↔ Legible r.1 ∨ Masked 0 r.1)) ctxs runs := by
  induction ctxs generalizing field log res with
  | nil =>
      obtain ⟨rfl, rfl⟩ := Exec.ret_iff.mp h
      exact ⟨[], rfl, rfl, .nil⟩
  | cons ctx ctxs ih =>
      rw [runsOn_cons] at h
      rcases Exec.bind_iff.mp h with ⟨result, t₁, t₂, rfl, hrun, hrest⟩ | ⟨e, -, hrun⟩
      · obtain ⟨result', hresult, hrun⟩ := Exec.attempt_iff.mp hrun
        obtain rfl := Except.ok.inj hresult
        rcases Exec.bind_iff.mp hrest with ⟨results, t₃, t₄, rfl, hruns, hend⟩ | ⟨e, rfl, hruns⟩
        · obtain ⟨runs, rfl, hresults, hall⟩ := ih [] hruns
          obtain rfl := Except.ok.inj hresults
          obtain ⟨rfl, rfl⟩ := Exec.ret_iff.mp hend
          exact ⟨(t₁, result) :: runs, by simp, rfl, .cons ⟨hrun, run_lawful_iff hrun⟩ hall⟩
        · obtain ⟨runs, -, hres, -⟩ := ih [] hruns
          exact absurd hres (by simp)
      · obtain ⟨r, hr, -⟩ := Exec.attempt_iff.mp hrun
        exact absurd hr (by simp)

/-- A saga of two steps, on a payment. -/
abbrev twoSteps : List (SagaStep (calls (Fin 2) PaymentSagaContext PaymentSagaPatch)
    PaymentSagaContext PaymentSagaPatch) :=
  [0, 1].map called

/-- The first step reserves funds, the second fails: the first is compensated. A second run on
the same instance, for another payment, succeeds and compensates nothing. -/
theorem runs_lawful_iff_declined :
    let ctx : PaymentSagaContext := { paymentId := "p", correlationId := "c" }
    let ctx' : PaymentSagaContext := { paymentId := "q", correlationId := "c" }
    let log : List (CallEvent (Fin 2) PaymentSagaContext PaymentSagaPatch) :=
      [executed 0 ctx (.ok { reserved := some true }),
        executed 1 { ctx with reserved := true } (.error (.error "declined")),
        compensated 0 { ctx with reserved := true } (.ok ()),
        executed 0 ctx' (.ok { reserved := some true }),
        executed 1 { ctx' with reserved := true } (.ok { captured := some true })]
    let results : List (Except Thrown PaymentSagaContext) :=
      [.error (.error "declined"), .ok { ctx' with reserved := true, captured := true }]
    ∃ runs : List (List (CallEvent (Fin 2) PaymentSagaContext PaymentSagaPatch) ×
        Except Thrown PaymentSagaContext),
      log = (runs.map Prod.fst).flatten ∧
      Except.ok (ε := Thrown) results = .ok (runs.map Prod.snd) ∧
      List.Forall₂ (fun ctx r => Exec (run twoSteps ctx) r.1 r.2 ∧
        (Lawful [0, 1] ctx r.1 r.2 ↔ Legible r.1 ∨ Masked 0 r.1)) [ctx, ctx'] runs :=
  runs_lawful_iff [0, 1] [] _ (.await (.await (.await (.await (.await (.ret _))))))

/-- The second step rejects with `undefined`: the first is not compensated, and the run
throws a `TypeError` of its own. -/
theorem unlawful_on_undefined :
    ∃ log res, Exec (run twoSteps { paymentId := "p", correlationId := "c" }) log res ∧
      ¬ Lawful [0, 1] { paymentId := "p", correlationId := "c" } log res := by
  refine ⟨[executed 0 _ (.ok { reserved := some true }), executed 1 _ (.error .undefined)],
    _, .await (.await (.throw _)), fun hlaw => ?_⟩
  rw [← lawfulAfter_nil, lawfulAfter_ok] at hlaw
  obtain ⟨outcomes, hlen, hlog, -⟩ := lawfulAfter_error.mp hlaw
  cases outcomes with
  | nil => simp at hlen
  | cons r outcomes => simp [compensations] at hlog

end PaymentSaga

end PaymentQueue
