import PaymentQueue.Async.Instrument
import PaymentQueue.Async.Interpret
import PaymentQueue.Environment

/-!
# PaymentQueue.Tracing

The spans of `tracing/tracing.ts`.

`withSpan` wraps a function in a span: it starts it, tags it, marks it OK or as failed with
the error, and ends it. `withSpan_exec` says all it does, for every function and however that
ends. Inside `process` it is an instrument: without the spans a traced call is a plain one,
and where a run of traced calls has come to is where a run of plain ones comes to
(`traced_runs`), but for one thing. The message of an error is read for the status, so a call
that would reject with `null` or `undefined` rejects with the `TypeError` of that reading, and
its span ends without a status.
-/

namespace PaymentQueue

open Async

/-- The value of a span attribute. -/
inductive AttributeValue
  | string (s : String)
  | number (n : Int)
  | boolean (b : Bool)
  deriving DecidableEq, Repr

/-- `SpanStatusCode`, as far as it is set. -/
inductive SpanStatusCode
  | ok
  | error
  deriving DecidableEq, Repr

/-- What is asked of the tracer and of its spans. -/
inductive SpanOp
  /-- `tracer.startActiveSpan`: the span it hands to its callback. -/
  | startActiveSpan (name : String)
  | setAttribute (span : Nat) (key : String) (value : AttributeValue)
  | setStatus (span : Nat) (code : SpanStatusCode) (message : Option String)
  | recordException (span : Nat) (err : Thrown)
  /-- `span.end()`. -/
  | endSpan (span : Nat)
  deriving DecidableEq, Repr

/-- What each answers with. -/
@[reducible] def SpanOp.Ret : SpanOp → Type
  | startActiveSpan _ => Nat
  | _ => Unit

/-- The operations on spans, as a signature. -/
abbrev spans : Signature := ⟨SpanOp, SpanOp.Ret⟩

section

variable {S : Signature} {α : Type}

/-- Await one operation of the tracer. -/
def askTracer (o : SpanOp) : Program (S.sum spans) Thrown o.Ret :=
  Program.perform (S := S.sum spans) (.inr o)

/-- `for (const [k, v] of Object.entries(attrs)) span.setAttribute(k, v)`. -/
def setAttributes (span : Nat) :
    List (String × AttributeValue) → Program (S.sum spans) Thrown Unit
  | [] => pure ()
  | (k, v) :: attrs => do
      askTracer (.setAttribute span k v)
      setAttributes span attrs

/-- `withSpan`. -/
def withSpan (name correlationId : String) (attrs : List (String × AttributeValue))
    (fn : Nat → Program (S.sum spans) Thrown α) : Program (S.sum spans) Thrown α := do
  let span ← askTracer (.startActiveSpan name)
  askTracer (.setAttribute span "correlation_id" (.string correlationId))
  setAttributes span attrs
  Program.tryFinally
    (Program.tryCatch
      (do
        let result ← fn span
        askTracer (.setStatus span .ok none)
        pure result)
      (fun err => do
        askTracer (.recordException span err)
        askTracer (.setStatus span .error (← readMessage err))
        .throw err))
    (askTracer (.endSpan span))

/-- The error a caller of `withSpan` sees for the error of the function. -/
def traced (err : Thrown) : Thrown := if err.nullish then err.typeError else err

/-- What `withSpan` does when the function has ended. -/
def finish (span : Nat) : Except Thrown α → Program (S.sum spans) Thrown α
  | .ok result => do
      askTracer (.setStatus span .ok none)
      askTracer (.endSpan span)
      pure result
  | .error err => do
      askTracer (.recordException span err)
      match err.message with
      | .ok m => do
          askTracer (.setStatus span .error m)
          askTracer (.endSpan span)
          .throw err
      | .error e => do
          askTracer (.endSpan span)
          .throw e

/-- `withSpan` runs the function to its end, and then does one thing after the other. -/
theorem withSpan_eq {name correlationId : String} {attrs : List (String × AttributeValue)}
    {fn : Nat → Program (S.sum spans) Thrown α} :
    withSpan name correlationId attrs fn =
      askTracer (.startActiveSpan name) >>= fun span =>
        askTracer (.setAttribute span "correlation_id" (.string correlationId)) >>= fun _ =>
          setAttributes span attrs >>= fun _ => (fn span).attempt >>= finish span := by
  unfold withSpan
  refine congrArg _ (funext fun span => congrArg _ (funext fun _ => ?_))
  refine congrArg _ (funext fun _ => ?_)
  induction fn span with
  | ret a => rfl
  | throw err => cases err <;> rfl
  | await o k ih => exact congrArg (Program.await o) (funext ih)

/-! ### The law of spans -/

/-- An operation on the tracer, with its answer. -/
abbrev spanEvent (o : SpanOp) (r : o.Ret) : Event (S.sum spans) := ⟨.inr o, r⟩

/-- What is done to a span before the function runs. -/
def opening (name correlationId : String) (attrs : List (String × AttributeValue)) (span : Nat) :
    List (Event (S.sum spans)) :=
  spanEvent (.startActiveSpan name) span ::
    (("correlation_id", .string correlationId) :: attrs).map fun kv =>
      spanEvent (.setAttribute span kv.1 kv.2) ()

/-- What is done to a span when the function has ended. -/
def closing (span : Nat) : Except Thrown α → List (Event (S.sum spans))
  | .ok _ => [spanEvent (.setStatus span .ok none) (), spanEvent (.endSpan span) ()]
  | .error err => spanEvent (.recordException span err) () ::
      match err.message with
      | .ok m => [spanEvent (.setStatus span .error m) (), spanEvent (.endSpan span) ()]
      | .error _ => [spanEvent (.endSpan span) ()]

variable {tr : List (Event (S.sum spans))} {res : Except Thrown α}

theorem exec_askTracer_bind {β : Type} {o : SpanOp} {f : o.Ret → Program (S.sum spans) Thrown β}
    {res : Except Thrown β} : Exec (askTracer o >>= f) tr res ↔
      ∃ r tr', tr = spanEvent o r :: tr' ∧ Exec (f r) tr' res :=
  Exec.await_iff

theorem exec_setAttributes_bind {span : Nat} {attrs : List (String × AttributeValue)}
    {f : Unit → Program (S.sum spans) Thrown α} :
    Exec (setAttributes span attrs >>= f) tr res ↔
      ∃ tr', tr = (attrs.map fun kv => spanEvent (.setAttribute span kv.1 kv.2) ()) ++ tr' ∧
        Exec (f ()) tr' res := by
  induction attrs generalizing tr with
  | nil => simp [setAttributes]
  | cons kv attrs ih =>
      rw [setAttributes, Program.bind_assoc, exec_askTracer_bind]
      constructor
      · rintro ⟨_, _, rfl, h⟩
        obtain ⟨tr', rfl, hrest⟩ := ih.mp h
        exact ⟨tr', rfl, hrest⟩
      · rintro ⟨tr', rfl, h⟩
        exact ⟨(), _, rfl, ih.mpr ⟨tr', rfl, h⟩⟩

/-- An instrument with one answer, before what has one execution. -/
theorem exec_mark_bind {o : SpanOp} {x : o.Ret} {f : o.Ret → Program (S.sum spans) Thrown α}
    {t : List (Event (S.sum spans))} {r : Except Thrown α} (hx : ∀ y, y = x)
    (hf : ∀ {tr res}, Exec (f x) tr res ↔ tr = t ∧ res = r) :
    Exec (askTracer o >>= f) tr res ↔ tr = spanEvent o x :: t ∧ res = r := by
  rw [exec_askTracer_bind]
  constructor
  · rintro ⟨y, tr', rfl, h⟩
    obtain rfl := hx y
    obtain ⟨rfl, rfl⟩ := hf.mp h
    exact ⟨rfl, rfl⟩
  · rintro ⟨rfl, rfl⟩
    exact ⟨x, t, rfl, hf.mpr ⟨rfl, rfl⟩⟩

theorem exec_finish {span : Nat} {r : Except Thrown α} :
    Exec (S := S.sum spans) (finish span r) tr res ↔
      tr = closing span r ∧ res = r.mapError traced := by
  have hunit : ∀ y : Unit, y = () := fun _ => rfl
  cases r with
  | ok result => exact exec_mark_bind hunit (exec_mark_bind hunit Exec.ret_iff)
  | error err =>
      cases err with
      | error | classified | other =>
          exact exec_mark_bind hunit (exec_mark_bind hunit (exec_mark_bind hunit Exec.throw_iff))
      | undefined | null => exact exec_mark_bind hunit (exec_mark_bind hunit Exec.throw_iff)

/-- **The law of spans.** Whatever a function does and however it ends, `withSpan` starts one
span, tags it with the correlation id and the attributes in their order, runs the function,
marks the span OK or records the error and its message, ends it as the last thing, and passes
on the result or the error; of an error without properties it passes on that its message
cannot be read, and leaves the span unmarked. -/
theorem withSpan_exec (name correlationId : String) (attrs : List (String × AttributeValue))
    (fn : Nat → Program (S.sum spans) Thrown α) (tr : List (Event (S.sum spans)))
    (res : Except Thrown α) :
    Exec (withSpan name correlationId attrs fn) tr res ↔
      ∃ span body r, Exec (fn span) body r ∧
        tr = opening name correlationId attrs span ++ body ++ closing span r ∧
        res = r.mapError traced := by
  rw [withSpan_eq, exec_askTracer_bind]
  constructor
  · rintro ⟨span, _, rfl, hspan⟩
    obtain ⟨_, _, rfl, htagged⟩ := exec_askTracer_bind.mp hspan
    obtain ⟨_, rfl, hrun⟩ := exec_setAttributes_bind.mp htagged
    obtain ⟨r, body, t, rfl, hbody, hend⟩ := Exec.attempt_bind_iff.mp hrun
    obtain ⟨rfl, rfl⟩ := exec_finish.mp hend
    exact ⟨span, body, r, hbody, by simp [opening], rfl⟩
  · rintro ⟨span, body, r, hbody, rfl, rfl⟩
    have hrun : Exec ((fn span).attempt >>= finish span) (body ++ closing span r)
        (r.mapError traced) :=
      Exec.attempt_bind_iff.mpr ⟨r, body, _, rfl, hbody, exec_finish.mpr ⟨rfl, rfl⟩⟩
    have htagged : Exec
        (setAttributes span attrs >>= fun _ => (fn span).attempt >>= finish span) _
        (r.mapError traced) :=
      exec_setAttributes_bind.mpr ⟨_, rfl, hrun⟩
    exact ⟨span, _, by simp [opening], exec_askTracer_bind.mpr ⟨(), _, rfl, htagged⟩⟩

/-! ### A span as an instrument -/

variable {answer : (o : SpanOp) → o.Ret}

theorem erase_setAttributes (span : Nat) (attrs : List (String × AttributeValue)) :
    (setAttributes (S := S) span attrs).erase answer = .ret () := by
  induction attrs with
  | nil => rfl
  | cons kv attrs ih => exact ih

/-- Without the span the function is left, with what is made of its error. -/
theorem erase_withSpan {name correlationId : String} {attrs : List (String × AttributeValue)}
    (q : Program S Thrown α) :
    (withSpan name correlationId attrs fun _ => q.plain).erase answer = q.mapError traced := by
  have hfinish : ∀ (span : Nat) (r : Except Thrown α),
      (finish (S := S) span r).erase answer = Program.ofExcept (r.mapError traced) := by
    intro span r
    cases r with
    | ok => rfl
    | error err => cases err <;> rfl
  have hq : ∀ span, (q.plain.attempt >>= finish span).erase answer = q.mapError traced := by
    intro span
    rw [Program.erase_bind, Program.erase_attempt, Program.erase_plain]
    simp only [hfinish]
    induction q with
    | ret | throw => rfl
    | await o k ih => exact congrArg (Program.await o) (funext ih)
  rw [withSpan_eq]
  change (setAttributes (answer (.startActiveSpan name)) attrs >>= fun _ => _).erase answer = _
  rw [Program.erase_bind, erase_setAttributes]
  exact hq _

end

/-! ### The processor's span -/

/-- `process` behind the registries: what runs in the span. -/
def processInSpan (job : Job) : Proc Unit := do
  let payment := job.data
  let admitted ← perform (.canAttempt payment.gatewayId)
  if !admitted then
    .throw (.classified s!"Circuit open for gateway {payment.gatewayId}" .transient none)
  else
    let allowed ← perform (.tryConsume payment.gatewayId)
    if !allowed then do
      let waitMs ← perform (.msUntilAvailable payment.gatewayId)
      .throw (.classified
        s!"Rate limited on gateway {payment.gatewayId}, retry in {waitMs}ms"
        .rateLimited none)
    else processAdmitted job

/-- `process`, with its span. -/
def tracedProcess (job : Job) : Program (effects.sum spans) Thrown Unit := do
  let payment := job.data
  let registered ← (perform (.lookupGateway payment.gatewayId)).plain
  let limited ← (perform (.lookupRateLimiter payment.gatewayId)).plain
  if !limited then .throw (.error s!"No rate limiter for gateway \"{payment.gatewayId}\"")
  else if !registered then
    .throw (.error s!"Gateway \"{payment.gatewayId}\" is not registered")
  else
    withSpan "payment.process" payment.correlationId
      [("paymentId", .string payment.id), ("gatewayId", .string payment.gatewayId),
        ("attempt", .number (job.attemptsMade + 1))]
      fun _ => (processInSpan job).plain

/-- Without its span a call is a plain one. -/
theorem erase_tracedProcess {answer : (o : SpanOp) → o.Ret} (job : Job) :
    (tracedProcess job).erase answer = (process job).mapError traced := by
  refine congrArg (Program.await _) (funext fun registered => ?_)
  refine congrArg (Program.await _) (funext fun limited => ?_)
  match limited, registered with
  | false, _ => rfl
  | true, false => rfl
  | true, true => exact erase_withSpan (processInSpan job)

/-- The operations of traced calls, answered by the world and by a tracer. -/
abbrev tracedSystem (answer : (o : SpanOp) → o.Ret) : Machine (effects.sum spans) :=
  @Machine.instrumented effects spans system answer

/-- The system in which call `c` processes `jobs c` in its span. -/
def tracedProcesses {ι : Type} (answer : (o : SpanOp) → o.Ret) (jobs : ι → Job) (w : World) :
    Config (tracedSystem answer) ι Thrown Unit :=
  Config.start (fun c => tracedProcess (jobs c)) w

/-- The plain calls stand where the traced ones do, as far as can be told without the spans. -/
abbrev Untraced {ι : Type} [DecidableEq ι] {answer : (o : SpanOp) → o.Ret}
    (s : Config (tracedSystem answer) ι Thrown Unit) (t : State ι) : Prop :=
  @Erases effects spans system ι Thrown Thrown Unit _ answer traced s t

/-- **Tracing is not noticed.** Whatever the tracer hands out, wherever a run of traced calls has
come to there is a run of plain ones that has come to the same: the world is the same, each call
has gone through the same events but for what is done to the spans, and one that has ended has
ended alike, with the `TypeError` of reading its message where the plain one throws `null` or
`undefined`. (There is such a plain run for every moment of the traced one.) What can be assumed
of the steps of the one can be assumed of the steps of the other. -/
theorem traced_runs {ι : Type} [DecidableEq ι] {answer : (o : SpanOp) → o.Ret}
    {jobs : ι → Job} {w : World} {G : Guard (tracedSystem answer) ι Thrown Unit}
    {G' : Guard system ι Thrown Unit}
    (hG : ∀ {s t a b}, Untraced s t → G s a → Action.Stripped a b → G' t b)
    {s : Config (tracedSystem answer) ι Thrown Unit}
    (h : Run G (tracedProcesses answer jobs w) s) :
    ∃ t : State ι, Run G' (processes jobs w) t ∧ t.world = s.world ∧
      (∀ c, eventsOf c t.log = (eventsOf c s.log).filterMap Event.plain) ∧
      ∀ c r, (s.thread c).outcome = some r →
        ∃ r', (t.thread c).outcome = some r' ∧ r = r'.mapError traced := by
  obtain ⟨t, ht, her⟩ := @Run.erase effects spans system ι Thrown Thrown Unit answer traced _ G G'
    _ (fun c => process (jobs c)) w (fun c => erase_tracedProcess (jobs c)) hG s h
  exact ⟨t, ht, her.world, her.events, fun c r hr => (her.thread c).outcome hr⟩

/-- A tracer whose spans are all number 0. -/
def oneSpan : (o : SpanOp) → o.Ret
  | .startActiveSpan _ => (0 : Nat)
  | .setAttribute _ _ _ | .setStatus _ _ _ | .recordException _ _ | .endSpan _ => ()

/-- Redis rejects with `null` the lookup of a cached result. -/
def nullLookup : List (Action (tracedSystem oneSpan) (Fin 1)) :=
  .begin 0 :: List.replicate 10 (.answer 0 .resolve) ++
    [.answer 0 (.reject .null), .answer 0 .resolve, .answer 0 .resolve]

/-- The traced call rejects with a `TypeError`, the plain one with `null`. -/
theorem traced_runs_null : ∃ (s : Config (tracedSystem oneSpan) (Fin 1) Thrown Unit)
    (t : State (Fin 1)),
    (s.thread 0).outcome = some (.error Thrown.null.typeError) ∧
    Run (fun _ _ => True) (processes (fun _ => cardJob 0) startedUp) t ∧
    t.world = s.world ∧
    ∃ r', (t.thread 0).outcome = some r' ∧ .error Thrown.null.typeError = r'.mapError traced := by
  have hrun : ∃ s, Run (fun _ _ => True)
      (tracedProcesses oneSpan (fun _ : Fin 1 => cardJob 0) startedUp) s ∧
      ((s.thread 0).outcome.any fun r => match r with
        | .error e => decide (e = Thrown.null.typeError)
        | .ok _ => false) = true :=
    Run.exists_of_exec nullLookup (by decide +kernel)
  obtain ⟨s, h, hend⟩ := hrun
  have hnull : (s.thread 0).outcome = some (.error Thrown.null.typeError) := by
    obtain ⟨r, hr, he⟩ := (Option.any_eq_true _ _).mp hend
    cases r with
    | ok => simp at he
    | error e =>
        obtain rfl := of_decide_eq_true he
        exact hr
  have hplain : ∃ t : State (Fin 1), Run (fun _ _ => True)
      (processes (fun _ => cardJob 0) startedUp) t ∧ _ :=
    traced_runs (fun _ _ _ => trivial) h
  obtain ⟨t, ht, hworld, -, hout⟩ := hplain
  exact ⟨s, t, hnull, ht, hworld, hout 0 _ hnull⟩

end PaymentQueue
