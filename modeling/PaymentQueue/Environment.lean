import Mathlib.Data.Fintype.Basic
import PaymentQueue.Async.Solo
import PaymentQueue.Conformance
import PaymentQueue.Events

/-!
# PaymentQueue.Environment

Runs of `process` calls, and the assumptions about their environment.

`processes` is the system of any number of calls. An assumption (no worker crashes,
no key expires, Redis and the repository answer, calls do not overlap) is a guard on
the steps of a run. `run_calm` is the induction rule for calls on one payment when
nothing crashes and nothing expires: the payment's standing then changes only by what
a call is answered, so an invariant of standing, stages and log is proved by one step
lemma over the edges of the automaton.
-/

namespace PaymentQueue

open Async

variable {ι : Type}

/-- A configuration of `process` calls. -/
abbrev State (ι : Type) := Config system ι Thrown Unit

/-- A log entry of such a configuration. -/
abbrev LogEntry (ι : Type) := Entry system ι

/-- The system in which call `c` processes `jobs c`, before anything has begun. -/
def processes (jobs : ι → Job) (w : World) : State ι :=
  Config.start (fun c => process (jobs c)) w

/-- The configuration is at the stages `σ` of its calls. -/
abbrev AtStages (jobs : ι → Job) (s : State ι) (σ : ι → Stage) : Prop :=
  s.At (fun c => Stage.Edge (jobs c)) .entering (fun c => Stage.Ends (jobs c)) σ

/-- A thread that runs no more has ended, at a stage that allows it. -/
theorem ends_of_over {job : Job} {t : Proc Unit} {g : Stage}
    (h : Follows (Stage.Edge job) t (Stage.Ends job) g)
    (hover : (Thread.running t).inFlight = false) : ∃ r, Stage.Ends job g r := by
  cases t with
  | ret a => exact ⟨_, h⟩
  | throw e => exact ⟨_, h⟩
  | await o k => exact absurd hover (by simp [Thread.inFlight, Thread.awaiting])

/-- A call in flight awaits an operation that its stage allows. -/
theorem awaiting_of_inFlight {jobs : ι → Job} {s : State ι} {σ : ι → Stage}
    (hat : AtStages jobs s σ) {c : ι} (h : (s.thread c).inFlight = true) :
    ∃ o, (s.thread c).awaiting = some o ∧
      ∀ r, ∃ g, Stage.Edge (jobs c) (σ c) o r g := by
  obtain ⟨o, ho⟩ := Option.isSome_iff_exists.mp h
  exact ⟨o, ho, hat.edge ho⟩

/-- A call past its first stage, and not at one of its last, is in flight. -/
theorem inFlight_of_stage {jobs : ι → Job} {s : State ι} {σ : ι → Stage}
    (hat : AtStages jobs s σ) {c : ι} (halive : s.thread c ≠ .crashed)
    (hbegun : σ c ≠ .entering) (hends : ∀ r, ¬ Stage.Ends (jobs c) (σ c) r) :
    (s.thread c).inFlight = true := by
  by_contra hover
  rcases hat.ends (by simpa using hover) halive with hent | ⟨r, hr⟩
  · exact hbegun hent
  · exact hends r hr

instance (o : Op) : Nonempty o.Ret := by
  cases o <;> first | exact ⟨Except.error .null⟩ | (simp only [Op.Ret]; infer_instance)

/-! ### Operations that fail -/

/-- The operations on Redis and on the payment repository. -/
def Op.isStore : Op → Bool
  | getResult _ | acquireLock _ | releaseLock _ | hasLock _ | storeResult _ _
  | getStatus _ | upsertStatus _ _ => true
  | _ => false

/-- The operation rejected. -/
def Op.Rejected : (o : Op) → o.Ret → Bool
  | .emit _, .error _ | .getResult _, .error _ | .acquireLock _, .error _
  | .releaseLock _, .error _ | .hasLock _, .error _ | .storeResult _ _, .error _
  | .getStatus _, .error _ | .upsertStatus _ _, .error _ | .gatewayProcess _, .error _
  | .gatewayGetStatus _ _, .error _ | .deadLetterAdd _ _, .error _ => true
  | _, _ => false

/-- The environment rejects the operation. -/
def Answer.rejects : Answer → Bool
  | .reject _ => true
  | _ => false

/-- An operation rejects exactly when the environment says so. -/
theorem World.rejected_eq {w w' : World} {o : Op} {a : Answer} {r : o.Ret}
    (h : w.perform o a = some (r, w')) : o.Rejected r = a.rejects := by
  cases o <;> cases a <;> simp only [World.perform, reduceCtorEq, Option.some.injEq,
    Prod.mk.injEq] at h
  all_goals first
    | obtain ⟨rfl, rfl⟩ := h
      rfl
    | simp [Op.Rejected, Answer.rejects]

/-! ### The replies of one call -/

section

variable [DecidableEq ι] {c d : ι} {f : ProcEvent → Bool} {ev : ProcEvent}

/-- Call `c` was answered with an event in `f`. -/
def answered (c : ι) (f : ProcEvent → Bool) : LogEntry ι → Bool
  | .reply c' ev => decide (c' = c) && f ev
  | _ => false

@[simp] theorem answered_reply_self : answered c f (.reply c ev) = f ev := by
  simp [answered]

theorem answered_reply_of_ne (h : d ≠ c) : answered d f (.reply c ev) = false := by
  simp [answered, h.symm]

theorem of_answered_reply (h : answered d f (.reply c ev) = true) : d = c ∧ f ev = true := by
  simp only [answered, Bool.and_eq_true, decide_eq_true_eq] at h
  exact ⟨h.1.symm, h.2⟩

/-- Some call was answered with an event in `f`. -/
def heard (f : ProcEvent → Bool) : LogEntry ι → Bool
  | .reply _ ev => f ev
  | _ => false

omit [DecidableEq ι] in
/-- What the world gave call `c` in answer to its operation. -/
theorem received_eq {s : State ι} {a : Answer} {o : Op} {r : o.Ret} {w : World}
    (hc : (s.thread c).awaiting = some o) (hw : s.world.perform o a = some (r, w)) :
    s.received c a = some ⟨o, r⟩ := by
  simp [Config.received, hc, hw]

end

/-! ### Assumptions -/

/-- No worker crashes. -/
def NoCrash (_ : State ι) : Action system ι → Prop
  | .crash _ _ => False
  | _ => True

/-- No Redis key expires. -/
def NoExpiry (_ : State ι) : Action system ι → Prop
  | .move (.expire _) => False
  | _ => True

/-- Every operation on Redis and on the repository succeeds. -/
def StoresUp (s : State ι) : Action system ι → Prop
  | .answer c a =>
      a.rejects = true → (s.thread c).awaiting.any Op.isStore = false
  | _ => True

/-- A call begins only when no other is in flight. -/
def Sequential (s : State ι) : Action system ι → Prop
  | .begin _ => ∀ c, (s.thread c).inFlight = false
  | _ => True

instance (s : State ι) : DecidablePred (NoCrash s)
  | .crash _ _ => .isFalse id
  | .begin _ | .answer _ _ | .move _ => .isTrue trivial

instance (s : State ι) : DecidablePred (NoExpiry s)
  | .move (.expire _) => .isFalse id
  | .move (.tick _) | .begin _ | .answer _ _ | .crash _ _ => .isTrue trivial

instance (s : State ι) : DecidablePred (StoresUp s)
  | .answer _ _ => inferInstanceAs (Decidable (_ → _))
  | .begin _ | .move _ | .crash _ _ => .isTrue trivial

instance [Fintype ι] (s : State ι) : DecidablePred (Sequential s)
  | .begin _ => inferInstanceAs (Decidable (∀ _, _))
  | .answer _ _ | .move _ | .crash _ _ => .isTrue trivial

/-- Without crashes no call is dead. -/
theorem alive_of_run [DecidableEq ι] {G : Guard system ι Thrown Unit} {jobs : ι → Job}
    {w : World} (hcrash : ∀ {s a}, G s a → NoCrash s a) {s : State ι}
    (h : Run G (processes jobs w) s) (c : ι) : s.thread c ≠ .crashed := by
  have hstep : ∀ {s : State ι} {σ : ι → Stage} {a} {s' : State ι} {σ' : ι → Stage},
      (∀ c, s.thread c ≠ .crashed) → G s a →
      TStep (fun c => Stage.Edge (jobs c)) s σ a s' σ' → ∀ c, s'.thread c ≠ .crashed := by
    intro s σ a s' σ' halive hG hT
    cases hT with
    | begin | answer =>
        exact forall_update (P := fun _ (t : Thread effects Thrown Unit) => t ≠ .crashed)
          (by simp) fun d _ => halive d
    | crash | lost => exact (hcrash hG).elim
    | move => exact halive
  obtain ⟨-, -, halive⟩ := Run.staged (I := fun s _ => ∀ c, s.thread c ≠ .crashed)
    (fun c => process_follows (jobs c)) (by simp [Config.start])
    (fun _ _ halive hG hT _ => hstep halive hG hT) h
  exact halive c

/-- What the operation answers when the stores are up. -/
theorem StoresUp.not_rejected {s : State ι} {c : ι} {a : Answer} {o : Op} {r : o.Ret}
    {w : World} (h : StoresUp s (.answer c a)) (hc : (s.thread c).awaiting = some o)
    (ho : o.isStore = true) (hw : s.world.perform o a = some (r, w)) :
    o.Rejected r = false := by
  cases hr : o.Rejected r with
  | false => rfl
  | true =>
      have := h (World.rejected_eq hw ▸ hr)
      simp [hc, ho] at this

/-! ### Calm runs of calls on one payment -/

variable [DecidableEq ι] {jobs : ι → Job} {p : Payment} {w : World}

/-- The entry records no more than that a call began or that time passed. -/
def quiet : LogEntry ι → Bool
  | .begun _ | .move (.tick _) => true
  | _ => false

omit [DecidableEq ι] in
theorem quiet_iff {e : LogEntry ι} :
    quiet e = true ↔ (∃ c, e = .begun c) ∨ ∃ ms, e = .move (.tick ms) := by
  cases e with
  | move m => cases m <;> simp [quiet]
  | _ => simp [quiet]

/-- **Calls on one payment, undisturbed.** An invariant of the payment's standing, the
stages of the calls and the log holds throughout a run without crash and expiry if
quiet entries and the edges of the automaton preserve it. -/
theorem run_calm {G : Guard system ι Thrown Unit}
    {I : Standing → (ι → Stage) → List (LogEntry ι) → Prop}
    (hjobs : ∀ c, (jobs c).data = p)
    (hcrash : ∀ {s a}, G s a → NoCrash s a) (hexp : ∀ {s a}, G s a → NoExpiry s a)
    (h₀ : I (w.standing p) (fun _ => .entering) [])
    (hquiet : ∀ {t σ log e}, I t σ log → quiet e = true → I t σ (e :: log))
    (hreply : ∀ {s : State ι} {σ c a o r w' g}, I (s.world.standing p) σ s.log →
      G s (.answer c a) → (s.thread c).awaiting = some o →
      s.world.perform o a = some (r, w') → Stage.Edge (jobs c) (σ c) o r g →
      (s.world.standing p).Step o r (w'.standing p) →
      I (w'.standing p) (Function.update σ c g) (.reply c ⟨o, r⟩ :: s.log))
    {s : State ι} (h : Run G (processes jobs w) s) :
    ∃ σ, I (s.world.standing p) σ s.log := by
  have hstep : ∀ {s : State ι} {σ a} {s' : State ι} {σ'}, Run G (processes jobs w) s →
      AtStages jobs s σ → I (s.world.standing p) σ s.log → G s a →
      TStep (fun c => Stage.Edge (jobs c)) s σ a s' σ' → AtStages jobs s' σ' →
      I (s'.world.standing p) σ' s'.log := by
    intro s σ a s' σ' _ _ hI hG hT _
    cases hT with
    | begin hc => exact hquiet hI rfl
    | @answer c a o k r w' g hc hw hT =>
        refine hreply hI hG (by rw [hc]; rfl) hw hT ?_
        exact World.standing_perform (hjobs c ▸ hT.concerns) hw
    | crash hc => exact (hcrash hG).elim
    | lost hc => exact (hcrash hG).elim
    | @move m w' hw =>
        cases m with
        | tick ms =>
            obtain rfl := Option.some.inj hw
            exact hquiet hI rfl
        | expire key => exact (hexp hG).elim
  obtain ⟨σ, -, hI⟩ := Run.staged (fun c => process_follows (jobs c)) h₀ hstep h
  exact ⟨σ, hI⟩

/-! ### A concrete system -/

/-- A card payment with three retries. -/
def cardPayment : Payment where
  id := "pay_1"
  gatewayId := "stripe"
  priority := .normal
  maxRetries := 3
  idempotencyKey := "idem_1"
  correlationId := "corr_1"

/-- Payment number `n`. -/
def numbered (n : Nat) : Payment :=
  { cardPayment with id := s!"pay_{n}", idempotencyKey := s!"idem_{n}" }

/-- The service right after start-up, with the gateway `stripe` as the module wires it. -/
def startedUp : World := (World.empty 0).registerGateway "stripe" 25 100 50

/-- An accepted charge. -/
def accepted : GatewayResponse where
  success := true
  transactionId := "txn_1"
  gatewayId := "stripe"

/-- An attempt of its job, after `attemptsMade` that threw. -/
def cardJob (attemptsMade : Nat) : Job where
  id := "job_1"
  data := cardPayment
  attemptsMade := attemptsMade

/-- Call `c` begins, passes the gates and finds neither a result nor a record. -/
def approach (c : ι) : List (Action system ι) :=
  .begin c :: List.replicate 7 (.answer c .resolve)

/-- Call `c` takes the lock and a slot, and the gateway accepts the charge. -/
def takeAndCharge (c : ι) : List (Action system ι) :=
  [.answer c .resolve, .answer c .resolve, .answer c (.response accepted)]

/-- Call `c` takes the lock and a slot, its charge fails, and it reports to the breaker and
gives the lock up. -/
def takeAndFail (c : ι) : List (Action system ι) :=
  [.answer c .resolve, .answer c .resolve, .answer c (.reject (.error "ETIMEDOUT"))] ++
    List.replicate 3 (.answer c .resolve)

/-- The saga of `c` goes on to capture, to the record and to the cached result. -/
def captureAndPost (c : ι) : List (Action system ι) :=
  [.answer c (.env none), .answer c (.env none), .answer c .resolve, .answer c .resolve]

end PaymentQueue
