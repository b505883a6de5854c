import PaymentQueue.Async.Fleet
import PaymentQueue.Expiry
import PaymentQueue.Startup

/-!
# PaymentQueue.Fleet

Many worker processes over one Redis.

The service is run in as many processes as one likes, each of which starts with
`onModuleInit`. A process has its breakers, semaphores, rate limiters and records (the
repository of `payment.module.ts` is in memory) to itself and loses them when it dies; the
clock and Redis are everybody's. The calls of one process that is not started again, without
those of other processes, run as in the world of a single process (`Run.lone_process`).

A lock that nobody in the fleet has acquired for 120 s, whoever died with it, has run out
(`locks_run_out`). A run reads the store as it is: a key that has run out is seen until an
`expire` move drops it, which from then on is possible at any moment. Redis itself never shows
such a key to a command, which is the view of `Redis.live`.
-/

namespace PaymentQueue

open Async IdempotencyService

/-- What a worker process has in memory. -/
structure Memory where
  records : String → Option PaymentRecord
  gateways : String → Option RegisteredGateway
  rateLimiters : String → Option TokenBucket

/-- The memory of a process that `onModuleInit` has just wired, where BullMQ refuses nothing. -/
def startedMemory (configs : List GatewayConfig) (now : Int) : Memory :=
  let m := (PaymentModule.onModuleInit {} now {} configs).2
  { records := fun _ => none, gateways := m.gateways, rateLimiters := m.queueManager.limiter }

/-- A worker process and the stores. -/
abbrev worker (configs : List GatewayConfig) : Division system where
  Store := Stores
  Memory := Memory
  join x y :=
    { now := x.now, redis := x.redis, records := y.records, gateways := y.gateways
      rateLimiters := y.rateLimiters, deadLetters := x.deadLetters }
  store := World.stores
  memory w := ⟨w.records, w.gateways, w.rateLimiters⟩
  join_store_memory _ := rfl
  store_join _ _ := rfl
  memory_join _ _ := rfl
  fresh x := startedMemory configs x.now
  move := Stores.move
  move_join x y m := by
    cases m with
    | tick ms => rfl
    | expire key =>
        simp only [World.move, Stores.move, Option.map_map]
        rfl

section

variable {κ ι : Type} [DecidableEq κ] {configs : List GatewayConfig}

/-- The state of the calls of a fleet. -/
abbrev FleetState (configs : List GatewayConfig) (κ ι : Type) [DecidableEq κ] : Type :=
  Config ((worker configs).fleet κ) ι Thrown Unit

/-- The fleet in which nobody has done anything: Redis is empty and every process has just been
started. -/
def firstFleet (configs : List GatewayConfig) (κ : Type) (now : Int) :
    FleetWorld (worker configs) κ :=
  ⟨⟨now, fun _ => none, []⟩, fun _ => startedMemory configs now⟩

/-- Call `c` processes `jobs c` somewhere in the fleet. -/
def fleetProcesses (jobs : ι → Job) (f : FleetWorld (worker configs) κ) :
    FleetState configs κ ι :=
  Config.start (fun c => process (jobs c)) f

/-- Calls run where they are hosted, and a process that is started again has no calls left. -/
abbrev fleetRuns (host : ι → κ) : Guard ((worker configs).fleet κ) ι Thrown Unit :=
  fun s a => Hosted host s a ∧ RestartsIdle host s a

variable [DecidableEq ι] {jobs : ι → Job} {G : Guard ((worker configs).fleet κ) ι Thrown Unit}
variable {f : FleetWorld (worker configs) κ} {s : FleetState configs κ ι} {now₀ : Int}

/-- In every run of a fleet whatever there is in Redis runs out. -/
theorem timely_of_run (hf : f.store.Timely) (h : Run G (fleetProcesses jobs f) s) :
    s.world.store.Timely :=
  h.store_induct (I := Stores.Timely) hf (fun hI hw => hI.perform hw) fun hI hm => hI.move hm

omit [DecidableEq κ] in
theorem timely_firstFleet : (firstFleet configs κ now₀).store.Timely :=
  ⟨fun _ _ he => by simp [firstFleet] at he, fun _ _ he => by simp [firstFleet] at he⟩

/-- A step of a fleet keeps it that a lock runs out 120 s after it was last acquired. -/
theorem locksRunOut_step {a : Action ((worker configs).fleet κ) ι}
    {s' : FleetState configs κ ι} {σ σ' : ι → Stage} (htimely : s.world.store.Timely)
    (hI : LocksRunOut s.world.store (s.log.filterMap Entry.single))
    (hT : TStep (fun c => Stage.Edge (jobs c)) s σ a s' σ') :
    LocksRunOut s'.world.store (s'.log.filterMap Entry.single) := by
  cases hT with
  | begin | crash => exact hI.skip rfl fun _ => rfl
  | @answer c a o k r f' g hc hw hE =>
      have hview : LocksRunOut (Division.view s.world a.1).stores _ := hI
      have hw := (Division.perform_iff.mp hw).1
      exact hview.perform htimely hw (l := .reply c ⟨o, r⟩) rfl fun _ hsets => hsets
  | @lost c a o k r f' g hc hw hE =>
      have hview : LocksRunOut (Division.view s.world a.1).stores _ := hI
      have hw := (Division.perform_iff.mp hw).1
      refine hview.perform htimely hw (l := .crash c (some o)) rfl fun key htakes => ?_
      rw [of_takesLockOf htakes]
      exact beq_self_eq_true key
  | @move m f' hm =>
      cases m with
      | store m =>
          obtain ⟨x, hx, rfl⟩ := Option.map_eq_some_iff.mp hm
          exact hI.move hx
      | restart i =>
          obtain rfl := Option.some.inj hm
          exact hI

/-- In every run of a fleet a lock runs out 120 s after it was last acquired. -/
theorem locksRunOut_of_run (hf : f.store.Timely) (h : Run G (fleetProcesses jobs f) s) :
    LocksRunOut s.world.store (s.log.filterMap Entry.single) := by
  have hstart : LocksRunOut f.store ([] : List (LogEntry ι)) := fun key e he => by
    simpa [lockIdle, elapsed] using hf.lock key e he
  obtain ⟨-, -, hI⟩ := Run.staged (I := fun (s : FleetState configs κ ι) _ =>
    LocksRunOut s.world.store (s.log.filterMap Entry.single))
    (fun c => process_follows (jobs c)) hstart (fun hrun _ hI _ hT _ =>
      locksRunOut_step (timely_of_run hf hrun) hI hT) h
  exact hI

/-- **Nothing is held for ever.** Take any run of any number of worker processes over one Redis,
in which any of them may die at any moment and be started again. Whatever is in Redis runs out
within a day. And the lock of a key that nobody has acquired for 120 s has run out: it is not
among the live entries, which are what a command of Redis sees, and if a run still has it in
the store, the `expire` move that drops it is possible. -/
theorem locks_run_out (h : Run G (fleetProcesses jobs (firstFleet configs κ now₀)) s) :
    (∀ k e, s.world.store.redis k = some e →
      e.expiresAt ≤ s.world.store.now + resultTtlMs) ∧
    ∀ key, lockTtlMs ≤ lockIdle key (s.log.filterMap Entry.single) →
      hasLock (s.world.store.redis.live s.world.store.now) key = false ∧
      (hasLock s.world.store.redis key = true →
        (s.world.store.redis.expire s.world.store.now (lockKey key)).isSome = true) := by
  have htimely : s.world.store.Timely := timely_of_run timely_firstFleet h
  refine ⟨htimely.entry, fun key hidle => ?_⟩
  have hlocks := locksRunOut_of_run timely_firstFleet h key
  cases hr : s.world.store.redis (lockKey key) with
  | none => simp [hasLock, Redis.live, hr]
  | some e =>
      have hle := hlocks e hr
      have hexpired : e.expiresAt ≤ s.world.store.now := by omega
      have hgone : ¬ s.world.store.now < e.expiresAt := by omega
      simp [hasLock, Redis.live, Redis.liveEntry, Redis.expire, hr, hexpired, hgone,
        Option.filter]

end

/-- The table with one slot for `stripe`. -/
def stripeTable : List GatewayConfig := [⟨"stripe", 1, (100, 50)⟩]

/-- A call acquires its lock and dies, and two minutes pass. -/
def dieLocked {ι : Type} (c : ι) : List (Action system ι) :=
  approach c ++ [.answer c .resolve, .crash c none, .move (.tick 120000)]

/-- Process 0 dies with a lock and is started again two minutes later: the lock is still in the
store, and has run out. -/
theorem locks_run_out_restart :
    ∃ s, Run (fleetRuns fun c : Fin 2 => c)
      (fleetProcesses (fun _ => inPriority 0 .high) (firstFleet stripeTable (Fin 2) 0)) s ∧
    hasLock s.world.store.redis "idem_0" = true ∧
    hasLock (s.world.store.redis.live s.world.store.now) "idem_0" = false := by
  have hrun : ∃ s, Run (fleetRuns fun c : Fin 2 => c)
      (fleetProcesses (fun _ => inPriority 0 .high) (firstFleet stripeTable (Fin 2) 0)) s ∧
      (hasLock s.world.store.redis "idem_0" = true ∧
        lockTtlMs ≤ lockIdle "idem_0" (s.log.filterMap Entry.single)) :=
    Run.exists_of_exec ((dieLocked 0).map (Action.on 0) ++ [.move (.restart 0)]) (by decide +kernel)
  obtain ⟨s, h, hlock, hidle⟩ := hrun
  exact ⟨s, h, hlock, ((locks_run_out h).2 "idem_0" hidle).1⟩

end PaymentQueue
