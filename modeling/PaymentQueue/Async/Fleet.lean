import Mathlib.Data.Fintype.Basic
import PaymentQueue.Async.System

/-!
# PaymentQueue.Async.Fleet

**Several processes over one store.**

A `Division` says which part of a machine's world is a store that outlives a process, and
which is memory that every process has for itself. The machine of a `fleet` has one store and
a memory for each process; an operation is performed by one of them, on the world that the
store and its own memory make up, and a process that is started again has fresh memory.

What operations and moves keep of the store, a fleet keeps (`Run.store_induct`). A fleet in
which one process does everything and is never started again is that process
(`Run.lone_process`), so the fleet says nothing new about a single one.
-/

namespace PaymentQueue.Async

variable {S : Signature} {M : Machine S}

/-- A store and the memory of a process, which make up a world. -/
structure Division (M : Machine S) where
  Store : Type
  Memory : Type
  join : Store → Memory → M.World
  store : M.World → Store
  memory : M.World → Memory
  join_store_memory : ∀ w, join (store w) (memory w) = w
  store_join : ∀ x y, store (join x y) = x
  memory_join : ∀ x y, memory (join x y) = y
  /-- The memory of a process that has just been started. -/
  fresh : Store → Memory
  /-- What the world does on its own it does to the store. -/
  move : Store → M.Move → Option Store
  move_join : ∀ x y m, M.move (join x y) m = (move x m).map fun x => join x y

/-- The world of a fleet with the processes `κ`. -/
structure FleetWorld (D : Division M) (κ : Type) where
  store : D.Store
  memory : κ → D.Memory

/-- What happens to a fleet on its own. -/
inductive FleetMove (M : Machine S) (κ : Type)
  | store (m : M.Move)
  /-- The process is started, or started again. -/
  | restart (i : κ)

namespace Division

section

variable {D : Division M} {κ : Type}

/-- The world as process `i` finds it. -/
def view (f : FleetWorld D κ) (i : κ) : M.World := D.join f.store (f.memory i)

@[simp] theorem store_view (f : FleetWorld D κ) (i : κ) : D.store (view f i) = f.store :=
  D.store_join _ _

@[simp] theorem memory_view (f : FleetWorld D κ) (i : κ) :
    D.memory (view f i) = f.memory i :=
  D.memory_join _ _

end

variable (D : Division M) (κ : Type) [DecidableEq κ]

/-- The processes `κ` over one store. Along with its answer the environment says which
process it is that performs an operation. -/
abbrev fleet : Machine S where
  World := FleetWorld D κ
  Answer := κ × M.Answer
  Move := FleetMove M κ
  perform f o a := (M.perform (view f a.1) o a.2).map fun rw =>
    (rw.1, ⟨D.store rw.2, Function.update f.memory a.1 (D.memory rw.2)⟩)
  move f
    | .store m => (D.move f.store m).map fun x => ⟨x, f.memory⟩
    | .restart i => some ⟨f.store, Function.update f.memory i (D.fresh f.store)⟩

variable {D κ}

/-- An operation is performed on what its process finds, and leaves the memory of the other
processes alone. -/
theorem perform_iff {f f' : FleetWorld D κ} {o : S.Op} {i : κ} {a : M.Answer} {r : S.Ret o} :
    (D.fleet κ).perform f o (i, a) = some (r, f') ↔
      M.perform (view f i) o a = some (r, view f' i) ∧
        f'.memory = Function.update f.memory i (f'.memory i) := by
  simp only [Option.map_eq_some_iff, Prod.mk.injEq]
  constructor
  · rintro ⟨⟨r, w⟩, hw, rfl, rfl⟩
    refine ⟨?_, by simp⟩
    simpa [view, D.join_store_memory] using hw
  · rintro ⟨hw, hmemory⟩
    refine ⟨_, hw, rfl, ?_⟩
    rw [store_view, memory_view, ← hmemory]

end Division

variable {D : Division M} {κ ι ε α : Type} [DecidableEq κ] [DecidableEq ι]

/-- What operations and moves keep of the store holds throughout a run of a fleet. -/
theorem Run.store_induct {G : Guard (D.fleet κ) ι ε α} {I : D.Store → Prop}
    {s₀ s : Config (D.fleet κ) ι ε α} (h₀ : I s₀.world.store)
    (hperform : ∀ {w o a r w'}, I (D.store w) → M.perform w o a = some (r, w') → I (D.store w'))
    (hmove : ∀ {x m x'}, I x → D.move x m = some x' → I x')
    (h : Run G s₀ s) : I s.world.store := by
  refine Run.world_induct (I := fun f : FleetWorld D κ => I f.store) h₀ ?_ ?_ h
  · rintro f o ⟨i, a⟩ r f' hf hw
    rw [← Division.store_view f i] at hf
    simpa using hperform hf (Division.perform_iff.mp hw).1
  · rintro f (m | i) f' hf hm
    · obtain ⟨x, hx, rfl⟩ := Option.map_eq_some_iff.mp hm
      exact hmove hf hx
    · obtain rfl := Option.some.inj hm
      exact hf

/-! ### Who performs what -/

/-- Every call is performed by the process that hosts it. -/
def Hosted (host : ι → κ) : Guard (D.fleet κ) ι ε α
  | _, .answer c (i, _) | _, .crash c (some (i, _)) => i = host c
  | _, _ => True

instance (host : ι → κ) (s : Config (D.fleet κ) ι ε α) : DecidablePred (Hosted host s)
  | .answer c (i, _) | .crash c (some (i, _)) => inferInstanceAs (Decidable (i = host c))
  | .begin _ | .crash _ none | .move _ => .isTrue trivial

/-- The action of a single process, as process `i` of a fleet takes it. -/
def Action.on (i : κ) : Action M ι → Action (D.fleet κ) ι
  | .begin c => .begin c
  | .answer c a => .answer c (i, a)
  | .crash c issued => .crash c (issued.map (i, ·))
  | .move m => .move (.store m)

/-- A process is started again only when its calls have ended or died. -/
def RestartsIdle (host : ι → κ) : Guard (D.fleet κ) ι ε α
  | s, .move (.restart i) => ∀ c, host c = i → (s.thread c).inFlight = false
  | _, _ => True

instance [Fintype ι] (host : ι → κ) (s : Config (D.fleet κ) ι ε α) :
    DecidablePred (RestartsIdle host s)
  | .move (.restart i) =>
      inferInstanceAs (Decidable (∀ c, host c = i → (s.thread c).inFlight = false))
  | .begin _ | .answer _ _ | .crash _ _ | .move (.store _) => .isTrue trivial

/-! ### One process -/

/-- An entry as a single process has it: that a process is started is not one. -/
def Entry.single : Entry (D.fleet κ) ι → Option (Entry M ι)
  | .begun c => some (.begun c)
  | .reply c ev => some (.reply c ev)
  | .crash c issued => some (.crash c issued)
  | .move (.store m) => some (.move m)
  | .move (.restart _) => none

/-- Process `i` does everything, and is not started again. -/
def OnlyBy (i : κ) : Guard (D.fleet κ) ι ε α
  | _, .answer _ (j, _) | _, .crash _ (some (j, _)) => j = i
  | _, .move (.restart j) => j ≠ i
  | _, _ => True

/-- **One process of a fleet.** If one process performs all calls and is not started again, a
run of the fleet is a run of that process. -/
theorem Run.lone_process {i : κ} {p : ι → Program S ε α} {f : FleetWorld D κ}
    {s : Config (D.fleet κ) ι ε α} (h : Run (OnlyBy i) (Config.start p f) s) :
    Run (fun _ _ => True) (Config.start p (Division.view f i) : Config M ι ε α)
      ⟨s.thread, Division.view s.world i, s.log.filterMap Entry.single⟩ := by
  induction h with
  | start => exact .start
  | @step s s' a _ ha hs ih =>
      match a with
      | .begin c =>
          simp only [Config.step] at hs
          split at hs
          · next q hq =>
            obtain rfl := Option.some.inj hs
            exact ih.step (a := .begin c) trivial (by simp [Config.step, hq, Entry.single])
          · exact absurd hs (by simp)
      | .answer c (j, a) =>
          obtain rfl : j = i := ha
          simp only [Config.step] at hs
          split at hs
          · next o k hq =>
            obtain ⟨⟨r, f'⟩, hw, rfl⟩ := Option.map_eq_some_iff.mp hs
            have hw := (Division.perform_iff.mp hw).1
            exact ih.step (a := .answer c a) trivial (by simp [Config.step, hq, hw, Entry.single])
          · exact absurd hs (by simp)
      | .crash c none =>
          simp only [Config.step] at hs
          split at hs
          · next o k hq =>
            obtain rfl := Option.some.inj hs
            exact ih.step (a := .crash c none) trivial (by simp [Config.step, hq, Entry.single])
          · exact absurd hs (by simp)
      | .crash c (some (j, a)) =>
          obtain rfl : j = i := ha
          simp only [Config.step] at hs
          split at hs
          · next o k hq =>
            obtain ⟨⟨r, f'⟩, hw, rfl⟩ := Option.map_eq_some_iff.mp hs
            have hw := (Division.perform_iff.mp hw).1
            refine ih.step (a := .crash c (some a)) trivial ?_
            simp [Config.step, hq, hw, Entry.single]
          · exact absurd hs (by simp)
      | .move (.store m) =>
          simp only [Config.step] at hs
          obtain ⟨f', hm, rfl⟩ := Option.map_eq_some_iff.mp hs
          obtain ⟨x, hx, rfl⟩ := Option.map_eq_some_iff.mp hm
          have hview : M.move (Division.view s.world i) m =
              some (Division.view ⟨x, s.world.memory⟩ i) := by
            simp [Division.view, D.move_join, hx]
          exact ih.step (a := .move m) trivial (by simp [Config.step, hview, Entry.single])
      | .move (.restart j) =>
          -- another process is started
          have hj : i ≠ j := fun heq => ha heq.symm
          simp only [Config.step] at hs
          obtain ⟨f', hm, rfl⟩ := Option.map_eq_some_iff.mp hs
          obtain rfl := Option.some.inj hm
          have hview : Division.view ⟨s.world.store, Function.update s.world.memory j
              (D.fresh s.world.store)⟩ i = Division.view s.world i := by
            simp [Division.view, hj]
          rw [hview, List.filterMap_cons_none rfl]
          exact ih

end PaymentQueue.Async
