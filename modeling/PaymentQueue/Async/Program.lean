import Mathlib.Tactic.Common

/-!
# PaymentQueue.Async.Program

**Asynchronous programs** as finite interaction trees.

A `Program S ε α` awaits operations of the signature `S` one at a time and
ends by returning an `α` or by throwing an `ε`. The tree says nothing about
what an operation *does*: it has one branch for every answer the operation may
receive. Everything that happens between two awaits of a program is therefore
open to whoever answers, which is what lets the same program be run alone
(`Exec`), beside others in a shared world (`PaymentQueue.Async.System`), or
against a control automaton (`PaymentQueue.Async.Control`).

`attempt` turns a thrown error into a returned value; `tryCatch` and
`tryFinally` are defined from it, so that one rule per judgment covers them.
-/

namespace PaymentQueue.Async

/-- An effect signature: the operations a program may await, and the type each
one answers with. -/
structure Signature where
  Op : Type
  Ret : Op → Type

/-- An awaited operation together with the answer it received. -/
structure Event (S : Signature) where
  op : S.Op
  ret : S.Ret op

/-- A program over the operations of `S` that returns an `α` or throws an `ε`. -/
inductive Program (S : Signature) (ε α : Type) : Type
  /-- Return a value. -/
  | ret (a : α)
  /-- Throw an error. -/
  | throw (e : ε)
  /-- Await `o`, then go on with its answer. -/
  | await (o : S.Op) (k : S.Ret o → Program S ε α)

namespace Program

variable {S : Signature} {ε α β : Type}

/-- Sequencing: an error of the first program skips the second. -/
def bind : Program S ε α → (α → Program S ε β) → Program S ε β
  | .ret a, f => f a
  | .throw e, _ => .throw e
  | .await o k, f => .await o (fun r => (k r).bind f)

instance : Monad (Program S ε) where
  pure := .ret
  bind := Program.bind

@[simp] theorem pure_eq (a : α) : (pure a : Program S ε α) = .ret a := rfl
@[simp] theorem ret_bind (a : α) (f : α → Program S ε β) :
    (Program.ret a >>= f) = f a := rfl
@[simp] theorem throw_bind (e : ε) (f : α → Program S ε β) :
    (Program.throw e >>= f) = .throw e := rfl
@[simp] theorem await_bind (o : S.Op) (k : S.Ret o → Program S ε α)
    (f : α → Program S ε β) :
    (Program.await o k >>= f) = .await o (fun r => k r >>= f) := rfl

/-- Await one operation and return its answer. -/
def perform (o : S.Op) : Program S ε (S.Ret o) := .await o .ret

/-- Continue with a result: return its value or throw its error. -/
def ofExcept : Except ε α → Program S ε α
  | .ok a => .ret a
  | .error e => .throw e

@[simp] theorem ofExcept_ok (a : α) :
    (ofExcept (.ok a) : Program S ε α) = .ret a := rfl
@[simp] theorem ofExcept_error (e : ε) :
    (ofExcept (.error e) : Program S ε α) = .throw e := rfl

/-- Run a program to its end and return how it ended; never throws. -/
def attempt : Program S ε α → Program S ε (Except ε α)
  | .ret a => .ret (.ok a)
  | .throw e => .ret (.error e)
  | .await o k => .await o (fun r => (k r).attempt)

/-- `try p catch h`. -/
def tryCatch (p : Program S ε α) (h : ε → Program S ε α) : Program S ε α :=
  p.attempt >>= fun
    | .ok a => .ret a
    | .error e => h e

/-- `try p finally f`: `f` runs however `p` ends, and an error of `f` replaces
the outcome of `p`. -/
def tryFinally (p : Program S ε α) (f : Program S ε Unit) : Program S ε α :=
  p.attempt >>= fun r => f >>= fun _ => ofExcept r

end Program

/-! ### Running one program against arbitrary answers -/

/-- `Exec p tr r`: some choice of answers leads `p` through the events `tr`, in
that order, to the end `r`. -/
inductive Exec {S : Signature} {ε α : Type} :
    Program S ε α → List (Event S) → Except ε α → Prop
  | ret (a : α) : Exec (.ret a) [] (.ok a)
  | throw (e : ε) : Exec (.throw e) [] (.error e)
  | await {o : S.Op} {k : S.Ret o → Program S ε α} {r : S.Ret o}
      {tr : List (Event S)} {res : Except ε α} :
      Exec (k r) tr res → Exec (.await o k) (⟨o, r⟩ :: tr) res

namespace Exec

variable {S : Signature} {ε α β : Type} {tr : List (Event S)}

@[simp] theorem ret_iff {a : α} {res : Except ε α} :
    Exec (S := S) (.ret a) tr res ↔ tr = [] ∧ res = .ok a := by
  constructor
  · intro hexec
    cases hexec
    exact ⟨rfl, rfl⟩
  · intro hends
    obtain ⟨rfl, rfl⟩ := hends
    exact .ret a

@[simp] theorem throw_iff {e : ε} {res : Except ε α} :
    Exec (S := S) (.throw e) tr res ↔ tr = [] ∧ res = .error e := by
  constructor
  · intro hexec
    cases hexec
    exact ⟨rfl, rfl⟩
  · intro hends
    obtain ⟨rfl, rfl⟩ := hends
    exact .throw e

theorem await_iff {o : S.Op} {k : S.Ret o → Program S ε α} {res : Except ε α} :
    Exec (.await o k) tr res ↔
      ∃ r tr', tr = ⟨o, r⟩ :: tr' ∧ Exec (k r) tr' res := by
  constructor
  · intro hexec
    cases hexec
    exact ⟨_, _, rfl, by assumption⟩
  · intro hsome
    obtain ⟨r, tr', rfl, h⟩ := hsome
    exact .await h

/-- A sequence runs its first part to a value and then the rest, or throws in
its first part. -/
theorem bind_iff {p : Program S ε α} {f : α → Program S ε β} {res : Except ε β} :
    Exec (p >>= f) tr res ↔
      (∃ a t₁ t₂, tr = t₁ ++ t₂ ∧ Exec p t₁ (.ok a) ∧ Exec (f a) t₂ res) ∨
      (∃ e, res = .error e ∧ Exec p tr (.error e)) := by
  induction p generalizing tr with
  | ret a => simp
  | throw e => simp [and_comm]
  | await o k ih =>
      rw [Program.await_bind, await_iff]
      constructor
      · intro hexec
        obtain ⟨r, t, rfl, h⟩ := hexec
        rcases (ih r).mp h with ⟨a, t₁, t₂, rfl, h₁, h₂⟩ | ⟨e, rfl, he⟩
        · exact Or.inl ⟨a, _, t₂, rfl, .await h₁, h₂⟩
        · exact Or.inr ⟨e, rfl, .await he⟩
      · intro hor
        rcases hor with ⟨a, t₁, t₂, rfl, h₁, h₂⟩ | ⟨e, rfl, he⟩
        · obtain ⟨r, t, rfl, hk⟩ := await_iff.mp h₁
          exact ⟨r, t ++ t₂, rfl, (ih r).mpr (Or.inl ⟨a, t, t₂, rfl, hk, h₂⟩)⟩
        · obtain ⟨r, t, rfl, hk⟩ := await_iff.mp he
          exact ⟨r, t, rfl, (ih r).mpr (Or.inr ⟨e, rfl, hk⟩)⟩

/-- `attempt` replays the program and reifies its end. -/
theorem attempt_iff {p : Program S ε α} {res : Except ε (Except ε α)} :
    Exec p.attempt tr res ↔ ∃ r, res = .ok r ∧ Exec p tr r := by
  induction p generalizing tr with
  | ret a => simp [Program.attempt, and_comm]
  | throw e => simp [Program.attempt, and_comm]
  | await o k ih =>
      rw [Program.attempt, await_iff]
      constructor
      · intro hexec
        obtain ⟨r, t, rfl, h⟩ := hexec
        obtain ⟨q, rfl, hk⟩ := (ih r).mp h
        exact ⟨q, rfl, .await hk⟩
      · intro hsome
        obtain ⟨q, rfl, h⟩ := hsome
        obtain ⟨r, t, rfl, hk⟩ := await_iff.mp h
        exact ⟨r, t, rfl, (ih r).mpr ⟨q, rfl, hk⟩⟩

/-- What follows a reified program starts where that has ended. -/
theorem attempt_bind_iff {p : Program S ε α} {f : Except ε α → Program S ε β}
    {res : Except ε β} : Exec (p.attempt >>= f) tr res ↔
      ∃ r t₁ t₂, tr = t₁ ++ t₂ ∧ Exec p t₁ r ∧ Exec (f r) t₂ res := by
  rw [bind_iff]
  constructor
  · intro hor
    rcases hor with ⟨r, t₁, t₂, rfl, h₁, h₂⟩ | ⟨e, -, he⟩
    · obtain ⟨r', hr, hp⟩ := attempt_iff.mp h₁
      obtain rfl := Except.ok.inj hr
      exact ⟨r, t₁, t₂, rfl, hp, h₂⟩
    · obtain ⟨r', hr, -⟩ := attempt_iff.mp he
      cases hr
  · intro hsome
    obtain ⟨r, t₁, t₂, rfl, hp, h₂⟩ := hsome
    exact Or.inl ⟨r, t₁, t₂, rfl, attempt_iff.mpr ⟨r, rfl, hp⟩, h₂⟩

end Exec

end PaymentQueue.Async
