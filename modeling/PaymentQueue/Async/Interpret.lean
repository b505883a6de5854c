import PaymentQueue.Async.Program

/-!
# PaymentQueue.Async.Interpret

**Interpreting** the operations of a program by programs.

`interpret h p` runs `h o` wherever `p` awaits `o`. When no handler throws
(`Settling`), interpretation commutes with everything a program is built from, so a
program over abstract calls tells all there is to know about what it does with the
programs that the calls stand for.
-/

namespace PaymentQueue.Async

variable {S S' : Signature} {ε α β : Type}

namespace Program

/-- Run `h o` for every operation `o` that is awaited. -/
def interpret (h : (o : S.Op) → Program S' ε (S.Ret o)) : Program S ε α → Program S' ε α
  | .ret a => .ret a
  | .throw e => .throw e
  | .await o k => h o >>= fun r => (k r).interpret h

/-- The program does not throw: an error of what follows it is that of the sequence. -/
def Settling (p : Program S ε α) : Prop :=
  ∀ {β : Type} (f : α → Program S ε β), (p >>= f).attempt = p >>= fun a => (f a).attempt

/-- A reified program does not throw. -/
theorem settling_attempt (p : Program S ε α) : p.attempt.Settling := by
  intro β f
  induction p with
  | ret a => rfl
  | throw e => rfl
  | await o k ih => exact congrArg (Program.await o) (funext fun r => ih r)

theorem bind_assoc {γ : Type} (p : Program S ε α) (f : α → Program S ε β)
    (g : β → Program S ε γ) : p >>= f >>= g = p >>= fun a => f a >>= g := by
  induction p with
  | ret a => rfl
  | throw e => rfl
  | await o k ih => exact congrArg (Program.await o) (funext fun r => ih r)

variable {h : (o : S.Op) → Program S' ε (S.Ret o)} {p : Program S ε α}

@[simp] theorem interpret_ret (a : α) :
    (Program.ret (S := S) (ε := ε) a).interpret h = .ret a := rfl
@[simp] theorem interpret_throw (e : ε) :
    (Program.throw (S := S) (α := α) e).interpret h = .throw e := rfl

@[simp] theorem interpret_bind (f : α → Program S ε β) :
    (p >>= f).interpret h = p.interpret h >>= fun a => (f a).interpret h := by
  induction p with
  | ret a => rfl
  | throw e => rfl
  | await o k ih =>
      rw [await_bind, interpret, interpret, bind_assoc]
      exact congrArg _ (funext fun r => ih r)

theorem interpret_attempt (hh : ∀ o, (h o).Settling) :
    p.attempt.interpret h = (p.interpret h).attempt := by
  induction p with
  | ret a => rfl
  | throw e => rfl
  | await o k ih =>
      rw [interpret, hh o, attempt, interpret]
      exact congrArg _ (funext fun r => ih r)

theorem interpret_tryCatch (hh : ∀ o, (h o).Settling) (f : ε → Program S ε α) :
    (p.tryCatch f).interpret h = (p.interpret h).tryCatch fun e => (f e).interpret h := by
  rw [tryCatch, interpret_bind, interpret_attempt hh, tryCatch]
  refine congrArg _ (funext fun r => ?_)
  cases r <;> rfl

/-- An operation that is answered with the outcome of a program, and whose answer is then
awaited, is that program. -/
theorem attempt_bind_ofExcept (p : Program S' ε α) :
    p.attempt >>= (fun r => (ofExcept r : Program S ε α).interpret h) = p := by
  induction p with
  | ret a => rfl
  | throw e => rfl
  | await o k ih => exact congrArg (Program.await o) (funext fun r => ih r)

end Program

end PaymentQueue.Async
