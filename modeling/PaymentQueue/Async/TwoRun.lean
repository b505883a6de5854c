import Mathlib.Data.List.Forall2
import PaymentQueue.Async.System

/-!
# PaymentQueue.Async.TwoRun

**Two runs side by side.**

A `Likeness` says which operations count as alike, and which of their answers.
`Parallel L E V p q` holds when `p` and `q` await alike operations as long as they are answered
alike, and end alike: with errors in `E` or with values in `V`. Its rules follow the
combinators of programs, so that a function is compared with itself once, whoever calls it.

`TwoRun` pairs two runs step by step: the same calls act in both, and the environment does the
same up to `B`. If worlds that are alike answer alike, programs in parallel never part
(`TwoRun.sideBySide`). Then neither run can do what the other cannot (`SideBySide.isSome_step`),
both issue as many operations of a kind (`countIssued_eq`), and a call ends in one as it does in
the other (`Thread.Alike.returned`).
-/

namespace PaymentQueue.Async

variable {S : Signature} {ε α β γ δ : Type}

/-- When operations and their answers count as alike. -/
structure Likeness (S : Signature) where
  op : S.Op → S.Op → Prop
  answer : (o o' : S.Op) → S.Ret o → S.Ret o' → Prop

/-- Results that are alike. -/
def EndsAlike (E : ε → ε → Prop) (V : α → β → Prop) : Except ε α → Except ε β → Prop
  | .ok a, .ok b => V a b
  | .error e, .error e' => E e e'
  | _, _ => False

/-- Programs that go alike as long as they are answered alike. -/
inductive Parallel (L : Likeness S) (E : ε → ε → Prop) (V : α → β → Prop) :
    Program S ε α → Program S ε β → Prop
  | ret {a : α} {b : β} : V a b → Parallel L E V (.ret a) (.ret b)
  | throw {e e' : ε} : E e e' → Parallel L E V (.throw e) (.throw e')
  | await {o o' : S.Op} {k : S.Ret o → Program S ε α} {k' : S.Ret o' → Program S ε β} :
      L.op o o' → (∀ r r', L.answer o o' r r' → Parallel L E V (k r) (k' r')) →
      Parallel L E V (.await o k) (.await o' k')

namespace Parallel

variable {L : Likeness S} {E E' : ε → ε → Prop} {V : α → β → Prop} {W : γ → δ → Prop}
variable {p : Program S ε α} {q : Program S ε β}

theorem mono {V' : α → β → Prop} (hV : ∀ a b, V a b → V' a b) (h : Parallel L E V p q) :
    Parallel L E V' p q := by
  induction h with
  | ret h => exact .ret (hV _ _ h)
  | throw hE => exact .throw hE
  | await ho _ ih => exact .await ho fun r r' hr => ih r r' hr

theorem weaken (hE : ∀ e e', E e e' → E' e e') (h : Parallel L E V p q) :
    Parallel L E' V p q := by
  induction h with
  | ret hV => exact .ret hV
  | throw h => exact .throw (hE _ _ h)
  | await ho _ ih => exact .await ho fun r r' hr => ih r r' hr

theorem perform {o o' : S.Op} (ho : L.op o o') :
    Parallel L E (L.answer o o') (Program.perform o) (Program.perform o') :=
  .await ho fun _ _ hr => .ret hr

theorem ofExcept {r : Except ε α} {r' : Except ε β} (h : EndsAlike E V r r') :
    Parallel L E V (Program.ofExcept r) (Program.ofExcept r') := by
  match r, r', h with
  | .ok a, .ok b, h => exact .ret h
  | .error e, .error e', h => exact .throw h

/-- Sequencing: the first programs establish what the second start from. -/
theorem bind {f : α → Program S ε γ} {g : β → Program S ε δ} (h : Parallel L E V p q)
    (hf : ∀ a b, V a b → Parallel L E W (f a) (g b)) : Parallel L E W (p >>= f) (q >>= g) := by
  induction h with
  | ret hV => exact hf _ _ hV
  | throw hE => exact .throw hE
  | await ho _ ih => exact .await ho fun r r' hr => ih r r' hr

/-- Reified ends; nothing is thrown any more. -/
theorem attempt (h : Parallel L E V p q) : Parallel L E' (EndsAlike E V) p.attempt q.attempt := by
  induction h with
  | ret hV => exact .ret hV
  | throw hE => exact .ret hE
  | await ho _ ih => exact .await ho fun r r' hr => ih r r' hr

theorem tryCatch {f : ε → Program S ε α} {g : ε → Program S ε β} (h : Parallel L E V p q)
    (hf : ∀ e e', E e e' → Parallel L E' V (f e) (g e')) :
    Parallel L E' V (p.tryCatch f) (q.tryCatch g) := by
  refine bind (E := E') h.attempt fun r r' hr => ?_
  match r, r', hr with
  | .ok a, .ok b, hV => exact .ret hV
  | .error e, .error e', hE => exact hf e e' hE

theorem tryFinally {f g : Program S ε Unit} (h : Parallel L E V p q)
    (hf : Parallel L E (fun _ _ => True) f g) :
    Parallel L E V (p.tryFinally f) (q.tryFinally g) :=
  bind h.attempt fun _ _ hr => bind hf fun _ _ _ => ofExcept hr

end Parallel

/-! ### Configurations side by side -/

variable {M : Machine S} {ι : Type} {L : Likeness S} {E : ε → ε → Prop} {V : α → α → Prop}

/-- Threads that go alike. -/
inductive Thread.Alike (L : Likeness S) (E : ε → ε → Prop) (V : α → α → Prop) :
    Thread S ε α → Thread S ε α → Prop
  | idle {p q : Program S ε α} : Parallel L E V p q → Alike L E V (.idle p) (.idle q)
  | running {p q : Program S ε α} : Parallel L E V p q → Alike L E V (.running p) (.running q)
  | crashed : Alike L E V .crashed .crashed

/-- Events that are alike. -/
structure Event.Alike (L : Likeness S) (ev ev' : Event S) : Prop where
  op : L.op ev.op ev'.op
  answer : L.answer ev.op ev'.op ev.ret ev'.ret

/-- Log entries that are alike. -/
inductive Entry.Alike (L : Likeness S) : Entry M ι → Entry M ι → Prop
  | begun (c : ι) : Alike L (.begun c) (.begun c)
  | reply (c : ι) {ev ev' : Event S} : ev.Alike L ev' → Alike L (.reply c ev) (.reply c ev')
  | crash (c : ι) : Alike L (.crash c none) (.crash c none)
  | lost (c : ι) {o o' : S.Op} : L.op o o' → Alike L (.crash c (some o)) (.crash c (some o'))
  | move (m : M.Move) : Alike L (.move m) (.move m)

/-- The same call acts, and the environment does the same up to `B`, which may depend on the
operation that the call awaits. -/
inductive Action.Alike (B : S.Op → M.Answer → M.Answer → Prop) (s : Config M ι ε α) :
    Action M ι → Action M ι → Prop
  | begin (c : ι) : Alike B s (.begin c) (.begin c)
  | answer {c : ι} {o : S.Op} {b b' : M.Answer} :
      (s.thread c).awaiting = some o → B o b b' → Alike B s (.answer c b) (.answer c b')
  | crash (c : ι) : Alike B s (.crash c none) (.crash c none)
  | lost {c : ι} {o : S.Op} {b b' : M.Answer} :
      (s.thread c).awaiting = some o → B o b b' →
      Alike B s (.crash c (some b)) (.crash c (some b'))
  | move (m : M.Move) : Alike B s (.move m) (.move m)

/-- Calls, worlds and logs are alike. -/
structure SideBySide (L : Likeness S) (E : ε → ε → Prop) (V : α → α → Prop)
    (W : M.World → M.World → Prop) (s t : Config M ι ε α) : Prop where
  thread : ∀ c, (s.thread c).Alike L E V (t.thread c)
  world : W s.world t.world
  log : List.Forall₂ (Entry.Alike L) s.log t.log

/-! ### What has been issued -/

/-- The operation that was issued, whether the call lived to see the answer or not. -/
def Entry.issued : Entry M ι → Option S.Op
  | .reply _ ev => some ev.op
  | .crash _ o => o
  | .begun _ | .move _ => none

/-- How many of the operations issued so far are in `f`. -/
def countIssued (f : S.Op → Bool) (log : List (Entry M ι)) : Nat :=
  log.countP fun e => e.issued.any f

theorem countIssued_cons (f : S.Op → Bool) (e : Entry M ι) (log : List (Entry M ι)) :
    countIssued f (e :: log) = countIssued f log + if e.issued.any f then 1 else 0 :=
  List.countP_cons

theorem Entry.Alike.issued_any {e e' : Entry M ι} {f : S.Op → Bool}
    (hf : ∀ o o', L.op o o' → f o' = f o) (h : e.Alike L e') :
    e'.issued.any f = e.issued.any f := by
  cases h with
  | reply c hev => exact hf _ _ hev.op
  | lost c ho => exact hf _ _ ho
  | begun | crash | move => rfl

/-- If `f` does not tell operations that are alike from one another, as many are issued. -/
theorem countIssued_eq {log log' : List (Entry M ι)} {f : S.Op → Bool}
    (hf : ∀ o o', L.op o o' → f o' = f o) (h : List.Forall₂ (Entry.Alike L) log log') :
    countIssued f log' = countIssued f log := by
  induction h with
  | nil => rfl
  | cons he _ ih =>
      have hentry := he.issued_any hf
      rw [countIssued_cons, countIssued_cons, ih, hentry]

/-- A step performs the operation that its entry says was issued, or leaves the world alone,
or is a move of the world. -/
theorem Config.step_issued [DecidableEq ι] {s s' : Config M ι ε α} {a : Action M ι}
    (h : s.step a = some s') : ∃ e, s'.log = e :: s.log ∧
      ((∃ o b r, e.issued = some o ∧ M.perform s.world o b = some (r, s'.world)) ∨
        e.issued = none ∧ (s'.world = s.world ∨ ∃ m, M.move s.world m = some s'.world)) := by
  match a with
  | .begin c =>
      simp only [Config.step] at h
      split at h
      · obtain rfl := Option.some.inj h
        exact ⟨_, rfl, Or.inr ⟨rfl, Or.inl rfl⟩⟩
      · exact absurd h (by simp)
  | .crash c none =>
      simp only [Config.step] at h
      split at h
      · obtain rfl := Option.some.inj h
        exact ⟨_, rfl, Or.inr ⟨rfl, Or.inl rfl⟩⟩
      · exact absurd h (by simp)
  | .answer c b | .crash c (some b) =>
      simp only [Config.step] at h
      split at h
      · next o k hp =>
        obtain ⟨⟨r, w⟩, hw, rfl⟩ := Option.map_eq_some_iff.mp h
        exact ⟨_, rfl, Or.inl ⟨o, b, r, rfl, hw⟩⟩
      · exact absurd h (by simp)
  | .move m =>
      obtain ⟨w, hw, rfl⟩ := Option.map_eq_some_iff.mp h
      exact ⟨_, rfl, Or.inr ⟨rfl, Or.inr ⟨m, hw⟩⟩⟩

/-! ### How calls end -/

/-- How a call has ended, if it has: it returned, or it threw. -/
def Thread.returned : Thread S ε α → Option Bool
  | .running (.ret _) => some true
  | .running (.throw _) => some false
  | _ => none

theorem Thread.Alike.returned {p q : Thread S ε α} (h : p.Alike L E V q) :
    q.returned = p.returned := by
  cases h with
  | running h => cases h <;> rfl
  | idle | crashed => rfl

variable [DecidableEq ι]

/-- Two runs, step by step. -/
inductive TwoRun (B : S.Op → M.Answer → M.Answer → Prop) (s₀ t₀ : Config M ι ε α) :
    Config M ι ε α → Config M ι ε α → Prop
  | start : TwoRun B s₀ t₀ s₀ t₀
  | step {s s' t t' : Config M ι ε α} {a a' : Action M ι} :
      TwoRun B s₀ t₀ s t → Action.Alike B s a a' →
      s.step a = some s' → t.step a' = some t' → TwoRun B s₀ t₀ s' t'

section

variable {B : S.Op → M.Answer → M.Answer → Prop} {W : M.World → M.World → Prop}

/-- The second of two runs is a run. -/
theorem TwoRun.right {s₀ t₀ s t : Config M ι ε α} (h : TwoRun B s₀ t₀ s t) :
    Run (fun _ _ => True) t₀ t := by
  induction h with
  | start => exact .start
  | step _ _ _ ht ih => exact .step ih trivial ht

theorem SideBySide.update {s t : Config M ι ε α} (h : SideBySide L E V W s t) {c : ι}
    {p q : Thread S ε α} (hpq : p.Alike L E V q) {w w' : M.World} (hw : W w w')
    {e e' : Entry M ι} (he : e.Alike L e') :
    SideBySide L E V W ⟨Function.update s.thread c p, w, e :: s.log⟩
      ⟨Function.update t.thread c q, w', e' :: t.log⟩ := by
  refine ⟨fun d => ?_, hw, .cons he h.log⟩
  by_cases hd : d = c
  · subst hd
    simpa using hpq
  · simpa [hd] using h.thread d

omit [DecidableEq ι] in
/-- An operation that a call awaits in both, answered in worlds that are alike: the answers
are alike, and so are the worlds and the programs afterwards. -/
theorem SideBySide.awaited
    (hperform : ∀ {w w' : M.World} {o o' b b' r r' w₁ w₁'}, W w w' → L.op o o' → B o b b' →
      M.perform w o b = some (r, w₁) → M.perform w' o' b' = some (r', w₁') →
      L.answer o o' r r' ∧ W w₁ w₁')
    {s t : Config M ι ε α} (h : SideBySide L E V W s t) {c : ι} {o₀ o o' : S.Op}
    {k : S.Ret o → Program S ε α} {k' : S.Ret o' → Program S ε α} {b b' : M.Answer}
    {r : S.Ret o} {r' : S.Ret o'} {w w' : M.World} (ho : (s.thread c).awaiting = some o₀)
    (hb : B o₀ b b') (hp : s.thread c = .running (.await o k))
    (hq : t.thread c = .running (.await o' k')) (hw : M.perform s.world o b = some (r, w))
    (hw' : M.perform t.world o' b' = some (r', w')) :
    L.op o o' ∧ L.answer o o' r r' ∧ W w w' ∧ Parallel L E V (k r) (k' r') := by
  obtain rfl : o = o₀ := by simpa [hp, Thread.awaiting] using ho
  have hc := h.thread c
  rw [hp, hq] at hc
  cases hc with
  | running hpq =>
      cases hpq with
      | await hop hk =>
          obtain ⟨hr, hww⟩ := hperform h.world hop hb hw hw'
          exact ⟨hop, hr, hww, hk r r' hr⟩

/-- One step of two runs. -/
theorem SideBySide.step
    (hperform : ∀ {w w' : M.World} {o o' b b' r r' w₁ w₁'}, W w w' → L.op o o' → B o b b' →
      M.perform w o b = some (r, w₁) → M.perform w' o' b' = some (r', w₁') →
      L.answer o o' r r' ∧ W w₁ w₁')
    (hmove : ∀ {w w' : M.World} {m w₁ w₁'}, W w w' →
      M.move w m = some w₁ → M.move w' m = some w₁' → W w₁ w₁')
    {s s' t t' : Config M ι ε α} {a a' : Action M ι} (h : SideBySide L E V W s t)
    (ha : Action.Alike B s a a') (hs : s.step a = some s') (ht : t.step a' = some t') :
    SideBySide L E V W s' t' := by
  cases ha with
  | begin c =>
      have hc := h.thread c
      simp only [Config.step] at hs ht
      split at hs
      · next p hp =>
        split at ht
        · next q hq =>
          obtain rfl := Option.some.inj hs
          obtain rfl := Option.some.inj ht
          rw [hp, hq] at hc
          cases hc with
          | idle hpq => exact h.update (.running hpq) h.world (.begun c)
        · exact absurd ht (by simp)
      · exact absurd hs (by simp)
  | crash c =>
      simp only [Config.step] at hs ht
      split at hs
      · split at ht
        · obtain rfl := Option.some.inj hs
          obtain rfl := Option.some.inj ht
          exact h.update .crashed h.world (.crash c)
        · exact absurd ht (by simp)
      · exact absurd hs (by simp)
  | @answer c o₀ b b' ho hb =>
      simp only [Config.step] at hs ht
      split at hs
      · next o k hp =>
        split at ht
        · next o' k' hq =>
          obtain ⟨⟨r, w⟩, hw, rfl⟩ := Option.map_eq_some_iff.mp hs
          obtain ⟨⟨r', w'⟩, hw', rfl⟩ := Option.map_eq_some_iff.mp ht
          obtain ⟨hop, hr, hww, hk⟩ := h.awaited hperform ho hb hp hq hw hw'
          exact h.update (.running hk) hww (.reply c ⟨hop, hr⟩)
        · exact absurd ht (by simp)
      · exact absurd hs (by simp)
  | @lost c o₀ b b' ho hb =>
      -- the operation takes effect, but nobody hears of its answer
      simp only [Config.step] at hs ht
      split at hs
      · next o k hp =>
        split at ht
        · next o' k' hq =>
          obtain ⟨⟨r, w⟩, hw, rfl⟩ := Option.map_eq_some_iff.mp hs
          obtain ⟨⟨r', w'⟩, hw', rfl⟩ := Option.map_eq_some_iff.mp ht
          obtain ⟨hop, -, hww, -⟩ := h.awaited hperform ho hb hp hq hw hw'
          exact h.update .crashed hww (.lost c hop)
        · exact absurd ht (by simp)
      · exact absurd hs (by simp)
  | move m =>
      simp only [Config.step] at hs ht
      obtain ⟨w, hw, rfl⟩ := Option.map_eq_some_iff.mp hs
      obtain ⟨w', hw', rfl⟩ := Option.map_eq_some_iff.mp ht
      exact ⟨h.thread, hmove h.world hw hw', .cons (.move m) h.log⟩

/-- Neither of two runs can do what the other cannot. -/
theorem SideBySide.isSome_step
    (hperform : ∀ {w w' : M.World} {o o' b b'}, W w w' → L.op o o' → B o b b' →
      (M.perform w' o' b').isSome = (M.perform w o b).isSome)
    (hmove : ∀ {w w' : M.World} {m}, W w w' → (M.move w' m).isSome = (M.move w m).isSome)
    {s t : Config M ι ε α} {a a' : Action M ι} (h : SideBySide L E V W s t)
    (ha : Action.Alike B s a a') : (t.step a').isSome = (s.step a).isSome := by
  cases ha with
  | begin c | crash c =>
      have hc := h.thread c
      simp only [Config.step]
      generalize s.thread c = p at hc
      generalize t.thread c = q at hc
      cases hc with
      | running hpq => cases hpq <;> rfl
      | idle | crashed => rfl
  | @answer c o₀ b b' ho hb | @lost c o₀ b b' ho hb =>
      have hc := h.thread c
      simp only [Config.step]
      generalize s.thread c = p at hc ho
      generalize t.thread c = q at hc
      cases hc with
      | running hpq =>
          cases hpq with
          | await hop _ =>
              obtain rfl := Option.some.inj ho
              simp only [Option.isSome_map]
              exact hperform h.world hop hb
          | ret | throw => rfl
      | idle | crashed => rfl
  | move m =>
      simp only [Config.step, Option.isSome_map]
      exact hmove h.world

/-- **Two runs never part**, if worlds that are alike answer alike. -/
theorem TwoRun.sideBySide
    (hperform : ∀ {w w' : M.World} {o o' b b' r r' w₁ w₁'}, W w w' → L.op o o' → B o b b' →
      M.perform w o b = some (r, w₁) → M.perform w' o' b' = some (r', w₁') →
      L.answer o o' r r' ∧ W w₁ w₁')
    (hmove : ∀ {w w' : M.World} {m w₁ w₁'}, W w w' →
      M.move w m = some w₁ → M.move w' m = some w₁' → W w₁ w₁')
    {s₀ t₀ s t : Config M ι ε α} (h₀ : SideBySide L E V W s₀ t₀) (h : TwoRun B s₀ t₀ s t) :
    SideBySide L E V W s t := by
  induction h with
  | start => exact h₀
  | step _ ha hs ht ih => exact ih.step hperform hmove ha hs ht

/-! ### Concrete pairs of runs -/

/-- The action in the second run, where the environment does `f` of what it does in the
first. -/
def Config.mirror (f : S.Op → M.Answer → M.Answer) (s : Config M ι ε α) :
    Action M ι → Action M ι
  | .answer c b => .answer c ((s.thread c).awaiting.elim b fun o => f o b)
  | .crash c (some b) => .crash c (some ((s.thread c).awaiting.elim b fun o => f o b))
  | a => a

/-- Carry out a list of actions in two runs, as long as each is possible in both. -/
def Config.execBoth (f : S.Op → M.Answer → M.Answer) (s t : Config M ι ε α) :
    List (Action M ι) → Option (Config M ι ε α × Config M ι ε α)
  | [] => some (s, t)
  | a :: as => (s.step a).bind fun s' => (t.step (s.mirror f a)).bind fun t' =>
      s'.execBoth f t' as

theorem Action.alike_mirror {f : S.Op → M.Answer → M.Answer} (hf : ∀ o b, B o b (f o b))
    {s s' : Config M ι ε α} {a : Action M ι} (h : s.step a = some s') :
    Action.Alike B s a (s.mirror f a) := by
  match a with
  | .begin c => exact .begin c
  | .crash c none => exact .crash c
  | .move m => exact .move m
  | .answer c b =>
      simp only [Config.step] at h
      split at h
      · next o k hp =>
        have ho : (s.thread c).awaiting = some o := by rw [hp]; rfl
        rw [Config.mirror, ho]
        exact .answer ho (hf o b)
      · exact absurd h (by simp)
  | .crash c (some b) =>
      simp only [Config.step] at h
      split at h
      · next o k hp =>
        have ho : (s.thread c).awaiting = some o := by rw [hp]; rfl
        rw [Config.mirror, ho]
        exact .lost ho (hf o b)
      · exact absurd h (by simp)

theorem TwoRun.of_execBoth {f : S.Op → M.Answer → M.Answer} (hf : ∀ o b, B o b (f o b))
    {s₀ t₀ s t s' t' : Config M ι ε α} {as : List (Action M ι)} (h₀ : TwoRun B s₀ t₀ s t)
    (h : s.execBoth f t as = some (s', t')) : TwoRun B s₀ t₀ s' t' := by
  induction as generalizing s t with
  | nil =>
      obtain ⟨rfl, rfl⟩ : s = s' ∧ t = t' := by simpa [Config.execBoth] using h
      exact h₀
  | cons a as ih =>
      obtain ⟨s₁, hs, h⟩ := Option.bind_eq_some_iff.mp h
      obtain ⟨t₁, ht, h⟩ := Option.bind_eq_some_iff.mp h
      exact ih (h₀.step (Action.alike_mirror hf hs) hs ht) h

/-- A concrete pair of runs that ends with the decidable property `P`. -/
theorem TwoRun.exists_of_execBoth {f : S.Op → M.Answer → M.Answer}
    (hf : ∀ o b, B o b (f o b)) {s₀ t₀ : Config M ι ε α}
    {P : Config M ι ε α → Config M ι ε α → Prop} [∀ s t, Decidable (P s t)]
    (as : List (Action M ι))
    (h : (s₀.execBoth f t₀ as).any (fun out => decide (P out.1 out.2)) = true) :
    ∃ s t, TwoRun B s₀ t₀ s t ∧ P s t := by
  obtain ⟨⟨s, t⟩, hexec, hP⟩ := (Option.any_eq_true _ _).mp h
  exact ⟨s, t, .of_execBoth hf .start hexec, of_decide_eq_true hP⟩

end

end PaymentQueue.Async
