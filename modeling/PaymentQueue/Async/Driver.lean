import PaymentQueue.Async.Control

/-!
# PaymentQueue.Async.Driver

Programs against a **deterministic** surrounding.

A driver answers each operation from a state of its own, or leaves it pending for good.
Against a driver a program has at most one run (`Program.drive`), which is what makes two
runs comparable: states a program cannot tell apart drive it alike (`Follows.drive_congr`).
`Follows.driven` is the invariant rule, one step of the automaton at a time.
-/

namespace PaymentQueue.Async

variable {S : Signature} {ε α γ W : Type}

/-- The answer to an operation and the state after it, if it is ever answered. -/
abbrev Driver (S : Signature) (W : Type) := W → (o : S.Op) → Option (S.Ret o × W)

/-- Run a program against a driver: its events, its end, and the state after it. -/
def Program.drive (d : Driver S W) :
    W → Program S ε α → Option (List (Event S) × Except ε α × W)
  | w, .ret a => some ([], .ok a, w)
  | w, .throw e => some ([], .error e, w)
  | w, .await o k =>
      (d w o).bind fun (r, w₁) =>
        ((k r).drive d w₁).map fun (tr, res, w') => (⟨o, r⟩ :: tr, res, w')

variable {d : Driver S W} {w v w' : W} {tr : List (Event S)} {res : Except ε α}

theorem Program.drive_await {o : S.Op} {k : S.Ret o → Program S ε α} :
    (Program.await o k).drive d w = some (tr, res, w') ↔
      ∃ r w₁ tr', d w o = some (r, w₁) ∧ (k r).drive d w₁ = some (tr', res, w') ∧
        tr = ⟨o, r⟩ :: tr' := by
  simp only [Program.drive, Option.bind_eq_some_iff, Option.map_eq_some_iff, Prod.mk.injEq]
  constructor
  · intro h
    obtain ⟨⟨r, w₁⟩, hd, ⟨tr', res', w''⟩, hk, rfl, rfl, rfl⟩ := h
    exact ⟨r, w₁, tr', hd, hk, rfl⟩
  · intro h
    obtain ⟨r, w₁, tr', hd, hk, rfl⟩ := h
    exact ⟨(r, w₁), hd, (tr', res, w'), hk, rfl, rfl, rfl⟩

variable {T : γ → (o : S.Op) → S.Ret o → γ → Prop} {p : Program S ε α} {g : γ}
variable {Q : γ → Except ε α → Prop}

/-- What every step preserves, with the events so far in view, holds at the end. A step may
rely on its event being one of the run. -/
theorem Follows.driven {I : γ → W → List (Event S) → Prop} {pre : List (Event S)}
    (h : Follows T p Q g) (hrun : p.drive d w = some (tr, res, w')) (hI : I g w pre)
    (step : ∀ {g g' o r w₁ w₂ pre}, T g o r g' → ⟨o, r⟩ ∈ tr → d w₁ o = some (r, w₂) →
      I g w₁ pre → I g' w₂ (pre ++ [⟨o, r⟩])) :
    ∃ g', I g' w' (pre ++ tr) ∧ Q g' res := by
  induction p generalizing g w pre tr with
  | ret a =>
      obtain ⟨rfl, rfl, rfl⟩ : [] = tr ∧ .ok a = res ∧ w = w' := by
        simpa [Program.drive] using hrun
      exact ⟨g, by simpa using hI, h⟩
  | throw e =>
      obtain ⟨rfl, rfl, rfl⟩ : [] = tr ∧ .error e = res ∧ w = w' := by
        simpa [Program.drive] using hrun
      exact ⟨g, by simpa using hI, h⟩
  | await o k ih =>
      obtain ⟨r, w₁, tr', hd, hk, rfl⟩ := Program.drive_await.mp hrun
      obtain ⟨g', hT, hfollows⟩ := h r
      have hI' := step hT List.mem_cons_self hd hI
      obtain ⟨g'', hend, hQ⟩ := ih r hfollows hk hI' fun hT hmem =>
        step hT (List.mem_cons_of_mem _ hmem)
      exact ⟨g'', by simpa using hend, hQ⟩

/-- States that answer alike, and are kept alike by every step, cannot be told apart. -/
theorem Follows.drive_congr {R : W → W → Prop} (h : Follows T p Q g) (hR : R w v)
    (hrun : p.drive d w = some (tr, res, w'))
    (step : ∀ {g g' o r w₁ w₂ v₁}, T g o r g' → R w₁ v₁ → d w₁ o = some (r, w₂) →
      ∃ v₂, d v₁ o = some (r, v₂) ∧ R w₂ v₂) :
    ∃ v', p.drive d v = some (tr, res, v') ∧ R w' v' := by
  induction p generalizing g w v tr with
  | ret a =>
      obtain ⟨rfl, rfl, rfl⟩ : [] = tr ∧ .ok a = res ∧ w = w' := by
        simpa [Program.drive] using hrun
      exact ⟨v, rfl, hR⟩
  | throw e =>
      obtain ⟨rfl, rfl, rfl⟩ : [] = tr ∧ .error e = res ∧ w = w' := by
        simpa [Program.drive] using hrun
      exact ⟨v, rfl, hR⟩
  | await o k ih =>
      obtain ⟨r, w₁, tr', hd, hk, rfl⟩ := Program.drive_await.mp hrun
      obtain ⟨g', hT, hfollows⟩ := h r
      obtain ⟨v₁, hv, hR'⟩ := step hT hR hd
      obtain ⟨v', hdrive, hend⟩ := ih r hfollows hR' hk
      exact ⟨v', Program.drive_await.mpr ⟨r, v₁, tr', hv, hdrive, rfl⟩, hend⟩

end PaymentQueue.Async
