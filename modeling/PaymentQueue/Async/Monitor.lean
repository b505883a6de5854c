import PaymentQueue.Async.Control

/-!
# PaymentQueue.Async.Monitor

**Monitors**: control automata whose stage is read off the events.

A monitor goes with every event from one stage to the next, whatever the program. To
follow it is then no restriction of the program at all, and says only at which stages it
ends (`follows_watched_iff`): a Hoare logic of traces, with the rules of `Follows`. `Notes`
is the monitor that writes some of the events down, in their order.
-/

namespace PaymentQueue.Async

variable {S : Signature} {ε α β γ : Type}

/-- The edges of a monitor. -/
def Watched (next : γ → Event S → γ) (g : γ) (o : S.Op) (r : S.Ret o) (g' : γ) : Prop :=
  g' = next g ⟨o, r⟩

/-- What is proved of a program with a monitor holds of every trace of it, and the other way
round. -/
theorem follows_watched_iff {next : γ → Event S → γ} {p : Program S ε α}
    {Q : γ → Except ε α → Prop} {g : γ} :
    Follows (Watched next) p Q g ↔ ∀ tr res, Exec p tr res → Q (tr.foldl next g) res := by
  induction p generalizing g with
  | ret a =>
      refine ⟨fun h tr res hex => ?_, fun h => h [] _ (.ret a)⟩
      cases hex
      exact h
  | throw e =>
      refine ⟨fun h tr res hex => ?_, fun h => h [] _ (.throw e)⟩
      cases hex
      exact h
  | await o k ih =>
      refine ⟨fun h tr res hex => ?_, fun h r => ⟨_, rfl, (ih r).mpr fun tr res hex => ?_⟩⟩
      · cases hex with
        | @await _ _ r tr _ hk =>
            obtain ⟨g', rfl, hfollows⟩ := h r
            exact (ih r).mp hfollows _ _ hk
      · exact h (⟨o, r⟩ :: tr) res (.await hex)

/-- The monitor that writes down what `note` says of an event. -/
abbrev Notes (note : Event S → Option β) : List β → (o : S.Op) → S.Ret o → List β → Prop :=
  Watched fun book ev => book ++ (note ev).toList

variable {note : Event S → Option β}

theorem foldl_note (book : List β) (tr : List (Event S)) :
    tr.foldl (fun book ev => book ++ (note ev).toList) book = book ++ tr.filterMap note := by
  induction tr generalizing book with
  | nil => simp
  | cons ev tr ih => cases h : note ev <;> simp [ih, h]

/-- What is proved of the notes of a program holds of the notes of every trace. -/
theorem Follows.notes {p : Program S ε α} {Q : List β → Except ε α → Prop}
    (h : Follows (Notes note) p Q []) {tr : List (Event S)} {res : Except ε α}
    (hex : Exec p tr res) : Q (tr.filterMap note) res := by
  have hend := follows_watched_iff.mp h tr res hex
  rwa [foldl_note, List.nil_append] at hend

/-- A program of which nothing is written down leaves the notes as they are. -/
theorem Awaits.notes {p : Program S ε α} {Q : List β → Except ε α → Prop} {book : List β}
    (h : Awaits (fun o => ∀ r, note ⟨o, r⟩ = none) p) (hQ : ∀ r, Q book r) :
    Follows (Notes note) p Q book :=
  h.follows (fun o r ho => by simp [Watched, ho r]) hQ

end PaymentQueue.Async
