import PaymentQueue.Async.Solo

/-!
# PaymentQueue.Async.Share

**A share of the world**, and the calls that keep to it.

A `Share` says when two worlds agree on the part that is one's own, which operations work on
that part (in worlds that agree they are answered alike, and leave worlds that agree), and
which leave it alone. If every call of a system works on the share or leaves it alone, every
run has a *projection* (`Run.project`): a run in which the calls on the share do and see
exactly the same, and no other call ever begins. Whatever the others do, they are not
noticed; and what a call on the share can do next, it can do next alone (`Projects.enabled`).
-/

namespace PaymentQueue.Async

variable {S : Signature} {M : Machine S} {ι ε α : Type}

/-- A part of the world that some operations work on and others leave alone. -/
structure Share (M : Machine S) where
  /-- The worlds agree on the share. -/
  Agrees : M.World → M.World → Prop
  /-- The operation works on the share. -/
  Own : S.Op → Prop
  /-- The operation leaves the share alone. -/
  Foreign : S.Op → Prop
  equiv : Equivalence Agrees
  own : ∀ {w v o a r w'}, Agrees w v → Own o → M.perform w o a = some (r, w') →
    ∃ v', M.perform v o a = some (r, v') ∧ Agrees w' v'
  foreign : ∀ {w o a r w'}, Foreign o → M.perform w o a = some (r, w') → Agrees w w'
  /-- A move concerns the share alike in both worlds, or does not concern it. -/
  move : ∀ {w v m w'}, Agrees w v → M.move w m = some w' →
    Agrees w' v ∨ ∃ v', M.move v m = some v' ∧ Agrees w' v'

/-- The action is a step of a call in `mine`, or a move of the world. -/
def Action.By (mine : ι → Prop) : Action M ι → Prop
  | .begin c | .answer c _ | .crash c _ => mine c
  | .move _ => True

/-- `t` is what `s` looks like from the share: the calls in `mine` stand where they stand in
`s`, and no other call has begun. -/
structure Projects [DecidableEq ι] (H : Share M) (mine : ι → Prop) (p : ι → Program S ε α)
    (s t : Config M ι ε α) : Prop where
  agrees : H.Agrees s.world t.world
  same : ∀ c, mine c → t.thread c = s.thread c
  idle : ∀ c, ¬ mine c → t.thread c = .idle (p c)
  events : ∀ c, mine c → eventsOf c t.log = eventsOf c s.log
  own : ∀ c o, mine c → (s.thread c).awaiting = some o → S.Ret o → H.Own o

variable [DecidableEq ι] {H : Share M} {mine : ι → Prop} {p : ι → Program S ε α}

namespace Projects

variable {s t : Config M ι ε α} {c : ι}

/-- What a call on the share can be answered in company, it can be answered alone. -/
theorem enabled (h : Projects H mine p s t) (hc : mine c) (a : M.Answer) :
    (s.step (.answer c a)).isSome = (t.step (.answer c a)).isSome := by
  have hperform : ∀ o, (s.thread c).awaiting = some o →
      (M.perform s.world o a).isSome = (M.perform t.world o a).isSome := by
    intro o ho
    rw [Bool.eq_iff_iff]
    constructor
    · intro hsome
      obtain ⟨rw', hw⟩ := Option.isSome_iff_exists.mp hsome
      obtain ⟨v', hv, -⟩ := H.own h.agrees (h.own c o hc ho rw'.1) hw
      simp [hv]
    · intro hsome
      obtain ⟨rw', hw⟩ := Option.isSome_iff_exists.mp hsome
      obtain ⟨v', hv, -⟩ := H.own (H.equiv.symm h.agrees) (h.own c o hc ho rw'.1) hw
      simp [hv]
  simp only [Config.step, h.same c hc]
  cases hp : s.thread c with
  | running q =>
      cases q with
      | await o k => simpa using hperform o (by rw [hp]; rfl)
      | ret | throw => rfl
  | idle | crashed => rfl

/-- A call on the share goes on in both. -/
theorem both {x : Thread S ε α} {w v : M.World} {e : Entry M ι} (h : Projects H mine p s t)
    (hc : mine c) (hwv : H.Agrees w v)
    (hown : ∀ d o, mine d → (Function.update s.thread c x d).awaiting = some o →
      S.Ret o → H.Own o) :
    Projects H mine p ⟨Function.update s.thread c x, w, e :: s.log⟩
      ⟨Function.update t.thread c x, v, e :: t.log⟩ where
  agrees := hwv
  same d hd := by
    by_cases hdc : d = c
    · simp [hdc]
    · simp [hdc, h.same d hd]
  idle d hd := by
    have hdc : d ≠ c := fun heq => hd (heq ▸ hc)
    simp [hdc, h.idle d hd]
  events d hd := by rw [eventsOf_cons, eventsOf_cons, h.events d hd]
  own := hown

/-- Any other call goes on unnoticed. -/
theorem skip {x : Thread S ε α} {w : M.World} {e : Entry M ι} (h : Projects H mine p s t)
    (hc : ¬ mine c) (hw : H.Agrees s.world w) (he : ∀ d, mine d → e.eventOf d = none) :
    Projects H mine p ⟨Function.update s.thread c x, w, e :: s.log⟩ t := by
  have hne : ∀ d, mine d → d ≠ c := fun d hd heq => hc (heq ▸ hd)
  refine ⟨H.equiv.trans (H.equiv.symm hw) h.agrees, fun d hd => ?_, h.idle, fun d hd => ?_,
    fun d o hd => ?_⟩
  · simp [hne d hd, h.same d hd]
  · simp [eventsOf_cons, he d hd, h.events d hd]
  · simpa [hne d hd] using h.own d o hd

end Projects

/-! ### The projection of a run -/

/-- A call works on the share or leaves it alone, according to whether it is in `mine`. -/
abbrev Share.Splits (H : Share M) (mine : ι → Prop) (c : ι) (_ : Unit) (o : S.Op)
    (_ : S.Ret o) (_ : Unit) : Prop :=
  (mine c → H.Own o) ∧ (¬ mine c → H.Foreign o)

section

variable {G G' : Guard M ι ε α} {s₀ s s' t : Config M ι ε α} {a : Action M ι}

/-- One step of the projection: the step itself, if it is taken by a call on the share, and
no step at all otherwise. -/
theorem Projects.step {σ σ' : ι → Unit} (h : Projects H mine p s t) (ht : Run G' s₀ t)
    (hG : a.By mine → G' t a) (hT : TStep (H.Splits mine) s σ a s' σ')
    (hown : ∀ c o, mine c → (s'.thread c).awaiting = some o → S.Ret o → H.Own o) :
    ∃ t', Run G' s₀ t' ∧ Projects H mine p s' t' := by
  cases hT with
  | @begin c q hq =>
      by_cases hc : mine c
      · have hstep : t.step (.begin c) =
            some ⟨Function.update t.thread c (.running q), t.world, .begun c :: t.log⟩ := by
          simp [Config.step, h.same c hc, hq]
        exact ⟨_, ht.step (hG hc) hstep, h.both hc h.agrees hown⟩
      · exact ⟨t, ht, h.skip hc (H.equiv.refl _) fun d _ => rfl⟩
  | @answer c b o k r w g hq hw hT =>
      by_cases hc : mine c
      · obtain ⟨v, hv, hwv⟩ := H.own h.agrees (hT.1 hc) hw
        have hstep : t.step (.answer c b) = some
            ⟨Function.update t.thread c (.running (k r)), v, .reply c ⟨o, r⟩ :: t.log⟩ := by
          simp [Config.step, h.same c hc, hq, hv]
        exact ⟨_, ht.step (hG hc) hstep, h.both hc hwv hown⟩
      · refine ⟨t, ht, h.skip hc (H.foreign (hT.2 hc) hw) fun d hd => ?_⟩
        have hne : c ≠ d := fun heq => hc (heq ▸ hd)
        exact if_neg hne
  | @crash c o k hq =>
      by_cases hc : mine c
      · have hstep : t.step (.crash c none) = some
            ⟨Function.update t.thread c .crashed, t.world, .crash c none :: t.log⟩ := by
          simp [Config.step, h.same c hc, hq]
        exact ⟨_, ht.step (hG hc) hstep, h.both hc h.agrees hown⟩
      · exact ⟨t, ht, h.skip hc (H.equiv.refl _) fun d _ => rfl⟩
  | @lost c b o k r w g hq hw hT =>
      by_cases hc : mine c
      · obtain ⟨v, hv, hwv⟩ := H.own h.agrees (hT.1 hc) hw
        have hstep : t.step (.crash c (some b)) = some
            ⟨Function.update t.thread c .crashed, v, .crash c (some o) :: t.log⟩ := by
          simp [Config.step, h.same c hc, hq, hv]
        exact ⟨_, ht.step (hG hc) hstep, h.both hc hwv hown⟩
      · exact ⟨t, ht, h.skip hc (H.foreign (hT.2 hc) hw) fun d _ => rfl⟩
  | @move m w hw =>
      rcases H.move h.agrees hw with hwv | ⟨v, hv, hwv⟩
      · exact ⟨t, ht, hwv, h.same, h.idle, fun c hc => by simpa using h.events c hc, hown⟩
      · have hstep : t.step (.move m) = some ⟨t.thread, v, .move m :: t.log⟩ := by
          simp [Config.step, hv]
        exact ⟨_, ht.step (hG trivial) hstep, hwv, h.same, h.idle,
          fun c hc => by simpa using h.events c hc, hown⟩

/-- **Every run has a projection**: a run in which only the calls on the share take steps,
and they do and see the same. What is assumed of the steps of the run may be assumed of those
of the projection, if it can be told from the calls on the share. -/
theorem Run.project {w : M.World} (hmine : ∀ c, mine c → Awaits H.Own (p c))
    (hother : ∀ c, ¬ mine c → Awaits H.Foreign (p c))
    (hG : ∀ {s t a}, Projects H mine p s t → a.By mine → G s a → G' t a)
    (h : Run G (Config.start p w) s) :
    ∃ t, Run (fun t a => a.By mine ∧ G' t a) (Config.start p w) t ∧
      Projects H mine p s t := by
  have hprog : ∀ c, Follows (H.Splits mine c) (p c) (fun _ _ => True) () := by
    intro c
    by_cases hc : mine c
    · exact (hmine c hc).follows (fun o r ho => ⟨fun _ => ho, fun hn => absurd hc hn⟩)
        fun _ => trivial
    · exact (hother c hc).follows (fun o r ho => ⟨fun hn => absurd hn hc, fun _ => ho⟩)
        fun _ => trivial
  have hown : ∀ {s : Config M ι ε α} {σ : ι → Unit},
      s.At (H.Splits mine) () (fun _ _ _ => True) σ →
      ∀ c o, mine c → (s.thread c).awaiting = some o → S.Ret o → H.Own o := by
    intro s σ hat c o hc ho r
    obtain ⟨g, hT⟩ := hat.edge ho r
    exact hT.1 hc
  have h₀ : Projects H mine p (Config.start p w : Config M ι ε α) (Config.start p w) := by
    refine ⟨H.equiv.refl _, fun _ _ => rfl, fun _ _ => rfl, fun _ _ => rfl, ?_⟩
    intro c o _ ho
    simp [Config.start, Thread.awaiting] at ho
  obtain ⟨-, -, hex⟩ := Run.staged (I := fun s _ => ∃ t,
      Run (fun t a => a.By mine ∧ G' t a) (Config.start p w) t ∧ Projects H mine p s t)
    hprog ⟨_, .start, h₀⟩ (fun _ _ hI hGa hT hat' => by
      obtain ⟨t, ht, hproj⟩ := hI
      exact hproj.step ht (fun hby => ⟨hby, hG hproj hby hGa⟩) hT (hown hat')) h
  exact hex

end

end PaymentQueue.Async
