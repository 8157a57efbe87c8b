/-! # Labelled transition systems

    A `System` has initial states and labelled steps. `Reachable` states are
    those of its finite runs; `restrict` keeps only the steps that meet a
    condition on the state before the step and the label. The main proof rule is
    `invariant`: what holds initially and is kept by every step holds of every
    reachable state. `invariant_restrict` is its form for what only the steps that
    meet a guard keep. A system that a `Simulation` relates to another one only does
    what that one can do, with steps of its own in between.

    `Run` is a finite run with its labels. A part of the state that most labels leave
    alone is determined by the others: `Run.view`.
-/

namespace TransitionSystem

/-- A labelled transition system. -/
structure System (State Label : Type) where
  init : State → Prop
  step : State → Label → State → Prop

namespace System

variable {State Label : Type}

/-- The states of the finite runs of `S`. -/
inductive Reachable (S : System State Label) : State → Prop where
  | init {s : State} : S.init s → Reachable S s
  | step {s s' : State} (l : Label) : Reachable S s → S.step s l s' → Reachable S s'

/-- The system whose steps a partial function computes. -/
def ofExec (init : State → Prop) (exec : State → Label → Option State) : System State Label where
  init := init
  step := fun s l s' => exec s l = some s'

/-- `S` without the steps that violate `guard`. -/
def restrict (S : System State Label) (guard : State → Label → Prop) : System State Label where
  init := S.init
  step := fun s l s' => guard s l ∧ S.step s l s'

/-- The runs of `S` that start in `s`. -/
def startingAt (S : System State Label) (s : State) : System State Label where
  init := fun s₀ => s₀ = s
  step := S.step

/-- **Invariant rule.** -/
theorem invariant {S : System State Label} {Inv : State → Prop}
    (hinit : ∀ s, S.init s → Inv s)
    (hstep : ∀ s l s', Inv s → S.step s l s' → Inv s') :
    ∀ s, S.Reachable s → Inv s := by
  intro s hr
  induction hr with
  | init h => exact hinit _ h
  | step l _ h ih => exact hstep _ l _ ih h

/-- What a state satisfies and every step keeps holds of every state reached from it. -/
theorem invariant_startingAt {S : System State Label} {Inv : State → Prop} {s : State}
    (hs : Inv s) (hstep : ∀ s l s', Inv s → S.step s l s' → Inv s') :
    ∀ t, (S.startingAt s).Reachable t → Inv t := by
  refine invariant ?_ hstep
  rintro _ rfl
  exact hs

/-- Executing labels that meet the guard makes a run. -/
theorem Reachable.of_foldlM {init : State → Prop} {exec : State → Label → Option State}
    {guard : State → Label → Prop} {s s' : State}
    (hs : ((ofExec init exec).restrict guard).Reachable s) (ls : List Label)
    (hguard : ∀ l ∈ ls, ∀ t, guard t l) (h : ls.foldlM exec s = some s') :
    ((ofExec init exec).restrict guard).Reachable s' := by
  induction ls generalizing s with
  | nil =>
    cases h
    exact hs
  | cons l ls ih =>
    rw [List.foldlM_cons] at h
    obtain ⟨s₁, hstep, hrest⟩ := Option.bind_eq_some_iff.mp h
    -- the first label extends the run, the others run on from there
    exact ih (.step l hs ⟨hguard l List.mem_cons_self s, hstep⟩)
      (fun l' hl' => hguard l' (List.mem_cons_of_mem l hl')) hrest

/-- Executing labels while they meet the guard makes a run, and one of the system
    without the guard. -/
theorem Reachable.of_guarded_foldlM {init : State → Prop}
    {exec : State → Label → Option State} {guard : State → Label → Prop}
    [∀ s l, Decidable (guard s l)] {s s' : State}
    (hs : ((ofExec init exec).restrict guard).Reachable s) (ls : List Label)
    (h : ls.foldlM (fun s l => if guard s l then exec s l else none) s = some s') :
    ((ofExec init exec).restrict guard).Reachable s' ∧ ls.foldlM exec s = some s' := by
  induction ls generalizing s with
  | nil =>
    cases h
    exact ⟨hs, rfl⟩
  | cons l ls ih =>
    rw [List.foldlM_cons] at h ⊢
    obtain ⟨s₁, hstep, hrest⟩ := Option.bind_eq_some_iff.mp h
    split at hstep
    · next hguard =>
      obtain ⟨hr, hrun⟩ := ih (.step l hs ⟨hguard, hstep⟩) hrest
      refine ⟨hr, ?_⟩
      rw [hstep]
      exact hrun
    · cases hstep

/-- A run of the restricted system is a run of the system. -/
theorem Reachable.of_restrict {S : System State Label} {guard : State → Label → Prop} {s : State}
    (hr : (S.restrict guard).Reachable s) : S.Reachable s := by
  induction hr with
  | init h => exact .init h
  | step l _ h ih => exact .step l ih h.2

/-- **Exact guards.** If the steps that keep `P` are those that meet the guard, then `P`
    holds in every run that meets it. -/
theorem invariant_restrict {S : System State Label} {guard : State → Label → Prop}
    {P : State → Prop} (hinit : ∀ s, S.init s → P s)
    (hstep : ∀ s l s', S.Reachable s → P s → S.step s l s' → (P s' ↔ guard s l)) :
    ∀ s, (S.restrict guard).Reachable s → P s := by
  intro s hr
  induction hr with
  | init h => exact hinit _ h
  | step l hr h ih => exact (hstep _ l _ hr.of_restrict ih h.2).mpr h.1

end System

open TransitionSystem.System

/-- `A` can follow `C`: a step of `C` from a state that is related to one of `A` is
    matched by a step of `A`, or by none. -/
structure Simulation {State Label State' Label' : Type} (C : System State Label)
    (A : System State' Label') (R : State → State' → Prop) : Prop where
  init : ∀ s, C.init s → ∃ a, A.init a ∧ R s a
  step : ∀ s l s' a, R s a → C.step s l s' → R s' a ∨ ∃ l' a', A.step a l' a' ∧ R s' a'

/-- **Simulation rule.** Every state that `C` reaches is related to one that `A` reaches. -/
theorem Simulation.exists_reachable {State Label State' Label' : Type} {C : System State Label}
    {A : System State' Label'} {R : State → State' → Prop} (h : Simulation C A R) {s : State}
    (hr : C.Reachable s) : ∃ a, A.Reachable a ∧ R s a := by
  induction hr with
  | init hs =>
    obtain ⟨a, ha, hR⟩ := h.init _ hs
    exact ⟨a, .init ha, hR⟩
  | step l _ hstep ih =>
    obtain ⟨a, ha, hR⟩ := ih
    rcases h.step _ l _ a hR hstep with hR' | ⟨l', a', ha', hR'⟩
    · exact ⟨a, ha, hR'⟩
    · exact ⟨a', .step l' ha ha', hR'⟩

/-- **Part rule.** If every step changes a part of the state as a step of `A` does, or not
    at all, then `A` reaches the parts of the states that `C` reaches. -/
theorem System.Reachable.part {State Label State' Label' : Type} {C : System State Label}
    {A : System State' Label'} {s : State} (hr : C.Reachable s) (part : State → State')
    (hinit : ∀ s, C.init s → A.init (part s))
    (hstep : ∀ s l s', C.step s l s' →
      part s' = part s ∨ ∃ l', A.step (part s) l' (part s')) : A.Reachable (part s) := by
  have hsim : Simulation C A fun s a => part s = a := by
    refine ⟨fun s hs => ⟨part s, hinit s hs, rfl⟩, ?_⟩
    intro s l s' a hpart hl
    subst hpart
    rcases hstep s l s' hl with hsame | ⟨l', hl'⟩
    · exact .inl hsame
    · exact .inr ⟨l', part s', hl', rfl⟩
  obtain ⟨a, ha, hpart⟩ := hsim.exists_reachable hr
  rw [hpart]
  exact ha

variable {State Label : Type}

/-! ### Runs with their labels -/

/-- Steps with the labels `ls` lead from one state to the other. -/
inductive System.Run (S : System State Label) : State → List Label → State → Prop where
  | nil (s : State) : Run S s [] s
  | cons {s s' s'' : State} {l : Label} {ls : List Label} : S.step s l s' → Run S s' ls s'' →
      Run S s (l :: ls) s''

/-- Executing labels while they meet the guard makes a run. -/
theorem System.Run.of_guarded_foldlM {init : State → Prop} {exec : State → Label → Option State}
    {guard : State → Label → Prop} [∀ s l, Decidable (guard s l)] (ls : List Label) {s s' : State}
    (h : ls.foldlM (fun s l => if guard s l then exec s l else none) s = some s') :
    ((ofExec init exec).restrict guard).Run s ls s' := by
  induction ls generalizing s with
  | nil =>
    cases h
    exact .nil _
  | cons l ls ih =>
    rw [List.foldlM_cons] at h
    obtain ⟨s₁, hstep, hrest⟩ := Option.bind_eq_some_iff.mp h
    obtain ⟨hguard, hexec⟩ := Option.ite_none_right_eq_some.mp hstep
    exact .cons ⟨hguard, hexec⟩ (ih hrest)

/-- **View rule.** A step whose label `own` drops leaves what is seen alone, any other
    changes it as `act` does with the label that `own` makes of it. -/
theorem System.Run.view {S : System State Label} {View Act : Type} {act : View → Act → Option View}
    {R : State → View → Prop} {own : Label → Option Act}
    (hother : ∀ s l s' v, R s v → S.step s l s' → own l = none → R s' v)
    (hown : ∀ s l s' v a, R s v → S.step s l s' → own l = some a →
      ∃ v', act v a = some v' ∧ R s' v')
    {s s' : State} {ls : List Label} {v : View} (hrun : S.Run s ls s') (h : R s v) :
    ∃ v', (ls.filterMap own).foldlM act v = some v' ∧ R s' v' := by
  induction hrun generalizing v with
  | nil s => exact ⟨v, rfl, h⟩
  | @cons s s₁ s' l ls hstep _ ih =>
    cases hl : own l with
    | none =>
      rw [List.filterMap_cons_none hl]
      exact ih (hother s l s₁ v h hstep hl)
    | some a =>
      obtain ⟨v₁, hact, hR⟩ := hown s l s₁ v a h hstep hl
      obtain ⟨v', hrest, hR'⟩ := ih hR
      rw [List.filterMap_cons_some hl, List.foldlM_cons, hact]
      exact ⟨v', hrest, hR'⟩

end TransitionSystem
