/-! # Two machines in lockstep

    A `Machine` answers each call and moves to a next state. `Agrees` compares
    the answers of an implementation and of a specification along a sequence of
    calls. `Along` says that a condition on the specification's state and the call
    holds at each call of the specification's own run.

    The proof rule `agrees_iff_along` settles both directions at once from one
    step: under a relation between the two states the next answers agree exactly
    when the condition holds, and then the relation is kept.
-/

namespace Lockstep

/-- A deterministic machine that answers calls. -/
structure Machine (State Call Answer : Type) where
  step : State → Call → Answer × State

namespace Machine

variable {σ τ Call Answer : Type}

/-- The answers to `calls` are those of the specification. -/
def Agrees (impl : Machine σ Call Answer) (spec : Machine τ Call Answer) :
    σ → τ → List Call → Prop
  | _, _, [] => True
  | s, t, c :: calls =>
    (impl.step s c).1 = (spec.step t c).1 ∧
      impl.Agrees spec (impl.step s c).2 (spec.step t c).2 calls

/-- `good` holds at each call of the run from `t`. -/
def Along (spec : Machine τ Call Answer) (good : τ → Call → Prop) : τ → List Call → Prop
  | _, [] => True
  | t, c :: calls => good t c ∧ spec.Along good (spec.step t c).2 calls

/-- **Lockstep rule.** -/
theorem agrees_iff_along {impl : Machine σ Call Answer} {spec : Machine τ Call Answer}
    {good : τ → Call → Prop} (R : σ → τ → Prop)
    (hanswer : ∀ s t c, R s t → ((impl.step s c).1 = (spec.step t c).1 ↔ good t c))
    (hkeep : ∀ s t c, R s t → good t c → R (impl.step s c).2 (spec.step t c).2)
    (calls : List Call) {s : σ} {t : τ} (h : R s t) :
    impl.Agrees spec s t calls ↔ spec.Along good t calls := by
  induction calls generalizing s t with
  | nil => exact Iff.rfl
  | cons c calls ih =>
    constructor
    · intro hagrees
      have hgood := (hanswer s t c h).mp hagrees.1
      exact ⟨hgood, (ih (hkeep s t c h hgood)).mp hagrees.2⟩
    · intro halong
      exact ⟨(hanswer s t c h).mpr halong.1, (ih (hkeep s t c h halong.1)).mpr halong.2⟩

/-- A condition under which the specification stays where it is need only be
    checked there. -/
theorem along_iff_forall {spec : Machine τ Call Answer} {good : τ → Call → Prop} {t : τ}
    (hstay : ∀ c, good t c → (spec.step t c).2 = t) (calls : List Call) :
    spec.Along good t calls ↔ ∀ c ∈ calls, good t c := by
  induction calls with
  | nil => simp [Along]
  | cons c calls ih =>
    rw [List.forall_mem_cons, Along]
    constructor
    · rintro ⟨hc, hrest⟩
      rw [hstay c hc] at hrest
      exact ⟨hc, ih.mp hrest⟩
    · rintro ⟨hc, hrest⟩
      rw [hstay c hc]
      exact ⟨hc, ih.mpr hrest⟩

end Machine

end Lockstep
