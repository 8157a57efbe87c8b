import AsioNet.Library.TransitionSystem

/-! # Critical sections

    A `Method` is a call that reaches a shared state in several accesses.
    `sections` is the system of any number of threads whose calls exclude each
    other from the first access to the last. Its calls have the effect they have
    when they run alone, one after the other in the order they finish:
    `serial_of_reachable`. A lock whose threads simulate `sections` gives its
    callers just this.
-/

namespace CriticalSections

open TransitionSystem

/-! ### Calls -/

/-- A call with an argument and a result. Each access may change the shared state, and is
    followed by the next one or by the return. -/
structure Method (Shared Arg Local Result : Type) where
  start : Arg → Local
  access : Shared → Local → Shared × (Local ⊕ Result)

variable {Thread Shared Arg Local Result : Type}

namespace Method

variable (m : Method Shared Arg Local Result)

/-- Accesses of one call with no other access in between. -/
inductive Runs : Shared → Local ⊕ Result → Shared → Local ⊕ Result → Prop where
  | refl (s : Shared) (c : Local ⊕ Result) : Runs s c s c
  | access {s s' : Shared} {c : Local ⊕ Result} {k : Local} : Runs s c s' (.inl k) →
      Runs s c (m.access s' k).1 (m.access s' k).2

variable {m} in
/-- A first access, then the others. -/
theorem Runs.cons {s s₁ s' : Shared} {k : Local} {c₁ c' : Local ⊕ Result}
    (hacc : m.access s k = (s₁, c₁)) (h : m.Runs s₁ c₁ s' c') : m.Runs s (.inl k) s' c' := by
  induction h with
  | refl =>
    have hone := (Runs.refl (m := m) s (.inl k)).access
    rw [hacc] at hone
    exact hone
  | access _ ih => exact (ih hacc).access

variable {m} in
/-- The accesses of a call that runs alone start with its first one. -/
theorem Runs.head_cases {s s' : Shared} {c c' : Local ⊕ Result} (h : m.Runs s c s' c') :
    (s' = s ∧ c' = c) ∨ ∃ k, c = .inl k ∧ m.Runs (m.access s k).1 (m.access s k).2 s' c' := by
  induction h with
  | refl => exact .inl ⟨rfl, rfl⟩
  | access _ ih =>
    rcases ih with ⟨rfl, rfl⟩ | ⟨k, rfl, hrest⟩
    · exact .inr ⟨_, rfl, .refl _ _⟩
    · exact .inr ⟨k, rfl, hrest.access⟩

variable {m} in
/-- A call that still has to return makes its first access. -/
theorem Runs.head {s s' : Shared} {k : Local} {r : Result} (h : m.Runs s (.inl k) s' (.inr r)) :
    m.Runs (m.access s k).1 (m.access s k).2 s' (.inr r) := by
  rcases h.head_cases with ⟨-, hc⟩ | ⟨k', hk, hrest⟩
  · cases hc
  · cases hk
    exact hrest

variable {m} in
/-- A call that has returned makes no access. -/
theorem Runs.of_result {s s' : Shared} {r r' : Result} (h : m.Runs s (.inr r) s' (.inr r')) :
    s' = s ∧ r' = r := by
  rcases h.head_cases with ⟨hs, hc⟩ | ⟨k, hk, -⟩
  · exact ⟨hs, Sum.inr.inj hc⟩
  · cases hk

/-- A call that runs alone takes the state `s` to `s'` and returns `r`. -/
def Returns (s : Shared) (a : Arg) (s' : Shared) (r : Result) : Prop :=
  m.Runs s (.inl (m.start a)) s' (.inr r)

/-- The calls of a log, each of them alone, take the state `s` to `s'`. -/
inductive Replays (s : Shared) : List (Thread × Arg × Result) → Shared → Prop where
  | nil : Replays s [] s
  | snoc {log : List (Thread × Arg × Result)} {s' s'' : Shared} {t : Thread} {a : Arg}
      {r : Result} : Replays s log s' → m.Returns s' a s'' r → Replays s (log ++ [(t, a, r)]) s''

variable {m}

/-- What every call keeps holds after the calls of a log. -/
theorem Replays.invariant {P : List (Thread × Arg × Result) → Shared → Prop} {s s' : Shared}
    {log : List (Thread × Arg × Result)} (h : m.Replays s log s') (hnil : P [] s)
    (hcall : ∀ log s₁ s₂ t a r, P log s₁ → m.Returns s₁ a s₂ r → P (log ++ [(t, a, r)]) s₂) :
    P log s' := by
  induction h with
  | nil => exact hnil
  | snoc _ hret ih => exact hcall _ _ _ _ _ _ ih hret

end Method

/-! ### Threads that exclude each other -/

/-- The shared state, the call that is inside with its next access or its result, and the
    calls that have made their last access, in this order. -/
structure Sections (Thread Shared Arg Local Result : Type) where
  shared : Shared
  inside : Option (Thread × Arg × (Local ⊕ Result))
  log : List (Thread × Arg × Result)

inductive SectionStep (Thread Arg : Type) where
  | enter (t : Thread) (a : Arg)
  | access
  | leave

namespace Sections

/-- The next access of the call inside. -/
def doAccess (m : Method Shared Arg Local Result) (s : Sections Thread Shared Arg Local Result)
    (t : Thread) (a : Arg) (k : Local) : Sections Thread Shared Arg Local Result where
  shared := (m.access s.shared k).1
  inside := some (t, a, (m.access s.shared k).2)
  log :=
    match (m.access s.shared k).2 with
    | .inl _ => s.log
    | .inr r => s.log ++ [(t, a, r)]

def exec (m : Method Shared Arg Local Result) (s : Sections Thread Shared Arg Local Result) :
    SectionStep Thread Arg → Option (Sections Thread Shared Arg Local Result)
  | .enter t a =>
    match s.inside with
    | none => some { s with inside := some (t, a, .inl (m.start a)) }
    | some _ => none
  | .access =>
    match s.inside with
    | some (t, a, .inl k) => some (s.doAccess m t a k)
    | _ => none
  | .leave =>
    match s.inside with
    | some (_, _, .inr _) => some { s with inside := none }
    | _ => none

/-- Nobody is inside. -/
def new (shared : Shared) : Sections Thread Shared Arg Local Result where
  shared := shared
  inside := none
  log := []

/-- The system of the threads that call `m`, on a state that starts as `shared`. -/
def system (m : Method Shared Arg Local Result) (shared : Shared) :
    System (Sections Thread Shared Arg Local Result) (SectionStep Thread Arg) :=
  System.ofExec (fun s => s = new shared) (exec m)

/-- What a step can do. -/
theorem exec_cases {m : Method Shared Arg Local Result}
    {s s' : Sections Thread Shared Arg Local Result} {l : SectionStep Thread Arg}
    (h : s.exec m l = some s') :
    (∃ t a, s.inside = none ∧ s' = { s with inside := some (t, a, .inl (m.start a)) }) ∨
    (∃ t a k, s.inside = some (t, a, .inl k) ∧ s' = s.doAccess m t a k) ∨
    (∃ t a r, s.inside = some (t, a, .inr r) ∧ s' = { s with inside := none }) := by
  cases l with
  | enter t a =>
    simp only [exec] at h
    split at h
    · next hin => exact .inl ⟨t, a, hin, (Option.some.inj h).symm⟩
    · cases h
  | access =>
    simp only [exec] at h
    split at h
    · next t a k hin => exact .inr (.inl ⟨t, a, k, hin, (Option.some.inj h).symm⟩)
    · cases h
  | leave =>
    simp only [exec] at h
    split at h
    · next t a r hin => exact .inr (.inr ⟨t, a, r, hin, (Option.some.inj h).symm⟩)
    · cases h

/-- The log has been replayed up to the call that is inside, which has run alone so far. -/
def Serial (m : Method Shared Arg Local Result) (shared : Shared)
    (s : Sections Thread Shared Arg Local Result) : Prop :=
  match s.inside with
  | some (_, a, .inl k) =>
    ∃ s₀, m.Replays shared s.log s₀ ∧ m.Runs s₀ (.inl (m.start a)) s.shared (.inl k)
  | _ => m.Replays shared s.log s.shared

theorem Serial.doAccess {m : Method Shared Arg Local Result} {shared : Shared}
    {s : Sections Thread Shared Arg Local Result} {t : Thread} {a : Arg} {k : Local}
    (h : s.Serial m shared) (hin : s.inside = some (t, a, .inl k)) :
    (s.doAccess m t a k).Serial m shared := by
  unfold Serial at h
  rw [hin] at h
  obtain ⟨s₀, hlog, hrun⟩ := h
  have hrun' := hrun.access
  unfold Serial Sections.doAccess
  -- the access is the last one or not
  cases hacc : (m.access s.shared k).2 with
  | inl k' =>
    rw [hacc] at hrun'
    exact ⟨s₀, hlog, hrun'⟩
  | inr r =>
    rw [hacc] at hrun'
    exact hlog.snoc hrun'

/-- **Critical sections are serial**: in every reachable state the calls that have made
    their last access, one after the other, give the shared state, up to the accesses
    of the call that is inside. -/
theorem serial_of_reachable (m : Method Shared Arg Local Result) (shared : Shared) :
    ∀ s : Sections Thread Shared Arg Local Result,
      (system m shared).Reachable s → s.Serial m shared := by
  refine System.invariant ?_ ?_
  · intro s hs
    cases hs
    exact .nil
  · intro s l s' ih hstep
    rcases exec_cases hstep with ⟨t, a, hin, rfl⟩ | ⟨t, a, k, hin, rfl⟩ | ⟨t, a, r, hin, rfl⟩
    · unfold Serial at ih
      rw [hin] at ih
      exact ⟨s.shared, ih, .refl _ _⟩
    · exact ih.doAccess hin
    · unfold Serial at ih
      rw [hin] at ih
      exact ih

/-- The state that the calls of the log leave, which is the shared state while nobody is
    inside. -/
theorem Serial.exists_replays {m : Method Shared Arg Local Result} {shared : Shared}
    {s : Sections Thread Shared Arg Local Result} (h : s.Serial m shared) :
    ∃ s₀, m.Replays shared s.log s₀ ∧ (s.inside = none → s₀ = s.shared) := by
  unfold Serial at h
  split at h
  · next hin =>
    obtain ⟨s₀, hlog, -⟩ := h
    refine ⟨s₀, hlog, ?_⟩
    intro hnone
    rw [hin] at hnone
    cases hnone
  · exact ⟨s.shared, h, fun _ => rfl⟩

/-! ### Parts that the accesses leave alone -/

/-- The same sections on another shared state. -/
def map {Shared' : Type} (f : Shared → Shared') (s : Sections Thread Shared Arg Local Result) :
    Sections Thread Shared' Arg Local Result where
  shared := f s.shared
  inside := s.inside
  log := s.log

/-- Where the accesses do the same on what `f` makes of the shared state, so do the
    sections. -/
theorem exec_map {Shared' : Type} {m : Method Shared Arg Local Result}
    {m' : Method Shared' Arg Local Result} {f : Shared → Shared'} (hstart : m'.start = m.start)
    (haccess : ∀ s k, m'.access (f s) k = (f (m.access s k).1, (m.access s k).2))
    {s s' : Sections Thread Shared Arg Local Result} {l : SectionStep Thread Arg}
    (h : s.exec m l = some s') : (s.map f).exec m' l = some (s'.map f) := by
  have hnext : ∀ t a k, (s.map f).doAccess m' t a k = (s.doAccess m t a k).map f := by
    intro t a k
    unfold doAccess map
    rw [haccess]
  cases l with
  | enter t a =>
    simp only [exec] at h
    split at h
    · next hin =>
      cases h
      simp only [exec, map, hin, hstart]
    · cases h
  | access =>
    simp only [exec] at h
    split at h
    · next t a k hin =>
      cases h
      rw [← hnext]
      simp only [exec, map, hin]
    · cases h
  | leave =>
    simp only [exec] at h
    split at h
    · next t a r hin =>
      cases h
      simp only [exec, map, hin]
    · cases h

end Sections

end CriticalSections
