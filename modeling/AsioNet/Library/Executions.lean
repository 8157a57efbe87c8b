import AsioNet.Library.TransitionSystem
import Mathlib.Tactic.ByContra

/-! # Infinite runs

    An `Execution` goes on for ever. What is bound to happen in it follows from what
    happens again and again, `Repeats`, and a rank that these steps lower:
    `eventually_of_rank`.

    `exists_append` makes an execution that starts with given labels.
-/

namespace TransitionSystem

open TransitionSystem.System

variable {State Label : Type}

/-- An infinite run of `S`, from any state. -/
structure Execution (S : System State Label) where
  state : Nat → State
  label : Nat → Label
  step : ∀ n, S.step (state n) (label n) (state (n + 1))

namespace Execution

variable {S : System State Label}

/-- Labels in `A` occur again and again. -/
def Repeats (e : Execution S) (A : Label → Prop) : Prop := ∀ n, ∃ m, n ≤ m ∧ A (e.label m)

theorem reachable (e : Execution S) (h : S.init (e.state 0)) (n : Nat) :
    S.Reachable (e.state n) := by
  induction n with
  | zero => exact .init h
  | succ n ih => exact .step (e.label n) ih (e.step n)

/-! ### What happens eventually -/

/-- **Rank rule.** From `n` on, until `Q` happens, `P` is kept and the rank never rises;
    steps in `A` lower it. -/
theorem eventually_of_rank (e : Execution S) {A : Label → Prop} (hA : e.Repeats A)
    {P : State → Prop} {Q : State → Label → Prop} (rank : State → Nat) {n : Nat}
    (hP : P (e.state n))
    (hkeep : ∀ m, n ≤ m → P (e.state m) → ¬ Q (e.state m) (e.label m) →
      P (e.state (m + 1)) ∧ rank (e.state (m + 1)) ≤ rank (e.state m))
    (hlower : ∀ m, n ≤ m → P (e.state m) → ¬ Q (e.state m) (e.label m) → A (e.label m) →
      rank (e.state (m + 1)) < rank (e.state m)) :
    ∃ m, n ≤ m ∧ Q (e.state m) (e.label m) := by
  by_contra hnever
  have hnot : ∀ m, n ≤ m → ¬ Q (e.state m) (e.label m) := fun m hm hQ => hnever ⟨m, hm, hQ⟩
  -- so `P` holds for ever, with a rank that never rises
  have hforever : ∀ k m, n ≤ m → P (e.state m) →
      P (e.state (m + k)) ∧ rank (e.state (m + k)) ≤ rank (e.state m) := by
    intro k m hm hPm
    induction k with
    | zero => exact ⟨hPm, Nat.le_refl _⟩
    | succ k ih =>
      obtain ⟨hPk, hle⟩ := ih
      obtain ⟨hP', hle'⟩ := hkeep (m + k) (Nat.le_add_right_of_le hm) hPk
        (hnot _ (Nat.le_add_right_of_le hm))
      exact ⟨hP', Nat.le_trans hle' hle⟩
  -- and is lowered again and again: no rank is high enough
  have hdescent : ∀ bound m, n ≤ m → P (e.state m) → rank (e.state m) < bound → False := by
    intro bound
    induction bound with
    | zero =>
      intro m _ _ hlt
      exact Nat.not_lt_zero _ hlt
    | succ bound ih =>
      intro m hm hPm hlt
      obtain ⟨m', hle, hAm⟩ := hA m
      obtain ⟨k, rfl⟩ := Nat.exists_eq_add_of_le hle
      obtain ⟨hPk, hrank⟩ := hforever k m hm hPm
      have hnm : n ≤ m + k := Nat.le_add_right_of_le hm
      have hnext := hlower (m + k) hnm hPk (hnot _ hnm) hAm
      obtain ⟨hP', -⟩ := hkeep (m + k) hnm hPk (hnot _ hnm)
      exact ih (m + k + 1) (Nat.le_succ_of_le hnm) hP' (by omega)
  exact hdescent (rank (e.state n) + 1) n (Nat.le_refl _) hP (Nat.lt_succ_self _)

/-! ### Making executions -/

/-- One more step in front. -/
def cons (s : State) (l : Label) (e : Execution S) (h : S.step s l (e.state 0)) : Execution S where
  state
    | 0 => s
    | n + 1 => e.state n
  label
    | 0 => l
    | n + 1 => e.label n
  step
    | 0 => h
    | n + 1 => e.step n

/-- An execution whose steps meet a guard is one of the system without the guard. -/
def of_restrict {guard : State → Label → Prop} (e : Execution (S.restrict guard)) :
    Execution S where
  state := e.state
  label := e.label
  step n := (e.step n).2

/-- What repeats from some step on repeats. -/
theorem Repeats.of_suffix {e e' : Execution S} {A : Label → Prop} {k : Nat}
    (hlabel : ∀ n, e'.label (k + n) = e.label n) (h : e.Repeats A) : e'.Repeats A := by
  intro n
  obtain ⟨m, hm, hAm⟩ := h n
  refine ⟨k + m, by omega, ?_⟩
  rw [hlabel]
  exact hAm

/-- Executing labels while they meet the guard, and then `e`. -/
theorem exists_append {init : State → Prop} {exec : State → Label → Option State}
    {guard : State → Label → Prop} [∀ s l, Decidable (guard s l)]
    (e : Execution ((ofExec init exec).restrict guard)) (ls : List Label) {s : State}
    (h : ls.foldlM (fun s l => if guard s l then exec s l else none) s = some (e.state 0)) :
    ∃ e' : Execution ((ofExec init exec).restrict guard), e'.state 0 = s ∧
      ∀ n, e'.state (ls.length + n) = e.state n ∧ e'.label (ls.length + n) = e.label n := by
  induction ls generalizing s with
  | nil =>
    refine ⟨e, (Option.some.inj h).symm, ?_⟩
    intro n
    rw [List.length_nil, Nat.zero_add]
    exact ⟨rfl, rfl⟩
  | cons l ls ih =>
    rw [List.foldlM_cons] at h
    obtain ⟨s₁, hstep, hrest⟩ := Option.bind_eq_some_iff.mp h
    obtain ⟨e₁, hstart, hsuffix⟩ := ih hrest
    split at hstep
    · next hguard =>
      refine ⟨e₁.cons s l ⟨hguard, hstart ▸ hstep⟩, rfl, ?_⟩
      intro n
      rw [List.length_cons, Nat.add_right_comm]
      exact hsuffix n
    · cases hstep

end Execution

end TransitionSystem
