import Mathlib.Init

/-! # Two computations side by side

    `Related R x y`: both computations end in the same error, or in results that `R`
    relates. There is one rule for each way to build a computation; where both do the
    same thing first, `bind_same` looks at what follows it.
-/

namespace SideBySide

variable {err α β γ δ : Type}

/-- Both end in the same error, or in related results. -/
inductive Related (R : α → β → Prop) : Except err α → Except err β → Prop where
  | ok {a : α} {b : β} : R a b → Related R (.ok a) (.ok b)
  | error (e : err) : Related R (.error e) (.error e)

variable {R : α → β → Prop} {T : γ → δ → Prop}

/-- **Sequences**: related results are passed on. -/
theorem Related.bind {x : Except err α} {y : Except err β} {f : α → Except err γ}
    {g : β → Except err δ} (h : Related R x y) (hfg : ∀ a b, R a b → Related T (f a) (g b)) :
    Related T (x >>= f) (y >>= g) := by
  cases h with
  | ok hR => exact hfg _ _ hR
  | error e => exact .error e

/-- The same computation first. -/
theorem Related.bind_same (x : Except err α) {f : α → Except err γ} {g : α → Except err δ}
    (hfg : ∀ a, x = .ok a → Related T (f a) (g a)) : Related T (x >>= f) (x >>= g) := by
  cases x with
  | ok a => exact hfg a rfl
  | error e => exact .error e

/-- **Loops**: each round keeps the relation. -/
theorem Related.foldlM {ι : Type} {f : α → ι → Except err α} {g : β → ι → Except err β}
    (hstep : ∀ a b i, R a b → Related R (f a i) (g b i)) (is : List ι) {a : α} {b : β}
    (h : R a b) : Related R (is.foldlM f a) (is.foldlM g b) := by
  induction is generalizing a b with
  | nil => exact .ok h
  | cons i is ih =>
    rw [List.foldlM_cons, List.foldlM_cons]
    exact (hstep a b i h).bind fun a' b' h' => ih h'

/-- What the first computation comes to, the second one comes to as well. -/
theorem Related.exists_ok {x : Except err α} {y : Except err β} (h : Related R x y) {a : α}
    (hx : x = .ok a) : ∃ b, y = .ok b ∧ R a b := by
  cases h with
  | ok hR =>
    cases hx
    exact ⟨_, rfl, hR⟩
  | error e => cases hx

end SideBySide
