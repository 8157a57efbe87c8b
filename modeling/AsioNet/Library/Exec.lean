import Mathlib.Init

/-! # Imperative code that may stop

    `Exec ε σ` are the computations on a state of type `σ` that return a value or
    stop with an `ε`; what has been done to the state up to there stays done.
    `exec` runs one. Two rules take a sequence of statements apart, one rule
    carries an invariant through a counting loop.
-/

/-- State and exceptions, the state surviving the exception. -/
abbrev Exec (ε σ : Type) : Type → Type := ExceptT ε (StateM σ)

namespace Exec

variable {ε σ τ α β : Type}

/-- Run `x` from the state `s`. -/
def exec (x : Exec ε σ α) (s : σ) : Except ε α × σ := x.run.run s

/-- The computation that a function of the state describes. -/
def of (f : σ → Except ε α × σ) : Exec ε σ α := ExceptT.mk f

@[simp] theorem exec_of (f : σ → Except ε α × σ) (s : σ) : exec (of f) s = f s := rfl

@[simp] theorem exec_pure (a : α) (s : σ) : exec (pure a : Exec ε σ α) s = (.ok a, s) := rfl

@[simp] theorem exec_throw (e : ε) (s : σ) :
    exec (throw e : Exec ε σ α) s = (.error e, s) := rfl

@[simp] theorem exec_get (s : σ) : exec (get : Exec ε σ σ) s = (.ok s, s) := rfl

@[simp] theorem exec_set (s s' : σ) : exec (set s' : Exec ε σ PUnit) s = (.ok .unit, s') := rfl

@[simp] theorem exec_modify (f : σ → σ) (s : σ) :
    exec (modify f : Exec ε σ PUnit) s = (.ok .unit, f s) := rfl

/-- A value computed without touching the state. -/
def lift (x : Except ε α) : Exec ε σ α := of fun s => (x, s)

@[simp] theorem exec_lift (x : Except ε α) (s : σ) : exec (lift x) s = (x, s) := rfl

/-! ### Sequences of statements -/

theorem exec_bind_of_ok {x : Exec ε σ α} {s s' : σ} {a : α} (h : exec x s = (.ok a, s'))
    (f : α → Exec ε σ β) : exec (x >>= f) s = exec (f a) s' := by
  have hbind : exec (x >>= f) s =
      (fun r : Except ε α × σ => (exec (ExceptT.bindCont f r.1) r.2 : Except ε β × σ))
        (exec x s) := rfl
  rw [hbind, h]
  rfl

theorem exec_bind_of_error {x : Exec ε σ α} {s s' : σ} {e : ε} (h : exec x s = (.error e, s'))
    (f : α → Exec ε σ β) : exec (x >>= f) s = (.error e, s') := by
  have hbind : exec (x >>= f) s =
      (fun r : Except ε α × σ => (exec (ExceptT.bindCont f r.1) r.2 : Except ε β × σ))
        (exec x s) := rfl
  rw [hbind, h]
  rfl

/-- A sequence that returns has returned from its first part. -/
theorem of_exec_bind_ok {x : Exec ε σ α} {f : α → Exec ε σ β} {s : σ} {b : β}
    (h : (exec (x >>= f) s).1 = .ok b) :
    ∃ a s₁, exec x s = (.ok a, s₁) ∧ (exec (f a) s₁).1 = .ok b := by
  rcases hx : exec x s with ⟨_ | a, s₁⟩
  · rw [exec_bind_of_error hx] at h
    simp at h
  · rw [exec_bind_of_ok hx] at h
    exact ⟨a, s₁, rfl, h⟩

/-- A sequence whose first part stops goes no further. -/
theorem exec_bind_stops {P : σ → Prop} {x : Exec ε σ α} {s : σ}
    (h : ∃ e s', exec x s = (.error e, s') ∧ P s') (f : α → Exec ε σ β) :
    ∃ e s', exec (x >>= f) s = (.error e, s') ∧ P s' := by
  obtain ⟨e, s', hrun, hs'⟩ := h
  exact ⟨e, s', exec_bind_of_error hrun f, hs'⟩

/-- What both parts of a sequence keep. -/
theorem exec_bind_keeps {P : σ → Prop} {x : Exec ε σ α} {f : α → Exec ε σ β} {s : σ}
    (hx : P (exec x s).2) (hf : ∀ a s', P s' → P (exec (f a) s').2) :
    P (exec (x >>= f) s).2 := by
  rcases hrun : exec x s with ⟨_ | a, s'⟩
  · rw [exec_bind_of_error hrun]
    rw [hrun] at hx
    exact hx
  · rw [exec_bind_of_ok hrun]
    rw [hrun] at hx
    exact hf a s' hx

theorem of_exec_bind_eq_ok {x : Exec ε σ α} {f : α → Exec ε σ β} {s s' : σ} {b : β}
    (h : exec (x >>= f) s = (.ok b, s')) :
    ∃ a s₁, exec x s = (.ok a, s₁) ∧ exec (f a) s₁ = (.ok b, s') := by
  rcases hx : exec x s with ⟨_ | a, s₁⟩
  · rw [exec_bind_of_error hx] at h
    simp at h
  · rw [exec_bind_of_ok hx] at h
    exact ⟨a, s₁, rfl, h⟩

theorem of_exec_lift_bind_ok {x : Except ε α} {f : α → Exec ε σ β} {s s' : σ} {b : β}
    (h : exec (lift x >>= f) s = (.ok b, s')) : ∃ a, x = .ok a ∧ exec (f a) s = (.ok b, s') := by
  rcases x with e | a
  · rw [exec_bind_of_error (exec_lift _ s)] at h
    simp at h
  · rw [exec_bind_of_ok (exec_lift _ s)] at h
    exact ⟨a, rfl, h⟩

@[simp] theorem exec_get_bind (f : σ → Exec ε σ β) (s : σ) :
    exec (get >>= f) s = exec (f s) s :=
  exec_bind_of_ok (exec_get s) f

@[simp] theorem exec_set_bind (s s' : σ) (f : PUnit → Exec ε σ β) :
    exec (set s' >>= f) s = exec (f .unit) s' :=
  exec_bind_of_ok (exec_set s s') f

@[simp] theorem exec_modify_bind (g : σ → σ) (f : PUnit → Exec ε σ β) (s : σ) :
    exec (modify g >>= f) s = exec (f .unit) (g s) :=
  exec_bind_of_ok (exec_modify g s) f

@[simp] theorem exec_throw_bind (e : ε) (f : α → Exec ε σ β) (s : σ) :
    exec ((throw e : Exec ε σ α) >>= f) s = (.error e, s) :=
  exec_bind_of_error (exec_throw e s) f

@[simp] theorem exec_ite (p : Prop) [Decidable p] (x y : Exec ε σ α) (s : σ) :
    exec (if p then x else y) s = if p then exec x s else exec y s := by
  split
  · rfl
  · rfl

/-! ### Part of the state -/

/-- Run `x` on a part of the state. -/
def zoom (view : σ → τ) (put : τ → σ → σ) (x : Exec ε τ α) : Exec ε σ α :=
  of fun s => ((exec x (view s)).1, put (exec x (view s)).2 s)

@[simp] theorem exec_zoom (view : σ → τ) (put : τ → σ → σ) (x : Exec ε τ α) (s : σ) :
    exec (zoom view put x) s = ((exec x (view s)).1, put (exec x (view s)).2 s) := rfl

/-! ### Counting loops -/

/-- `for (i = start; count > 0; ++i, --count) body(i)` -/
def for_loop (body : Nat → Exec ε σ PUnit) : Nat → Nat → Exec ε σ PUnit
  | 0, _ => pure .unit
  | count + 1, i => do
    body i
    for_loop body count (i + 1)

/-- **Loop rule** for a body that returns: what it keeps holds at the end. -/
theorem exec_for_loop {body : Nat → Exec ε σ PUnit} (Inv : Nat → σ → Prop) {stop : Nat}
    (hbody : ∀ i s, i < stop → Inv i s → ∃ s', exec (body i) s = (.ok .unit, s') ∧ Inv (i + 1) s')
    {count start : Nat} (hle : start + count = stop) {s : σ} (hs : Inv start s) :
    ∃ s', exec (for_loop body count start) s = (.ok .unit, s') ∧ Inv stop s' := by
  induction count generalizing start s with
  | zero =>
    obtain rfl : start = stop := by omega
    exact ⟨s, rfl, hs⟩
  | succ count ih =>
    obtain ⟨s₁, hrun, hinv⟩ := hbody start s (by omega) hs
    obtain ⟨s', hrest, hend⟩ := ih (by omega) hinv
    refine ⟨s', ?_, hend⟩
    rw [for_loop, exec_bind_of_ok hrun, hrest]

/-- Loop rule for a loop that has returned: what its returning rounds keep holds. -/
theorem of_for_loop_ok {body : Nat → Exec ε σ PUnit} (Inv : Nat → σ → Prop) {stop : Nat}
    (hbody : ∀ i s s', i < stop → Inv i s → exec (body i) s = (.ok .unit, s') → Inv (i + 1) s')
    {count start : Nat} (hle : start + count = stop) {s s' : σ}
    (hrun : exec (for_loop body count start) s = (.ok .unit, s')) (hs : Inv start s) :
    Inv stop s' := by
  induction count generalizing start s with
  | zero =>
    obtain rfl : start = stop := by omega
    rw [for_loop, exec_pure] at hrun
    rw [← (Prod.mk.inj hrun).2]
    exact hs
  | succ count ih =>
    rw [for_loop] at hrun
    rcases hfirst : exec (body start) s with ⟨_ | _, s₁⟩
    · rw [exec_bind_of_error hfirst] at hrun
      simp at hrun
    · rw [exec_bind_of_ok hfirst] at hrun
      exact ih (by omega) hrun (hbody start s s₁ (by omega) hs hfirst)

/-- What every round keeps, also the one that stops, holds after the loop. -/
theorem for_loop_keeps {body : Nat → Exec ε σ PUnit} (Inv : σ → Prop)
    (hbody : ∀ i s, Inv s → Inv (exec (body i) s).2) (count start : Nat) {s : σ} (hs : Inv s) :
    Inv (exec (for_loop body count start) s).2 := by
  induction count generalizing start s with
  | zero => exact hs
  | succ count ih =>
    rw [for_loop]
    have hnext := hbody start s hs
    rcases hrun : exec (body start) s with ⟨_ | _, s₁⟩
    · rw [exec_bind_of_error hrun]
      rw [hrun] at hnext
      exact hnext
    · rw [exec_bind_of_ok hrun]
      rw [hrun] at hnext
      exact ih (start + 1) hnext

end Exec
