import Mathlib.Init

/-! # Computations that log what they do

    A `Traced ε err α` has a result, which may be an error of type `err`, and the
    events of type `ε` on the way to it; after an error nothing more is logged.

    `Always P x` says that all events of `x` satisfy `P`. There is one rule for each
    way to build a computation: `always_act`, `always_bind`, `always_ite` and, for
    loops over a list, `always_foldlM`. The lemmas `result_…` erase the log, which
    leaves the computation in `Except`.

    `Meets P x Q` says in addition that `x` runs through and that its result
    satisfies `Q`; a loop that counts has its invariant indexed by the count.
-/

structure Traced (ε err α : Type) where
  log : List ε
  result : Except err α

namespace Traced

variable {ε err α β σ : Type}

instance : Monad (Traced ε err) where
  pure a := ⟨[], .ok a⟩
  bind x f :=
    match x.result with
    | .ok a => ⟨x.log ++ (f a).log, (f a).result⟩
    | .error e => ⟨x.log, .error e⟩

instance : LawfulMonad (Traced ε err) :=
  .mk' _
    (by
      rintro α ⟨log, result⟩
      cases result with
      | ok a => exact congrArg (Traced.mk · (.ok a)) (List.append_nil log)
      | error e => rfl)
    (fun _ _ => rfl)
    (by
      rintro α β γ ⟨log, result⟩ f g
      cases result with
      | error e => rfl
      | ok a =>
        show (match (f a).result with
          | .ok b => (⟨log ++ (f a).log ++ (g b).log, (g b).result⟩ : Traced ε err γ)
          | .error e => ⟨log ++ (f a).log, .error e⟩) =
          ⟨log ++ (f a >>= g).log, (f a >>= g).result⟩
        have hfa : f a >>= g = (match (f a).result with
          | .ok b => (⟨(f a).log ++ (g b).log, (g b).result⟩ : Traced ε err γ)
          | .error e => ⟨(f a).log, .error e⟩) := rfl
        rw [hfa]
        cases (f a).result with
        | ok b => exact congrArg (Traced.mk · (g b).result) (List.append_assoc ..)
        | error e => rfl)

theorem ite_bind {c : Prop} [Decidable c] (x y : Traced ε err α) (f : α → Traced ε err β) :
    (if c then x else y) >>= f = if c then x >>= f else y >>= f :=
  apply_ite (· >>= f) c x y

/-- A computation that logs nothing. -/
def lift (x : Except err α) : Traced ε err α := ⟨[], x⟩

/-- A computation that logs one event first. -/
def act (e : ε) (x : Except err α) : Traced ε err α := ⟨[e], x⟩

/-! ### Erasing the log -/

@[simp] theorem result_pure (a : α) : (pure a : Traced ε err α).result = .ok a := rfl

@[simp] theorem result_lift (x : Except err α) : (lift x : Traced ε err α).result = x := rfl

@[simp] theorem result_act (e : ε) (x : Except err α) : (act e x).result = x := rfl

@[simp] theorem result_bind (x : Traced ε err α) (f : α → Traced ε err β) :
    (x >>= f).result = x.result >>= fun a => (f a).result := by
  show (match x.result with
    | .ok a => (⟨x.log ++ (f a).log, (f a).result⟩ : Traced ε err β)
    | .error e => ⟨x.log, .error e⟩).result = _
  cases x.result with
  | ok a => rfl
  | error e => rfl

@[simp] theorem result_ite {c : Prop} [Decidable c] (x y : Traced ε err α) :
    (if c then x else y).result = if c then x.result else y.result :=
  apply_ite result c x y

theorem result_foldlM (f : σ → α → Traced ε err σ) (s : σ) (as : List α) :
    (as.foldlM f s).result = as.foldlM (fun s a => (f s a).result) s := by
  induction as generalizing s with
  | nil => rfl
  | cons a as ih =>
    rw [List.foldlM_cons, List.foldlM_cons, result_bind]
    congr 1
    funext s'
    exact ih s'

/-! ### What all events satisfy -/

/-- All events of `x` satisfy `P`. -/
def Always (P : ε → Prop) (x : Traced ε err α) : Prop := ∀ e ∈ x.log, P e

variable {P : ε → Prop}

@[simp] theorem always_pure (a : α) : Always P (pure a : Traced ε err α) := by
  intro e he
  cases he

@[simp] theorem always_lift (x : Except err α) : Always P (lift x : Traced ε err α) := by
  intro e he
  cases he

@[simp] theorem always_act (e : ε) (x : Except err α) : Always P (act e x) ↔ P e := by
  unfold Always act
  simp

/-- **Sequences**: what comes first, and whatever follows its result. -/
theorem always_bind {x : Traced ε err α} {f : α → Traced ε err β} :
    Always P (x >>= f) ↔ Always P x ∧ ∀ a, x.result = .ok a → Always P (f a) := by
  have hlog : (x >>= f).log = (match x.result with
    | .ok a => (⟨x.log ++ (f a).log, (f a).result⟩ : Traced ε err β)
    | .error e => ⟨x.log, .error e⟩).log := rfl
  unfold Always
  rw [hlog]
  cases hx : x.result with
  | ok a =>
    simp only [List.mem_append]
    constructor
    · intro h
      refine ⟨fun e he => h e (Or.inl he), ?_⟩
      intro a' ha' e he
      obtain rfl := Except.ok.inj ha'
      exact h e (Or.inr he)
    · rintro ⟨hx, hf⟩ e (he | he)
      · exact hx e he
      · exact hf a rfl e he
  | error err =>
    refine ⟨fun h => ⟨h, ?_⟩, fun h => h.1⟩
    intro a ha
    cases ha

@[simp] theorem always_ite {c : Prop} [Decidable c] {x y : Traced ε err α} :
    Always P (if c then x else y) ↔ (c → Always P x) ∧ (¬ c → Always P y) := by
  by_cases hc : c
  · rw [if_pos hc]
    exact ⟨fun h => ⟨fun _ => h, fun hn => absurd hc hn⟩, fun h => h.1 hc⟩
  · rw [if_neg hc]
    exact ⟨fun h => ⟨fun hp => absurd hp hc, fun _ => h⟩, fun h => h.2 hc⟩

/-- **Loops**: each round, from any state. -/
theorem always_foldlM {f : σ → α → Traced ε err σ} {as : List α}
    (h : ∀ s, ∀ a ∈ as, Always P (f s a)) (s : σ) : Always P (as.foldlM f s) := by
  induction as generalizing s with
  | nil => exact always_pure s
  | cons a as ih =>
    rw [List.foldlM_cons, always_bind]
    refine ⟨h s a List.mem_cons_self, ?_⟩
    intro s' _
    exact ih (fun s a ha => h s a (List.mem_cons_of_mem _ ha)) s'

/-- After a step that goes through, only the rest is left to look at. -/
theorem always_bind_of_ok {x : Traced ε err α} {f : α → Traced ε err β} {a : α}
    (hx : x.result = .ok a) : Always P (x >>= f) ↔ Always P x ∧ Always P (f a) := by
  rw [always_bind, hx]
  constructor
  · rintro ⟨h, hf⟩
    exact ⟨h, hf a rfl⟩
  · rintro ⟨h, hf⟩
    refine ⟨h, ?_⟩
    intro a' ha'
    obtain rfl := Except.ok.inj ha'
    exact hf

/-! ### Running through -/

/-- All events of `x` satisfy `P`, there is no error, and the result satisfies `Q`. -/
def Meets (P : ε → Prop) (x : Traced ε err α) (Q : α → Prop) : Prop :=
  Always P x ∧ ∃ a, x.result = .ok a ∧ Q a

variable {Q : α → Prop} {R : β → Prop}

theorem meets_pure {a : α} (h : Q a) : Meets P (pure a : Traced ε err α) Q :=
  ⟨always_pure a, a, rfl, h⟩

theorem meets_act {e : ε} {x : Except err α} {a : α} (he : P e) (hx : x = .ok a) (h : Q a) :
    Meets P (act e x) Q :=
  ⟨(always_act e x).mpr he, a, hx, h⟩

theorem meets_lift {x : Except err α} {a : α} (hx : x = .ok a) (h : Q a) :
    Meets P (lift x : Traced ε err α) Q :=
  ⟨always_lift x, a, hx, h⟩

theorem Meets.bind {x : Traced ε err α} {f : α → Traced ε err β} (hx : Meets P x Q)
    (hf : ∀ a, Q a → Meets P (f a) R) : Meets P (x >>= f) R := by
  obtain ⟨hlog, a, ha, hQ⟩ := hx
  obtain ⟨hlog', b, hb, hR⟩ := hf a hQ
  refine ⟨(always_bind_of_ok ha).mpr ⟨hlog, hlog'⟩, b, ?_, hR⟩
  rw [result_bind, ha]
  exact hb

/-- A step whose result is known. -/
theorem Meets.bind_eq {x : Traced ε err α} {a : α} {f : α → Traced ε err β}
    (hx : Meets P x (· = a)) (hf : Meets P (f a) R) : Meets P (x >>= f) R := by
  apply hx.bind
  intro a' ha'
  rw [ha']
  exact hf

theorem Meets.imp {x : Traced ε err α} {Q' : α → Prop} (hx : Meets P x Q)
    (h : ∀ a, Q a → Q' a) : Meets P x Q' := by
  obtain ⟨hlog, a, ha, hQ⟩ := hx
  exact ⟨hlog, a, ha, h a hQ⟩

/-- **Counting loops**: `I i` holds before round `i`. -/
theorem meets_foldlM_range {I : Nat → σ → Prop} {f : σ → Nat → Traced ε err σ} {s : σ} {n : Nat}
    (h0 : I 0 s) (hstep : ∀ i, i < n → ∀ s, I i s → Meets P (f s i) (I (i + 1))) :
    Meets P ((List.range n).foldlM f s) (I n) := by
  induction n with
  | zero => exact meets_pure h0
  | succ n ih =>
    rw [List.range_succ, List.foldlM_append]
    apply (ih fun i hi => hstep i (Nat.lt_succ_of_lt hi)).bind
    intro s' hs'
    rw [List.foldlM_cons]
    apply (hstep n (Nat.lt_succ_self n) s' hs').bind
    intro s'' hs''
    exact meets_pure hs''

/-- **Simulation**: a loop follows a pure one if each round follows its round. -/
theorem meets_foldlM_foldl {τ : Type} {Rel : σ → τ → Prop} {f : σ → α → Traced ε err σ}
    {g : τ → α → τ} {as : List α} {s : σ} {t : τ} (h : Rel s t)
    (hstep : ∀ a ∈ as, ∀ s t, Rel s t → Meets P (f s a) (Rel · (g t a))) :
    Meets P (as.foldlM f s) (Rel · (as.foldl g t)) := by
  induction as generalizing s t with
  | nil => exact meets_pure h
  | cons a as ih =>
    rw [List.foldlM_cons, List.foldl_cons]
    apply (hstep a List.mem_cons_self s t h).bind
    intro s' hs'
    exact ih hs' fun b hb => hstep b (List.mem_cons_of_mem a hb)

end Traced
