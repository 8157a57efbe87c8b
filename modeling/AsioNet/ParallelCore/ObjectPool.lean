import Mathlib.Data.List.Nodup
import Mathlib.Logic.Function.Basic

/-! # Pooled objects (`parallel_core/ThreadSafeObjectPool.h`, `parallel_core/ObjectPool.h`)

    Every thread has a stack of objects nobody uses. `get_shared` takes the top of
    the calling thread's stack, or constructs an object when the stack is empty; the
    deleter of the `shared_ptr` it returns pushes the object back onto that thread's
    stack. Nothing is done to the object itself. An object is out of the pool from
    `get_shared` to the deleter (`Out`); the pool cannot see whether it is still in
    use after that.
-/

namespace AsioNet

/-- The pool of one class, with the memory of its objects. An object is known by its
    place among the constructed ones. -/
structure ThreadSafeObjectPool (T : Type) where
  /-- The stack `_pool` of each thread, its top first. -/
  _container : Nat → List Nat
  /-- How many objects have been constructed. -/
  count : Nat
  /-- The thread the object's deleter has captured. -/
  pid : Nat → Nat
  objects : Nat → T

namespace ThreadSafeObjectPool

variable {T : Type}

def get_shared (m : ThreadSafeObjectPool T) (thread : Nat) : Nat × ThreadSafeObjectPool T :=
  match m._container thread with
  | [] =>
    (m.count, { m with count := m.count + 1, pid := Function.update m.pid m.count thread })
  | ret :: _pool =>
    (ret, { m with
      _container := Function.update m._container thread _pool
      pid := Function.update m.pid ret thread })

/-- What the deleter does. -/
def release (m : ThreadSafeObjectPool T) (p : Nat) : ThreadSafeObjectPool T :=
  { m with
    _container := Function.update m._container (m.pid p) (p :: m._container (m.pid p)) }

/-- A write to the object. -/
def set (m : ThreadSafeObjectPool T) (p : Nat) (value : T) : ThreadSafeObjectPool T :=
  { m with objects := Function.update m.objects p value }

/-- The object lies in a free list. -/
def Free (m : ThreadSafeObjectPool T) (p : Nat) : Prop := ∃ thread, p ∈ m._container thread

/-- The object has been taken and not given back. -/
def Out (m : ThreadSafeObjectPool T) (p : Nat) : Prop := p < m.count ∧ ¬ m.Free p

/-- No object lies in two places. -/
structure WellFormed (m : ThreadSafeObjectPool T) : Prop where
  nodup : ∀ thread, (m._container thread).Nodup
  one_list : ∀ p thread thread', p ∈ m._container thread → p ∈ m._container thread' →
    thread = thread'
  constructed : ∀ p, m.Free p → p < m.count

/-! ### What the operations do to the free lists -/

@[simp] theorem objects_set_self (m : ThreadSafeObjectPool T) (p : Nat) (value : T) :
    (m.set p value).objects p = value := by
  simp [set]

@[simp] theorem objects_set_ne {p q : Nat} (h : q ≠ p) (m : ThreadSafeObjectPool T) (value : T) :
    (m.set p value).objects q = m.objects q := by
  simp [set, h]

@[simp] theorem objects_release (m : ThreadSafeObjectPool T) (p : Nat) :
    (m.release p).objects = m.objects := rfl

@[simp] theorem objects_get_shared (m : ThreadSafeObjectPool T) (thread : Nat) :
    (m.get_shared thread).2.objects = m.objects := by
  unfold get_shared
  split <;> rfl

@[simp] theorem free_set (m : ThreadSafeObjectPool T) (p q : Nat) (value : T) :
    (m.set p value).Free q ↔ m.Free q := Iff.rfl

@[simp] theorem out_set (m : ThreadSafeObjectPool T) (p q : Nat) (value : T) :
    (m.set p value).Out q ↔ m.Out q := Iff.rfl

theorem WellFormed.set {m : ThreadSafeObjectPool T} (h : m.WellFormed) (p : Nat) (value : T) :
    (m.set p value).WellFormed :=
  ⟨h.nodup, h.one_list, h.constructed⟩

theorem not_free_of_out {m : ThreadSafeObjectPool T} {p : Nat} (h : m.Out p) : ¬ m.Free p := h.2

/-- What `get_shared` returns, and what is left. -/
theorem get_shared_cases (m : ThreadSafeObjectPool T) (thread : Nat) :
    (m._container thread = [] ∧ m.get_shared thread =
      (m.count, { m with count := m.count + 1, pid := Function.update m.pid m.count thread })) ∨
    ∃ ret _pool, m._container thread = ret :: _pool ∧ m.get_shared thread =
      (ret, { m with
        _container := Function.update m._container thread _pool
        pid := Function.update m.pid ret thread }) := by
  unfold get_shared
  cases h : m._container thread with
  | nil => exact Or.inl ⟨rfl, rfl⟩
  | cons ret _pool => exact Or.inr ⟨ret, _pool, rfl, rfl⟩

/-- The lists after a push or a pop on one of them. -/
theorem mem_update {c : Nat → List Nat} {thread thread' p : Nat} {l : List Nat} :
    p ∈ Function.update c thread l thread' ↔
      (thread' = thread ∧ p ∈ l) ∨ (thread' ≠ thread ∧ p ∈ c thread') := by
  by_cases h : thread' = thread
  · subst h
    simp
  · simp [h]

/-- An object that is popped leaves the free lists. -/
theorem WellFormed.free_pop {m : ThreadSafeObjectPool T} (h : m.WellFormed)
    {thread ret : Nat} {_pool : List Nat} (hpool : m._container thread = ret :: _pool) (q : Nat) :
    (∃ thread', q ∈ Function.update m._container thread _pool thread') ↔ m.Free q ∧ q ≠ ret := by
  have hret : ret ∈ m._container thread := by
    rw [hpool]
    exact List.mem_cons_self
  have hnodup := h.nodup thread
  rw [hpool, List.nodup_cons] at hnodup
  constructor
  · rintro ⟨thread', hq⟩
    rcases mem_update.mp hq with ⟨rfl, htail⟩ | ⟨hne, hother⟩
    · refine ⟨⟨thread', ?_⟩, ?_⟩
      · rw [hpool]
        exact List.mem_cons_of_mem ret htail
      · rintro rfl
        exact hnodup.1 htail
    · refine ⟨⟨thread', hother⟩, ?_⟩
      rintro rfl
      exact hne (h.one_list q thread' thread hother hret)
  · rintro ⟨⟨thread', hq⟩, hne⟩
    refine ⟨thread', mem_update.mpr ?_⟩
    by_cases hthread : thread' = thread
    · rw [hthread, hpool] at hq
      exact Or.inl ⟨hthread, (List.mem_cons.mp hq).resolve_left hne⟩
    · exact Or.inr ⟨hthread, hq⟩

/-- **Taking an object.** It was not out, it is out, and nothing else changes. -/
theorem WellFormed.get_shared {m : ThreadSafeObjectPool T} (h : m.WellFormed) (thread : Nat) :
    (m.get_shared thread).2.WellFormed ∧ ¬ m.Out (m.get_shared thread).1 ∧
      ∀ q, (m.get_shared thread).2.Out q ↔ m.Out q ∨ q = (m.get_shared thread).1 := by
  rcases get_shared_cases m thread with ⟨-, heq⟩ | ⟨ret, _pool, hpool, heq⟩
  · rw [heq]
    -- a new object is in no list
    have hnew : ¬ m.Free m.count := fun hfree => absurd (h.constructed _ hfree) (Nat.lt_irrefl _)
    refine ⟨⟨h.nodup, h.one_list, ?_⟩, ?_, ?_⟩
    · intro p hp
      exact Nat.lt_succ_of_lt (h.constructed p hp)
    · rintro ⟨hlt, -⟩
      exact absurd hlt (Nat.lt_irrefl _)
    · intro q
      show (q < m.count + 1 ∧ ¬ m.Free q) ↔ (q < m.count ∧ ¬ m.Free q) ∨ q = m.count
      constructor
      · rintro ⟨hlt, hq⟩
        rcases Nat.lt_succ_iff_lt_or_eq.mp hlt with hlt | rfl
        · exact Or.inl ⟨hlt, hq⟩
        · exact Or.inr rfl
      · rintro (⟨hlt, hq⟩ | rfl)
        · exact ⟨Nat.lt_succ_of_lt hlt, hq⟩
        · exact ⟨Nat.lt_succ_self _, hnew⟩
  · rw [heq]
    have hfree : m.Free ret := ⟨thread, by rw [hpool]; exact List.mem_cons_self⟩
    have hpop := h.free_pop hpool
    refine ⟨⟨?_, ?_, ?_⟩, fun hout => hout.2 hfree, ?_⟩
    · intro thread'
      by_cases hthread : thread' = thread
      · subst hthread
        have hnodup := h.nodup thread'
        rw [hpool, List.nodup_cons] at hnodup
        simpa using hnodup.2
      · simpa [hthread] using h.nodup thread'
    · intro p t t' ht ht'
      have hmem : ∀ u, p ∈ Function.update m._container thread _pool u → p ∈ m._container u := by
        intro u hu
        rcases mem_update.mp hu with ⟨rfl, htail⟩ | ⟨-, hother⟩
        · rw [hpool]
          exact List.mem_cons_of_mem ret htail
        · exact hother
      exact h.one_list p t t' (hmem t ht) (hmem t' ht')
    · intro p hp
      exact h.constructed p ((hpop p).mp hp).1
    · intro q
      have hcount := h.constructed ret hfree
      show (q < m.count ∧ ¬ ∃ thread', q ∈ Function.update m._container thread _pool thread') ↔
        (q < m.count ∧ ¬ m.Free q) ∨ q = ret
      rw [hpop q]
      constructor
      · rintro ⟨hlt, hq⟩
        by_cases hqr : q = ret
        · exact Or.inr hqr
        · exact Or.inl ⟨hlt, fun hfree => hq ⟨hfree, hqr⟩⟩
      · rintro (⟨hlt, hq⟩ | rfl)
        · exact ⟨hlt, fun hfree => hq hfree.1⟩
        · exact ⟨hcount, fun hfree => hfree.2 rfl⟩

/-- An object that is given back joins the free lists. -/
theorem free_release (m : ThreadSafeObjectPool T) (p q : Nat) :
    (m.release p).Free q ↔ m.Free q ∨ q = p := by
  constructor
  · rintro ⟨thread, hq⟩
    rcases mem_update.mp hq with ⟨rfl, hpush⟩ | ⟨-, hother⟩
    · rcases List.mem_cons.mp hpush with rfl | hold
      · exact Or.inr rfl
      · exact Or.inl ⟨_, hold⟩
    · exact Or.inl ⟨thread, hother⟩
  · rintro (⟨thread, hq⟩ | rfl)
    · refine ⟨thread, mem_update.mpr ?_⟩
      by_cases hthread : thread = m.pid p
      · subst hthread
        exact Or.inl ⟨rfl, List.mem_cons_of_mem p hq⟩
      · exact Or.inr ⟨hthread, hq⟩
    · exact ⟨m.pid q, mem_update.mpr (Or.inl ⟨rfl, List.mem_cons_self⟩)⟩

theorem out_release (m : ThreadSafeObjectPool T) (p q : Nat) :
    (m.release p).Out q ↔ m.Out q ∧ q ≠ p := by
  show (q < m.count ∧ ¬ (m.release p).Free q) ↔ (q < m.count ∧ ¬ m.Free q) ∧ q ≠ p
  rw [free_release, not_or, and_assoc]

/-- **Giving an object back** that is out. -/
theorem WellFormed.release {m : ThreadSafeObjectPool T} (h : m.WellFormed) {p : Nat}
    (hout : m.Out p) : (m.release p).WellFormed := by
  have hlist : ∀ thread, p ∉ m._container thread := fun thread hp => hout.2 ⟨thread, hp⟩
  refine ⟨?_, ?_, ?_⟩
  · intro thread
    by_cases hthread : thread = m.pid p
    · subst hthread
      show (Function.update m._container (m.pid p) (p :: m._container (m.pid p)) (m.pid p)).Nodup
      rw [Function.update_self]
      exact List.nodup_cons.mpr ⟨hlist _, h.nodup _⟩
    · show (Function.update m._container (m.pid p) (p :: m._container (m.pid p)) thread).Nodup
      rw [Function.update_of_ne hthread]
      exact h.nodup thread
  · intro q t t' ht ht'
    have hmem : ∀ u, q ∈ (m.release p)._container u →
        (u = m.pid p ∧ q = p) ∨ q ∈ m._container u := by
      intro u hu
      rcases mem_update.mp hu with ⟨rfl, hpush⟩ | ⟨-, hother⟩
      · rcases List.mem_cons.mp hpush with rfl | hold
        · exact Or.inl ⟨rfl, rfl⟩
        · exact Or.inr hold
      · exact Or.inr hother
    rcases hmem t ht with ⟨rfl, rfl⟩ | ht <;> rcases hmem t' ht' with ⟨rfl, hqp⟩ | ht'
    · rfl
    · exact absurd ht' (hlist t')
    · exact absurd (hqp ▸ ht) (hlist t)
    · exact h.one_list q t t' ht ht'
  · intro q hq
    rcases (free_release m p q).mp hq with hq | rfl
    · exact h.constructed q hq
    · exact hout.1

end ThreadSafeObjectPool

end AsioNet
