import AsioNet.Library.TransitionSystem
import Mathlib.Algebra.Group.Nat.Defs
import Mathlib.Data.List.Nodup
import Mathlib.Data.List.Perm.Basic

/-! # One object pool and its counter (`parallel_core/ObjectPool.h`)

    A pool keeps the objects nobody uses on a stack and counts all objects it
    has created. `get` takes the top of the stack, or creates an object and
    counts it; `release` pushes; `clear` deletes what lies on the stack.

    Who owns what is right in every run. The counter is right in the runs in
    which every creation succeeds and nobody clears: `get` counts an object
    before it has been given any memory, and the loop of `clear` takes one off
    the counter before it looks whether there is an object left.
-/

namespace AsioNet

open TransitionSystem

structure ObjectPool where
  _count : Int32
  /-- Its top first. -/
  _pool : List Nat

namespace ObjectPool

def countAll (p : ObjectPool) : Int32 := p._count

/-- `size()` as an `int`. -/
def countInactive (p : ObjectPool) : Int32 := Int32.ofNat p._pool.length

def countActive (p : ObjectPool) : Int32 := p._count - p.countInactive

/-- `one` is what `new(std::nothrow)` returns when it is called, none for null. -/
def get (p : ObjectPool) (one : Option Nat) : Option Nat × ObjectPool :=
  match p._pool with
  | [] => (one, { p with _count := p._count + 1 })
  | ret :: _pool => (some ret, { p with _pool := _pool })

def release (p : ObjectPool) (element : Nat) : ObjectPool :=
  { p with _pool := element :: p._pool }

/-- The loop of `clear` over the stack; also returns the objects deleted. -/
def clear_loop (count : Int32) : List Nat → ObjectPool × List Nat
  | [] => (⟨count - 1, []⟩, [])
  | one :: _pool =>
    let r := clear_loop (count - 1) _pool
    (r.1, one :: r.2)

def clear (p : ObjectPool) : ObjectPool × List Nat := clear_loop p._count p._pool

/-- The loop empties the stack, and takes one more off the counter. -/
theorem clear_loop_eq (count : Int32) (_pool : List Nat) :
    clear_loop count _pool = (⟨count - 1 - Int32.ofNat _pool.length, []⟩, _pool) := by
  induction _pool generalizing count with
  | nil => simp [clear_loop]
  | cons one _pool ih =>
    rw [clear_loop, ih]
    have hcount : count - 1 - 1 - Int32.ofNat _pool.length =
        count - 1 - Int32.ofNat (one :: _pool).length := by
      rw [List.length_cons, Int32.ofNat_add, Int32.sub_sub (count - 1),
        Int32.add_comm (Int32.ofNat _pool.length)]
      rfl
    rw [hcount]

end ObjectPool

/-- What is done with a pool. A `get` that has to create an object may find no memory. -/
inductive pool_event where
  | get (allocated : Bool)
  | release (p : Nat)
  | clear

/-- A pool and the objects it has created, known by their number. -/
structure pool_run where
  pool : ObjectPool
  created : Nat
  deleted : List Nat
  /-- Handed out and not released. -/
  out : List Nat

namespace pool_run

def exec_get (s : pool_run) (allocated : Bool) : pool_run :=
  let ret := s.pool.get (if allocated then some s.created else none)
  { s with
    pool := ret.2
    created := if s.pool._pool = [] ∧ allocated then s.created + 1 else s.created
    out := ret.1.toList ++ s.out }

/-- Only what is out is released, and so only once. -/
def exec (s : pool_run) : pool_event → Option pool_run
  | .get allocated => some (s.exec_get allocated)
  | .release p =>
    if p ∈ s.out then some { s with pool := s.pool.release p, out := s.out.erase p } else none
  | .clear => some { s with pool := s.pool.clear.1, deleted := s.pool.clear.2 ++ s.deleted }

def new : pool_run where
  pool := ⟨0, []⟩
  created := 0
  deleted := []
  out := []

def system : System pool_run pool_event := System.ofExec (fun s => s = new) exec

/-- The pool owns what it should, and its counters say so. -/
structure CountsRight (s : pool_run) : Prop where
  disjoint : ∀ p ∈ s.pool._pool, p ∉ s.out
  /-- No object is handed out twice at once. -/
  once : s.out.Nodup
  all : s.pool.countAll.toInt = (s.created : Int) - s.deleted.length
  inactive : s.pool.countInactive.toInt = s.pool._pool.length
  active : s.pool.countActive.toInt = s.out.length
  active_nonneg : 0 ≤ s.pool.countActive.toInt

/-- The step keeps the counter right: it does not clear, and an object that is
    counted is created and leaves the number of objects an `int`. -/
def KeepsCount (s : pool_run) : pool_event → Prop
  | .get allocated =>
    s.pool._pool = [] → allocated = true ∧ s.created - s.deleted.length + 1 < 2 ^ 31
  | .release _ => True
  | .clear => False

/-! ### Who owns what -/

/-- Every object created is free, out or deleted, and only one of these. -/
structure Owned (s : pool_run) : Prop where
  free : s.pool._pool.Nodup
  out : s.out.Nodup
  disjoint : ∀ p ∈ s.pool._pool, p ∉ s.out
  free_created : ∀ p ∈ s.pool._pool, p < s.created
  out_created : ∀ p ∈ s.out, p < s.created
  total : s.created = s.deleted.length + s.pool._pool.length + s.out.length

/-- What `get` does. -/
theorem exec_get_cases (s : pool_run) (allocated : Bool) :
    (s.pool._pool = [] ∧ allocated = false ∧
      s.exec_get allocated = { s with pool := ⟨s.pool._count + 1, []⟩ }) ∨
    (s.pool._pool = [] ∧ allocated = true ∧
      s.exec_get allocated = { s with
        pool := ⟨s.pool._count + 1, []⟩
        created := s.created + 1
        out := s.created :: s.out }) ∨
    ∃ ret _pool, s.pool._pool = ret :: _pool ∧
      s.exec_get allocated = { s with
        pool := ⟨s.pool._count, _pool⟩
        out := ret :: s.out } := by
  unfold exec_get ObjectPool.get
  cases hpool : s.pool._pool with
  | nil =>
    cases allocated with
    | false => exact Or.inl ⟨rfl, rfl, by simp⟩
    | true => exact Or.inr (Or.inl ⟨rfl, rfl, by simp⟩)
  | cons ret _pool => exact Or.inr (Or.inr ⟨ret, _pool, rfl, by simp⟩)

theorem owned_get {s : pool_run} (h : Owned s) (allocated : Bool) :
    Owned (s.exec_get allocated) := by
  rcases exec_get_cases s allocated with ⟨hnil, _, heq⟩ | ⟨hnil, _, heq⟩ |
    ⟨ret, _pool, hpool, heq⟩
  · rw [heq]
    have htotal := h.total
    rw [hnil] at htotal
    exact ⟨List.nodup_nil, h.out, fun _ hp => absurd hp List.not_mem_nil,
      fun _ hp => absurd hp List.not_mem_nil, h.out_created, htotal⟩
  · rw [heq]
    have hnew : s.created ∉ s.out := fun hout => Nat.lt_irrefl _ (h.out_created _ hout)
    refine ⟨List.nodup_nil, List.nodup_cons.mpr ⟨hnew, h.out⟩,
      fun _ hp => absurd hp List.not_mem_nil, fun _ hp => absurd hp List.not_mem_nil, ?_, ?_⟩
    · intro p hp
      rcases List.mem_cons.mp hp with rfl | hp
      · exact Nat.lt_succ_self _
      · exact Nat.lt_succ_of_lt (h.out_created p hp)
    · have htotal := h.total
      rw [hnil] at htotal
      simp only [List.length_cons, List.length_nil] at htotal ⊢
      omega
  · rw [heq]
    have hfree := h.free
    have hdisjoint := h.disjoint
    have hcreated := h.free_created
    have htotal := h.total
    rw [hpool] at hfree hdisjoint hcreated htotal
    obtain ⟨hret, hnodup⟩ := List.nodup_cons.mp hfree
    refine ⟨hnodup, List.nodup_cons.mpr ⟨hdisjoint ret List.mem_cons_self, h.out⟩, ?_, ?_, ?_, ?_⟩
    · intro p hp hout
      rcases List.mem_cons.mp hout with rfl | hout
      · exact hret hp
      · exact hdisjoint p (List.mem_cons_of_mem ret hp) hout
    · intro p hp
      exact hcreated p (List.mem_cons_of_mem ret hp)
    · intro p hp
      rcases List.mem_cons.mp hp with rfl | hp
      · exact hcreated p List.mem_cons_self
      · exact h.out_created p hp
    · simp only [List.length_cons] at htotal ⊢
      omega

theorem owned_release {s : pool_run} (h : Owned s) {p : Nat} (hp : p ∈ s.out) :
    Owned { s with pool := s.pool.release p, out := s.out.erase p } := by
  refine ⟨?_, h.out.erase p, ?_, ?_, ?_, ?_⟩
  · exact List.nodup_cons.mpr ⟨fun hfree => h.disjoint p hfree hp, h.free⟩
  · intro q hq hout
    rcases List.mem_cons.mp hq with rfl | hq
    · exact h.out.not_mem_erase hout
    · exact h.disjoint q hq (List.mem_of_mem_erase hout)
  · intro q hq
    rcases List.mem_cons.mp hq with rfl | hq
    · exact h.out_created q hp
    · exact h.free_created q hq
  · intro q hq
    exact h.out_created q (List.mem_of_mem_erase hq)
  · have htotal := h.total
    have hlength := List.length_erase_of_mem hp
    have hpos := List.length_pos_of_mem hp
    simp only [ObjectPool.release, List.length_cons]
    omega

theorem clear_eq (s : pool_run) : s.pool.clear =
    (⟨s.pool._count - 1 - Int32.ofNat s.pool._pool.length, []⟩, s.pool._pool) :=
  ObjectPool.clear_loop_eq s.pool._count s.pool._pool

theorem owned_clear {s : pool_run} (h : Owned s) :
    Owned { s with pool := s.pool.clear.1, deleted := s.pool.clear.2 ++ s.deleted } := by
  rw [clear_eq]
  refine ⟨List.nodup_nil, h.out, fun _ hp => absurd hp List.not_mem_nil,
    fun _ hp => absurd hp List.not_mem_nil, h.out_created, ?_⟩
  have htotal := h.total
  simp only [List.length_append, List.length_nil]
  omega

theorem owned_exec {s s' : pool_run} {e : pool_event} (h : Owned s)
    (hexec : s.exec e = some s') : Owned s' := by
  cases e with
  | get allocated =>
    cases hexec
    exact owned_get h allocated
  | release p =>
    obtain ⟨hp, h'⟩ := Option.ite_none_right_eq_some.mp hexec
    cases h'
    exact owned_release h hp
  | clear =>
    cases hexec
    exact owned_clear h

theorem owned_new : Owned new :=
  ⟨List.nodup_nil, List.nodup_nil, fun _ hp => absurd hp List.not_mem_nil,
    fun _ hp => absurd hp List.not_mem_nil, fun _ hp => absurd hp List.not_mem_nil, rfl⟩

/-- In every run the objects free and out are disjoint, and none is out twice. -/
theorem owned_of_reachable : ∀ s, system.Reachable s → Owned s := by
  refine System.invariant ?_ ?_
  · intro s hs
    rw [hs]
    exact owned_new
  · intro s e s' h hexec
    exact owned_exec h hexec

/-! ### The counters -/

/-- The number of objects there are. -/
def existing (s : pool_run) : Nat := s.pool._pool.length + s.out.length

theorem Owned.existing_eq {s : pool_run} (h : Owned s) :
    s.created - s.deleted.length = s.existing := by
  have htotal := h.total
  unfold existing
  omega

/-- All counters are right if `_count` is. -/
theorem counts_right_iff {s : pool_run} (h : Owned s) :
    CountsRight s ↔ s.pool._count.toInt = s.existing := by
  have htotal := h.total
  have hall : ((s.created : Int) - s.deleted.length) = s.existing := by
    unfold existing
    omega
  constructor
  · intro hright
    exact hright.all.trans hall
  · intro hcount
    have hlt := s.pool._count.toInt_lt
    have hle : s.existing < 2 ^ 31 := by omega
    unfold existing at hcount hle
    have hinactive : s.pool.countInactive.toInt = s.pool._pool.length :=
      Int32.toInt_ofNat_of_lt (by omega)
    have hactive : s.pool.countActive.toInt = s.out.length := by
      unfold ObjectPool.countActive
      rw [Int32.toInt_sub, hinactive, hcount, Int.bmod_eq_of_le (by omega) (by omega)]
      omega
    refine ⟨h.disjoint, h.out, hcount.trans ?_, hinactive, hactive, by omega⟩
    rw [hall]
    rfl

/-- The counter after one more. -/
theorem toInt_count_succ {count : Int32} {n : Nat} (h : count.toInt = n) :
    (count + 1).toInt = (n : Int) + 1 ↔ n + 1 < 2 ^ 31 := by
  have hlt := (count + 1).toInt_lt
  have hone : (1 : Int32).toInt = 1 := rfl
  constructor
  · intro hsucc
    omega
  · intro hn
    rw [Int32.toInt_add, h, hone]
    exact Int.bmod_eq_of_le (by omega) (by omega)

theorem count_add_one_ne (count : Int32) : count + 1 ≠ count := by
  intro h
  simp at h

theorem count_sub_one_ne (count n : Int32) : count - 1 - n ≠ count - n := by
  intro h
  have hsub : count - 1 - n = count - n - 1 := by
    rw [Int32.sub_sub, Int32.add_comm, Int32.sub_sub]
  rw [hsub, Int32.sub_eq_iff_eq_add] at h
  exact count_add_one_ne (count - n) h.symm

theorem counts_right_get {s : pool_run} (h : Owned s) (hright : CountsRight s)
    (allocated : Bool) : CountsRight (s.exec_get allocated) ↔ KeepsCount s (.get allocated) := by
  have hcount := (counts_right_iff h).mp hright
  rw [counts_right_iff (owned_get h allocated)]
  rcases exec_get_cases s allocated with ⟨hnil, hfalse, heq⟩ | ⟨hnil, htrue, heq⟩ |
    ⟨ret, _pool, hpool, heq⟩
  · -- counted, but not created
    rw [heq]
    have hsame : existing { s with pool := ⟨s.pool._count + 1, []⟩ } = s.existing := by
      unfold existing
      rw [hnil]
    rw [hsame]
    refine iff_of_false ?_ ?_
    · intro hcount'
      exact count_add_one_ne s.pool._count (Int32.toInt_inj.mp (hcount'.trans hcount.symm))
    · intro hkeeps
      rw [hfalse] at hkeeps
      exact Bool.false_ne_true (hkeeps hnil).1
  · rw [heq]
    have hmore : existing { s with
        pool := ⟨s.pool._count + 1, []⟩
        created := s.created + 1
        out := s.created :: s.out } = s.existing + 1 := by
      unfold existing
      rw [hnil]
      simp only [List.length_cons]
      omega
    rw [hmore]
    constructor
    · intro hcount' _
      refine ⟨htrue, ?_⟩
      rw [h.existing_eq]
      exact (toInt_count_succ hcount).mp hcount'
    · intro hkeeps
      have hlt := (hkeeps hnil).2
      rw [h.existing_eq] at hlt
      exact (toInt_count_succ hcount).mpr hlt
  · rw [heq]
    have hsame : existing { s with pool := ⟨s.pool._count, _pool⟩, out := ret :: s.out } =
        s.existing := by
      unfold existing
      rw [hpool]
      simp only [List.length_cons]
      omega
    rw [hsame]
    refine iff_of_true hcount ?_
    intro hnil
    rw [hpool] at hnil
    cases hnil

theorem counts_right_release {s : pool_run} (h : Owned s) (hright : CountsRight s) {p : Nat}
    (hp : p ∈ s.out) :
    CountsRight { s with pool := s.pool.release p, out := s.out.erase p } := by
  have hsame : existing { s with pool := s.pool.release p, out := s.out.erase p } =
      s.existing := by
    have hlength := List.length_erase_of_mem hp
    have hpos := List.length_pos_of_mem hp
    unfold existing ObjectPool.release
    simp only [List.length_cons]
    omega
  rw [counts_right_iff (owned_release h hp), hsame]
  exact (counts_right_iff h).mp hright

/-- What is left is out, and the counter says one less. -/
theorem not_counts_right_clear {s : pool_run} (h : Owned s) (hright : CountsRight s) :
    ¬ CountsRight { s with pool := s.pool.clear.1, deleted := s.pool.clear.2 ++ s.deleted } := by
  rw [counts_right_iff (owned_clear h), clear_eq]
  intro hcount
  have hout : existing { s with
      pool := ⟨s.pool._count - 1 - Int32.ofNat s.pool._pool.length, []⟩
      deleted := s.pool._pool ++ s.deleted } = s.out.length := by
    unfold existing
    rw [List.length_nil, Nat.zero_add]
  rw [hout, ← hright.active] at hcount
  exact count_sub_one_ne s.pool._count _ (Int32.toInt_inj.mp hcount)

/-- **One step** from a pool that counts right keeps the count right if and only if
    it creates what it counts and does not clear. -/
theorem counts_right_exec {s s' : pool_run} {e : pool_event} (h : Owned s)
    (hright : CountsRight s) (hexec : s.exec e = some s') : CountsRight s' ↔ KeepsCount s e := by
  cases e with
  | get allocated =>
    cases hexec
    exact counts_right_get h hright allocated
  | release p =>
    obtain ⟨hp, h'⟩ := Option.ite_none_right_eq_some.mp hexec
    cases h'
    exact iff_of_true (counts_right_release h hright hp) trivial
  | clear =>
    cases hexec
    exact iff_of_false (not_counts_right_clear h hright) id

/-- **The pool counts and owns correctly**, exactly: in the runs that create every
    object they count and do not clear, and in a run that has counted right so far the
    next step goes on doing so if and only if it is of that kind. -/
theorem pool_counts_right (s : pool_run) :
    ((system.restrict KeepsCount).Reachable s → CountsRight s) ∧
    ∀ e s', system.Reachable s → CountsRight s → system.step s e s' →
      (CountsRight s' ↔ KeepsCount s e) := by
  have hstep : ∀ s e s', system.Reachable s → CountsRight s → system.step s e s' →
      (CountsRight s' ↔ KeepsCount s e) := by
    intro s e s' hs hright hexec
    exact counts_right_exec (owned_of_reachable s hs) hright hexec
  refine ⟨System.invariant_restrict ?_ hstep s, hstep s⟩
  intro s hs
  rw [show s = new from hs]
  exact (counts_right_iff owned_new).mpr rfl

/-- One object is created, given back and taken again. -/
theorem pool_counts_right_reused : CountsRight ⟨⟨1, []⟩, 1, [], [0]⟩ :=
  have hcreated : (system.restrict KeepsCount).Reachable ⟨⟨1, []⟩, 1, [], [0]⟩ :=
    .step (.get true) (.init rfl) ⟨fun _ => ⟨rfl, by decide⟩, rfl⟩
  have hreleased : (system.restrict KeepsCount).Reachable ⟨⟨1, [0]⟩, 1, [], []⟩ :=
    .step (.release 0) hcreated ⟨trivial, rfl⟩
  (pool_counts_right _).1
    (.step (.get true) hreleased ⟨fun h => absurd h (List.cons_ne_nil _ _), rfl⟩)

/-- After `clear` on a new pool the counter is negative. -/
theorem not_always_counts_right : ¬ ∀ s, system.Reachable s → CountsRight s := by
  intro h
  have hclear : system.Reachable { new with pool := ⟨-1, []⟩ } := .step .clear (.init rfl) rfl
  exact absurd (h _ hclear).active_nonneg (by decide)

end pool_run

end AsioNet
