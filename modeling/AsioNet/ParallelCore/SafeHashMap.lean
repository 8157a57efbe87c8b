import Mathlib.Data.Finmap

/-! # The locked hash map (`parallel_core/SafeHashMap.hpp`)

    `SafeHashMap` wraps an `std::unordered_map`. The mutex makes every operation
    atomic, so operations are functions on the container, an `AList` whose order
    stands for the container's iteration order. Its purpose is that of a
    mathematical finite map, given as `spec` on Mathlib's `Finmap`.

    Three operations miss that purpose. `insert_or_set` and `erase` are guarded
    by the absence of the key, and `complex_operation` never runs its handler:
    its parameter has no name, and the statement `container_handler(_container)`
    declares a local variable. `refines_iff` says on which sequences of calls
    none of this shows.
-/

namespace AsioNet

/-- `std::unordered_map<Key, Value>` -/
abbrev unordered_map (Key Value : Type) : Type := AList fun _ : Key => Value

namespace unordered_map

variable {Key Value : Type} [DecidableEq Key]

/-- `insert`: an existing key keeps its value; the flag tells if `k` is new. -/
def insert (c : unordered_map Key Value) (k : Key) (v : Value) :
    unordered_map Key Value × Bool :=
  if k ∈ c then (c, false) else (AList.insert k v c, true)

/-- `erase`: also returns the number of removed elements. -/
def erase (c : unordered_map Key Value) (k : Key) : unordered_map Key Value × Nat :=
  if k ∈ c then (AList.erase k c, 1) else (c, 0)

end unordered_map

structure SafeHashMap (Key Value : Type) where
  _container : unordered_map Key Value

namespace SafeHashMap

variable {Key Value : Type} [DecidableEq Key]

/-- The map as it is constructed. -/
def empty : SafeHashMap Key Value := { _container := ∅ }

def contains_key (m : SafeHashMap Key Value) (k : Key) : Bool := decide (k ∈ m._container)

def size (m : SafeHashMap Key Value) : Nat := m._container.keys.length

def insert (m : SafeHashMap Key Value) (k : Key) (v : Value) : SafeHashMap Key Value × Bool :=
  if m.contains_key k = false then
    let ret := unordered_map.insert m._container k v
    ({ _container := ret.1 }, ret.2)
  else (m, false)

def insert_or_set (m : SafeHashMap Key Value) (k : Key) (v : Value) : SafeHashMap Key Value :=
  if m.contains_key k = false then
    let ret := unordered_map.insert m._container k v
    if ret.2 = false then { _container := AList.insert k v ret.1 } else { _container := ret.1 }
  else m

def erase (m : SafeHashMap Key Value) (k : Key) : SafeHashMap Key Value × Bool :=
  if m.contains_key k = false then
    let ret := unordered_map.erase m._container k
    ({ _container := ret.1 }, decide (ret.2 > 0))
  else (m, false)

/-- The value `ref_val` is set to, `none` when the call returns `false`. -/
def try_get (m : SafeHashMap Key Value) (k : Key) : Option Value :=
  if m.contains_key k then m._container.lookup k else none

/-- A handler takes the container by value and works on the variables its
    closure captures by reference. -/
abbrev container_handler (Key Value σ : Type) : Type := unordered_map Key Value → σ → σ

/-- The map and the handler's captured variables after the call. -/
def complex_operation {σ : Type} (m : SafeHashMap Key Value)
    (_ : container_handler Key Value σ) (captured : σ) : SafeHashMap Key Value × σ :=
  -- `container_handler(_container);` declares a handler named `_container`
  (m, captured)

/-! ### What each operation does -/

@[simp] theorem contains_key_eq_true (m : SafeHashMap Key Value) (k : Key) :
    m.contains_key k = true ↔ k ∈ m._container := by
  simp [contains_key]

@[simp] theorem contains_key_eq_false (m : SafeHashMap Key Value) (k : Key) :
    m.contains_key k = false ↔ k ∉ m._container := by
  simp [contains_key]

theorem insert_of_mem {m : SafeHashMap Key Value} {k : Key} (h : k ∈ m._container) (v : Value) :
    m.insert k v = (m, false) := by
  simp [insert, h]

theorem insert_of_notMem {m : SafeHashMap Key Value} {k : Key} (h : k ∉ m._container)
    (v : Value) : m.insert k v = ({ _container := AList.insert k v m._container }, true) := by
  simp [insert, unordered_map.insert, h]

theorem insert_or_set_of_mem {m : SafeHashMap Key Value} {k : Key} (h : k ∈ m._container)
    (v : Value) : m.insert_or_set k v = m := by
  simp [insert_or_set, h]

theorem insert_or_set_of_notMem {m : SafeHashMap Key Value} {k : Key} (h : k ∉ m._container)
    (v : Value) : m.insert_or_set k v = { _container := AList.insert k v m._container } := by
  simp [insert_or_set, unordered_map.insert, h]

/-- The guard lets only absent keys through, so nothing is ever removed. -/
@[simp] theorem erase_eq (m : SafeHashMap Key Value) (k : Key) : m.erase k = (m, false) := by
  by_cases h : k ∈ m._container
  · simp [erase, h]
  · -- the guard passes, and there is nothing to remove
    simp [erase, unordered_map.erase, h]

@[simp] theorem try_get_eq (m : SafeHashMap Key Value) (k : Key) :
    m.try_get k = m._container.lookup k := by
  by_cases h : k ∈ m._container
  · simp [try_get, h]
  · simp [try_get, h, AList.lookup_eq_none.mpr h]

theorem lookup_insert_self {m : SafeHashMap Key Value} {k : Key} (h : k ∉ m._container)
    (v : Value) : (m.insert k v).1._container.lookup k = some v := by
  rw [insert_of_notMem h]
  exact AList.lookup_insert m._container

theorem lookup_insert_ne {m : SafeHashMap Key Value} {k k' : Key} (h : k' ≠ k) (v : Value) :
    (m.insert k v).1._container.lookup k' = m._container.lookup k' := by
  by_cases hk : k ∈ m._container
  · rw [insert_of_mem hk]
  · rw [insert_of_notMem hk]
    exact AList.lookup_insert_ne h

/-- Inserting never rebinds a key. -/
theorem lookup_insert_of_some {m : SafeHashMap Key Value} {k k' : Key} {v w : Value}
    (h : m._container.lookup k' = some w) :
    (m.insert k v).1._container.lookup k' = some w := by
  by_cases hk : k ∈ m._container
  · rwa [insert_of_mem hk]
  · have hne : k' ≠ k := by
      rintro rfl
      exact hk (AList.lookup_isSome.mp (by rw [h]; rfl))
    rwa [lookup_insert_ne hne]

/-! ### Refinement of a finite map -/

/-- A mathematical finite map. -/
abbrev finite_map (Key Value : Type) : Type := Finmap fun _ : Key => Value

/-- The finite map the container holds. -/
def abs (m : SafeHashMap Key Value) : finite_map Key Value := m._container.toFinmap

/-- A call on the map. The handler of a `complex_operation` works on the map and
    on captured variables of type `σ`. -/
inductive call (Key Value σ : Type) where
  | insert (k : Key) (v : Value)
  | insert_or_set (k : Key) (v : Value)
  | erase (k : Key)
  | try_get (k : Key)
  | contains_key (k : Key)
  | size
  | complex_operation (handler : finite_map Key Value → σ → finite_map Key Value × σ) (captured : σ)

/-- What the caller sees of a call. -/
inductive result (Value σ : Type) where
  | unit
  | bool (b : Bool)
  | value (v : Option Value)
  | size (n : Nat)
  | captured (s : σ)
  deriving DecidableEq, Repr

variable {σ : Type}

/-- A call on the code's map. The handler gets the container by value. -/
def exec (m : SafeHashMap Key Value) : call Key Value σ → SafeHashMap Key Value × result Value σ
  | .insert k v => ((m.insert k v).1, .bool (m.insert k v).2)
  | .insert_or_set k v => (m.insert_or_set k v, .unit)
  | .erase k => ((m.erase k).1, .bool (m.erase k).2)
  | .try_get k => (m, .value (m.try_get k))
  | .contains_key k => (m, .bool (m.contains_key k))
  | .size => (m, .size m.size)
  | .complex_operation handler captured =>
    let ret := m.complex_operation (fun c s => (handler c.toFinmap s).2) captured
    (ret.1, .captured ret.2)

/-- The same call on a finite map. -/
def spec (f : finite_map Key Value) : call Key Value σ → finite_map Key Value × result Value σ
  | .insert k v => (if k ∈ f then f else f.insert k v, .bool (decide (k ∉ f)))
  | .insert_or_set k v => (f.insert k v, .unit)
  | .erase k => (f.erase k, .bool (decide (k ∈ f)))
  | .try_get k => (f, .value (f.lookup k))
  | .contains_key k => (f, .bool (decide (k ∈ f)))
  | .size => (f, .size f.keys.card)
  | .complex_operation handler captured =>
    ((handler f captured).1, .captured (handler f captured).2)

/-- Code and finite map give the same results and keep the same bindings, call
    after call. -/
def Refines (m : SafeHashMap Key Value) (f : finite_map Key Value) : List (call Key Value σ) → Prop
  | [] => True
  | c :: calls => (m.exec c).2 = (spec f c).2 ∧ (m.exec c).1.abs = (spec f c).1 ∧
      Refines (m.exec c).1 (spec f c).1 calls

/-- The call does not reach the three operations' defects: it erases no present
    key, sets no present key to another value, and runs no handler that changes
    the map or its captured variables. -/
def Harmless (f : finite_map Key Value) : call Key Value σ → Prop
  | .insert_or_set k v => k ∈ f → f.lookup k = some v
  | .erase k => k ∉ f
  | .complex_operation handler captured => handler f captured = (f, captured)
  | _ => True

/-- Every call is harmless on the finite map it meets. -/
def AllHarmless (f : finite_map Key Value) : List (call Key Value σ) → Prop
  | [] => True
  | c :: calls => Harmless f c ∧ AllHarmless (spec f c).1 calls

omit [DecidableEq Key] in
@[simp] theorem mem_abs (m : SafeHashMap Key Value) (k : Key) : k ∈ m.abs ↔ k ∈ m._container :=
  Finmap.mem_toFinmap

@[simp] theorem lookup_abs (m : SafeHashMap Key Value) (k : Key) :
    m.abs.lookup k = m._container.lookup k :=
  Finmap.lookup_toFinmap k m._container

omit [DecidableEq Key] in
theorem card_keys_abs (m : SafeHashMap Key Value) : m.abs.keys.card = m.size :=
  rfl

theorem abs_insert (m : SafeHashMap Key Value) (k : Key) (v : Value) :
    ({ _container := AList.insert k v m._container } : SafeHashMap Key Value).abs =
      Finmap.insert k v m.abs := by
  unfold abs
  rw [Finmap.insert_toFinmap]

/-- Binding a key to the value it already has changes nothing. -/
theorem insert_eq_self_iff (f : finite_map Key Value) (k : Key) (v : Value) :
    f.insert k v = f ↔ f.lookup k = some v := by
  constructor
  · intro h
    rw [← h]
    exact Finmap.lookup_insert f
  · intro h
    apply Finmap.ext_lookup
    intro k'
    by_cases hk : k' = k
    · subst hk
      rw [Finmap.lookup_insert, h]
    · rw [Finmap.lookup_insert_of_ne f hk]

/-- **One call.** Results and bindings agree exactly on the harmless calls. -/
theorem exec_eq_spec_iff (m : SafeHashMap Key Value) (c : call Key Value σ) :
    ((m.exec c).2 = (spec m.abs c).2 ∧ (m.exec c).1.abs = (spec m.abs c).1) ↔
      Harmless m.abs c := by
  cases c with
  | insert k v =>
    by_cases h : k ∈ m._container
    · simp [exec, spec, Harmless, insert_of_mem h, h]
    · simp [exec, spec, Harmless, insert_of_notMem h, h, abs_insert]
  | insert_or_set k v =>
    by_cases h : k ∈ m._container
    · -- the code keeps the old value, so the values must agree
      simp only [exec, spec, Harmless, insert_or_set_of_mem h, mem_abs, h, true_and,
        forall_const]
      rw [eq_comm, insert_eq_self_iff]
    · simp [exec, spec, Harmless, insert_or_set_of_notMem h, h, abs_insert]
  | erase k =>
    by_cases h : k ∈ m._container
    · simp [exec, spec, Harmless, h]
    · -- erasing an absent key changes nothing
      have herase : m.abs.erase k = m.abs := by
        apply Finmap.ext_lookup
        intro k'
        by_cases hk : k' = k
        · subst hk
          rw [Finmap.lookup_erase, lookup_abs, AList.lookup_eq_none.mpr h]
        · rw [Finmap.lookup_erase_ne hk]
      simp [exec, spec, Harmless, h, herase]
  | try_get k => simp [exec, spec, Harmless]
  | contains_key k => simp [exec, spec, Harmless, contains_key]
  | size => simp [exec, spec, Harmless, card_keys_abs]
  | complex_operation handler captured =>
    -- the code runs no handler, so the handler must do nothing
    simp only [exec, spec, Harmless, complex_operation, result.captured.injEq]
    constructor
    · rintro ⟨hcaptured, hmap⟩
      exact Prod.ext hmap.symm hcaptured.symm
    · intro h
      rw [h]
      exact ⟨rfl, rfl⟩

/-- **Refinement, exactly.** From any map on, a sequence of calls behaves like
    the same calls on the finite map if and only if all of them are harmless. -/
theorem refines_iff (m : SafeHashMap Key Value) (calls : List (call Key Value σ)) :
    Refines m m.abs calls ↔ AllHarmless m.abs calls := by
  induction calls generalizing m with
  | nil => simp [Refines, AllHarmless]
  | cons c calls ih =>
    simp only [Refines, AllHarmless, ← and_assoc, exec_eq_spec_iff]
    apply and_congr_right
    intro h
    -- both sides go on from the same finite map
    obtain ⟨-, hmap⟩ := (exec_eq_spec_iff m c).mpr h
    rw [← hmap]
    exact ih _

/-- Erasing a key just inserted leaves it bound and answers `false`. -/
theorem not_refines_erase :
    ¬ ∀ calls : List (call UInt32 Nat Unit), Refines empty empty.abs calls := by
  intro h
  obtain ⟨-, -, herase, -⟩ := h [.insert 1 2, .erase 1]
  simp only [exec, spec, erase_eq] at herase
  exact absurd herase (by decide)

end SafeHashMap

end AsioNet
