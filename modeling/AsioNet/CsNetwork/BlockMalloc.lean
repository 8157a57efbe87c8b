import AsioNet.CsNetwork.Runtime

/-! # The client's block pool (`BlockMalloc.cs`, `SpinLock.cs`)

    Frames are cut from blocks of a pool with one stack for each size class. The
    static state is the flag of the spinning `Instance` getter and the instance;
    `next` numbers the arrays the runtime has made so far, so that two arrays are
    the same exactly when their numbers are.

    The constructor reaches through the instance that is being constructed. So
    the first use of `BlockPool.Instance` throws, and every later use waits for
    a flag that stays set.
-/

namespace AsioNet.CsNetwork

open Exec

/-! ### `SpinLock.cs` -/

/-- The flag of a `SpinLock`; its `_data` is the pool's `_chacheMap`. -/
structure SpinLock where
  _flag : Int32
  deriving DecidableEq, Repr

/-- What `SafeAction` makes of an action's end: an exception is caught and logged,
    and nothing is returned. -/
def swallow {α : Type} : Except stop α → Except stop (Option α)
  | .ok a => .ok (some a)
  | .error .spins => .error .spins
  | .error _ => .ok none

/-- `SafeAction`, for the lock that `view` finds in the state and `put` puts back. -/
def SafeAction {σ α : Type} (view : σ → Option SpinLock) (put : SpinLock → σ → σ)
    (act : Exec stop σ α) : Exec stop σ (Option α) := do
  let s ← get
  let lock ← lift (deref (view s))
  if lock._flag = 1 then throw .spins
  else
    set (put { lock with _flag := 1 } s)
    let ret ← of fun s => (swallow (exec act s).1, (exec act s).2)
    modify fun s => put { lock with _flag := 0 } s
    pure ret

/-! ### `BlockMalloc.cs` -/

/-- An array of the runtime: its number and its bytes. -/
structure block where
  number : Nat
  cells : List UInt8
  deriving DecidableEq, Repr

structure DataBlock where
  data : Option block
  length : Int32

def K_MIN_BLOCK_SIZE : Int32 := 8
def K_LARGE_BLOCK_SIZE : Int32 := 1024
def K_MAX_BLOCK_SIZE : Int32 := 8 * 1024
def TOTAL_ARRAY_COUNT : Int32 := (K_MAX_BLOCK_SIZE + 127 + ((120 : Int32) <<< (7 : Int32))) >>> 7

structure BlockPool where
  _sizeArray : List Int32
  _cacheSpinlock : Option SpinLock
  _chacheMap : List (Option (List block))

/-- An object and what it shares with others: the number of the next array. -/
structure pool_state where
  pool : BlockPool
  next : Nat

namespace BlockPool

/-- The field initialisers. The stacks of `_chacheMap` are never made. -/
def fresh : BlockPool where
  _sizeArray := List.replicate TOTAL_ARRAY_COUNT.toNatClampNeg 0
  _cacheSpinlock := none
  _chacheMap := List.replicate TOTAL_ARRAY_COUNT.toNatClampNeg none

/-- The index `sizePoolIndexMaybe` computes; none when it returns `false`. -/
def sizePoolIndexMaybe (size : Int32) : Option Int32 :=
  if size ≤ K_LARGE_BLOCK_SIZE then some ((size + 7) >>> 3)
  else if size ≤ K_MAX_BLOCK_SIZE then some ((size + 127 + ((120 : Int32) <<< (7 : Int32))) >>> 7)
  else none

/-- One round of the loop of `initSizeArray`. -/
def init_round (i : Nat) : Exec stop pool_state PUnit := do
  let s ← get
  let size := Int32.ofNat i
  let idx := if size ≤ K_LARGE_BLOCK_SIZE then (size + 7) >>> 3
    else (size + 127 + ((120 : Int32) <<< (7 : Int32))) >>> 7
  let sizes ← lift (store s.pool._sizeArray idx size)
  set { s with pool := { s.pool with _sizeArray := sizes } }

def initSizeArray : Exec stop pool_state PUnit :=
  for_loop init_round (K_MAX_BLOCK_SIZE.toNatClampNeg + 1) 0

/-- `new Byte[size]` -/
def new_block (size : Int32) : Exec stop pool_state block := do
  let s ← get
  set { s with next := s.next + 1 }
  pure ⟨s.next, List.replicate size.toNatClampNeg 0⟩

/-- `pool.Pop()` on the stack at `idx` -/
def pop (idx : Int32) : List block → Exec stop pool_state block
  | [] => throw .InvalidOperationException
  | b :: rest => do
    let s ← get
    let chacheMap ← lift (store s.pool._chacheMap idx (some rest))
    set { s with pool := { s.pool with _chacheMap := chacheMap } }
    pure b

/-- The action `Alloc` hands to the lock. -/
def take_block (idx : Int32) : Exec stop pool_state block := do
  let s ← get
  let pool ← lift (load s.pool._chacheMap idx)
  let alignSize ← lift (load s.pool._sizeArray idx)
  let stack ← lift (deref pool)
  if stack.length ≠ 0 then new_block alignSize
  else pop idx stack

/-- The action `Free` hands to the lock. -/
def put_block (idx : Int32) (data : block) : Exec stop pool_state PUnit := do
  let s ← get
  let pool ← lift (load s.pool._chacheMap idx)
  let stack ← lift (deref pool)
  let chacheMap ← lift (store s.pool._chacheMap idx (some (data :: stack)))
  set { s with pool := { s.pool with _chacheMap := chacheMap } }

/-- The lock of a pool object. -/
def locked {α : Type} (act : Exec stop pool_state α) : Exec stop pool_state (Option α) :=
  SafeAction (fun s => s.pool._cacheSpinlock)
    (fun lock s => { s with pool := { s.pool with _cacheSpinlock := some lock } }) act

def Alloc (size : Int32) : Exec stop pool_state (Option block) :=
  match sizePoolIndexMaybe size with
  | some idx => locked (take_block idx)
  | none => do
    let b ← new_block size
    pure (some b)

def Free (data : Option block) : Exec stop pool_state PUnit := do
  let b ← lift (deref data)
  match sizePoolIndexMaybe (Int32.ofNat b.cells.length) with
  | some idx => do
    let _ ← locked (put_block idx b)
    pure .unit
  | none => pure .unit

/-- The static state. -/
structure statics where
  _flag : Int32
  _instance : Option BlockPool
  next : Nat

/-- The static state at the start of the program. -/
def statics.initial : statics where
  _flag := 0
  _instance := none
  next := 0

/-- Run a method of the object `_instance` refers to. -/
def on_instance {α : Type} (x : Exec stop pool_state α) : Exec stop statics α := do
  let s ← get
  let pool ← lift (deref s._instance)
  of fun s =>
    ((exec x ⟨pool, s.next⟩).1,
      { s with
        _instance := some (exec x ⟨pool, s.next⟩).2.pool
        next := (exec x ⟨pool, s.next⟩).2.next })

/-- The constructor. Its last line calls `initSizeArray` on `_instance`. -/
def construct : Exec stop statics BlockPool := do
  on_instance initSizeArray
  pure { fresh with _cacheSpinlock := some { _flag := 0 } }

/-- The getter. When it returns, what it returns is `_instance`. -/
def Instance : Exec stop statics PUnit := do
  let s ← get
  if s._flag = 1 then throw .spins
  else
    set { s with _flag := 1 }
    if s._instance.isNone then
      let pool ← construct
      modify fun s => { s with _instance := some pool }
    modify fun s => { s with _flag := 0 }

/-- `BlockPool.Instance.Alloc(size)` -/
def instance_Alloc (size : Int32) : Exec stop statics (Option block) := do
  Instance
  on_instance (Alloc size)

/-- `BlockPool.Instance.Free(data)` -/
def instance_Free (data : Option block) : Exec stop statics PUnit := do
  Instance
  on_instance (Free data)

/-! ### What the pool promises -/

inductive call where
  | Alloc (size : Int32)
  /-- Give back the `k`-th of the blocks in use. -/
  | Free (k : Nat)

/-- The index computed for `size` lies inside `_sizeArray` and `_chacheMap`. -/
def IndexInside (size : Int32) : Prop :=
  ∀ idx, sizePoolIndexMaybe size = some idx → 0 ≤ idx ∧ idx < TOTAL_ARRAY_COUNT

/-- Every `Alloc` returns a block that is large enough and not in use, every call
    returns, and every index is inside. `live` are the blocks in use. -/
def Keeps {σ : Type} (alloc : Int32 → Exec stop σ (Option block))
    (free : Option block → Exec stop σ PUnit) : σ → List block → List call → Prop
  | _, _, [] => True
  | s, live, .Alloc size :: calls =>
    IndexInside size ∧ ∃ b s', exec (alloc size) s = (.ok (some b), s') ∧
      size.toInt ≤ b.cells.length ∧ (∀ a ∈ live, a.number ≠ b.number) ∧
      Keeps alloc free s' (b :: live) calls
  | s, live, .Free k :: calls =>
    (live[k]? = none ∧ Keeps alloc free s live calls) ∨
      ∃ b s', live[k]? = some b ∧ IndexInside (Int32.ofNat b.cells.length) ∧
        exec (free (some b)) s = (.ok .unit, s') ∧
        Keeps alloc free s' (live.eraseIdx k) calls

theorem toInt_shiftRight_three (x : Int32) : (x >>> (3 : Int32)).toInt = x.toInt / 8 := by
  show (BitVec.sshiftRight' x.toBitVec ((3 : Int32).toBitVec.smod 32)).toInt = x.toInt / 8
  rw [BitVec.toInt_sshiftRight', Int.shiftRight_eq_div_pow]
  rfl

theorem toInt_shiftRight_seven (x : Int32) : (x >>> (7 : Int32)).toInt = x.toInt / 128 := by
  show (BitVec.sshiftRight' x.toBitVec ((7 : Int32).toBitVec.smod 32)).toInt = x.toInt / 128
  rw [BitVec.toInt_sshiftRight', Int.shiftRight_eq_div_pow]
  rfl

theorem toInt_add_of_range {x y : Int32} (hle : -2 ^ 31 ≤ x.toInt + y.toInt)
    (hlt : x.toInt + y.toInt < 2 ^ 31) : (x + y).toInt = x.toInt + y.toInt := by
  rw [Int32.toInt_add]
  apply Int.bmod_eq_of_le_mul_two
  · omega
  · omega

/-- **The size classes against the table**: the last class of the formula, that of
    the sizes above `8064`, has no cell. -/
theorem indexInside_iff {size : Int32} (hsize : 0 ≤ size.toInt) :
    IndexInside size ↔ size.toInt ≤ 8064 ∨ 8192 < size.toInt := by
  have hcount : TOTAL_ARRAY_COUNT.toInt = 184 := by decide
  have hseven : (7 : Int32).toInt = 7 := rfl
  have hround : (127 : Int32).toInt = 127 := rfl
  have hshift : ((120 : Int32) <<< (7 : Int32)).toInt = 15360 := by decide
  have hlarge : size ≤ K_LARGE_BLOCK_SIZE ↔ size.toInt ≤ 1024 := Int32.le_iff_toInt_le
  have hmax : size ≤ K_MAX_BLOCK_SIZE ↔ size.toInt ≤ 8192 := Int32.le_iff_toInt_le
  unfold IndexInside sizePoolIndexMaybe
  by_cases h1024 : size.toInt ≤ 1024
  · rw [if_pos (hlarge.mpr h1024)]
    simp only [Option.some.injEq, forall_eq', Int32.le_iff_toInt_le, Int32.lt_iff_toInt_lt,
      toInt_shiftRight_three, hcount]
    rw [toInt_add_of_range (by omega) (by omega), hseven]
    show 0 ≤ (size.toInt + 7) / 8 ∧ (size.toInt + 7) / 8 < 184 ↔ _
    omega
  by_cases h8192 : size.toInt ≤ 8192
  · rw [if_neg (hlarge.not.mpr h1024), if_pos (hmax.mpr h8192)]
    simp only [Option.some.injEq, forall_eq', Int32.le_iff_toInt_le, Int32.lt_iff_toInt_lt,
      toInt_shiftRight_seven, hcount]
    have hsum : (size + 127).toInt = size.toInt + 127 := by
      rw [toInt_add_of_range (by omega) (by omega), hround]
    rw [toInt_add_of_range (by omega) (by omega), hsum, hshift]
    show 0 ≤ (size.toInt + 127 + 15360) / 128 ∧ (size.toInt + 127 + 15360) / 128 < 184 ↔ _
    omega
  · rw [if_neg (hlarge.not.mpr h1024), if_neg (hmax.not.mpr h8192)]
    simp
    omega

/-! ### Through `BlockPool.Instance` -/

/-- The first use of `Instance` throws and leaves the flag set. -/
theorem exec_Instance_initial :
    exec Instance .initial =
      (.error .NullReferenceException, { statics.initial with _flag := 1 }) := rfl

/-- Every later use of `Instance` spins. -/
theorem exec_Instance_again {s : statics} (h : s._flag = 1) : exec Instance s = (.error .spins, s) := by
  unfold Instance
  simp only [exec_get_bind, if_pos h, exec_throw]

theorem instance_Alloc_initial (size : Int32) :
    (exec (instance_Alloc size) .initial).1 = .error .NullReferenceException := by
  unfold instance_Alloc
  rw [exec_bind_of_error exec_Instance_initial]

/-- A program that allocates does not get what the pool promises. -/
theorem keeps_initial_iff (calls : List call) :
    Keeps instance_Alloc instance_Free .initial [] calls ↔ ∀ size, call.Alloc size ∉ calls := by
  induction calls with
  | nil => simp [Keeps]
  | cons c calls ih =>
    cases c with
    | Alloc size =>
      constructor
      · rintro ⟨_, b, s', hrun, _⟩
        have hthrows := instance_Alloc_initial size
        rw [hrun] at hthrows
        simp at hthrows
      · intro h
        exact absurd List.mem_cons_self (h size)
    | Free k =>
      have hskip : Keeps instance_Alloc instance_Free .initial [] (.Free k :: calls) ↔
          Keeps instance_Alloc instance_Free .initial [] calls := by
        simp [Keeps]
      rw [hskip, ih]
      simp

/-! ### On an object whose fields are initialised -/

/-- The object as the constructor has it before its last line. -/
def before_last_line : BlockPool := { fresh with _cacheSpinlock := some { _flag := 0 } }

/-- The object with its lock's flag set to `flag`. -/
def with_flag (flag : Int32) (s : pool_state) : pool_state :=
  { s with pool := { s.pool with _cacheSpinlock := some { _flag := flag } } }

/-- An action that throws leaves the lock open and returns nothing. -/
theorem exec_locked_of_error {α : Type} {act : Exec stop pool_state α} {s s' : pool_state}
    {e : stop} (hlock : s.pool._cacheSpinlock = some { _flag := 0 }) (hcaught : e ≠ .spins)
    (hact : exec act (with_flag 1 s) = (.error e, s')) :
    exec (locked act) s = (.ok none, with_flag 0 s') := by
  have hderef : exec (lift (deref s.pool._cacheSpinlock) : Exec stop pool_state SpinLock) s =
      (.ok { _flag := 0 }, s) := by
    rw [exec_lift, hlock]
    rfl
  have hswallow : swallow (.error e : Except stop α) = .ok none := by
    cases e <;> first | rfl | exact absurd rfl hcaught
  have hcatch : exec (of fun s => (swallow (exec act s).1, (exec act s).2) :
      Exec stop pool_state (Option α)) (with_flag 1 s) = (.ok none, s') := by
    rw [exec_of, hact, hswallow]
  unfold locked SafeAction
  rw [exec_get_bind, exec_bind_of_ok hderef, if_neg (by decide), exec_set_bind]
  exact exec_bind_of_ok hcatch _

/-- No stack was ever made, so no block can be taken from one. -/
theorem exec_take_block (idx : Int32) {s : pool_state}
    (hmap : s.pool._chacheMap = fresh._chacheMap) :
    ∃ e, e ≠ stop.spins ∧ exec (take_block idx) s = (.error e, s) := by
  unfold take_block
  rw [exec_get_bind, hmap]
  rcases load_replicate TOTAL_ARRAY_COUNT.toNatClampNeg (none : Option (List block)) idx with
    hload | hload
  · have hstack : exec (lift (load fresh._chacheMap idx) : Exec stop pool_state _) s =
        (.ok none, s) := by
      rw [exec_lift]
      exact congrArg (fun r => (r, s)) hload
    rw [exec_bind_of_ok hstack]
    rcases hsize : load s.pool._sizeArray idx with e | alignSize
    · refine ⟨e, ?_, ?_⟩
      · unfold load at hsize
        split at hsize
        · simp at hsize
        · rw [Except.error.injEq] at hsize
          rw [← hsize]
          decide
      · rw [exec_bind_of_error (exec_lift _ s)]
    · rw [exec_bind_of_ok (exec_lift _ s)]
      exact ⟨.NullReferenceException, by decide, exec_bind_of_error (exec_lift _ s) _⟩
  · have hstack : exec (lift (load fresh._chacheMap idx) : Exec stop pool_state _) s =
        (.error .IndexOutOfRangeException, s) := by
      rw [exec_lift]
      exact congrArg (fun r => (r, s)) hload
    exact ⟨.IndexOutOfRangeException, by decide, exec_bind_of_error hstack _⟩

/-- Up to `K_MAX_BLOCK_SIZE` the lock swallows the exception and `Alloc` returns null. -/
theorem exec_Alloc_of_le {size : Int32} (h : size ≤ K_MAX_BLOCK_SIZE) (next : Nat) :
    exec (Alloc size) ⟨before_last_line, next⟩ = (.ok none, ⟨before_last_line, next⟩) := by
  have hidx : ∃ idx, sizePoolIndexMaybe size = some idx := by
    unfold sizePoolIndexMaybe
    by_cases hlarge : size ≤ K_LARGE_BLOCK_SIZE
    · rw [if_pos hlarge]
      exact ⟨_, rfl⟩
    · rw [if_neg hlarge, if_pos h]
      exact ⟨_, rfl⟩
  obtain ⟨idx, hidx⟩ := hidx
  have hmap : (with_flag 1 ⟨before_last_line, next⟩).pool._chacheMap = fresh._chacheMap := rfl
  obtain ⟨e, hcaught, hact⟩ := exec_take_block idx hmap
  unfold Alloc
  rw [hidx]
  exact exec_locked_of_error rfl hcaught hact

theorem sizePoolIndexMaybe_of_lt {size : Int32} (h : K_MAX_BLOCK_SIZE < size) :
    sizePoolIndexMaybe size = none := by
  have hmax : ¬size ≤ K_MAX_BLOCK_SIZE := Int32.not_le.mpr h
  have hlarge : ¬size ≤ K_LARGE_BLOCK_SIZE := by
    intro hle
    apply hmax
    rw [Int32.le_iff_toInt_le] at hle ⊢
    have hlt : K_LARGE_BLOCK_SIZE.toInt ≤ K_MAX_BLOCK_SIZE.toInt := by decide
    omega
  unfold sizePoolIndexMaybe
  rw [if_neg hlarge, if_neg hmax]

/-- Above `K_MAX_BLOCK_SIZE` every block is a new array. -/
theorem exec_Alloc_of_lt {size : Int32} (h : K_MAX_BLOCK_SIZE < size) (pool : BlockPool)
    (next : Nat) :
    exec (Alloc size) ⟨pool, next⟩ =
      (.ok (some ⟨next, List.replicate size.toNatClampNeg 0⟩), ⟨pool, next + 1⟩) := by
  unfold Alloc
  rw [sizePoolIndexMaybe_of_lt h]
  rfl

theorem exec_Free_of_lt {b : block} (h : K_MAX_BLOCK_SIZE < Int32.ofNat b.cells.length)
    (s : pool_state) : exec (Free (some b)) s = (.ok .unit, s) := by
  have hderef : exec (lift (deref (some b)) : Exec stop pool_state block) s = (.ok b, s) := rfl
  unfold Free
  rw [exec_bind_of_ok hderef, sizePoolIndexMaybe_of_lt h]
  rfl

theorem indexInside_of_lt {size : Int32} (h : K_MAX_BLOCK_SIZE < size) : IndexInside size := by
  intro idx hidx
  rw [sizePoolIndexMaybe_of_lt h] at hidx
  simp at hidx

/-- On the initialised object the promise is kept as long as no size falls into a
    class. -/
theorem keeps_before_last_line_iff (calls : List call) (live : List block) (next : Nat)
    (hlarge : ∀ b ∈ live, K_MAX_BLOCK_SIZE < Int32.ofNat b.cells.length)
    (hnumber : ∀ b ∈ live, b.number < next) :
    Keeps Alloc Free ⟨before_last_line, next⟩ live calls ↔
      ∀ size, call.Alloc size ∈ calls → K_MAX_BLOCK_SIZE < size := by
  induction calls generalizing live next with
  | nil => simp [Keeps]
  | cons c calls ih =>
    cases c with
    | Alloc size =>
      by_cases hsize : K_MAX_BLOCK_SIZE < size
      · -- the new block is large and has a number of its own
        have hnonneg : 0 ≤ size.toInt := by
          have hlt := Int32.lt_iff_toInt_lt.mp hsize
          have hmax : K_MAX_BLOCK_SIZE.toInt = 8192 := by decide
          omega
        have hlength : Int32.ofNat (List.replicate size.toNatClampNeg (0 : UInt8)).length = size := by
          rw [List.length_replicate, ← Int32.toInt_inj, Int32.toInt_ofNat_of_lt]
          · exact Int.toNat_of_nonneg hnonneg
          · have hlt := size.toInt_lt
            rw [Int32.toNatClampNeg]
            omega
        have hrest := ih (⟨next, List.replicate size.toNatClampNeg 0⟩ :: live) (next + 1)
          (by
            rw [List.forall_mem_cons, hlength]
            exact ⟨hsize, hlarge⟩)
          (by
            rw [List.forall_mem_cons]
            refine ⟨Nat.lt_succ_self next, ?_⟩
            intro b hb
            exact Nat.lt_succ_of_lt (hnumber b hb))
        constructor
        · -- the call returned this block, and the others keep the promise after it
          rintro ⟨_, b, s', hrun, _, _, hkeeps⟩ size' hmem
          rw [exec_Alloc_of_lt hsize] at hrun
          obtain ⟨hb, rfl⟩ := Prod.mk.inj hrun
          obtain rfl : _ = b := by simpa using hb
          rcases List.mem_cons.mp hmem with heq | hmem
          · rw [call.Alloc.injEq] at heq
            rw [heq]
            exact hsize
          · exact hrest.mp hkeeps size' hmem
        · intro h
          refine ⟨indexInside_of_lt hsize, _, _, exec_Alloc_of_lt hsize _ _, ?_, ?_, ?_⟩
          · rw [List.length_replicate]
            exact Int.self_le_toNat _
          · intro a ha heq
            exact absurd (hnumber a ha) (by simp [heq])
          · exact hrest.mpr fun size' hmem => h size' (List.mem_cons_of_mem _ hmem)
      · -- a small block: the tables are null, and so is what is returned
        constructor
        · rintro ⟨_, b, s', hrun, _⟩
          rw [exec_Alloc_of_le (Int32.not_lt.mp hsize)] at hrun
          simp at hrun
        · intro h
          exact absurd (h size List.mem_cons_self) hsize
    | Free k =>
      -- a large block is dropped, so the condition is that of the calls after it
      have htail : (∀ size, call.Alloc size ∈ call.Free k :: calls → K_MAX_BLOCK_SIZE < size) ↔
          ∀ size, call.Alloc size ∈ calls → K_MAX_BLOCK_SIZE < size := by simp
      rw [htail]
      rcases hk : live[k]? with _ | b
      · rw [← ih live next hlarge hnumber]
        simp [Keeps, hk]
      · have hb : b ∈ live := List.mem_of_getElem? hk
        rw [← ih (live.eraseIdx k) next (fun a ha => hlarge a (List.mem_of_mem_eraseIdx ha))
          fun a ha => hnumber a (List.mem_of_mem_eraseIdx ha)]
        constructor
        · rintro (⟨hnone, _⟩ | ⟨b', s', hb', _, hrun, hkeeps⟩)
          · rw [hk] at hnone
            simp at hnone
          · rw [hk, Option.some.injEq] at hb'
            rw [← hb', exec_Free_of_lt (hlarge b hb)] at hrun
            rw [(Prod.mk.inj hrun).2]
            exact hkeeps
        · intro hkeeps
          exact Or.inr ⟨b, _, hk, indexInside_of_lt (hlarge b hb), exec_Free_of_lt (hlarge b hb) _,
            hkeeps⟩

/-- **What the pool keeps.** A program that uses it keeps the promise by not
    allocating. Were it not for the constructor's last line, it would have to
    stay above the largest size class; and the indices of the last class are
    outside the tables. -/
theorem keeps_iff (calls : List call) :
    (Keeps instance_Alloc instance_Free .initial [] calls ↔
        ∀ size, call.Alloc size ∉ calls) ∧
      (Keeps Alloc Free ⟨before_last_line, 0⟩ [] calls ↔
        ∀ size, call.Alloc size ∈ calls → K_MAX_BLOCK_SIZE < size) ∧
      ∀ size, 0 ≤ size.toInt → (IndexInside size ↔ size.toInt ≤ 8064 ∨ 8192 < size.toInt) := by
  refine ⟨keeps_initial_iff calls, ?_, ?_⟩
  · apply keeps_before_last_line_iff
    · simp
    · simp
  · intro size hsize
    exact indexInside_iff hsize

theorem one_byte_not_allocated :
    ¬Keeps instance_Alloc instance_Free .initial [] [.Alloc 1] := by
  rintro ⟨_, b, s', hrun, _⟩
  have hthrows := instance_Alloc_initial 1
  rw [hrun] at hthrows
  simp at hthrows

end BlockPool

end AsioNet.CsNetwork
