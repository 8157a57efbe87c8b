import Mathlib.Data.UInt
import Mathlib.Tactic.IntervalCases

/-! # Constants, byte order and machine arithmetic (`NetUtils.hpp`)

    Bytes are `UInt8`, the fixed-width integers are Lean's own. `size_t` is 64
    bits wide and is modelled by `Nat` with the wrap-around of the source's
    subtractions and additions written out. Code that would touch memory outside
    its array, fail an `assert` or dereference a null pointer ends in a `fault`.
-/

namespace AsioNet

/-! ### Outcome of running code -/

/-- Ways in which the C++ code leaves its defined behaviour. -/
inductive fault where
  /-- An access outside the array it is meant for. -/
  | out_of_bounds
  /-- A failed `assert`. -/
  | assertion_failed
  /-- A null pointer is dereferenced. -/
  | null_pointer
  /-- A loop that makes no progress. -/
  | diverges
  deriving DecidableEq, Repr

/-- The result of code that may run into a fault. -/
abbrev Checked (α : Type) : Type := Except fault α

@[simp] theorem ok_bind {α β : Type} (a : α) (f : α → Checked β) :
    ((Except.ok a : Checked α) >>= f) = f a := rfl

@[simp] theorem error_bind {α β : Type} (e : fault) (f : α → Checked β) :
    ((Except.error e : Checked α) >>= f) = Except.error e := rfl

@[simp] theorem pure_eq_ok {α : Type} (a : α) : (pure a : Checked α) = Except.ok a := rfl

theorem bind_eq_ok {α β : Type} {x : Checked α} {f : α → Checked β} {b : β} :
    (x >>= f) = Except.ok b ↔ ∃ a, x = Except.ok a ∧ f a = Except.ok b := by
  cases x with
  | ok a => simp
  | error e => simp

/-! ### Constants -/

def ONCE_BUFFER_SIZE : Nat := 1024 * 64
def TINY_ONCE_BUFFER_SIZE : Nat := 16
def TOTAL_CACHE_SIZE : Nat := 1024 * 1024 * 10
def RC4_KEY_LEN : Nat := 10

theorem TOTAL_CACHE_SIZE_pos : 0 < TOTAL_CACHE_SIZE := by decide

abbrev server_id := UInt64
abbrev session_uid := UInt32

/-- `sizeof(session_uid)` -/
def SIZEOF_SESSION_UID : Nat := 4

/-! ### `size_t` and `int` -/

/-- The largest value of an `int`. -/
def INT_MAX : Nat := 2 ^ 31 - 1

/-- `a - b` in `size_t`. -/
def size_t_sub (a b : Nat) : Nat := (a + 2 ^ 64 - b) % 2 ^ 64

/-- `a + b` in `size_t`. -/
def size_t_add (a b : Nat) : Nat := (a + b) % 2 ^ 64

theorem size_t_sub_of_le {a b : Nat} (h : b ≤ a) (ha : a < 2 ^ 64) : size_t_sub a b = a - b := by
  unfold size_t_sub
  omega

theorem size_t_sub_of_lt {a b : Nat} (h : a < b) (hb : b < 2 ^ 64) :
    size_t_sub a b = a + 2 ^ 64 - b := by
  unfold size_t_sub
  omega

theorem size_t_add_of_lt {a b : Nat} (h : a + b < 2 ^ 64) : size_t_add a b = a + b := by
  unfold size_t_add
  omega

/-! ### Network byte order

    `write_uint16 val` lists the bytes `block[0], block[1]` the source stores,
    `read_uint16 block` reads them back; the 32-bit pair likewise. -/

def write_uint16 (val : UInt16) : List UInt8 :=
  [((val &&& 0xff00) >>> 8).toUInt8, (val &&& 0x00ff).toUInt8]

def read_uint16 (block : List UInt8) : UInt16 :=
  (block.getD 1 0).toUInt16 ||| ((block.getD 0 0).toUInt16 <<< 8)

def write_uint32 (val : UInt32) : List UInt8 :=
  [((val &&& 0xff000000) >>> 24).toUInt8, ((val &&& 0x00ff0000) >>> 16).toUInt8,
    ((val &&& 0x0000ff00) >>> 8).toUInt8, (val &&& 0x000000ff).toUInt8]

def read_uint32 (block : List UInt8) : UInt32 :=
  (block.getD 3 0).toUInt32 ||| ((block.getD 2 0).toUInt32 <<< 8) |||
    (((block.getD 1 0).toUInt32 <<< 16) ||| ((block.getD 0 0).toUInt32 <<< 24))

@[simp] theorem length_write_uint16 (val : UInt16) : (write_uint16 val).length = 2 := rfl

@[simp] theorem length_write_uint32 (val : UInt32) : (write_uint32 val).length = 4 := rfl

theorem read_write_uint16 (val : UInt16) (rest : List UInt8) :
    read_uint16 (write_uint16 val ++ rest) = val := by
  -- bit by bit: the masks keep each bit in exactly one of the bytes
  apply UInt16.toBitVec_inj.mp
  apply BitVec.eq_of_getLsbD_eq
  intro i hi
  simp only [read_uint16, write_uint16, List.cons_append, List.getD_cons_zero,
    List.getD_cons_succ, UInt16.toBitVec_or, UInt16.toBitVec_shiftLeft, UInt8.toBitVec_toUInt16,
    UInt16.toBitVec_toUInt8, UInt16.toBitVec_shiftRight, UInt16.toBitVec_and, BitVec.getLsbD_or]
  generalize val.toBitVec = bits
  interval_cases i <;> simp

theorem read_write_uint32 (val : UInt32) (rest : List UInt8) :
    read_uint32 (write_uint32 val ++ rest) = val := by
  -- bit by bit, as for 16 bits
  apply UInt32.toBitVec_inj.mp
  apply BitVec.eq_of_getLsbD_eq
  intro i hi
  simp only [read_uint32, write_uint32, List.cons_append, List.getD_cons_zero,
    List.getD_cons_succ, UInt32.toBitVec_or, UInt32.toBitVec_shiftLeft, UInt8.toBitVec_toUInt32,
    UInt32.toBitVec_toUInt8, UInt32.toBitVec_shiftRight, UInt32.toBitVec_and,
    UInt32.toBitVec_ofNat, BitVec.ofNat_eq_ofNat, BitVec.reduceMod, BitVec.shiftLeft_eq',
    BitVec.ushiftRight_eq', BitVec.toNat_ofNat, Nat.reducePow, Nat.reduceMod, BitVec.getLsbD_or,
    BitVec.getLsbD_and, BitVec.getLsbD_setWidth, BitVec.getLsbD_shiftLeft,
    BitVec.getLsbD_ushiftRight]
  generalize val.toBitVec = bits
  interval_cases i <;> simp

/-! ### Host byte order

    `memcpy` of a packed struct copies its fields as the little-endian host
    stores them. -/

def host_uint16 (val : UInt16) : List UInt8 :=
  [UInt8.ofNat (val.toNat % 256), UInt8.ofNat (val.toNat / 256)]

def of_host_uint16 (b₀ b₁ : UInt8) : UInt16 := UInt16.ofNat (b₀.toNat + 256 * b₁.toNat)

def host_uint32 (val : UInt32) : List UInt8 :=
  [UInt8.ofNat (val.toNat % 256), UInt8.ofNat (val.toNat / 256 % 256),
    UInt8.ofNat (val.toNat / 65536 % 256), UInt8.ofNat (val.toNat / 16777216)]

def of_host_uint32 (b₀ b₁ b₂ b₃ : UInt8) : UInt32 :=
  UInt32.ofNat (b₀.toNat + 256 * b₁.toNat + 65536 * b₂.toNat + 16777216 * b₃.toNat)

theorem of_host_uint16_host (val : UInt16) :
    of_host_uint16 (UInt8.ofNat (val.toNat % 256)) (UInt8.ofNat (val.toNat / 256)) = val := by
  have h := val.toNat_lt
  apply UInt16.toNat_inj.mp
  simp only [of_host_uint16, UInt16.toNat_ofNat', UInt8.toNat_ofNat']
  omega

theorem of_host_uint32_host (val : UInt32) :
    of_host_uint32 (UInt8.ofNat (val.toNat % 256)) (UInt8.ofNat (val.toNat / 256 % 256))
      (UInt8.ofNat (val.toNat / 65536 % 256)) (UInt8.ofNat (val.toNat / 16777216)) = val := by
  have h := val.toNat_lt
  apply UInt32.toNat_inj.mp
  simp only [of_host_uint32, UInt32.toNat_ofNat', UInt8.toNat_ofNat']
  omega

end AsioNet
