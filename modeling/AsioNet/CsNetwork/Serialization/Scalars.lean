import AsioNet.CsNetwork.Runtime
import AsioNet.Library.LittleEndian

/-! # The types of `m_mapTabType` (`BinaryFormatter.cs`)

    A value of one of these types is written as the bytes of a number, as many as
    its type has, and read back from them. A `Guid` goes byte by byte. Reading has
    no case for `char`.
-/

namespace AsioNet.CsNetwork

open LittleEndian

namespace BinaryFormatter

inductive scalar where
  | double | float | long | ulong | byte | sbyte | short | ushort | char | int | uint | bool
  | DateTime | IPAddress | Guid
  deriving DecidableEq, Repr

/-- `m_mapTabSize` -/
def scalar.size : scalar → Nat
  | .double => 8
  | .float => 4
  | .long => 8
  | .ulong => 8
  | .byte => 1
  | .sbyte => 1
  | .short => 2
  | .ushort => 2
  | .char => 2
  | .int => 4
  | .uint => 4
  | .bool => 1
  | .DateTime => 8
  | .IPAddress => 4
  | .Guid => 16

/-- `DateTime.MaxValue.Ticks` -/
def MAX_TICKS : UInt64 := 3155378975999999999

/-- The ticks of a `DateTime`. -/
structure ticks where
  count : UInt64
  count_le : count ≤ MAX_TICKS
  deriving DecidableEq

/-- The bytes of a `Guid`. -/
structure guid where
  bytes : List UInt8
  length_bytes : bytes.length = 16
  deriving DecidableEq

/-- Values of these types: `double` and `float` as their bit patterns, an `IPAddress`
    as a reference to four bytes. -/
def scalar.value : scalar → Type
  | .double => UInt64
  | .float => UInt32
  | .long => Int64
  | .ulong => UInt64
  | .byte => UInt8
  | .sbyte => Int8
  | .short => Int16
  | .ushort => UInt16
  | .char => UInt16
  | .int => Int32
  | .uint => UInt32
  | .bool => Bool
  | .DateTime => ticks
  | .IPAddress => Option UInt32
  | .Guid => guid

/-- What a field of the type holds when nothing is assigned to it. -/
def scalar.default : (s : scalar) → s.value
  | .double => (0 : UInt64)
  | .float => (0 : UInt32)
  | .long => (0 : Int64)
  | .ulong => (0 : UInt64)
  | .byte => (0 : UInt8)
  | .sbyte => (0 : Int8)
  | .short => (0 : Int16)
  | .ushort => (0 : UInt16)
  | .char => (0 : UInt16)
  | .int => (0 : Int32)
  | .uint => (0 : UInt32)
  | .bool => false
  | .DateTime => ⟨0, by decide⟩
  | .IPAddress => (none : Option UInt32)
  | .Guid => ⟨List.replicate 16 0, rfl⟩

/-- The number `num` whose lower bytes `ValueToBinary` writes, as a bit pattern; a null
    address throws. -/
def to_long : (s : scalar) → s.value → Except stop UInt64
  | .double, (v : UInt64) => .ok v
  | .float, (v : UInt32) => .ok v.toUInt64
  | .long, (v : Int64) => .ok v.toUInt64
  | .ulong, (v : UInt64) => .ok v
  | .byte, (v : UInt8) => .ok v.toUInt64
  | .sbyte, (v : Int8) => .ok v.toInt64.toUInt64
  | .short, (v : Int16) => .ok v.toInt64.toUInt64
  | .ushort, (v : UInt16) => .ok v.toUInt64
  | .char, (v : UInt16) => .ok v.toUInt64
  | .int, (v : Int32) => .ok v.toInt64.toUInt64
  | .uint, (v : UInt32) => .ok v.toUInt64
  | .bool, (v : Bool) => .ok (if v then 1 else 0)
  | .DateTime, (v : ticks) => .ok v.count
  | .IPAddress, (some v : Option UInt32) => .ok v.toInt32.toInt64.toUInt64
  | .IPAddress, (none : Option UInt32) => .error .NullReferenceException
  | .Guid, _ => .ok 0

def ValueToBinary : (s : scalar) → s.value → Except stop (List UInt8)
  | .Guid, (v : guid) => .ok v.bytes
  | s, v => (to_long s v).map fun num => bytes s.size num.toNat

/-- `LongToValue`; there is no case for `char`, and the result is null. -/
def LongToValue : (s : scalar) → UInt64 → Except stop (Option s.value)
  | .double, value => .ok (some value)
  | .float, value => .ok (some value.toUInt32)
  | .long, value => .ok (some value.toInt64)
  | .ulong, value => .ok (some value)
  | .byte, value => .ok (some value.toUInt8)
  | .sbyte, value => .ok (some value.toUInt8.toInt8)
  | .short, value => .ok (some value.toUInt16.toInt16)
  | .ushort, value => .ok (some value.toUInt16)
  | .char, _ => .ok none
  | .int, value => .ok (some value.toUInt32.toInt32)
  | .uint, value => .ok (some value.toUInt32)
  | .bool, value => .ok (some (decide (value.toInt64 > 0)))
  | .DateTime, value =>
    if h : value ≤ MAX_TICKS then .ok (some ⟨value, h⟩) else .error .ArgumentException
  | .IPAddress, value => .ok (some (some value.toUInt32))
  | .Guid, _ => .ok none

/-- `BinaryToValue` of the bytes that `ReadBytes` returned, which are fewer than
    `s.size` at the end of the stream. The pointer to a `Guid` then reads outside. -/
def BinaryToValue (s : scalar) (buffer : List UInt8) : Except stop (Option s.value) :=
  match s with
  | .Guid =>
    if h : buffer.length = 16 then .ok (some ⟨buffer, h⟩) else .error .reads_outside
  | s =>
    if buffer.length < s.size then .error .IndexOutOfRangeException
    else LongToValue s (UInt64.ofNat (value buffer))

/-! ### Which scalars survive -/

/-- Values of a type of the table that come back: of the characters only the first. -/
def scalar.Plain : (s : scalar) → s.value → Prop
  | .char, (v : UInt16) => v = 0
  | .IPAddress, (v : Option UInt32) => v.isSome
  | _, _ => True

theorem ofNat_value_bytes_eight (num : UInt64) :
    UInt64.ofNat (value (bytes 8 num.toNat)) = num := by
  have h := num.toNat_lt
  rw [value_bytes, Nat.mod_eq_of_lt (by omega), UInt64.ofNat_toNat]

theorem toUInt32_value_bytes (num : UInt64) :
    (UInt64.ofNat (value (bytes 4 num.toNat))).toUInt32 = num.toUInt32 := by
  apply UInt32.toNat_inj.mp
  rw [value_bytes, UInt64.toNat_toUInt32, UInt64.toNat_ofNat', UInt64.toNat_toUInt32]
  omega

theorem toUInt16_value_bytes (num : UInt64) :
    (UInt64.ofNat (value (bytes 2 num.toNat))).toUInt16 = num.toUInt16 := by
  apply UInt16.toNat_inj.mp
  rw [value_bytes, UInt64.toNat_toUInt16, UInt64.toNat_ofNat', UInt64.toNat_toUInt16]
  omega

theorem toUInt8_value_bytes (num : UInt64) :
    (UInt64.ofNat (value (bytes 1 num.toNat))).toUInt8 = num.toUInt8 := by
  apply UInt8.toNat_inj.mp
  rw [value_bytes, UInt64.toNat_toUInt8, UInt64.toNat_ofNat', UInt64.toNat_toUInt8]
  omega

/-- Sign extension keeps the lower bits. -/
theorem setWidth_signExtend {w : Nat} (h : w ≤ 64) (x : BitVec w) :
    (x.signExtend 64).setWidth w = x := by
  apply BitVec.eq_of_getLsbD_eq
  intro i hi
  rw [BitVec.getLsbD_setWidth, BitVec.getLsbD_signExtend, if_pos hi]
  simp only [hi, decide_true, Bool.true_and, Bool.and_eq_right_iff_imp, decide_eq_true_eq]
  omega

theorem toInt8_of_toInt64 (v : Int8) : v.toInt64.toUInt64.toUInt8.toInt8 = v := by
  apply Int8.toBitVec_inj.mp
  simp [setWidth_signExtend]

theorem toInt16_of_toInt64 (v : Int16) : v.toInt64.toUInt64.toUInt16.toInt16 = v := by
  apply Int16.toBitVec_inj.mp
  simp [setWidth_signExtend]

theorem toInt32_of_toInt64 (v : Int32) : v.toInt64.toUInt64.toUInt32.toInt32 = v := by
  apply Int32.toBitVec_inj.mp
  simp [setWidth_signExtend]

theorem toUInt32_of_toInt64 (v : UInt32) : v.toInt32.toInt64.toUInt64.toUInt32 = v := by
  apply UInt32.toBitVec_inj.mp
  simp [setWidth_signExtend]

/-- The number written for a value that comes back is turned into the value again. -/
theorem LongToValue_to_long {s : scalar} (hs : s ≠ .Guid) {v : s.value} (h : s.Plain v) :
    ∃ num r, to_long s v = .ok num ∧
      LongToValue s (UInt64.ofNat (value (bytes s.size num.toNat))) = .ok r ∧
      r.getD s.default = v ∧ (r = none → s = .char) := by
  cases s with
  | double =>
    refine ⟨_, some v, rfl, ?_, rfl, by simp⟩
    exact congrArg (fun x => Except.ok (some x)) (ofNat_value_bytes_eight _)
  | float =>
    refine ⟨_, some v, rfl, ?_, rfl, by simp⟩
    refine congrArg (fun x => Except.ok (some x)) ((toUInt32_value_bytes _).trans ?_)
    exact UInt32.toUInt32_toUInt64 v
  | long =>
    refine ⟨_, some v, rfl, ?_, rfl, by simp⟩
    exact congrArg (fun x => Except.ok (some (UInt64.toInt64 x))) (ofNat_value_bytes_eight _)
  | ulong =>
    refine ⟨_, some v, rfl, ?_, rfl, by simp⟩
    exact congrArg (fun x => Except.ok (some x)) (ofNat_value_bytes_eight _)
  | byte =>
    refine ⟨_, some v, rfl, ?_, rfl, by simp⟩
    refine congrArg (fun x => Except.ok (some x)) ((toUInt8_value_bytes _).trans ?_)
    exact UInt8.toUInt8_toUInt64 v
  | sbyte =>
    refine ⟨_, some v, rfl, ?_, rfl, by simp⟩
    refine (congrArg (fun x => Except.ok (some (UInt8.toInt8 x))) (toUInt8_value_bytes _)).trans ?_
    exact congrArg (fun x => Except.ok (some x)) (toInt8_of_toInt64 v)
  | short =>
    refine ⟨_, some v, rfl, ?_, rfl, by simp⟩
    refine (congrArg (fun x => Except.ok (some (UInt16.toInt16 x))) (toUInt16_value_bytes _)).trans ?_
    exact congrArg (fun x => Except.ok (some x)) (toInt16_of_toInt64 v)
  | ushort =>
    refine ⟨_, some v, rfl, ?_, rfl, by simp⟩
    refine congrArg (fun x => Except.ok (some x)) ((toUInt16_value_bytes _).trans ?_)
    exact UInt16.toUInt16_toUInt64 v
  | char => exact ⟨_, none, rfl, rfl, Eq.symm h, fun _ => rfl⟩
  | int =>
    refine ⟨_, some v, rfl, ?_, rfl, by simp⟩
    refine (congrArg (fun x => Except.ok (some (UInt32.toInt32 x))) (toUInt32_value_bytes _)).trans ?_
    exact congrArg (fun x => Except.ok (some x)) (toInt32_of_toInt64 v)
  | uint =>
    refine ⟨_, some v, rfl, ?_, rfl, by simp⟩
    refine congrArg (fun x => Except.ok (some x)) ((toUInt32_value_bytes _).trans ?_)
    exact UInt32.toUInt32_toUInt64 v
  | bool =>
    refine ⟨_, some v, rfl, ?_, rfl, by simp⟩
    cases v
    · rfl
    · rfl
  | DateTime =>
    refine ⟨_, some v, rfl, ?_, rfl, by simp⟩
    have hcount := ofNat_value_bytes_eight v.count
    show LongToValue .DateTime (UInt64.ofNat (value (bytes 8 v.count.toNat))) = .ok (some v)
    rw [hcount]
    exact dif_pos v.count_le
  | IPAddress =>
    obtain ⟨address, rfl⟩ : ∃ address : UInt32, v = (some address : Option UInt32) :=
      Option.isSome_iff_exists.mp h
    refine ⟨_, some (some address : Option UInt32), rfl, ?_, rfl, by simp⟩
    refine congrArg (fun x => Except.ok (some (some x))) ((toUInt32_value_bytes _).trans ?_)
    exact toUInt32_of_toInt64 address
  | Guid => exact absurd rfl hs

/-- All types but `Guid` are written as a number. -/
theorem ValueToBinary_of_ne {s : scalar} (hs : s ≠ .Guid) (v : s.value) :
    ValueToBinary s v = (to_long s v).map fun num => bytes s.size num.toNat := by
  cases s <;> first | exact absurd rfl hs | rfl

theorem BinaryToValue_of_ne {s : scalar} (hs : s ≠ .Guid) (buffer : List UInt8) :
    BinaryToValue s buffer = if buffer.length < s.size then .error .IndexOutOfRangeException
      else LongToValue s (UInt64.ofNat (value buffer)) := by
  cases s <;> first | exact absurd rfl hs | rfl

/-- A value that comes back is written, in the size of its type, and read. -/
theorem BinaryToValue_ValueToBinary {s : scalar} {v : s.value} (h : s.Plain v) :
    ∃ buffer r, ValueToBinary s v = .ok buffer ∧ buffer.length = s.size ∧
      BinaryToValue s buffer = .ok r ∧ r.getD s.default = v ∧ (r = none → s = .char) := by
  by_cases hs : s = .Guid
  · subst hs
    exact ⟨guid.bytes v, some v, rfl, guid.length_bytes v, dif_pos (guid.length_bytes v), rfl,
      by simp⟩
  · obtain ⟨num, r, hnum, hlong, hr, hnone⟩ := LongToValue_to_long hs h
    have hlength : (bytes s.size num.toNat).length = s.size := length_bytes _ _
    refine ⟨bytes s.size num.toNat, r, ?_, hlength, ?_, hr, hnone⟩
    · rw [ValueToBinary_of_ne hs, hnum]
      rfl
    · rw [BinaryToValue_of_ne hs, if_neg (Nat.not_lt.mpr (Nat.le_of_eq hlength.symm)), hlong]

/-- What is read is plain, and all of its bytes were there. -/
theorem of_BinaryToValue_ok {s : scalar} {buffer : List UInt8} {r : Option s.value}
    (h : BinaryToValue s buffer = .ok r) : s.size ≤ buffer.length ∧ s.Plain (r.getD s.default) := by
  by_cases hs : s = .Guid
  · subst hs
    refine ⟨?_, trivial⟩
    unfold BinaryToValue at h
    simp only at h
    split at h
    · rename_i hlength
      exact Nat.le_of_eq hlength.symm
    · simp at h
  · rw [BinaryToValue_of_ne hs] at h
    split at h
    · simp at h
    · refine ⟨by omega, ?_⟩
      cases s with
      | char =>
        obtain rfl := Except.ok.inj h
        rfl
      | IPAddress =>
        obtain rfl := Except.ok.inj h
        rfl
      | _ => trivial

theorem length_of_ValueToBinary {s : scalar} {v : s.value} {buffer : List UInt8}
    (h : ValueToBinary s v = .ok buffer) : buffer.length = s.size := by
  by_cases hs : s = .Guid
  · subst hs
    obtain rfl := Except.ok.inj h
    exact guid.length_bytes v
  · rw [ValueToBinary_of_ne hs] at h
    rcases hnum : to_long s v with e | num
    · rw [hnum] at h
      simp [Except.map] at h
    · rw [hnum] at h
      obtain rfl := Except.ok.inj h
      exact length_bytes _ _

end BinaryFormatter

end AsioNet.CsNetwork
