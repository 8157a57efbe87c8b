import AsioNet.CsNetwork.Serialization.Scalars

/-! # The client's object serializer (`BinaryFormatter.cs`)

    A value is written by its type: the types of `m_mapTabType` in their size,
    strings and lists after a length of one byte (`single`) or two, objects after
    a flag as the sequence of their properties. Reading goes by the type alone.

    A class is known by a number; `Γ` lists the types of its properties in the
    order of their metadata tokens. Classes may refer to each other and to
    themselves.
-/

namespace AsioNet.CsNetwork

open Exec LittleEndian

namespace BinaryFormatter

/-! ### Types and values -/

/-- The types an enumeration may be over. -/
inductive integral where
  | byte | sbyte | short | ushort | int | uint | long | ulong
  deriving DecidableEq, Repr

/-- `Enum.GetUnderlyingType` -/
def integral.underlying : integral → scalar
  | .byte => .byte
  | .sbyte => .sbyte
  | .short => .short
  | .ushort => .ushort
  | .int => .int
  | .uint => .uint
  | .long => .long
  | .ulong => .ulong

inductive list_kind where
  | array
  | List
  deriving DecidableEq, Repr

inductive ty where
  | scalar (s : scalar)
  | enum (u : integral)
  | string
  | list (k : list_kind) (element : ty)
  | cls (c : Nat)
  deriving DecidableEq, Repr

/-- `GetArrayElmentType(t) != null` -/
def ty.is_list : ty → Bool
  | .list _ _ => true
  | _ => false

/-- The code units of a string. -/
abbrev cs_string := List UInt16

variable (Γ : Nat → List ty)

mutual

/-- The values of a type. -/
inductive val : ty → Type
  | scalar {s : scalar} (v : s.value) : val (.scalar s)
  | enum {u : integral} (v : u.underlying.value) : val (.enum u)
  | string (v : Option cs_string) : val .string
  | list_null {k : list_kind} {t : ty} : val (.list k t)
  | list {k : list_kind} {t : ty} (n : Nat) (xs : vals (List.replicate n t)) : val (.list k t)
  | null {c : Nat} : val (.cls c)
  | object {c : Nat} (ps : vals (Γ c)) : val (.cls c)

/-- A sequence of values: the elements of a list, the properties of an object. -/
inductive vals : List ty → Type
  | nil : vals []
  | cons {t : ty} {ts : List ty} (x : val t) (xs : vals ts) : vals (t :: ts)

end

variable {Γ}

/-- What a field of the type holds when nothing is assigned to it. -/
def val.default : (t : ty) → val Γ t
  | .scalar s => .scalar s.default
  | .enum u => .enum u.underlying.default
  | .string => .string none
  | .list _ _ => .list_null
  | .cls _ => .null

/-! ### Writing -/

/-- `m_strEncoding`. The empty string has no bytes. -/
structure Encoding where
  GetBytes : cs_string → List UInt8
  GetString : List UInt8 → cs_string
  GetBytes_empty : GetBytes [] = []
  GetString_empty : GetString [] = []

/-- The code page on the ASCII characters. -/
def ascii : Encoding where
  GetBytes s := s.map UInt16.toUInt8
  GetString bs := bs.map UInt8.toUInt16
  GetBytes_empty := rfl
  GetString_empty := rfl

/-- The null marker, `-1` in one byte or two. -/
def null_len (single : Bool) : Nat := if single then 0xFF else 0xFFFF

/-- The number of bytes of a length. -/
def len_size (single : Bool) : Nat := if single then 1 else 2

/-- `AddLenToStream` -/
def AddLenToStream (single : Bool) (len : Nat) : List UInt8 := bytes (len_size single) len

section

variable (E : Encoding) (single : Bool)

mutual

def AddValueToStream : {t : ty} → val Γ t → Except stop (List UInt8)
  | _, .scalar (s := s) v => ValueToBinary s v
  | _, .enum (u := u) v => ValueToBinary u.underlying v
  | _, .string none => .ok (AddLenToStream single (null_len single))
  | _, .string (some s) =>
    .ok (AddLenToStream single (E.GetBytes s).length ++ E.GetBytes s)
  | _, .list_null => .ok (AddLenToStream single (null_len single))
  | _, .list n xs => do
    let elements ← AddElements xs
    .ok (AddLenToStream single n ++ elements)
  | _, .null => .ok [1]
  | _, .object ps => do
    let properties ← AddProperties ps
    .ok (0 :: properties)

/-- The elements of a list. `AddObjectToStream` writes nothing for one that is itself
    a list. -/
def AddElements : {ts : List ty} → vals Γ ts → Except stop (List UInt8)
  | _, .nil => .ok []
  | _, .cons (t := t) x xs => do
    let first ← (if t.is_list then .ok [] else AddValueToStream x)
    let rest ← AddElements xs
    .ok (first ++ rest)

def AddProperties : {ts : List ty} → vals Γ ts → Except stop (List UInt8)
  | _, .nil => .ok []
  | _, .cons x xs => do
    let first ← AddValueToStream x
    let rest ← AddProperties xs
    .ok (first ++ rest)

end

/-! ### Reading -/

/-- Reading from a stream of which the given bytes are left. -/
abbrev reader (α : Type) := Exec stop (List UInt8) α

/-- `ReadBytes`; fewer bytes at the end of the stream. -/
def ReadBytes (count : Nat) : reader (List UInt8) :=
  of fun bs => (.ok (bs.take count), bs.drop count)

/-- `ReadByte` and `ReadUInt16`: the number in the next `size` bytes. -/
def ReadNumber (size : Nat) : reader Nat := of fun bs =>
  if bs.length < size then (.error .EndOfStreamException, [])
  else (.ok (value (bs.take size)), bs.drop size)

def ReadBoolean : reader Bool := do
  let b ← ReadNumber 1
  pure (b != 0)

def Len : reader Nat := ReadNumber (len_size single)

def Null (len : Nat) : Bool := len == null_len single

def GetStringFromStream : reader (Option cs_string) := do
  let len ← Len single
  if Null single len then pure none
  else if len ≤ 0 then pure (some [])
  else do
    let buffer ← ReadBytes len
    pure (some (E.GetString buffer))

/-- The elements of a `byte[]`. -/
def byte_vals : (bs : List UInt8) → vals Γ (List.replicate bs.length (.scalar .byte))
  | [] => .nil
  | b :: bs => .cons (.scalar (s := .byte) b) (byte_vals bs)

/-- `buffer[i] = value` and `buffer.Add(value)`. A null becomes the default of an array's
    element type; a `List` of a value type does not take it. -/
def store_element (k : list_kind) (element : ty) :
    Option (val Γ element) → Except stop (val Γ element)
  | some v => .ok v
  | none => match k with
    | .array => .ok (.default element)
    | .List => .error .ArgumentException

def read_elements (k : list_kind) {element : ty} (read : reader (Option (val Γ element))) :
    (len : Nat) → reader (vals Γ (List.replicate len element))
  | 0 => pure .nil
  | len + 1 => do
    let r ← read
    let x ← lift (store_element k element r)
    let xs ← read_elements k read len
    pure (.cons x xs)

/-- `GetListFromStream`, with the reader of the elements. -/
def GetListFromStream (k : list_kind) (element : ty) (read : reader (Option (val Γ element))) :
    reader (val Γ (.list k element)) := do
  let len ← Len single
  if Null single len then pure .list_null
  else if h : k = .array ∧ element = .scalar .byte then do
    let bs ← ReadBytes len
    pure (h.2 ▸ .list bs.length (byte_vals bs))
  else do
    let xs ← read_elements k read len
    pure (.list len xs)

/-- `GetObjectFromStream` of a list type. An array has no constructor without arguments; the
    properties of a `List` begin with `Capacity` and `Count`, and the second has no setter. -/
def list_as_object (k : list_kind) (element : ty) : reader (Option (val Γ (.list k element))) := do
  let is_null ← ReadBoolean
  if is_null then pure (some .list_null)
  else match k with
    | .array => throw .MissingMethodException
    | .List => throw .ArgumentException

/-- How an element is read: a list as an object, everything else as a value. -/
def read_element : {element : ty} → reader (Option (val Γ element)) →
    reader (Option (val Γ element))
  | .list k element, _ => list_as_object k element
  | _, read => read

/-- `GetValueFromStream`, with the reader of objects; null for a `char`. -/
def GetValueFromStream (object : (c : Nat) → reader (val Γ (.cls c))) :
    (t : ty) → reader (Option (val Γ t))
  | .scalar s => do
    let buffer ← ReadBytes s.size
    let r ← lift (BinaryToValue s buffer)
    pure (r.map .scalar)
  | .enum u => do
    let buffer ← ReadBytes u.underlying.size
    let r ← lift (BinaryToValue u.underlying buffer)
    pure (r.map .enum)
  | .string => do
    let s ← GetStringFromStream E single
    pure (some (.string s))
  | .list k element => do
    let v ← GetListFromStream single k element (read_element (GetValueFromStream object element))
    pure (some v)
  | .cls c => do
    let v ← object c
    pure (some v)

/-- The properties of an object; `SetValue` makes the default of a null. -/
def read_properties (read : (t : ty) → reader (Option (val Γ t))) :
    (ts : List ty) → reader (vals Γ ts)
  | [] => pure .nil
  | t :: ts => do
    let r ← read t
    let xs ← read_properties read ts
    pure (.cons (r.getD (.default t)) xs)

/-- `GetObjectFromStream` of a class, with as many nested calls as `depth` says. Every
    object starts with a byte of its own. -/
def GetObjectFromStream : (depth : Nat) → (c : Nat) → reader (val Γ (.cls c))
  | 0, _ => throw .StackOverflowException
  | depth + 1, c => do
    let is_null ← ReadBoolean
    if is_null then pure .null
    else do
      let ps ← read_properties (GetValueFromStream E single (GetObjectFromStream depth)) (Γ c)
      pure (.object ps)

/-! ### The two ends -/

/-- `Serialize(graph, single)` of an instance that is not null. -/
def Serialize {c : Nat} (graph : val Γ (.cls c)) : Except stop (List UInt8) :=
  AddValueToStream E single graph

/-- `Deserialize(buffer, type, single)` -/
def Deserialize (depth : Nat) (c : Nat) (buffer : List UInt8) : Except stop (val Γ (.cls c)) :=
  (exec (GetObjectFromStream E single depth c) buffer).1

end

end BinaryFormatter

end AsioNet.CsNetwork
