import AsioNet.CsNetwork.Serialization.RoundTrip

/-! # The lengths of strings and lists (`BinaryFormatter.cs`)

    `AddLenToStream` casts the length to a byte or to two, and the largest value
    of the field stands for null. The casts are not checked: a longer string or
    list is written with the length modulo the field, and one whose length is
    the largest value is read as null. `lengths_kept_iff` says that these are
    the only values whose length is lost.
-/

namespace AsioNet.CsNetwork

open Exec LittleEndian

namespace BinaryFormatter

variable {Γ : Nat → List ty}

/-! ### The writers -/

section

variable (E : Encoding) (single : Bool)

def AddStringToStream : Option cs_string → List UInt8
  | none => AddLenToStream single (null_len single)
  | some value => AddLenToStream single (E.GetBytes value).length ++ E.GetBytes value

def AddListToStream {k : list_kind} {element : ty} :
    val Γ (.list k element) → Except stop (List UInt8)
  | .list_null => .ok (AddLenToStream single (null_len single))
  | .list n xs => do
    let elements ← AddElements E single xs
    .ok (AddLenToStream single n ++ elements)

/-- A string inside another value is added the same way. -/
theorem AddValueToStream_string (value : Option cs_string) :
    AddValueToStream (Γ := Γ) E single (.string value) = .ok (AddStringToStream E single value) := by
  cases value with
  | none => rw [AddValueToStream, AddStringToStream]
  | some s => rw [AddValueToStream, AddStringToStream]

/-- So is a list. -/
theorem AddValueToStream_list {k : list_kind} {element : ty} (value : val Γ (.list k element)) :
    AddValueToStream E single value = AddListToStream E single value := by
  cases value with
  | list_null => rw [AddValueToStream, AddListToStream]
  | list n xs => rw [AddValueToStream, AddListToStream]

/-! ### What is read of a length -/

/-- `Len` and `Null` read from `out` that `count` elements follow, none standing for
    null, and leave the reader in front of `elements`. -/
def LengthKept (out : List UInt8) (count : Option Nat) (elements : List UInt8) : Prop :=
  ∀ rest, ∃ len, exec (Len single) (out ++ rest) = (.ok len, elements ++ rest) ∧
    (Null single len = true ↔ count = none) ∧ ∀ n, count = some n → len = n

/-- The length of a value is read as it was written if and only if it is below the
    null marker. -/
theorem length_kept_iff (count : Option Nat) (elements : List UInt8) :
    LengthKept single (AddLenToStream single (count.getD (null_len single)) ++ elements) count
        elements ↔ ∀ n, count = some n → n < null_len single := by
  constructor
  · intro h n hn
    obtain ⟨len, hlen, hnull, hcount⟩ := h []
    rw [hn, List.append_assoc, exec_Len_mod] at hlen
    obtain ⟨hmod, _⟩ := Prod.mk.inj hlen
    have hread : n % (null_len single + 1) = n := (Except.ok.inj hmod).trans (hcount n hn)
    have hlt := Nat.mod_lt n (Nat.succ_pos (null_len single))
    rw [hread] at hlt
    -- the largest value is null
    have hne : n ≠ null_len single := by
      intro hmax
      have htrue : Null single len = true := by
        rw [hcount n hn, hmax]
        exact Null_null_len single
      rw [hn] at hnull
      cases hnull.mp htrue
    omega
  · intro h rest
    cases count with
    | none =>
      refine ⟨null_len single, ?_, ?_, fun n hn => by cases hn⟩
      · rw [List.append_assoc]
        exact exec_Len single (Nat.le_refl _) _
      · exact iff_of_true (Null_null_len single) rfl
    | some n =>
      have hn := h n rfl
      refine ⟨n, ?_, ?_, fun m hm => Option.some.inj hm⟩
      · rw [List.append_assoc]
        exact exec_Len single (Nat.le_of_lt hn) _
      · rw [Null_of_lt single hn]
        exact iff_of_false Bool.false_ne_true (fun hfalse => by cases hfalse)

/-! ### Strings -/

/-- The length of a string is kept, and its bytes are consumed exactly. -/
structure StringKept (value : Option cs_string) : Prop where
  length : LengthKept single (AddStringToStream E single value)
    (value.map fun s => (E.GetBytes s).length) ((value.map E.GetBytes).getD [])
  consumed : ∀ rest,
    exec (GetStringFromStream E single) (AddStringToStream E single value ++ rest) =
      (.ok (value.map fun s => E.GetString (E.GetBytes s)), rest)

theorem AddStringToStream_eq (value : Option cs_string) :
    AddStringToStream E single value =
      AddLenToStream single
        ((value.map fun s => (E.GetBytes s).length).getD (null_len single)) ++
      (value.map E.GetBytes).getD [] := by
  cases value with
  | none => rw [AddStringToStream, Option.map_none, Option.map_none, Option.getD_none,
      Option.getD_none, List.append_nil]
  | some s => rw [AddStringToStream, Option.map_some, Option.map_some, Option.getD_some,
      Option.getD_some]

theorem exec_GetStringFromStream {value : Option cs_string}
    (h : ∀ s, value = some s → (E.GetBytes s).length < null_len single) (rest : List UInt8) :
    exec (GetStringFromStream E single) (AddStringToStream E single value ++ rest) =
      (.ok (value.map fun s => E.GetString (E.GetBytes s)), rest) := by
  unfold GetStringFromStream
  cases value with
  | none =>
    rw [AddStringToStream, exec_bind_of_ok (exec_Len single (Nat.le_refl _) rest),
      if_pos (Null_null_len single)]
    rfl
  | some s =>
    have hlength := h s rfl
    rw [AddStringToStream, List.append_assoc,
      exec_bind_of_ok (exec_Len single (Nat.le_of_lt hlength) _), Null_of_lt single hlength,
      if_neg Bool.false_ne_true]
    split
    · rename_i hempty
      have hnil := List.eq_nil_of_length_eq_zero (Nat.le_zero.mp hempty)
      rw [exec_pure, Option.map_some, hnil, E.GetString_empty, List.nil_append]
    · rw [exec_bind_of_ok (exec_ReadBytes rfl rest), exec_pure, Option.map_some]

theorem string_kept_iff (value : Option cs_string) :
    StringKept E single value ↔
      ∀ s, value = some s → (E.GetBytes s).length < null_len single := by
  have hlength := length_kept_iff single (value.map fun s => (E.GetBytes s).length)
    ((value.map E.GetBytes).getD [])
  rw [← AddStringToStream_eq] at hlength
  constructor
  · intro h s hs
    exact hlength.mp h.length _ (by rw [hs, Option.map_some])
  · intro h
    refine ⟨hlength.mpr ?_, exec_GetStringFromStream E single h⟩
    intro n hn
    obtain ⟨s, hs, rfl⟩ := Option.map_eq_some_iff.mp hn
    exact h s hs

/-! ### Lists -/

/-- The number of elements, none for null. -/
def list_count {k : list_kind} {element : ty} : val Γ (.list k element) → Option Nat
  | .list_null => none
  | .list n _ => some n

/-- What is written behind the length. -/
def list_elements {k : list_kind} {element : ty} :
    val Γ (.list k element) → Except stop (List UInt8)
  | .list_null => .ok []
  | .list _ xs => AddElements E single xs

theorem scalar_byte_eq {k : list_kind} {element : ty}
    (h : k = .array ∧ element = .scalar .byte) : .scalar .byte = element := h.2.symm

/-- What `GetListFromStream` does after a length, none standing for null. -/
def read_list (k : list_kind) (element : ty) (read : reader (Option (val Γ element))) :
    Option Nat → reader (val Γ (.list k element))
  | none => pure .list_null
  | some len =>
    if h : k = .array ∧ element = .scalar .byte then do
      let bs ← ReadBytes len
      pure (scalar_byte_eq h ▸ .list bs.length (byte_vals bs))
    else do
      let xs ← read_elements k read len
      pure (.list len xs)

/-- The length of a list that is written is kept, and the reader goes on with as many
    elements at the bytes of the first. -/
structure ListKept {k : list_kind} {element : ty} (value : val Γ (.list k element)) : Prop where
  length : ∀ out elements, AddListToStream E single value = .ok out →
    list_elements E single value = .ok elements →
    LengthKept single out (list_count value) elements
  consumed : ∀ out elements, AddListToStream E single value = .ok out →
    list_elements E single value = .ok elements →
    ∀ (read : reader (Option (val Γ element))) rest,
    exec (GetListFromStream single k element read) (out ++ rest) =
      exec (read_list k element read (list_count value)) (elements ++ rest)

/-- A list is written as its length and its elements, or the writer throws. -/
theorem AddListToStream_eq {k : list_kind} {element : ty} (value : val Γ (.list k element)) :
    AddListToStream E single value = (list_elements E single value).map fun elements =>
      AddLenToStream single ((list_count value).getD (null_len single)) ++ elements := by
  cases value with
  | list_null =>
    rw [AddListToStream, list_elements, list_count, Option.getD_none]
    exact congrArg Except.ok (List.append_nil _).symm
  | list n xs =>
    rw [AddListToStream, list_elements, list_count, Option.getD_some]
    cases AddElements E single xs <;> rfl

/-- A length that is kept leads the reader to the elements. -/
theorem exec_GetListFromStream {k : list_kind} {element : ty} {out elements : List UInt8}
    {count : Option Nat} (h : LengthKept single out count elements)
    (read : reader (Option (val Γ element))) (rest : List UInt8) :
    exec (GetListFromStream single k element read) (out ++ rest) =
      exec (read_list k element read count) (elements ++ rest) := by
  obtain ⟨len, hlen, hnull, hcount⟩ := h rest
  unfold GetListFromStream
  rw [exec_bind_of_ok hlen]
  cases count with
  | none =>
    rw [if_pos (hnull.mpr rfl)]
    rfl
  | some n =>
    have hfalse : ¬ Null single len = true := fun htrue => by cases hnull.mp htrue
    rw [if_neg hfalse, hcount n rfl]
    rfl

theorem list_kept_iff {k : list_kind} {element : ty} (value : val Γ (.list k element)) :
    ListKept E single value ↔ ∀ n out, list_count value = some n →
      AddListToStream E single value = .ok out → n < null_len single := by
  have hwrite := AddListToStream_eq E single value
  -- what is written, if anything is
  have hsplit : ∀ out, AddListToStream E single value = .ok out → ∃ elements,
      list_elements E single value = .ok elements ∧
      out = AddLenToStream single ((list_count value).getD (null_len single)) ++ elements := by
    intro out hout
    rw [hwrite] at hout
    cases helements : list_elements E single value with
    | error e =>
      rw [helements] at hout
      cases hout
    | ok elements =>
      rw [helements] at hout
      exact ⟨elements, rfl, (Except.ok.inj hout).symm⟩
  have hlength : ∀ out elements, AddListToStream E single value = .ok out →
      list_elements E single value = .ok elements →
      (LengthKept single out (list_count value) elements ↔
        ∀ n, list_count value = some n → n < null_len single) := by
    intro out elements hout helements
    obtain ⟨elements', helements', rfl⟩ := hsplit out hout
    rw [helements] at helements'
    obtain rfl := Except.ok.inj helements'
    exact length_kept_iff single (list_count value) elements
  constructor
  · intro h n out hn hout
    obtain ⟨elements, helements, _⟩ := hsplit out hout
    exact (hlength out elements hout helements).mp (h.length out elements hout helements) n hn
  · intro h
    have hkept : ∀ out elements, AddListToStream E single value = .ok out →
        list_elements E single value = .ok elements →
        LengthKept single out (list_count value) elements := by
      intro out elements hout helements
      exact (hlength out elements hout helements).mpr fun n hn => h n out hn hout
    refine ⟨hkept, ?_⟩
    intro out elements hout helements read rest
    exact exec_GetListFromStream single (hkept out elements hout helements) read rest

/-- **Lengths and null, exactly**: the length of a string or list is read as it was
    written if and only if it is null, or below the null marker, or the writer throws. -/
theorem lengths_kept_iff :
    (∀ value, StringKept E single value ↔
      ∀ s, value = some s → (E.GetBytes s).length < null_len single) ∧
    ∀ (Γ : Nat → List ty) (k : list_kind) (element : ty) (value : val Γ (.list k element)),
      ListKept E single value ↔ ∀ n out, list_count value = some n →
        AddListToStream E single value = .ok out → n < null_len single := by
  constructor
  · intro value
    exact string_kept_iff E single value
  · intro Γ k element value
    exact list_kept_iff E single value

end

/-- A string of 255 characters is read as null from a length of one byte. -/
theorem not_always_string_kept : ¬ ∀ (single : Bool) value, StringKept ascii single value := by
  intro h
  have hlength := (string_kept_iff ascii true _).mp (h true (some (List.replicate 255 0x61)))
    _ rfl
  have hbytes : (ascii.GetBytes (List.replicate 255 0x61)).length = 255 := by
    unfold ascii
    rw [List.length_map, List.length_replicate]
  rw [hbytes] at hlength
  exact absurd hlength (by decide)

end BinaryFormatter

end AsioNet.CsNetwork
