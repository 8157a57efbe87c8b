import AsioNet.CsNetwork.Serialization.BinaryFormatter

/-! # What `Deserialize` makes of what `Serialize` wrote

    Of the characters only the first comes back, `LongToValue` having no case for
    them, and a `List` of characters is not read at all. The elements of a list that
    are lists themselves are not written, and read as if they were. Everything else
    comes back: `round_trip_iff`.

    For the one direction a value is read from the bytes written for it, whatever
    follows. For the other, reading only ever yields values of the first kind, and
    what it yields is no larger than what it consumed, where each element that was
    not written counts for a byte.
-/

namespace AsioNet.CsNetwork

open Exec LittleEndian

namespace BinaryFormatter

variable {Γ : Nat → List ty}

/-! ### The values that come back -/

/-- An element type that no `List` takes back: reading gives null. -/
def never_added (k : list_kind) (element : ty) : Prop := k = .List ∧ element = .scalar .char

mutual

/-- No character but the first, no null address, no `List` of characters. -/
def val.Plain : {t : ty} → val Γ t → Prop
  | _, .scalar (s := s) v => s.Plain v
  | _, .enum _ => True
  | _, .string _ => True
  | _, .list_null => True
  | _, .list (k := k) _ xs => xs.PlainElements k
  | _, .null => True
  | _, .object ps => ps.PlainProperties

def vals.PlainElements (k : list_kind) : {ts : List ty} → vals Γ ts → Prop
  | _, .nil => True
  | _, .cons (t := t) x xs => ¬ never_added k t ∧ x.Plain ∧ xs.PlainElements k

def vals.PlainProperties : {ts : List ty} → vals Γ ts → Prop
  | _, .nil => True
  | _, .cons x xs => x.Plain ∧ xs.PlainProperties

end

mutual

/-- No element of a list is a list itself. -/
def val.Flat : {t : ty} → val Γ t → Prop
  | _, .scalar _ => True
  | _, .enum _ => True
  | _, .string _ => True
  | _, .list_null => True
  | _, .list _ xs => xs.FlatElements
  | _, .null => True
  | _, .object ps => ps.FlatProperties

def vals.FlatElements : {ts : List ty} → vals Γ ts → Prop
  | _, .nil => True
  | _, .cons (t := t) x xs => t.is_list = false ∧ x.Flat ∧ xs.FlatElements

def vals.FlatProperties : {ts : List ty} → vals Γ ts → Prop
  | _, .nil => True
  | _, .cons x xs => x.Flat ∧ xs.FlatProperties

end

mutual

/-- Every string in it satisfies `P`, every number of elements `Q`. -/
def val.Each (P : cs_string → Prop) (Q : Nat → Prop) : {t : ty} → val Γ t → Prop
  | _, .scalar _ => True
  | _, .enum _ => True
  | _, .string none => True
  | _, .string (some s) => P s
  | _, .list_null => True
  | _, .list n xs => Q n ∧ xs.Each P Q
  | _, .null => True
  | _, .object ps => ps.Each P Q

def vals.Each (P : cs_string → Prop) (Q : Nat → Prop) : {ts : List ty} → vals Γ ts → Prop
  | _, .nil => True
  | _, .cons x xs => x.Each P Q ∧ xs.Each P Q

end

section

variable (E : Encoding) (single : Bool)

/-- The encoding is lossless on the strings of `v`, and these and the lists are shorter than
    the null marker. -/
def Admissible {t : ty} (v : val Γ t) : Prop :=
  v.Each (fun s => E.GetString (E.GetBytes s) = s ∧ (E.GetBytes s).length < null_len single)
    (· < null_len single)

def AdmissibleAll {ts : List ty} (xs : vals Γ ts) : Prop :=
  xs.Each (fun s => E.GetString (E.GetBytes s) = s ∧ (E.GetBytes s).length < null_len single)
    (· < null_len single)

/-- The string is not also read from fewer bytes. -/
def Encoding.Shortest (s : cs_string) : Prop :=
  ∀ bs, E.GetString bs = s → (E.GetBytes s).length ≤ bs.length

/-- No string of `v` is also read from fewer bytes. -/
def Tight {t : ty} (v : val Γ t) : Prop := v.Each E.Shortest fun _ => True

def TightAll {ts : List ty} (xs : vals Γ ts) : Prop := xs.Each E.Shortest fun _ => True

/-- `x` is written, and read again from these bytes. -/
def RoundTrips (depth : Nat) {c : Nat} (x : val Γ (.cls c)) : Prop :=
  ∃ buffer, Serialize E single x = .ok buffer ∧ Deserialize E single depth c buffer = .ok x

/-! ### How much is written -/

mutual

/-- The number of bytes written for a value, if an element that is a list has `m` of them. -/
def val.size (m : Nat) : {t : ty} → val Γ t → Nat
  | _, .scalar (s := s) _ => s.size
  | _, .enum (u := u) _ => u.underlying.size
  | _, .string none => len_size single
  | _, .string (some s) => len_size single + (E.GetBytes s).length
  | _, .list_null => len_size single
  | _, .list _ xs => len_size single + xs.size_elements m
  | _, .null => 1
  | _, .object ps => 1 + ps.size_properties m

def vals.size_elements (m : Nat) : {ts : List ty} → vals Γ ts → Nat
  | _, .nil => 0
  | _, .cons (t := t) x xs => (if t.is_list then m else x.size m) + xs.size_elements m

def vals.size_properties (m : Nat) : {ts : List ty} → vals Γ ts → Nat
  | _, .nil => 0
  | _, .cons x xs => x.size m + xs.size_properties m

end

/-- A sequence of writes that returns is made of two that return. -/
theorem of_append_ok {x y : Except stop (List UInt8)} {bs : List UInt8}
    (h : (do let first ← x; let rest ← y; Except.ok (first ++ rest)) = Except.ok bs) :
    ∃ first rest, x = .ok first ∧ y = .ok rest ∧ bs = first ++ rest := by
  rcases x with e | first
  · simp [bind, Except.bind] at h
  · rcases y with e | rest
    · simp [bind, Except.bind] at h
    · exact ⟨first, rest, rfl, rfl, (Except.ok.inj h).symm⟩

theorem of_map_ok {x : Except stop (List UInt8)} {f : List UInt8 → List UInt8} {bs : List UInt8}
    (h : (do let rest ← x; Except.ok (f rest)) = Except.ok bs) :
    ∃ rest, x = .ok rest ∧ bs = f rest := by
  rcases x with e | rest
  · simp [bind, Except.bind] at h
  · exact ⟨rest, rfl, (Except.ok.inj h).symm⟩

@[simp] theorem length_AddLenToStream (len : Nat) :
    (AddLenToStream single len).length = len_size single := length_bytes _ _

mutual

theorem length_of_AddValueToStream : {t : ty} → (v : val Γ t) → {bs : List UInt8} →
    AddValueToStream E single v = .ok bs → bs.length = v.size E single 0
  | _, .scalar v, bs, h => by
    rw [AddValueToStream] at h
    rw [val.size]
    exact length_of_ValueToBinary h
  | _, .enum v, bs, h => by
    rw [AddValueToStream] at h
    rw [val.size]
    exact length_of_ValueToBinary h
  | _, .string none, bs, h => by
    rw [AddValueToStream] at h
    rw [val.size, ← Except.ok.inj h, length_AddLenToStream]
  | _, .string (some s), bs, h => by
    rw [AddValueToStream] at h
    rw [val.size, ← Except.ok.inj h, List.length_append, length_AddLenToStream]
  | _, .list_null, bs, h => by
    rw [AddValueToStream] at h
    rw [val.size, ← Except.ok.inj h, length_AddLenToStream]
  | _, .list n xs, bs, h => by
    rw [AddValueToStream] at h
    obtain ⟨elements, helements, rfl⟩ := of_map_ok h
    rw [val.size, List.length_append, length_AddLenToStream,
      length_of_AddElements xs helements]
  | _, .null, bs, h => by
    rw [AddValueToStream] at h
    rw [val.size, ← Except.ok.inj h, List.length_singleton]
  | _, .object ps, bs, h => by
    rw [AddValueToStream] at h
    obtain ⟨properties, hproperties, rfl⟩ := of_map_ok h
    rw [val.size, List.length_cons, length_of_AddProperties ps hproperties, Nat.add_comm]

theorem length_of_AddElements : {ts : List ty} → (xs : vals Γ ts) → {bs : List UInt8} →
    AddElements E single xs = .ok bs → bs.length = xs.size_elements E single 0
  | _, .nil, bs, h => by
    rw [AddElements] at h
    rw [vals.size_elements, ← Except.ok.inj h, List.length_nil]
  | _, .cons (t := t) x xs, bs, h => by
    rw [AddElements] at h
    obtain ⟨first, rest, hfirst, hrest, rfl⟩ := of_append_ok h
    rw [vals.size_elements, List.length_append, length_of_AddElements xs hrest]
    split at hfirst
    · rename_i hlist
      rw [if_pos hlist, ← Except.ok.inj hfirst, List.length_nil]
    · rename_i hlist
      rw [if_neg hlist, length_of_AddValueToStream x hfirst]

theorem length_of_AddProperties : {ts : List ty} → (xs : vals Γ ts) → {bs : List UInt8} →
    AddProperties E single xs = .ok bs → bs.length = xs.size_properties E single 0
  | _, .nil, bs, h => by
    rw [AddProperties] at h
    rw [vals.size_properties, ← Except.ok.inj h, List.length_nil]
  | _, .cons x xs, bs, h => by
    rw [AddProperties] at h
    obtain ⟨first, rest, hfirst, hrest, rfl⟩ := of_append_ok h
    rw [vals.size_properties, List.length_append, length_of_AddValueToStream x hfirst,
      length_of_AddProperties xs hrest]

end

mutual

/-- Counting unwritten elements gives more, and strictly more if there are any. -/
theorem size_le : {t : ty} → (v : val Γ t) →
    v.size E single 0 ≤ v.size E single 1 ∧
      (v.size E single 1 ≤ v.size E single 0 → v.Flat)
  | _, .scalar _ => by
    simp only [val.size, val.Flat]
    exact ⟨Nat.le_refl _, fun _ => trivial⟩
  | _, .enum _ => by
    simp only [val.size, val.Flat]
    exact ⟨Nat.le_refl _, fun _ => trivial⟩
  | _, .string none => by
    simp only [val.size, val.Flat]
    exact ⟨Nat.le_refl _, fun _ => trivial⟩
  | _, .string (some _) => by
    simp only [val.size, val.Flat]
    exact ⟨Nat.le_refl _, fun _ => trivial⟩
  | _, .list_null => by
    simp only [val.size, val.Flat]
    exact ⟨Nat.le_refl _, fun _ => trivial⟩
  | _, .list _ xs => by
    have helements := size_elements_le xs
    simp only [val.size, val.Flat]
    exact ⟨by omega, fun h => helements.2 (by omega)⟩
  | _, .null => by
    simp only [val.size, val.Flat]
    exact ⟨Nat.le_refl _, fun _ => trivial⟩
  | _, .object ps => by
    have hproperties := size_properties_le ps
    simp only [val.size, val.Flat]
    exact ⟨by omega, fun h => hproperties.2 (by omega)⟩

theorem size_elements_le : {ts : List ty} → (xs : vals Γ ts) →
    xs.size_elements E single 0 ≤ xs.size_elements E single 1 ∧
      (xs.size_elements E single 1 ≤ xs.size_elements E single 0 → xs.FlatElements)
  | _, .nil => by
    simp only [vals.size_elements, vals.FlatElements]
    exact ⟨Nat.le_refl _, fun _ => trivial⟩
  | _, .cons (t := t) x xs => by
    have hx := size_le x
    have hxs := size_elements_le xs
    simp only [vals.size_elements, vals.FlatElements]
    rcases hlist : t.is_list with _ | _
    · simp only [Bool.false_eq_true, if_false, true_and]
      exact ⟨by omega, fun h => ⟨hx.2 (by omega), hxs.2 (by omega)⟩⟩
    · simp only [if_true]
      omega

theorem size_properties_le : {ts : List ty} → (xs : vals Γ ts) →
    xs.size_properties E single 0 ≤ xs.size_properties E single 1 ∧
      (xs.size_properties E single 1 ≤ xs.size_properties E single 0 → xs.FlatProperties)
  | _, .nil => by
    simp only [vals.size_properties, vals.FlatProperties]
    exact ⟨Nat.le_refl _, fun _ => trivial⟩
  | _, .cons x xs => by
    have hx := size_le x
    have hxs := size_properties_le xs
    simp only [vals.size_properties, vals.FlatProperties]
    exact ⟨by omega, fun h => ⟨hx.2 (by omega), hxs.2 (by omega)⟩⟩

end

/-! ### What reading yields -/

/-- `v` was read from `bs`, of which `rest` is left. -/
def Paid {t : ty} (bs rest : List UInt8) (v : val Γ t) : Prop :=
  v.Plain ∧ (Tight E v → v.size E single 1 + rest.length ≤ bs.length)

/-- What a reader yields has been paid for, and a character is never read. -/
def Yields {t : ty} (read : reader (Option (val Γ t))) : Prop :=
  ∀ bs r rest, exec read bs = (.ok r, rest) →
    Paid E single bs rest (r.getD (.default t)) ∧ (t = .scalar .char → r = none)

theorem of_ReadBytes {count : Nat} {bs rest buffer : List UInt8}
    (h : exec (ReadBytes count) bs = (.ok buffer, rest)) :
    buffer = bs.take count ∧ rest = bs.drop count := by
  unfold ReadBytes at h
  rw [exec_of, Prod.mk.injEq, Except.ok.injEq] at h
  exact ⟨h.1.symm, h.2.symm⟩

theorem of_ReadNumber {size len : Nat} {bs rest : List UInt8}
    (h : exec (ReadNumber size) bs = (.ok len, rest)) : size + rest.length = bs.length := by
  unfold ReadNumber at h
  rw [exec_of] at h
  split at h
  · simp at h
  · rw [Prod.mk.injEq] at h
    rw [← h.2, List.length_drop]
    omega

theorem of_ReadBoolean {b : Bool} {bs rest : List UInt8}
    (h : exec ReadBoolean bs = (.ok b, rest)) : 1 + rest.length = bs.length := by
  unfold ReadBoolean at h
  obtain ⟨n, bs₁, hn, hpure⟩ := of_exec_bind_eq_ok h
  rw [exec_pure, Prod.mk.injEq] at hpure
  rw [← hpure.2]
  exact of_ReadNumber hn

theorem BinaryToValue_char {buffer : List UInt8} {r : Option scalar.char.value}
    (h : BinaryToValue .char buffer = .ok r) : r = none := by
  unfold BinaryToValue at h
  simp only at h
  split at h
  · simp at h
  · exact (Except.ok.inj h).symm

/-- A value of a type of the table, or of an enumeration over one. -/
theorem of_read_scalar {s : scalar} {α : Type} {f : s.value → α} {bs rest : List UInt8}
    {r : Option α}
    (h : exec (do
      let buffer ← ReadBytes s.size
      let r ← lift (BinaryToValue s buffer)
      pure (r.map f)) bs = (.ok r, rest)) :
    ∃ v, BinaryToValue s (bs.take s.size) = .ok v ∧ r = v.map f ∧
      s.Plain (v.getD s.default) ∧ s.size + rest.length ≤ bs.length := by
  obtain ⟨buffer, bs₁, hbuffer, h⟩ := of_exec_bind_eq_ok h
  obtain ⟨rfl, rfl⟩ := of_ReadBytes hbuffer
  obtain ⟨v, hv, h⟩ := of_exec_lift_bind_ok h
  rw [exec_pure, Prod.mk.injEq, Except.ok.injEq] at h
  obtain ⟨hlength, hplain⟩ := of_BinaryToValue_ok hv
  rw [List.length_take] at hlength
  refine ⟨v, hv, h.1.symm, hplain, ?_⟩
  rw [← h.2, List.length_drop]
  omega

theorem of_GetStringFromStream {bs rest : List UInt8} {s : Option cs_string}
    (h : exec (GetStringFromStream E single) bs = (.ok s, rest)) :
    Paid (Γ := Γ) E single bs rest (.string s) := by
  unfold GetStringFromStream at h
  obtain ⟨len, bs₁, hlen, h⟩ := of_exec_bind_eq_ok h
  have hpaid := of_ReadNumber hlen
  refine ⟨by simp only [val.Plain], ?_⟩
  intro htight
  split at h
  · rw [exec_pure, Prod.mk.injEq, Except.ok.injEq] at h
    rw [← h.1, ← h.2, val.size]
    omega
  · split at h
    · rw [exec_pure, Prod.mk.injEq, Except.ok.injEq] at h
      rw [← h.1, ← h.2, val.size, E.GetBytes_empty, List.length_nil]
      omega
    · obtain ⟨buffer, bs₂, hbuffer, h⟩ := of_exec_bind_eq_ok h
      rw [exec_pure, Prod.mk.injEq, Except.ok.injEq] at h
      obtain ⟨rfl, rfl⟩ := of_ReadBytes hbuffer
      rw [← h.1] at htight
      simp only [Tight, val.Each] at htight
      have hshort := htight _ rfl
      rw [List.length_take] at hshort
      rw [← h.1, ← h.2, val.size, List.length_drop]
      omega

/-- The bytes of a `byte[]` as its elements. -/
theorem byte_vals_paid (bs : List UInt8) :
    (byte_vals (Γ := Γ) bs).PlainElements .array ∧
      (byte_vals (Γ := Γ) bs).size_elements E single 1 = bs.length := by
  induction bs with
  | nil =>
    unfold byte_vals
    simp only [vals.PlainElements, vals.size_elements]
    exact ⟨trivial, rfl⟩
  | cons b bs ih =>
    unfold byte_vals
    simp only [vals.PlainElements, vals.size_elements, val.Plain, val.size]
    refine ⟨⟨by simp [never_added], trivial, ih.1⟩, ?_⟩
    rw [ih.2, List.length_cons, Nat.add_comm]
    rfl

theorem read_element_of_not_list {element : ty} (h : element.is_list = false)
    (read : reader (Option (val Γ element))) : read_element read = read := by
  cases element with
  | list k element => simp [ty.is_list] at h
  | _ => rfl

/-- A list among the elements is read as null, from one byte. -/
theorem of_list_as_object {k : list_kind} {element : ty} {bs rest : List UInt8}
    {r : Option (val Γ (.list k element))}
    (h : exec (list_as_object k element) bs = (.ok r, rest)) :
    r = some .list_null ∧ 1 + rest.length = bs.length := by
  unfold list_as_object at h
  obtain ⟨is_null, bs₁, hnull, h⟩ := of_exec_bind_eq_ok h
  have hpaid := of_ReadBoolean hnull
  cases is_null with
  | true =>
    rw [if_pos rfl, exec_pure, Prod.mk.injEq, Except.ok.injEq] at h
    rw [← h.1, ← h.2]
    exact ⟨rfl, hpaid⟩
  | false =>
    rw [if_neg Bool.false_ne_true] at h
    cases k
    · simp at h
    · simp at h

/-- What `store_element` accepts is the element itself or the default for it. -/
theorem of_store_element {k : list_kind} {element : ty} {r : Option (val Γ element)}
    {x : val Γ element} (h : store_element k element r = .ok x) :
    x = r.getD (.default element) ∧ (r = none → k = .array) := by
  cases r with
  | some v =>
    rw [store_element, Except.ok.injEq] at h
    exact ⟨h.symm, by simp⟩
  | none =>
    cases k with
    | array =>
      rw [store_element, Except.ok.injEq] at h
      exact ⟨h.symm, by simp⟩
    | List => simp [store_element] at h

/-- One element, which has cost a byte if it is a list. -/
theorem of_read_element {k : list_kind} {element : ty} {read : reader (Option (val Γ element))}
    (hread : Yields E single read) {bs rest : List UInt8} {r : Option (val Γ element)}
    {x : val Γ element} (h : exec (read_element read) bs = (.ok r, rest))
    (hx : store_element k element r = .ok x) :
    ¬ never_added k element ∧ x.Plain ∧
      (Tight E x → (if element.is_list then 1 else x.size E single 1) + rest.length
        ≤ bs.length) := by
  obtain ⟨rfl, harray⟩ := of_store_element hx
  rcases hlist : element.is_list with _ | _
  · rw [read_element_of_not_list hlist] at h
    obtain ⟨⟨hplain, hpaid⟩, hchar⟩ := hread bs r rest h
    refine ⟨?_, hplain, ?_⟩
    · intro hnever
      have hk := harray (hchar hnever.2)
      rw [hk] at hnever
      exact absurd hnever.1 (by decide)
    · intro htight
      simpa using hpaid htight
  · cases element with
    | list k' element' =>
      obtain ⟨rfl, hpaid⟩ := of_list_as_object h
      refine ⟨by simp [never_added], ?_, ?_⟩
      · simp only [Option.getD_some, val.Plain]
      · intro _
        rw [if_pos rfl]
        omega
    | _ => simp [ty.is_list] at hlist

/-- What the elements of a list have been read from. -/
theorem of_read_elements {k : list_kind} {element : ty} {read : reader (Option (val Γ element))}
    (hread : Yields E single read) {len : Nat} {bs rest : List UInt8}
    {xs : vals Γ (List.replicate len element)}
    (h : exec (read_elements k (read_element read) len) bs = (.ok xs, rest)) :
    xs.PlainElements k ∧
      (TightAll E xs → xs.size_elements E single 1 + rest.length ≤ bs.length) := by
  induction len generalizing bs rest with
  | zero =>
    rw [read_elements, exec_pure, Prod.mk.injEq, Except.ok.injEq] at h
    rw [← h.1, ← h.2]
    refine ⟨by simp only [vals.PlainElements], fun _ => ?_⟩
    simp only [vals.size_elements]
    omega
  | succ len ih =>
    rw [read_elements] at h
    obtain ⟨r, bs₁, hr, h⟩ := of_exec_bind_eq_ok h
    obtain ⟨x, hx, h⟩ := of_exec_lift_bind_ok h
    obtain ⟨xs', bs₂, hxs, h⟩ := of_exec_bind_eq_ok h
    rw [exec_pure, Prod.mk.injEq, Except.ok.injEq] at h
    rw [← h.1, ← h.2]
    obtain ⟨hnever, hplain, hpaid⟩ := of_read_element E single hread hr hx
    obtain ⟨hplains, hrest⟩ := ih hxs
    refine ⟨?_, ?_⟩
    · simp only [vals.PlainElements]
      exact ⟨hnever, hplain, hplains⟩
    · intro htight
      simp only [TightAll, vals.Each] at htight
      have hone := hpaid htight.1
      have hmany := hrest htight.2
      simp only [vals.size_elements]
      omega

/-- A list has been paid for if every element was. -/
theorem of_GetListFromStream {k : list_kind} {element : ty}
    {read : reader (Option (val Γ element))} (hread : Yields E single read)
    {bs rest : List UInt8} {v : val Γ (.list k element)}
    (h : exec (GetListFromStream single k element (read_element read)) bs = (.ok v, rest)) :
    Paid E single bs rest v := by
  unfold GetListFromStream at h
  obtain ⟨len, bs₁, hlen, h⟩ := of_exec_bind_eq_ok h
  have hcost := of_ReadNumber hlen
  split at h
  · rw [exec_pure, Prod.mk.injEq, Except.ok.injEq] at h
    rw [← h.1, ← h.2]
    refine ⟨by simp only [val.Plain], fun _ => ?_⟩
    simp only [val.size]
    omega
  · split at h
    · rename_i hbyte
      obtain ⟨rfl, rfl⟩ := hbyte
      obtain ⟨buffer, bs₂, hbuffer, h⟩ := of_exec_bind_eq_ok h
      obtain ⟨rfl, rfl⟩ := of_ReadBytes hbuffer
      rw [exec_pure, Prod.mk.injEq, Except.ok.injEq] at h
      rw [← h.1, ← h.2]
      obtain ⟨hplain, hsize⟩ := byte_vals_paid (Γ := Γ) E single (bs₁.take len)
      refine ⟨?_, fun _ => ?_⟩
      · simp only [val.Plain]
        exact hplain
      · simp only [val.size]
        rw [hsize, List.length_take, List.length_drop]
        omega
    · obtain ⟨xs, bs₂, hxs, h⟩ := of_exec_bind_eq_ok h
      rw [exec_pure, Prod.mk.injEq, Except.ok.injEq] at h
      rw [← h.1, ← h.2]
      obtain ⟨hplain, hpaid⟩ := of_read_elements E single hread hxs
      refine ⟨?_, fun htight => ?_⟩
      · simp only [val.Plain]
        exact hplain
      · simp only [Tight, val.Each] at htight
        have hsize := hpaid htight.2
        simp only [val.size]
        omega

/-- Reading a value, if that holds of the objects in it. -/
theorem GetValueFromStream_yields {object : (c : Nat) → reader (val Γ (.cls c))}
    (hobject : ∀ c bs v rest, exec (object c) bs = (.ok v, rest) → Paid E single bs rest v)
    (t : ty) : Yields E single (GetValueFromStream E single object t) := by
  induction t with
  | scalar s =>
    intro bs r rest h
    rw [GetValueFromStream] at h
    obtain ⟨v, hv, rfl, hplain, hsize⟩ := of_read_scalar h
    have hdefault : (v.map (val.scalar (Γ := Γ))).getD (.default (.scalar s)) =
        .scalar (v.getD s.default) := by
      cases v <;> rfl
    rw [hdefault]
    refine ⟨⟨?_, fun _ => ?_⟩, ?_⟩
    · simp only [val.Plain]
      exact hplain
    · simp only [val.size]
      exact hsize
    · intro hchar
      rw [ty.scalar.injEq] at hchar
      subst hchar
      rw [BinaryToValue_char hv]
      rfl
  | enum u =>
    intro bs r rest h
    rw [GetValueFromStream] at h
    obtain ⟨v, -, rfl, -, hsize⟩ := of_read_scalar h
    have hdefault : (v.map (val.enum (Γ := Γ))).getD (.default (.enum u)) =
        .enum (v.getD u.underlying.default) := by
      cases v <;> rfl
    rw [hdefault]
    refine ⟨⟨?_, fun _ => ?_⟩, by simp⟩
    · simp only [val.Plain]
    · simp only [val.size]
      exact hsize
  | string =>
    intro bs r rest h
    rw [GetValueFromStream] at h
    obtain ⟨s, bs₁, hs, h⟩ := of_exec_bind_eq_ok h
    rw [exec_pure, Prod.mk.injEq, Except.ok.injEq] at h
    rw [← h.1, ← h.2]
    exact ⟨of_GetStringFromStream E single hs, by simp⟩
  | list k element ih =>
    intro bs r rest h
    rw [GetValueFromStream] at h
    obtain ⟨v, bs₁, hv, h⟩ := of_exec_bind_eq_ok h
    rw [exec_pure, Prod.mk.injEq, Except.ok.injEq] at h
    rw [← h.1, ← h.2]
    exact ⟨of_GetListFromStream E single ih hv, by simp⟩
  | cls c =>
    intro bs r rest h
    rw [GetValueFromStream] at h
    obtain ⟨v, bs₁, hv, h⟩ := of_exec_bind_eq_ok h
    rw [exec_pure, Prod.mk.injEq, Except.ok.injEq] at h
    rw [← h.1, ← h.2]
    exact ⟨hobject c bs v bs₁ hv, by simp⟩

theorem of_read_properties {read : (t : ty) → reader (Option (val Γ t))}
    (hread : ∀ t, Yields E single (read t)) {ts : List ty} {bs rest : List UInt8}
    {xs : vals Γ ts} (h : exec (read_properties read ts) bs = (.ok xs, rest)) :
    xs.PlainProperties ∧
      (TightAll E xs → xs.size_properties E single 1 + rest.length ≤ bs.length) := by
  induction ts generalizing bs rest with
  | nil =>
    rw [read_properties, exec_pure, Prod.mk.injEq, Except.ok.injEq] at h
    rw [← h.1, ← h.2]
    refine ⟨by simp only [vals.PlainProperties], fun _ => ?_⟩
    simp only [vals.size_properties]
    omega
  | cons t ts ih =>
    rw [read_properties] at h
    obtain ⟨r, bs₁, hr, h⟩ := of_exec_bind_eq_ok h
    obtain ⟨xs', bs₂, hxs, h⟩ := of_exec_bind_eq_ok h
    rw [exec_pure, Prod.mk.injEq, Except.ok.injEq] at h
    rw [← h.1, ← h.2]
    obtain ⟨⟨hplain, hpaid⟩, -⟩ := hread t bs r bs₁ hr
    obtain ⟨hplains, hrest⟩ := ih hxs
    refine ⟨?_, ?_⟩
    · simp only [vals.PlainProperties]
      exact ⟨hplain, hplains⟩
    · intro htight
      simp only [TightAll, vals.Each] at htight
      have hone := hpaid htight.1
      have hmany := hrest htight.2
      simp only [vals.size_properties]
      omega

/-- **What `GetObjectFromStream` yields** can be written, in no more bytes than it was
    read from. -/
theorem of_GetObjectFromStream {depth c : Nat} {bs rest : List UInt8} {v : val Γ (.cls c)}
    (h : exec (GetObjectFromStream E single depth c) bs = (.ok v, rest)) :
    Paid E single bs rest v := by
  induction depth generalizing c bs rest v with
  | zero =>
    rw [GetObjectFromStream] at h
    simp at h
  | succ depth ih =>
    rw [GetObjectFromStream] at h
    obtain ⟨is_null, bs₁, hnull, h⟩ := of_exec_bind_eq_ok h
    have hcost := of_ReadBoolean hnull
    cases is_null with
    | true =>
      rw [if_pos rfl, exec_pure, Prod.mk.injEq, Except.ok.injEq] at h
      rw [← h.1, ← h.2]
      refine ⟨by simp only [val.Plain], fun _ => ?_⟩
      simp only [val.size]
      omega
    | false =>
      rw [if_neg Bool.false_ne_true] at h
      obtain ⟨ps, bs₂, hps, h⟩ := of_exec_bind_eq_ok h
      rw [exec_pure, Prod.mk.injEq, Except.ok.injEq] at h
      rw [← h.1, ← h.2]
      obtain ⟨hplain, hpaid⟩ := of_read_properties E single
        (GetValueFromStream_yields E single fun c bs v rest hv => ih hv) hps
      refine ⟨?_, fun htight => ?_⟩
      · simp only [val.Plain]
        exact hplain
      · simp only [Tight, val.Each] at htight
        have hsize := hpaid htight
        simp only [val.size]
        omega

/-! ### Reading what was written -/

/-- `v` is written, and read from these bytes whatever follows them. -/
def ReadBack {t : ty} (v : val Γ t) : Prop :=
  ∃ bs, AddValueToStream E single v = .ok bs ∧ ∀ depth rest, bs.length ≤ depth →
    ∃ r, exec (GetValueFromStream E single (GetObjectFromStream E single depth) t) (bs ++ rest) =
        (.ok r, rest) ∧ r.getD (.default t) = v ∧ (r = none → t = .scalar .char)

def ReadBackElements (k : list_kind) {ts : List ty} (xs : vals Γ ts) : Prop :=
  ∃ bs, AddElements E single xs = .ok bs ∧ ∀ depth rest, bs.length ≤ depth →
    ∀ len element (h : ts = List.replicate len element),
      exec (read_elements k
        (read_element (GetValueFromStream E single (GetObjectFromStream E single depth) element))
        len) (bs ++ rest) = (.ok (h ▸ xs), rest)

def ReadBackProperties {ts : List ty} (xs : vals Γ ts) : Prop :=
  ∃ bs, AddProperties E single xs = .ok bs ∧ ∀ depth rest, bs.length ≤ depth →
    exec (read_properties (GetValueFromStream E single (GetObjectFromStream E single depth)) ts)
      (bs ++ rest) = (.ok xs, rest)

theorem exec_ReadBytes {count : Nat} {bs : List UInt8} (h : bs.length = count)
    (rest : List UInt8) : exec (ReadBytes count) (bs ++ rest) = (.ok bs, rest) := by
  unfold ReadBytes
  rw [exec_of, ← h, List.take_left, List.drop_left]

/-- The null marker is the largest value of the field. -/
theorem pow_len_size : 256 ^ len_size single = null_len single + 1 := by
  cases single <;> rfl

/-- A length is read modulo the size of the field. -/
theorem exec_Len_mod (len : Nat) (rest : List UInt8) :
    exec (Len single) (AddLenToStream single len ++ rest) =
      (.ok (len % (null_len single + 1)), rest) := by
  have hlength : (AddLenToStream single len).length = len_size single :=
    length_AddLenToStream single len
  unfold Len ReadNumber
  rw [exec_of, if_neg (by rw [List.length_append]; omega), ← hlength, List.take_left,
    List.drop_left]
  unfold AddLenToStream
  rw [value_bytes, pow_len_size]

theorem exec_Len {len : Nat} (h : len ≤ null_len single) (rest : List UInt8) :
    exec (Len single) (AddLenToStream single len ++ rest) = (.ok len, rest) := by
  rw [exec_Len_mod, Nat.mod_eq_of_lt (Nat.lt_succ_of_le h)]

theorem exec_ReadBoolean (b : UInt8) (rest : List UInt8) :
    exec ReadBoolean (b :: rest) = (.ok (b.toNat != 0), rest) := by
  unfold ReadBoolean
  have hnumber : exec (ReadNumber 1) (b :: rest) = (.ok b.toNat, rest) := by
    unfold ReadNumber
    rw [exec_of, if_neg (by simp)]
    simp [value]
  rw [exec_bind_of_ok hnumber, exec_pure]

theorem Null_of_lt {len : Nat} (h : len < null_len single) : Null single len = false := by
  unfold Null
  rw [beq_eq_false_iff_ne]
  omega

theorem Null_null_len : Null single (null_len single) = true := by
  unfold Null
  rw [beq_self_eq_true]

/-- What a `char` is read as is null, everything else is there. -/
theorem exec_read_scalar {s : scalar} {v : s.value} (hv : s.Plain v) {α : Type} (f : s.value → α) :
    ∃ bs r, ValueToBinary s v = .ok bs ∧ r.getD s.default = v ∧ (r = none → s = .char) ∧
      ∀ rest, exec (do
        let buffer ← ReadBytes s.size
        let r ← lift (BinaryToValue s buffer)
        pure (r.map f)) (bs ++ rest) = (.ok (r.map f), rest) := by
  obtain ⟨bs, r, hwrite, hlength, hread, hr, hnone⟩ := BinaryToValue_ValueToBinary hv
  refine ⟨bs, r, hwrite, hr, hnone, ?_⟩
  intro rest
  rw [exec_bind_of_ok (exec_ReadBytes hlength rest), hread, exec_bind_of_ok (exec_lift _ rest),
    exec_pure]

theorem scalar_read_back {s : scalar} {v : s.value} (hv : s.Plain v) :
    ReadBack (Γ := Γ) E single (.scalar v) := by
  obtain ⟨bs, r, hwrite, hr, hnone, hread⟩ := exec_read_scalar hv (val.scalar (Γ := Γ))
  refine ⟨bs, ?_, ?_⟩
  · rw [AddValueToStream]
    exact hwrite
  · intro depth rest _
    refine ⟨r.map .scalar, ?_, ?_, ?_⟩
    · rw [GetValueFromStream]
      exact hread rest
    · cases r with
      | none => exact congrArg val.scalar hr
      | some w => exact congrArg val.scalar hr
    · intro h
      rw [hnone (Option.map_eq_none_iff.mp h)]

theorem enum_read_back {u : integral} (v : u.underlying.value) :
    ReadBack (Γ := Γ) E single (.enum v) := by
  have hv : u.underlying.Plain v := by
    cases u <;> trivial
  have hchar : u.underlying ≠ .char := by
    cases u <;> simp [integral.underlying]
  obtain ⟨bs, r, hwrite, hr, hnone, hread⟩ := exec_read_scalar hv (val.enum (Γ := Γ))
  refine ⟨bs, ?_, ?_⟩
  · rw [AddValueToStream]
    exact hwrite
  · intro depth rest _
    refine ⟨r.map .enum, ?_, ?_, ?_⟩
    · rw [GetValueFromStream]
      exact hread rest
    · cases r with
      | none => exact congrArg val.enum hr
      | some w => exact congrArg val.enum hr
    · intro h
      exact absurd (hnone (Option.map_eq_none_iff.mp h)) hchar

theorem string_none_read_back : ReadBack (Γ := Γ) E single (.string none) := by
  refine ⟨AddLenToStream single (null_len single), by rw [AddValueToStream], ?_⟩
  intro depth rest _
  refine ⟨some (.string none), ?_, rfl, by simp⟩
  rw [GetValueFromStream]
  have hstring : exec (GetStringFromStream E single)
      (AddLenToStream single (null_len single) ++ rest) = (.ok none, rest) := by
    unfold GetStringFromStream
    rw [exec_bind_of_ok (exec_Len single (Nat.le_refl _) rest), if_pos (Null_null_len single),
      exec_pure]
  rw [exec_bind_of_ok hstring, exec_pure]

theorem string_read_back {s : cs_string} (hs : E.GetString (E.GetBytes s) = s)
    (hlength : (E.GetBytes s).length < null_len single) :
    ReadBack (Γ := Γ) E single (.string (some s)) := by
  refine ⟨_, by rw [AddValueToStream], ?_⟩
  intro depth rest _
  refine ⟨some (.string (some s)), ?_, rfl, by simp⟩
  have hstring : exec (GetStringFromStream E single)
      (AddLenToStream single (E.GetBytes s).length ++ E.GetBytes s ++ rest) =
        (.ok (some s), rest) := by
    unfold GetStringFromStream
    rw [List.append_assoc, exec_bind_of_ok (exec_Len single (Nat.le_of_lt hlength) _),
      Null_of_lt single hlength, if_neg Bool.false_ne_true]
    split
    · rename_i hempty
      have hnil := List.eq_nil_of_length_eq_zero (Nat.le_zero.mp hempty)
      rw [hnil, E.GetString_empty] at hs
      rw [hnil, ← hs, exec_pure, List.nil_append]
    · rw [exec_bind_of_ok (exec_ReadBytes rfl rest), exec_pure, hs]
  rw [GetValueFromStream, exec_bind_of_ok hstring, exec_pure]

theorem list_null_read_back {k : list_kind} {element : ty} :
    ReadBack (Γ := Γ) E single (.list_null : val Γ (.list k element)) := by
  refine ⟨AddLenToStream single (null_len single), by rw [AddValueToStream], ?_⟩
  intro depth rest _
  refine ⟨some .list_null, ?_, rfl, by simp⟩
  have hlist (read : reader (Option (val Γ element))) :
      exec (GetListFromStream single k element read)
        (AddLenToStream single (null_len single) ++ rest) = (.ok .list_null, rest) := by
    unfold GetListFromStream
    rw [exec_bind_of_ok (exec_Len single (Nat.le_refl _) rest), if_pos (Null_null_len single),
      exec_pure]
  rw [GetValueFromStream, exec_bind_of_ok (hlist _), exec_pure]

theorem bytes_of_byte (b : UInt8) : bytes 1 b.toUInt64.toNat = [b] := by
  rw [bytes, bytes, UInt8.toNat_toUInt64, Nat.mod_eq_of_lt b.toNat_lt, UInt8.ofNat_toNat]

theorem ValueToBinary_byte (b : scalar.value .byte) : ValueToBinary .byte b = .ok [b] :=
  congrArg Except.ok (bytes_of_byte b)

/-- The elements of a `byte[]` are written as these bytes, and are what is read from them. -/
theorem exists_byte_vals {n : Nat} (xs : vals Γ (List.replicate n (.scalar .byte))) :
    ∃ bs : List UInt8, AddElements E single xs = .ok bs ∧ bs.length = n ∧
      (val.list bs.length (byte_vals bs) : val Γ (.list .array (.scalar .byte))) =
        .list n xs := by
  induction n with
  | zero =>
    cases xs
    exact ⟨[], by rw [AddElements], rfl, rfl⟩
  | succ n ih =>
    cases xs with
    | cons x xs =>
      cases x with
      | scalar b =>
        obtain ⟨bs, hwrite, rfl, hread⟩ := ih xs
        refine ⟨b :: bs, ?_, rfl, ?_⟩
        · rw [AddElements, if_neg (by simp [ty.is_list]), AddValueToStream, ValueToBinary_byte, hwrite]
          rfl
        · have helements := eq_of_heq (val.list.inj hread).2
          rw [← helements]
          rfl

theorem list_read_back {k : list_kind} {element : ty} {n : Nat}
    {xs : vals Γ (List.replicate n element)} (hn : n < null_len single)
    (h : ReadBackElements E single k xs) :
    ReadBack E single (.list n xs : val Γ (.list k element)) := by
  obtain ⟨bs, hwrite, hread⟩ := h
  refine ⟨AddLenToStream single n ++ bs, ?_, ?_⟩
  · rw [AddValueToStream, hwrite]
    rfl
  · intro depth rest hdepth
    rw [List.length_append] at hdepth
    refine ⟨some (.list n xs), ?_, rfl, by simp⟩
    rw [GetValueFromStream, List.append_assoc]
    have hlist : exec (GetListFromStream single k element (read_element
        (GetValueFromStream E single (GetObjectFromStream E single depth) element)))
        (AddLenToStream single n ++ (bs ++ rest)) = (.ok (.list n xs), rest) := by
      unfold GetListFromStream
      rw [exec_bind_of_ok (exec_Len single (Nat.le_of_lt hn) _), Null_of_lt single hn,
        if_neg Bool.false_ne_true]
      split
      · rename_i hbyte
        obtain ⟨rfl, rfl⟩ := hbyte
        obtain ⟨bs', hwrite', hlength, hvals⟩ := exists_byte_vals E single xs
        rw [hwrite] at hwrite'
        obtain rfl := Except.ok.inj hwrite'
        rw [exec_bind_of_ok (exec_ReadBytes hlength rest), exec_pure, hvals]
      · rw [exec_bind_of_ok (hread depth rest (by omega) n element rfl), exec_pure]
    rw [exec_bind_of_ok hlist, exec_pure]

theorem nil_read_back_elements (k : list_kind) :
    ReadBackElements (Γ := Γ) E single k .nil := by
  refine ⟨[], by rw [AddElements], ?_⟩
  intro depth rest _ len element h
  cases len with
  | zero => rfl
  | succ len => simp [List.replicate_succ] at h

theorem cons_read_back_elements {k : list_kind} {t : ty} {ts : List ty} {x : val Γ t}
    {xs : vals Γ ts} (hnever : ¬ never_added k t) (hlist : t.is_list = false)
    (hx : ReadBack E single x) (hxs : ReadBackElements E single k xs) :
    ReadBackElements E single k (.cons x xs) := by
  obtain ⟨first, hwrite, hread⟩ := hx
  obtain ⟨bs, hwrites, hreads⟩ := hxs
  refine ⟨first ++ bs, ?_, ?_⟩
  · rw [AddElements, if_neg (by rw [hlist]; exact Bool.false_ne_true), hwrite, hwrites]
    rfl
  · intro depth rest hdepth len element h
    rw [List.length_append] at hdepth
    cases len with
    | zero => simp at h
    | succ len =>
      rw [List.replicate_succ, List.cons.injEq] at h
      obtain ⟨rfl, rfl⟩ := h
      obtain ⟨r, hr, hvalue, hnone⟩ := hread depth (bs ++ rest) (by omega)
      have hstore : store_element k t r = .ok x := by
        cases r with
        | some v => exact congrArg Except.ok hvalue
        | none =>
          cases k with
          | array => exact congrArg Except.ok hvalue
          | List => exact absurd ⟨rfl, hnone rfl⟩ hnever
      rw [read_elements, read_element_of_not_list hlist, List.append_assoc,
        exec_bind_of_ok hr, hstore, exec_bind_of_ok (exec_lift _ _)]
      have hrest := hreads depth rest (by omega) len t rfl
      rw [read_element_of_not_list hlist] at hrest
      rw [exec_bind_of_ok hrest, exec_pure]

theorem null_read_back {c : Nat} : ReadBack E single (.null : val Γ (.cls c)) := by
  refine ⟨[1], by rw [AddValueToStream], ?_⟩
  intro depth rest hdepth
  refine ⟨some .null, ?_, rfl, by simp⟩
  rw [GetValueFromStream]
  cases depth with
  | zero => simp at hdepth
  | succ depth =>
    have hobject : exec (GetObjectFromStream E single (depth + 1) c) ([1] ++ rest) =
        (.ok (.null : val Γ (.cls c)), rest) := by
      rw [GetObjectFromStream, List.singleton_append, exec_bind_of_ok (exec_ReadBoolean 1 rest)]
      rfl
    rw [exec_bind_of_ok hobject, exec_pure]

theorem exec_GetObjectFromStream {c : Nat} {ps : vals Γ (Γ c)} {bs : List UInt8}
    (hwrite : AddProperties E single ps = .ok bs) (h : ReadBackProperties E single ps)
    {depth : Nat} (hdepth : bs.length < depth) (rest : List UInt8) :
    exec (GetObjectFromStream E single depth c) (0 :: bs ++ rest) = (.ok (.object ps), rest) := by
  obtain ⟨bs', hwrite', hread⟩ := h
  rw [hwrite] at hwrite'
  obtain rfl := Except.ok.inj hwrite'
  cases depth with
  | zero => omega
  | succ depth =>
    rw [GetObjectFromStream, List.cons_append, exec_bind_of_ok (exec_ReadBoolean 0 _),
      if_neg (by decide), exec_bind_of_ok (hread depth rest (by omega)), exec_pure]

theorem object_read_back {c : Nat} {ps : vals Γ (Γ c)} (h : ReadBackProperties E single ps) :
    ReadBack E single (.object ps : val Γ (.cls c)) := by
  obtain ⟨bs, hwrite, -⟩ := id h
  refine ⟨0 :: bs, ?_, ?_⟩
  · rw [AddValueToStream, hwrite]
    rfl
  · intro depth rest hdepth
    rw [List.length_cons] at hdepth
    refine ⟨some (.object ps), ?_, rfl, by simp⟩
    rw [GetValueFromStream,
      exec_bind_of_ok (exec_GetObjectFromStream E single hwrite h (by omega) rest), exec_pure]

theorem nil_read_back_properties : ReadBackProperties (Γ := Γ) E single .nil := by
  refine ⟨[], by rw [AddProperties], ?_⟩
  intro depth rest _
  rw [read_properties, exec_pure, List.nil_append]

theorem cons_read_back_properties {t : ty} {ts : List ty} {x : val Γ t} {xs : vals Γ ts}
    (hx : ReadBack E single x) (hxs : ReadBackProperties E single xs) :
    ReadBackProperties E single (.cons x xs) := by
  obtain ⟨first, hwrite, hread⟩ := hx
  obtain ⟨bs, hwrites, hreads⟩ := hxs
  refine ⟨first ++ bs, ?_, ?_⟩
  · rw [AddProperties, hwrite, hwrites]
    rfl
  · intro depth rest hdepth
    rw [List.length_append] at hdepth
    obtain ⟨r, hr, rfl, -⟩ := hread depth (bs ++ rest) (by omega)
    rw [read_properties, List.append_assoc, exec_bind_of_ok hr,
      exec_bind_of_ok (hreads depth rest (by omega)), exec_pure]

mutual

/-- **A value of the kinds above is read back**, by induction on the value. -/
theorem read_back : {t : ty} → (v : val Γ t) → v.Plain → v.Flat → Admissible E single v →
    ReadBack E single v
  | _, .scalar v, hplain, _, _ => by
    simp only [val.Plain] at hplain
    exact scalar_read_back E single hplain
  | _, .enum v, _, _, _ => enum_read_back E single v
  | _, .string none, _, _, _ => string_none_read_back E single
  | _, .string (some s), _, _, hfits => by
    simp only [Admissible, val.Each] at hfits
    exact string_read_back E single hfits.1 hfits.2
  | _, .list_null, _, _, _ => list_null_read_back E single
  | _, .list n xs, hplain, hflat, hfits => by
    simp only [val.Plain] at hplain
    simp only [val.Flat] at hflat
    simp only [Admissible, val.Each] at hfits
    exact list_read_back E single hfits.1 (elements_read_back _ xs hplain hflat hfits.2)
  | _, .null, _, _, _ => null_read_back E single
  | _, .object ps, hplain, hflat, hfits => by
    simp only [val.Plain] at hplain
    simp only [val.Flat] at hflat
    simp only [Admissible, val.Each] at hfits
    exact object_read_back E single (properties_read_back ps hplain hflat hfits)

theorem elements_read_back (k : list_kind) : {ts : List ty} → (xs : vals Γ ts) →
    xs.PlainElements k → xs.FlatElements → AdmissibleAll E single xs →
      ReadBackElements E single k xs
  | _, .nil, _, _, _ => nil_read_back_elements E single k
  | _, .cons x xs, hplain, hflat, hfits => by
    simp only [vals.PlainElements] at hplain
    simp only [vals.FlatElements] at hflat
    simp only [AdmissibleAll, vals.Each] at hfits
    exact cons_read_back_elements E single hplain.1 hflat.1
      (read_back x hplain.2.1 hflat.2.1 hfits.1)
      (elements_read_back k xs hplain.2.2 hflat.2.2 hfits.2)

theorem properties_read_back : {ts : List ty} → (xs : vals Γ ts) →
    xs.PlainProperties → xs.FlatProperties → AdmissibleAll E single xs →
      ReadBackProperties E single xs
  | _, .nil, _, _, _ => nil_read_back_properties E single
  | _, .cons x xs, hplain, hflat, hfits => by
    simp only [vals.PlainProperties] at hplain
    simp only [vals.FlatProperties] at hflat
    simp only [AdmissibleAll, vals.Each] at hfits
    exact cons_read_back_properties E single (read_back x hplain.1 hflat.1 hfits.1)
      (properties_read_back xs hplain.2 hflat.2 hfits.2)

end

/-- **Round trip.** What is deserialized from the bytes of an instance equals it if all of it
    is plain and flat, and only if: an instance that is not plain never comes back, and one
    that is not flat does not unless one of its strings is also read from fewer bytes than
    are written for it. `depth` is any depth that the calls for these bytes do not exceed. -/
theorem round_trip_iff {c : Nat} (ps : vals Γ (Γ c)) {depth : Nat}
    (hfits : Admissible E single (.object ps : val Γ (.cls c)))
    (hdepth : ∀ buffer, Serialize E single (.object ps : val Γ (.cls c)) = .ok buffer →
      buffer.length ≤ depth) :
    ((val.object ps : val Γ (.cls c)).Plain ∧ (val.object ps : val Γ (.cls c)).Flat →
        RoundTrips E single depth (.object ps : val Γ (.cls c))) ∧
      (RoundTrips E single depth (.object ps : val Γ (.cls c)) →
        (val.object ps : val Γ (.cls c)).Plain ∧
          (Tight E (.object ps : val Γ (.cls c)) →
            (val.object ps : val Γ (.cls c)).Flat)) := by
  refine ⟨?_, ?_⟩
  · rintro ⟨hplain, hflat⟩
    simp only [val.Plain] at hplain
    simp only [val.Flat] at hflat
    simp only [Admissible, val.Each] at hfits
    have hback := properties_read_back E single ps hplain hflat hfits
    obtain ⟨bs, hwrite, -⟩ := id hback
    have hserialize : Serialize E single (.object ps : val Γ (.cls c)) = .ok (0 :: bs) := by
      unfold Serialize
      rw [AddValueToStream, hwrite]
      rfl
    have hlength := hdepth _ hserialize
    rw [List.length_cons] at hlength
    have hread := exec_GetObjectFromStream E single hwrite hback (by omega : bs.length < depth) []
    rw [List.append_nil] at hread
    refine ⟨0 :: bs, hserialize, ?_⟩
    unfold Deserialize
    rw [hread]
  · rintro ⟨buffer, hwrite, hread⟩
    have hpaid := of_GetObjectFromStream E single (Prod.ext hread rfl)
    refine ⟨hpaid.1, ?_⟩
    intro htight
    have hmore := hpaid.2 htight
    have hlength := length_of_AddValueToStream E single _ hwrite
    exact (size_le E single _).2 (by omega)

end

/-- A class with an `int`, a `string` and a `List<short>`: 7, "ab" and { 1 } come back. -/
theorem round_trip_ab :
    RoundTrips ascii true 12
      (.object (.cons (.scalar (s := .int) (7 : Int32)) (.cons (.string (some [97, 98]))
        (.cons (.list 1 (.cons (.scalar (s := .short) (1 : Int16)) .nil)) .nil))) :
        val (fun _ => [.scalar .int, .string, .list .List (.scalar .short)]) (.cls 0)) := by
  have hfits : Admissible ascii true
      (.object (.cons (.scalar (s := .int) (7 : Int32)) (.cons (.string (some [97, 98]))
        (.cons (.list 1 (.cons (.scalar (s := .short) (1 : Int16)) .nil)) .nil))) :
        val (fun _ => [.scalar .int, .string, .list .List (.scalar .short)]) (.cls 0)) := by
    simp only [Admissible, val.Each, vals.Each]
    decide
  refine (round_trip_iff ascii true _ hfits ?_).1 ⟨?_, ?_⟩
  · intro buffer h
    obtain rfl := Except.ok.inj h
    decide
  · simp only [val.Plain, vals.PlainProperties, vals.PlainElements, scalar.Plain, never_added]
    decide
  · simp only [val.Flat, vals.FlatProperties, vals.FlatElements]
    decide

/-- The character 'a' is read as the first character, and one null list in a list of lists
    is looked for after the end of the stream. -/
theorem char_not_read :
    (Admissible ascii true
        (.object (.cons (.scalar (s := .char) (97 : UInt16)) .nil) :
          val (fun _ => [.scalar .char]) (.cls 0)) ∧
      ¬ RoundTrips ascii true 3
        (.object (.cons (.scalar (s := .char) (97 : UInt16)) .nil) :
          val (fun _ => [.scalar .char]) (.cls 0))) ∧
    (Admissible ascii true
        (.object (.cons (.list 1 (.cons .list_null .nil)) .nil) :
          val (fun _ => [.list .List (.list .array (.scalar .int))]) (.cls 0)) ∧
      ¬ RoundTrips ascii true 3
        (.object (.cons (.list 1 (.cons .list_null .nil)) .nil) :
          val (fun _ => [.list .List (.list .array (.scalar .int))]) (.cls 0))) := by
  refine ⟨⟨?_, ?_⟩, ?_, ?_⟩
  · simp only [Admissible, val.Each, vals.Each]
    decide
  · rintro ⟨buffer, hwrite, hread⟩
    obtain rfl := Except.ok.inj hwrite
    have hzero : Deserialize ascii true 3 0 [0, 97, 0] =
        .ok (.object (.cons (.scalar (s := .char) (0 : UInt16)) .nil) :
          val (fun _ => [.scalar .char]) (.cls 0)) := rfl
    have hchar := Except.ok.inj (hzero.symm.trans hread)
    simp only [val.object.injEq, vals.cons.injEq] at hchar
    have hdiffer : (0 : UInt16) ≠ 97 := by decide
    exact hdiffer (val.scalar.inj hchar.1)
  · simp only [Admissible, val.Each, vals.Each]
    decide
  · rintro ⟨buffer, hwrite, hread⟩
    obtain rfl := Except.ok.inj hwrite
    cases hread

end BinaryFormatter

end AsioNet.CsNetwork
