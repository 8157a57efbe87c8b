import AsioNet.ReusabelBuffer
import AsioNet.SessionLogic

/-! # Packing and unpacking the authentication messages (`protocol.hpp`)

    Neither message says where its field of variable length ends; `unpack` gets it from
    the length of the whole. For the request this is the length `pack` reports less
    eight, and every request is read back, its platform with the NUL that was copied
    along. For the response `pack` reports ten bytes more than the key has and `unpack`
    takes off eleven, so the key comes back one byte short: no response is read back.
-/

namespace AsioNet

open ByteMemory reusabel_buffer

/-- The bytes of a region are read off wherever the region lies. -/
theorem load_of_read {c : once_buffer} {start n pos k : Nat} {bytes : List UInt8}
    (hbytes : read c._buffer start n = bytes) (hfit : start + n ≤ ONCE_BUFFER_SIZE)
    (hin : pos + k ≤ n) : c.load (start + pos) k = .ok ((bytes.drop pos).take k) := by
  rw [load_of_le c (by omega), read_part hbytes hin]

/-! ### The request -/

/-- The value of a `std::string` as a C string. -/
def c_str (s : List UInt8) : List UInt8 := s.takeWhile fun c => c != 0

theorem c_str_append {name : List UInt8} (h : 0 ∉ name) (rest : List UInt8) :
    c_str (name ++ rest) = name ++ c_str rest := by
  unfold c_str
  rw [List.takeWhile_append_of_pos]
  intro c hc
  have hne : c ≠ 0 := fun heq => h (heq ▸ hc)
  simpa using hne

theorem c_str_append_nul {name : List UInt8} (h : 0 ∉ name) : c_str (name ++ [0]) = name := by
  rw [c_str_append h]
  exact List.append_nil name

theorem c_str_of_notMem {name : List UInt8} (h : 0 ∉ name) : c_str name = name := by
  have happend := c_str_append h []
  rw [List.append_nil] at happend
  rw [happend]
  exact List.append_nil name

namespace authentication_aaa_request

/-- The bytes `pack` writes. -/
def fields (area_id_ server_id_ : UInt16) (link_type_ : UInt8) (platform_ : List UInt8) :
    List UInt8 :=
  write_uint16 area_id_ ++ (write_uint16 server_id_ ++ ([link_type_] ++
    ((platform_ ++ [0]) ++ write_uint16 (UInt16.ofNat platform_.length))))

theorem length_fields (area_id_ server_id_ : UInt16) (link_type_ : UInt8)
    (platform_ : List UInt8) :
    (fields area_id_ server_id_ link_type_ platform_).length = platform_.length + 8 := by
  simp [fields]
  omega

theorem pack_eq (b : once_buffer) {ret_block : Nat} (area_id_ server_id_ : UInt16)
    (link_type_ : UInt8) {platform_ : List UInt8}
    (hfit : ret_block + (platform_.length + 8) ≤ ONCE_BUFFER_SIZE)
    (hlen : platform_.length ≤ 65527) :
    pack b ret_block area_id_ server_id_ link_type_ platform_ (UInt16.ofNat platform_.length) =
      let packed := fields area_id_ server_id_ link_type_ platform_
      .ok ({ b with _buffer := write b._buffer ret_block packed },
        UInt16.ofNat (platform_.length + 8)) := by
  have hname : (UInt16.ofNat platform_.length).toNat = platform_.length := by
    rw [UInt16.toNat_ofNat', Nat.mod_eq_of_lt (by omega)]
  have hwhole : (platform_ ++ [0]).take (platform_.length + 1) = platform_ ++ [0] := by
    apply List.take_of_length_le
    simp
  have hlength : 2 + 2 + 1 + UInt16.ofNat platform_.length + 1 + 2 =
      UInt16.ofNat (platform_.length + 8) := by
    rw [UInt16.ofNat_add]
    generalize UInt16.ofNat platform_.length = n
    grind
  unfold pack
  simp only [hname, hwhole]
  rw [store_of_le _ (by rw [length_write_uint16]; omega), ok_bind,
    store_of_le _ (by rw [length_write_uint16]; omega), ok_bind,
    store_of_le _ (by simp only [List.length_singleton]; omega), ok_bind,
    store_of_le _ (by simp only [List.length_append, List.length_singleton]; omega), ok_bind,
    store_of_le _ (by rw [length_write_uint16]; omega), ok_bind, pure_eq_ok, hlength]
  -- the five stores are adjacent
  have hend : 2 + (2 + (1 + platform_.length)) = 5 + platform_.length := by omega
  have hlast : 2 + (2 + (1 + (platform_.length + 1))) = 5 + (platform_.length + 1) := by omega
  unfold fields
  simp only [write_append, length_write_uint16, List.length_append, List.length_singleton,
    Nat.add_assoc, hend, hlast]

/-- What `unpack` finds in the bytes `pack` writes. -/
theorem unpack_fields {c : once_buffer} {block : Nat} {area_id_ server_id_ : UInt16}
    {link_type_ : UInt8} {platform_ : List UInt8} (hlen : platform_.length ≤ 65527)
    (hfit : block + (platform_.length + 8) ≤ ONCE_BUFFER_SIZE)
    (hbytes : read c._buffer block (platform_.length + 8) =
      fields area_id_ server_id_ link_type_ platform_) :
    unpack c block (UInt16.ofNat (platform_.length + 8)) = .ok {
      area_id := area_id_
      server_id := server_id_
      link_type := link_type_
      platform := platform_ ++ [0]
      platform_len := UInt16.ofNat platform_.length } := by
  have hname : UInt16.ofNat (platform_.length + 8) - 8 = UInt16.ofNat platform_.length := by
    rw [UInt16.ofNat_add]
    generalize UInt16.ofNat platform_.length = n
    grind
  have hnat : (UInt16.ofNat platform_.length).toNat = platform_.length := by
    rw [UInt16.toNat_ofNat', Nat.mod_eq_of_lt (by omega)]
  have hload := fun pos k (hin : pos + k ≤ platform_.length + 8) =>
    load_of_read hbytes hfit hin
  have harea := hload 0 2 (by omega)
  have hserver := hload 2 2 (by omega)
  have hlink := hload 4 1 (by omega)
  have hplatform := hload 5 (platform_.length + 1) (by omega)
  rw [Nat.add_zero] at harea
  unfold unpack
  rw [hname]
  simp only [hnat]
  rw [harea, ok_bind, hserver, ok_bind, hlink, ok_bind, hplatform, ok_bind, pure_eq_ok]
  -- each region of the bytes is one field
  have htake : ((fields area_id_ server_id_ link_type_ platform_).drop 5).take
      (platform_.length + 1) = platform_ ++ [0] := by
    show ((platform_ ++ [0]) ++ write_uint16 _).take (platform_.length + 1) = platform_ ++ [0]
    rw [List.take_left' (by simp)]
  have harea_id : read_uint16 ((fields area_id_ server_id_ link_type_ platform_).drop 0 |>.take 2) =
      area_id_ := by
    have h := read_write_uint16 area_id_ []
    rwa [List.append_nil] at h
  have hserver_id :
      read_uint16 ((fields area_id_ server_id_ link_type_ platform_).drop 2 |>.take 2) =
        server_id_ := by
    have h := read_write_uint16 server_id_ []
    rwa [List.append_nil] at h
  rw [htake, harea_id, hserver_id]
  rfl

/-- **The request comes back**, wherever the bytes `pack` wrote are copied to. -/
theorem round_trip (b : once_buffer) {ret_block : Nat} (area_id_ server_id_ : UInt16)
    (link_type_ : UInt8) {platform_ : List UInt8} (hnul : 0 ∉ platform_)
    (hlen : platform_.length ≤ 65527)
    (hfit : ret_block + (platform_.length + 8) ≤ ONCE_BUFFER_SIZE) :
    ∃ b' length,
      pack b ret_block area_id_ server_id_ link_type_ platform_
        (UInt16.ofNat platform_.length) = .ok (b', length) ∧
      ∀ (c : once_buffer) (block : Nat), block + length.toNat ≤ ONCE_BUFFER_SIZE →
        read c._buffer block length.toNat = read b'._buffer ret_block length.toNat →
        ∃ msg, unpack c block length = .ok msg ∧
          msg.area_id = area_id_ ∧ msg.server_id = server_id_ ∧ msg.link_type = link_type_ ∧
          msg.platform_len = UInt16.ofNat platform_.length ∧ c_str msg.platform = platform_ ∧
          cal_server_uid msg.area_id msg.server_id msg.platform =
            cal_server_uid area_id_ server_id_ platform_ := by
  have hlength : (UInt16.ofNat (platform_.length + 8)).toNat = platform_.length + 8 := by
    rw [UInt16.toNat_ofNat', Nat.mod_eq_of_lt (by omega)]
  refine ⟨_, _, pack_eq b area_id_ server_id_ link_type_ hfit hlen, ?_⟩
  rw [hlength]
  intro c block hblock hread
  rw [read_write_of_length _ _ _ _ (length_fields ..)] at hread
  refine ⟨_, unpack_fields hlen hblock hread, rfl, rfl, rfl, rfl, c_str_append_nul hnul, ?_⟩
  -- the hash stops at the NUL, and its first character is the name's
  have hstop := c_str_append_nul hnul
  have hself := c_str_of_notMem hnul
  have hfirst : (platform_ ++ [0]).getD 0 0 = platform_.getD 0 0 := by
    cases platform_ with
    | nil => rfl
    | cons c name => rfl
  unfold c_str at hstop hself
  unfold cal_server_uid
  simp only [hstop, hself, hfirst]

/-- The name `iOS`, at the start of the buffer. -/
theorem round_trip_iOS :
    ∃ b' length, pack (TEMP_BUFFER fun _ => 7) 0 1 2 9 [0x69, 0x4F, 0x53] 3 = .ok (b', length) ∧
      ∃ msg, unpack b' 0 length = .ok msg ∧ c_str msg.platform = [0x69, 0x4F, 0x53] ∧
        cal_server_uid msg.area_id msg.server_id msg.platform =
          cal_server_uid 1 2 [0x69, 0x4F, 0x53] := by
  obtain ⟨b', length, hpack, hback⟩ := @round_trip (TEMP_BUFFER fun _ => 7) 0 1 2 9
    [0x69, 0x4F, 0x53] (by decide) (by decide) (by decide)
  have hlength : length = 11 := by
    rw [pack_eq _ _ _ _ (by decide) (by decide)] at hpack
    exact ((Prod.mk.inj (Except.ok.inj hpack)).2).symm
  obtain ⟨msg, hmsg, -, -, -, -, hplatform, huid⟩ :=
    hback b' 0 (by rw [hlength]; decide) rfl
  exact ⟨b', length, hpack, msg, hmsg, hplatform, huid⟩

end authentication_aaa_request

/-! ### The response -/

namespace authentication_aaa_response

/-- The object `unpack` fills in comes from a pool, and its `link_type` stays as it was. -/
structure pooled_response extends authentication_aaa_response where
  link_type : UInt8

def unpack_pooled (left_over : UInt8) (b : once_buffer) (block : Nat) (length : UInt16) :
    Checked pooled_response := do
  let msg ← unpack b block length
  pure { toauthentication_aaa_response := msg, link_type := left_over }

/-- What was packed at `ret` is unpacked there again. -/
def RoundTrips (left_over : UInt8) (b : once_buffer) (ret : Nat) (ec_ subtract_ mod_vt_ : UInt8)
    (key_ : List UInt8) (link_no_ : UInt32) (link_type_ : UInt8) : Prop :=
  ∃ b' length msg,
    pack b ret ec_ subtract_ mod_vt_ key_ link_no_ link_type_ = .ok (b', length) ∧
    unpack_pooled left_over b' ret (UInt16.ofNat length) = .ok msg ∧
    msg.ec = ec_ ∧ msg.subtract = subtract_ ∧ msg.mod_vt = mod_vt_ ∧
    msg.key_len.toNat = key_.length ∧ msg.key = key_ ∧ msg.link_no = link_no_ ∧
    msg.link_type = link_type_

/-- The length of the key as `unpack` computes it. -/
theorem key_len_of_unpack {b : once_buffer} {block : Nat} {length : UInt16}
    {msg : authentication_aaa_response} (h : unpack b block length = .ok msg) :
    msg.key_len = length - 11 := by
  unfold unpack at h
  obtain ⟨fixed, -, h⟩ := bind_eq_ok.mp h
  obtain ⟨key, -, h⟩ := bind_eq_ok.mp h
  obtain ⟨link_no, -, h⟩ := bind_eq_ok.mp h
  cases h
  rfl

/-- `pack` reports two bytes more than it writes. -/
theorem length_of_pack {b b' : once_buffer} {ret length : Nat} {ec_ subtract_ mod_vt_ : UInt8}
    {key_ : List UInt8} {link_no_ : UInt32} {link_type_ : UInt8}
    (h : pack b ret ec_ subtract_ mod_vt_ key_ link_no_ link_type_ = .ok (b', length)) :
    length = (1 + 1 + 1 + key_.length + 2 + 4 + 1) % 2 ^ 16 := by
  unfold pack at h
  obtain ⟨b₁, -, h⟩ := bind_eq_ok.mp h
  obtain ⟨b₂, -, h⟩ := bind_eq_ok.mp h
  obtain ⟨b₃, -, h⟩ := bind_eq_ok.mp h
  obtain ⟨b₄, -, h⟩ := bind_eq_ok.mp h
  obtain ⟨b₅, -, h⟩ := bind_eq_ok.mp h
  obtain ⟨b₆, -, h⟩ := bind_eq_ok.mp h
  exact ((Prod.mk.inj (Except.ok.inj h)).2).symm

/-- What does come back of a response with a key: all but the key's last byte. -/
theorem unpack_of_pack (b : once_buffer) {ret : Nat} (ec_ subtract_ mod_vt_ : UInt8)
    {key_ : List UInt8} (link_no_ : UInt32) (link_type_ : UInt8) (hkey : key_ ≠ [])
    (hlen : key_.length ≤ 65525) (hfit : ret + (key_.length + 8) ≤ ONCE_BUFFER_SIZE) :
    ∃ b' length, pack b ret ec_ subtract_ mod_vt_ key_ link_no_ link_type_ = .ok (b', length) ∧
      unpack b' ret (UInt16.ofNat length) = .ok {
        ec := ec_
        subtract := subtract_
        mod_vt := mod_vt_
        key := key_.dropLast
        key_len := UInt16.ofNat (key_.length - 1)
        link_no := link_no_ } := by
  have hpos : 0 < key_.length := List.length_pos_iff.mpr hkey
  refine ⟨_, _, pack_eq b hfit, ?_⟩
  have hlength : UInt16.ofNat ((key_.length + 10) % 2 ^ 16) - 11 =
      UInt16.ofNat (key_.length - 1) := by
    apply UInt16.toNat_inj.mp
    rw [UInt16.toNat_sub, UInt16.toNat_ofNat', UInt16.toNat_ofNat']
    show (2 ^ 16 - 11 + (key_.length + 10) % 2 ^ 16 % 2 ^ 16) % 2 ^ 16 = _
    omega
  have hnat : (UInt16.ofNat (key_.length - 1)).toNat = key_.length - 1 := by
    rw [UInt16.toNat_ofNat', Nat.mod_eq_of_lt (by omega)]
  have hfields : (fields ec_ subtract_ mod_vt_ key_ link_no_ link_type_).length =
      key_.length + 8 := by
    simp [fields]
  have hload := fun pos k (hin : pos + k ≤ key_.length + 8) =>
    load_of_read (c := { b with
      _buffer := write b._buffer ret (fields ec_ subtract_ mod_vt_ key_ link_no_ link_type_) })
      (read_write_of_length _ _ _ _ hfields) hfit hin
  have hfixed := hload 0 3 (by omega)
  have hkey_ := hload 3 (key_.length - 1) (by omega)
  have hlink := hload (key_.length - 1 + 1 + 3) 4 (by omega)
  rw [Nat.add_zero] at hfixed
  unfold unpack
  rw [hlength]
  simp only [hnat]
  rw [hfixed, ok_bind, hkey_, ok_bind, Nat.add_assoc ret, Nat.add_assoc ret, hlink, ok_bind,
    pure_eq_ok]
  have hrest : ((fields ec_ subtract_ mod_vt_ key_ link_no_ link_type_).drop 3) =
      key_ ++ (write_uint32 link_no_ ++ [link_type_]) := by
    simp [fields]
  have htake : ((fields ec_ subtract_ mod_vt_ key_ link_no_ link_type_).drop 3).take
      (key_.length - 1) = key_.dropLast := by
    rw [hrest, List.take_append_of_le_length (Nat.sub_le ..), List.dropLast_eq_take]
  have hnumber : read_uint32 (((fields ec_ subtract_ mod_vt_ key_ link_no_ link_type_).drop
      (key_.length - 1 + 1 + 3)).take 4) = link_no_ := by
    have hdrop : (fields ec_ subtract_ mod_vt_ key_ link_no_ link_type_).drop
        (key_.length - 1 + 1 + 3) = write_uint32 link_no_ ++ [link_type_] := by
      rw [Nat.sub_add_cancel hpos, Nat.add_comm, ← List.drop_drop, hrest, List.drop_left]
    rw [hdrop, List.take_left' (length_write_uint32 _)]
    have h := read_write_uint32 link_no_ []
    rwa [List.append_nil] at h
  rw [htake, hnumber]
  rfl

/-- **No response comes back.** The decoded key is one byte short. -/
theorem never_round_trips (left_over : UInt8) (b : once_buffer) (ret : Nat)
    (ec_ subtract_ mod_vt_ : UInt8) (key_ : List UInt8) (link_no_ : UInt32)
    (link_type_ : UInt8) :
    ¬ RoundTrips left_over b ret ec_ subtract_ mod_vt_ key_ link_no_ link_type_ := by
  rintro ⟨b', length, msg, hpack, hunpack, -, -, -, hkey_len, -, -, -⟩
  obtain ⟨m, hm, hmsg⟩ := bind_eq_ok.mp hunpack
  have hdecoded : msg.key_len = UInt16.ofNat length - 11 := by
    cases hmsg
    exact key_len_of_unpack hm
  have hlength : length = (1 + 1 + 1 + key_.length + 2 + 4 + 1) % 2 ^ 16 := length_of_pack hpack
  rw [hdecoded, UInt16.toNat_sub, UInt16.toNat_ofNat', hlength] at hkey_len
  have heleven : UInt16.toNat 11 = 11 := rfl
  rw [heleven] at hkey_len
  omega

/-- A response with the key `[1]`. -/
theorem not_round_trips_one :
    ¬ ∀ (left_over : UInt8) (b : once_buffer) (ec_ subtract_ mod_vt_ : UInt8)
      (key_ : List UInt8) (link_no_ : UInt32) (link_type_ : UInt8), key_.length ≤ 65525 →
      RoundTrips left_over b 0 ec_ subtract_ mod_vt_ key_ link_no_ link_type_ := by
  intro hall
  obtain ⟨b', length, msg, hpack, hunpack, -, -, -, hkey_len, -⟩ :=
    hall 0 (TEMP_BUFFER fun _ => 0) 0 3 5 [1] 7 9 (by decide)
  obtain ⟨c, n, hpack', hunpack'⟩ := @unpack_of_pack (TEMP_BUFFER fun _ => 0) 0 0 3 5 [1] 7 9
    nofun (by decide) (by decide)
  rw [hpack] at hpack'
  cases hpack'
  obtain ⟨m, hm, hmsg⟩ := bind_eq_ok.mp hunpack
  rw [hunpack'] at hm
  cases hm
  cases hmsg
  exact absurd hkey_len (by decide)

end authentication_aaa_response

end AsioNet
