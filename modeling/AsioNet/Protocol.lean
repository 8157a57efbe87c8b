import AsioNet.Library.LengthPrefixed
import AsioNet.ReusabelBuffer

/-! # Wire formats (`protocol.hpp`)

    Every frame is an 11-byte `protocol_head` followed by `head.len` bytes of
    body. The head is a packed struct that `memcpy` moves between the wire and
    memory, so its fields are in host order; the messages inside the bodies are
    written field by field in network order.
-/

namespace AsioNet

open ByteMemory LengthPrefixed

inductive protocol_cmd where
  | Commands_LCriticalSI
  | Commands_AuthenticationAAA
  | Commands_Heartbeat
  | Commands_RoutingTransparent
  | Commands_BroadCast
  | Commands_ConnectionConfirm
  | Commands_Kick
  | Commands_RCriticalSI
  deriving DecidableEq, Repr

/-- The enumerator's value, as the casts to `uint16_t` give it. -/
def protocol_cmd.val : protocol_cmd → UInt16
  | Commands_LCriticalSI => 0x7e8d
  | Commands_AuthenticationAAA => 0x7e8e
  | Commands_Heartbeat => 0x7e8f
  | Commands_RoutingTransparent => 0x7e90
  | Commands_BroadCast => 0x7e91
  | Commands_ConnectionConfirm => 0x7e92
  | Commands_Kick => 0x7e93
  | Commands_RCriticalSI => 0xFFFF

def FRAME_KEY : UInt8 := 0x2e

def K_SIZE_COMPRESS : Nat := 64

/-- `sizeof(protocol_head)` -/
def PROTO_HEAD_SIZE : Nat := 11

/-! ### The frame head -/

/-- The packed head. Its bit-field variant (`cmd : 15`, `compressed : 1`) has
    the same layout as the flag word used here. -/
@[ext] structure protocol_head where
  fk : UInt8
  len : UInt16
  mask : UInt16
  cmd_compressed_flag : UInt16
  seq : UInt32
  deriving DecidableEq, Repr

namespace protocol_head

def get_cmd (h : protocol_head) : UInt16 := h.cmd_compressed_flag &&& 0x7FFF

def get_compressed (h : protocol_head) : Bool := h.cmd_compressed_flag >>> 15 != 0

def get_a_head (fk_ : UInt8) (len_ mask_ cmd_ : UInt16) (compressed_ : Bool) (seq_ : UInt32) :
    protocol_head where
  fk := fk_
  len := len_
  mask := mask_
  cmd_compressed_flag := (if compressed_ then 0x8000 else (0 : UInt16)) ||| (cmd_ &&& 0x7FFF)
  seq := seq_

/-- The bytes `memcpy(_, head.get(), sizeof(protocol_head))` copies. -/
def bytes (h : protocol_head) : List UInt8 :=
  h.fk :: (host_uint16 h.len ++ host_uint16 h.mask ++ host_uint16 h.cmd_compressed_flag ++
    host_uint32 h.seq)

/-- The head `memcpy(head.get(), head_block, sizeof(protocol_head))` fills in. -/
def unpack_head (head_block : List UInt8) : protocol_head where
  fk := head_block.getD 0 0
  len := of_host_uint16 (head_block.getD 1 0) (head_block.getD 2 0)
  mask := of_host_uint16 (head_block.getD 3 0) (head_block.getD 4 0)
  cmd_compressed_flag := of_host_uint16 (head_block.getD 5 0) (head_block.getD 6 0)
  seq := of_host_uint32 (head_block.getD 7 0) (head_block.getD 8 0) (head_block.getD 9 0)
    (head_block.getD 10 0)

/-- The stream format all receivers agree on. -/
def format : Format UInt8 where
  headSize := PROTO_HEAD_SIZE
  headSize_pos := by decide
  bodySize := fun head_block => (unpack_head head_block).len.toNat

@[simp] theorem length_bytes (h : protocol_head) : h.bytes.length = PROTO_HEAD_SIZE := rfl

/-- A head copied to the wire and back is the same head. -/
@[simp] theorem unpack_head_bytes (h : protocol_head) : unpack_head h.bytes = h := by
  ext : 1
  · rfl
  · exact of_host_uint16_host h.len
  · exact of_host_uint16_host h.mask
  · exact of_host_uint16_host h.cmd_compressed_flag
  · exact of_host_uint32_host h.seq

@[simp] theorem get_a_head_len (fk_ : UInt8) (len_ mask_ cmd_ : UInt16) (compressed_ : Bool)
    (seq_ : UInt32) : (get_a_head fk_ len_ mask_ cmd_ compressed_ seq_).len = len_ := rfl

@[simp] theorem get_a_head_seq (fk_ : UInt8) (len_ mask_ cmd_ : UInt16) (compressed_ : Bool)
    (seq_ : UInt32) : (get_a_head fk_ len_ mask_ cmd_ compressed_ seq_).seq = seq_ := rfl

@[simp] theorem get_cmd_get_a_head (fk_ : UInt8) (len_ mask_ cmd_ : UInt16) (compressed_ : Bool)
    (seq_ : UInt32) :
    (get_a_head fk_ len_ mask_ cmd_ compressed_ seq_).get_cmd = cmd_ &&& 0x7FFF := by
  apply UInt16.toBitVec_inj.mp
  apply BitVec.eq_of_getLsbD_eq
  intro i hi
  simp only [get_cmd, get_a_head]
  -- bit 15 is masked off again, the others are the command's
  cases compressed_ <;> interval_cases i <;> simp

@[simp] theorem get_compressed_get_a_head (fk_ : UInt8) (len_ mask_ cmd_ : UInt16)
    (compressed_ : Bool) (seq_ : UInt32) :
    (get_a_head fk_ len_ mask_ cmd_ compressed_ seq_).get_compressed = compressed_ := by
  -- the command has no bit 15
  have hlow : ∀ f : UInt16, (f ||| (cmd_ &&& 0x7FFF)) >>> 15 = f >>> 15 := by
    intro f
    apply UInt16.toBitVec_inj.mp
    apply BitVec.eq_of_getLsbD_eq
    intro i hi
    interval_cases i <;> simp
  simp only [get_compressed, get_a_head, hlow]
  cases compressed_ <;> rfl

end protocol_head

/-! ### Authentication request -/

structure authentication_aaa_request where
  area_id : UInt16
  server_id : UInt16
  link_type : UInt8
  platform : List UInt8
  platform_len : UInt16

/-- Writes the request to index `ret_block` of `b` and returns its length. -/
def authentication_aaa_request.pack (b : once_buffer) (ret_block : Nat)
    (area_id_ server_id_ : UInt16) (link_type_ : UInt8) (platform_ : List UInt8)
    (platform_len_ : UInt16) : Checked (once_buffer × UInt16) := do
  let b ← b.store ret_block (write_uint16 area_id_)
  let b ← b.store (ret_block + 2) (write_uint16 server_id_)
  let b ← b.store (ret_block + 4) [link_type_]
  -- the string's NUL is copied too
  let b ← b.store (ret_block + 5) ((platform_ ++ [0]).take (platform_len_.toNat + 1))
  let b ← b.store (ret_block + 5 + platform_len_.toNat + 1) (write_uint16 platform_len_)
  pure (b, 2 + 2 + 1 + platform_len_ + 1 + 2)

/-- Reads the request at index `block` of `b`, `length` being the frame body's
    length. -/
def authentication_aaa_request.unpack (b : once_buffer) (block : Nat) (length : UInt16) :
    Checked authentication_aaa_request := do
  -- the `uint16_t` difference wraps around for a body shorter than 8 bytes
  let platform_len := length - 8
  let area_id ← b.load block 2
  let server_id ← b.load (block + 2) 2
  let link_type ← b.load (block + 4) 1
  let platform ← b.load (block + 5) (platform_len.toNat + 1)
  pure {
    area_id := read_uint16 area_id
    server_id := read_uint16 server_id
    link_type := link_type.getD 0 0
    platform := platform
    platform_len := platform_len }

/-! ### Authentication response -/

structure authentication_aaa_response where
  ec : UInt8
  subtract : UInt8
  mod_vt : UInt8
  key : List UInt8
  key_len : UInt16
  link_no : UInt32

/-- Writes the response at index `ret` of `b`; also returns `ret_length`. -/
def authentication_aaa_response.pack (b : once_buffer) (ret : Nat) (ec_ subtract_ mod_vt_ : UInt8)
    (key_ : List UInt8) (link_no_ : UInt32) (link_type_ : UInt8) :
    Checked (once_buffer × Nat) := do
  let key_len_ := key_.length
  let b ← b.store ret [ec_]
  let b ← b.store (ret + 1) [subtract_]
  let b ← b.store (ret + 2) [mod_vt_]
  let b ← b.store (ret + 3) key_
  let b ← b.store (ret + (key_len_ + 3)) (write_uint32 link_no_)
  -- the two bytes of `key_len` are counted below but never stored
  let b ← b.store (ret + (key_len_ + 3 + 4)) [link_type_]
  pure (b, (1 + 1 + 1 + key_len_ + 2 + 4 + 1) % 2 ^ 16)

/-- Reads the response at index `block` of `b`. -/
def authentication_aaa_response.unpack (b : once_buffer) (block : Nat) (length : UInt16) :
    Checked authentication_aaa_response := do
  let fixed ← b.load block 3
  let key_len := length - 11
  let key ← b.load (block + 3) key_len.toNat
  -- `key_len` is one short, so this is where `pack` stores the number
  let link_no ← b.load (block + key_len.toNat + 1 + 3) 4
  pure {
    ec := fixed.getD 0 0
    subtract := fixed.getD 1 0
    mod_vt := fixed.getD 2 0
    key := key
    key_len := key_len
    link_no := read_uint32 link_no }

/-- The bytes `pack` writes, without the two it only counts. -/
def authentication_aaa_response.fields (ec_ subtract_ mod_vt_ : UInt8) (key_ : List UInt8)
    (link_no_ : UInt32) (link_type_ : UInt8) : List UInt8 :=
  ec_ :: subtract_ :: mod_vt_ :: (key_ ++ write_uint32 link_no_ ++ [link_type_])

theorem authentication_aaa_response.pack_eq (b : once_buffer) {ret : Nat}
    {ec_ subtract_ mod_vt_ : UInt8} {key_ : List UInt8} {link_no_ : UInt32} {link_type_ : UInt8}
    (h : ret + (key_.length + 8) ≤ ONCE_BUFFER_SIZE) :
    pack b ret ec_ subtract_ mod_vt_ key_ link_no_ link_type_ =
      let packed := fields ec_ subtract_ mod_vt_ key_ link_no_ link_type_
      .ok ({ b with _buffer := write b._buffer ret packed }, (key_.length + 10) % 2 ^ 16) := by
  simp only [pack]
  rw [reusabel_buffer.store_of_le _ (by simp only [List.length_singleton]; omega)]
  simp only [ok_bind]
  rw [reusabel_buffer.store_of_le _ (by simp only [List.length_singleton]; omega)]
  simp only [ok_bind]
  rw [reusabel_buffer.store_of_le _ (by simp only [List.length_singleton]; omega)]
  simp only [ok_bind]
  rw [reusabel_buffer.store_of_le _ (by omega)]
  simp only [ok_bind]
  rw [reusabel_buffer.store_of_le _ (by rw [length_write_uint32]; omega)]
  simp only [ok_bind]
  rw [reusabel_buffer.store_of_le _ (by simp only [List.length_singleton]; omega)]
  simp only [ok_bind, pure_eq_ok]
  -- The six stores are adjacent, so they store the concatenation.
  have hfields : fields ec_ subtract_ mod_vt_ key_ link_no_ link_type_ =
      [ec_] ++ ([subtract_] ++ ([mod_vt_] ++ (key_ ++ (write_uint32 link_no_ ++ [link_type_])))) := by
    simp [fields]
  rw [hfields]
  simp only [write_append, List.length_singleton, length_write_uint32]
  congr 2
  · congr 2 <;> [congr 1; skip] <;> omega
  · omega

/-! ### Connection confirmation -/

structure session_connect_confirm where
  ip : UInt32

/-- Writes the confirmation at index `ret_block` of `b`; also returns
    `ret_length`. -/
def session_connect_confirm.pack (b : once_buffer) (ret_block : Nat) (ip : UInt32) :
    Checked (once_buffer × Nat) := do
  let b ← b.store ret_block (write_uint32 ip)
  pure (b, 4)

def session_connect_confirm.unpack (b : once_buffer) (block : Nat) :
    Checked session_connect_confirm := do
  let ip ← b.load block 4
  pure { ip := read_uint32 ip }

end AsioNet
