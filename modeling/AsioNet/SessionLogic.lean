import AsioNet.Protocol

/-! # Session logics (`session_logic.h`, `error_code.hpp`)

    A session hands every frame to its logic: first `unwrap_received_data`,
    then, if that accepts, `try_copy_to_storage`. This module holds the data all
    logics share and the interface through which the receive loop sees a logic
    together with whatever the logic reads and changes.
-/

namespace AsioNet

/-- `enum class SessionType`. The sources cast arbitrary bytes of a request to
    it, so a value need not be one of the enumerators. -/
abbrev SessionType := UInt8

namespace SessionType

def SINGLE_SESSION_BEGIN : SessionType := 0x0
def CLIENT_PROXY : SessionType := 0x1
def MULTI_SESSION_BEGIN : SessionType := 0x8
def GAMESVR_PROXY : SessionType := 0x9
def ACTIVE_GAMESVR : SessionType := 0x21

end SessionType

inductive AuthenticationState where
  | BEFORE_VERIFY
  | VERIFY_SUCC
  | VERIFY_FAILED
  deriving DecidableEq, Repr

inductive TransferError where
  | EC_Success
  | EC_ServerNotFound
  deriving DecidableEq, Repr

def TransferError.val : TransferError → UInt8
  | EC_Success => 0x0
  | EC_ServerNotFound => 0x1

/-- The parameters of a session's cipher. Its only constructor draws the modulus
    as `rand % 255 + 1` and fills all of the key. -/
structure rc4_info where
  rc4_modvt_ : Nat
  rc4_key_ : List UInt8
  rc4_subtract_ : Int
  modvt_pos : 1 ≤ rc4_modvt_
  modvt_le : rc4_modvt_ ≤ 255
  length_key : rc4_key_.length = RC4_KEY_LEN

/-- The parameters drawn when every `rand` is `0`. -/
def rc4_info.of_zero_rand : rc4_info where
  rc4_modvt_ := 1
  rc4_key_ := List.replicate RC4_KEY_LEN 1
  rc4_subtract_ := 1
  modvt_pos := Nat.le_refl 1
  modvt_le := by decide
  length_key := rfl

structure server_info where
  server_id_ : UInt16
  area_id_ : UInt16
  platform_ : List UInt8
  link_type_ : UInt8
  deriving DecidableEq, Repr

/-- A `char` as the unsigned integer it is promoted to. -/
def promote_char (c : UInt8) : UInt32 :=
  if c < 128 then c.toUInt32 else c.toUInt32 + 0xffffff00

/-- The server's id. The loop runs to the string's first NUL and always adds
    its first character. -/
def cal_server_uid (area_id server_id_ : UInt16) (platform : List UInt8) : server_id :=
  let c_str := platform.takeWhile fun c => c != 0
  let str_hash := c_str.foldl (fun hash _ => hash * 31 + promote_char (platform.getD 0 0)) 0
  (area_id.toUInt64 <<< 48) + (server_id_.toUInt64 <<< 32) + str_hash.toUInt64

/-! ### The interface -/

/-- Result of `unwrap_received_data`. -/
structure unwrapped (σ : Type) where
  accepted : Bool
  /-- Everything the logic may have changed. -/
  state : σ
  /-- The frame's body, possibly decrypted in place. -/
  buffer : once_buffer
  ret_block : once_buffer

/-- A logic, as the receive loop uses it. `σ` is the state it works on; the
    buffers it takes from the pool hold what the `recycled` argument says. -/
structure session_logic_interface (σ : Type) where
  prefix_size : σ → Nat
  unwrap_received_data :
    recycled → σ → (buffer : once_buffer) → protocol_head → (ret_block : once_buffer) → unwrapped σ
  try_copy_to_storage : recycled → σ → (data : once_buffer) → protocol_head → Bool × σ
  /-- A logic moves the start of the body by no more than the frame's size. -/
  unwrap_offset_le : ∀ stale s buffer head ret_block,
    (unwrap_received_data stale s buffer head ret_block).buffer.offset ≤
      buffer.offset + (PROTO_HEAD_SIZE + head.len.toNat)

namespace session_logic_interface

variable {σ : Type} (L : session_logic_interface σ)

/-- The `do … while (false)` block of `pick_a_entire_msg`: the flag is `false`
    if the storage refuses the data. -/
def handle_msg (stale : recycled) (s : σ) (head : protocol_head) (data_block : once_buffer) :
    Bool × σ × once_buffer :=
  -- space for a head is kept in front of the data
  let unwrap_data := { TEMP_BUFFER (stale 0) with offset := L.prefix_size s }
  let r := L.unwrap_received_data (fun n => stale (n + 1)) s data_block head unwrap_data
  if r.accepted = false then (true, r.state, r.buffer)
  else
    let copied := L.try_copy_to_storage (fun n => stale (n + 1)) r.state r.ret_block head
    (copied.1, copied.2, r.buffer)

/-- No storage refusal, whatever the state and the data. -/
def Accepting : Prop := ∀ stale s data head, (L.try_copy_to_storage stale s data head).1 = true

theorem handle_msg_offset_le (stale : recycled) (s : σ) (head : protocol_head)
    (data_block : once_buffer) :
    (L.handle_msg stale s head data_block).2.2.offset ≤
      data_block.offset + (PROTO_HEAD_SIZE + head.len.toNat) := by
  unfold handle_msg
  simp only
  -- storing leaves the received block alone
  split <;> exact L.unwrap_offset_le ..

theorem Accepting.handle_msg {L : session_logic_interface σ} (h : L.Accepting) (stale : recycled)
    (s : σ) (head : protocol_head) (data_block : once_buffer) :
    (L.handle_msg stale s head data_block).1 = true := by
  unfold session_logic_interface.handle_msg
  simp only
  split
  · rfl
  · exact h ..

end session_logic_interface

end AsioNet
