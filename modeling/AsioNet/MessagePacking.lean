import AsioNet.Protocol

/-! # Packing a message whole and in pieces (`protocol.hpp`, `protocol_head::pack`)

    Both overloads of `pack` put a head in front of a message; one takes the
    message whole, the other as a list of pieces it copies one behind the other.
    `unpack` takes head and message apart again.

    Lengths are counted in `size_t`, but the head's `len` and `ret_length` are
    16 bits wide. The message must fit the first; the second has the head on
    top, so it wraps for the last eleven lengths.
-/

namespace AsioNet

open ByteMemory

/-- `memcpy(block + pos, src, n)`; there is no reading behind `src`. -/
def copy_block (block : Nat → UInt8) (pos : Nat) (src : List UInt8) (n : Nat) :
    Option (Nat → UInt8) :=
  if n ≤ src.length then some (write block pos (src.take n)) else none

namespace protocol_head

def pack (ret_block : Nat → UInt8) (msg : List UInt8) (length cmd_ : UInt16) (seq_ : UInt32) :
    Option ((Nat → UInt8) × UInt16) := do
  let head := get_a_head 0x2e length 0 cmd_ false seq_
  let ret_length := length + 11
  let ret_block ← copy_block ret_block 0 head.bytes PROTO_HEAD_SIZE
  let ret_block ← copy_block ret_block PROTO_HEAD_SIZE msg length.toNat
  pure (ret_block, ret_length)

/-- The loop over the pieces, with `total_length` copied so far. -/
def pack_loop (ret_block : Nat → UInt8) (total_length : Nat) :
    List (List UInt8) → List Nat → Option ((Nat → UInt8) × Nat)
  | msg :: msgs, len :: lens => do
    let ret_block ← copy_block ret_block (PROTO_HEAD_SIZE + total_length) msg len
    pack_loop ret_block (size_t_add total_length len) msgs lens
  | _, _ => some (ret_block, total_length)

/-- The overload for a message in pieces. -/
def pack_msgs (ret_block : Nat → UInt8) (msgs : List (List UInt8)) (lens : List Nat)
    (cmd_ : UInt16) (seq_ : UInt32) : Option ((Nat → UInt8) × UInt16) := do
  -- the assertion
  if msgs.length ≠ lens.length then none
  else
    let (ret_block, total_length) ← pack_loop ret_block 0 msgs lens
    let head := get_a_head 0x2e (UInt16.ofNat total_length) 0 cmd_ false seq_
    let ret_length := UInt16.ofNat (size_t_add total_length PROTO_HEAD_SIZE)
    let ret_block ← copy_block ret_block 0 head.bytes PROTO_HEAD_SIZE
    pure (ret_block, ret_length)

/-- `origin` is what the caller may read. -/
def unpack (ret_msg : Nat → UInt8) (origin : List UInt8) (length : UInt16) :
    Option (protocol_head × (Nat → UInt8)) := do
  let head_block ← copy_block (fun _ => 0) 0 origin PROTO_HEAD_SIZE
  let head := unpack_head (read head_block 0 PROTO_HEAD_SIZE)
  let ret_msg ← copy_block ret_msg 0 (origin.drop PROTO_HEAD_SIZE)
    (size_t_sub length.toNat PROTO_HEAD_SIZE)
  pure (head, ret_msg)

/-! ### The bytes packed -/

/-- The frame both overloads should write. -/
def frame (msg : List UInt8) (cmd_ : UInt16) (seq_ : UInt32) : List UInt8 :=
  (get_a_head 0x2e (UInt16.ofNat msg.length) 0 cmd_ false seq_).bytes ++ msg

theorem length_frame (msg : List UInt8) (cmd_ : UInt16) (seq_ : UInt32) :
    (frame msg cmd_ seq_).length = PROTO_HEAD_SIZE + msg.length := by
  unfold frame
  rw [List.length_append, length_bytes]

theorem copy_block_all (block : Nat → UInt8) (pos : Nat) (src : List UInt8) {n : Nat}
    (hn : n = src.length) : copy_block block pos src n = some (write block pos src) := by
  unfold copy_block
  rw [if_pos (by omega), hn, List.take_length]

/-- The loop copies the pieces one behind the other. -/
theorem pack_loop_eq (msgs : List (List UInt8)) (ret_block : Nat → UInt8) (total_length : Nat)
    (hfit : total_length + msgs.flatten.length < 2 ^ 64) :
    pack_loop ret_block total_length msgs (msgs.map List.length) =
      some (write ret_block (PROTO_HEAD_SIZE + total_length) msgs.flatten,
        total_length + msgs.flatten.length) := by
  induction msgs generalizing ret_block total_length with
  | nil => simp [pack_loop]
  | cons msg msgs ih =>
    simp only [List.flatten_cons, List.length_append] at hfit ⊢
    have hadd : size_t_add total_length msg.length = total_length + msg.length :=
      size_t_add_of_lt (by omega)
    simp only [List.map_cons, pack_loop]
    rw [copy_block_all _ _ _ rfl]
    show pack_loop _ (size_t_add total_length msg.length) msgs _ = _
    rw [hadd, ih _ _ (by omega), write_append, Nat.add_assoc, Nat.add_assoc]

/-- Head and message are adjacent, in whichever order they are written. -/
theorem write_frame (ret_block : Nat → UInt8) (head_bytes msg : List UInt8) :
    write (write ret_block (0 + head_bytes.length) msg) 0 head_bytes =
      write ret_block 0 (head_bytes ++ msg) := by
  rw [write_append]
  funext a
  by_cases ha : a < head_bytes.length
  · have hread : ∀ m : Nat → UInt8, write m 0 head_bytes a = head_bytes[a] := by
      intro m
      have h := write_apply_add m 0 a head_bytes ha
      rwa [Nat.zero_add] at h
    rw [hread, write_apply_of_lt _ _ _ _ (by omega), hread]
  · rw [write_apply_of_ge _ _ _ _ (by omega)]
    by_cases hm : a < head_bytes.length + msg.length
    · obtain ⟨i, rfl⟩ := Nat.exists_eq_add_of_le (Nat.not_lt.mp ha)
      have hread : ∀ m : Nat → UInt8,
          write m (0 + head_bytes.length) msg (head_bytes.length + i) = msg[i] := by
        intro m
        rw [Nat.zero_add]
        exact write_apply_add m _ i msg (by omega)
      rw [hread, hread]
    · rw [write_apply_of_ge _ _ _ _ (by omega), write_apply_of_ge _ _ _ _ (by omega),
        write_apply_of_ge _ _ _ _ (by omega)]

theorem pack_eq (ret_block : Nat → UInt8) (msg : List UInt8) (cmd_ : UInt16) (seq_ : UInt32)
    (hlen : msg.length < 2 ^ 16) :
    pack ret_block msg (UInt16.ofNat msg.length) cmd_ seq_ =
      some (write ret_block 0 (frame msg cmd_ seq_), UInt16.ofNat msg.length + 11) := by
  have hlength : (UInt16.ofNat msg.length).toNat = msg.length := by
    rw [UInt16.toNat_ofNat']
    omega
  unfold pack
  simp only
  rw [copy_block_all _ _ _ (length_bytes _).symm]
  simp only [Option.bind_eq_bind, Option.bind_some]
  rw [copy_block_all _ _ _ hlength]
  simp only [Option.bind_some, pure, frame]
  rw [write_append, length_bytes, Nat.zero_add]

theorem pack_msgs_eq (ret_block : Nat → UInt8) (msgs : List (List UInt8)) (cmd_ : UInt16)
    (seq_ : UInt32) (hlen : msgs.flatten.length < 2 ^ 16) :
    pack_msgs ret_block msgs (msgs.map List.length) cmd_ seq_ =
      some (write ret_block 0 (frame msgs.flatten cmd_ seq_),
        UInt16.ofNat msgs.flatten.length + 11) := by
  have hadd : size_t_add msgs.flatten.length PROTO_HEAD_SIZE = msgs.flatten.length + 11 :=
    size_t_add_of_lt (by unfold PROTO_HEAD_SIZE; omega)
  have hret : UInt16.ofNat (msgs.flatten.length + 11) = UInt16.ofNat msgs.flatten.length + 11 :=
    UInt16.ofNat_add _ _
  unfold pack_msgs
  rw [if_neg (by simp)]
  rw [pack_loop_eq _ _ _ (by omega)]
  simp only [Option.bind_eq_bind, Option.bind_some, Nat.add_zero, Nat.zero_add]
  rw [copy_block_all _ _ _ (length_bytes _).symm]
  simp only [Option.bind_some, pure, hadd, hret, frame]
  have hwrite := write_frame ret_block
    (get_a_head 0x2e (UInt16.ofNat msgs.flatten.length) 0 cmd_ false seq_).bytes msgs.flatten
  rw [length_bytes, Nat.zero_add] at hwrite
  rw [hwrite]

/-! ### The round trip -/

/-- `unpack` copies as many bytes as `length` says there are behind the head. -/
theorem unpack_eq (ret_msg : Nat → UInt8) (head : protocol_head) (msg : List UInt8)
    (length : UInt16) (hlength : length.toNat = PROTO_HEAD_SIZE + msg.length) :
    unpack ret_msg (head.bytes ++ msg) length = some (head, write ret_msg 0 msg) := by
  have hle : PROTO_HEAD_SIZE ≤ (head.bytes ++ msg).length := by
    rw [List.length_append, length_bytes]
    omega
  have hsub : size_t_sub length.toNat PROTO_HEAD_SIZE = msg.length := by
    have hlt := length.toNat_lt
    rw [size_t_sub_of_le (by omega) (by omega), hlength, Nat.add_sub_cancel_left]
  have htake : (head.bytes ++ msg).take PROTO_HEAD_SIZE = head.bytes :=
    List.take_left' (length_bytes head)
  have hdrop : (head.bytes ++ msg).drop PROTO_HEAD_SIZE = msg :=
    List.drop_left' (length_bytes head)
  have hblock : read (write (fun _ => 0) 0 head.bytes) 0 PROTO_HEAD_SIZE = head.bytes :=
    read_write_of_length _ _ _ _ (length_bytes head)
  unfold unpack copy_block
  rw [if_pos hle, htake, hdrop, hsub, if_pos (Nat.le_refl _), List.take_length]
  simp only [Option.bind_eq_bind, Option.bind_some, hblock, unpack_head_bytes, pure]

/-- A length below the head's wraps around, and the copy leaves the frame. -/
theorem unpack_short (ret_msg : Nat → UInt8) (origin : List UInt8) (length : UInt16)
    (hlength : length.toNat < PROTO_HEAD_SIZE) (horigin : origin.length < 2 ^ 63) :
    unpack ret_msg origin length = none := by
  have hsub : size_t_sub length.toNat PROTO_HEAD_SIZE =
      length.toNat + 2 ^ 64 - PROTO_HEAD_SIZE :=
    size_t_sub_of_lt hlength (by decide)
  have hover : ¬ size_t_sub length.toNat PROTO_HEAD_SIZE ≤ (origin.drop PROTO_HEAD_SIZE).length := by
    rw [hsub, List.length_drop]
    unfold PROTO_HEAD_SIZE at hlength ⊢
    omega
  unfold unpack
  by_cases hhead : PROTO_HEAD_SIZE ≤ origin.length
  · simp only [copy_block, if_pos hhead, if_neg hover, Option.bind_eq_bind, Option.bind_some,
      Option.bind_none]
  · simp only [copy_block, if_neg hhead, Option.bind_eq_bind, Option.bind_none]

/-- Packing `msgs` in pieces is packing them whole, and the frame says what was
    packed. -/
structure PackedAlike (ret_block : Nat → UInt8) (msgs : List (List UInt8)) (cmd_ : UInt16)
    (seq_ : UInt32) : Prop where
  /-- Both overloads write the same bytes and return the same length. -/
  same : pack_msgs ret_block msgs (msgs.map List.length) cmd_ seq_ =
    pack ret_block msgs.flatten (UInt16.ofNat msgs.flatten.length) cmd_ seq_
  /-- `ret_length` is the number of bytes written. -/
  written : ∃ bytes ret_length,
    pack_msgs ret_block msgs (msgs.map List.length) cmd_ seq_ =
      some (write ret_block 0 bytes, ret_length) ∧
    bytes.length = PROTO_HEAD_SIZE + msgs.flatten.length ∧ ret_length.toNat = bytes.length
  round_trip : ∀ block ret_length ret_msg,
    pack_msgs ret_block msgs (msgs.map List.length) cmd_ seq_ = some (block, ret_length) →
      ∃ head msg,
        unpack ret_msg (read block 0 (PROTO_HEAD_SIZE + msgs.flatten.length)) ret_length =
          some (head, msg) ∧
        head.get_cmd = cmd_ ∧ head.seq = seq_ ∧ head.len.toNat = msgs.flatten.length ∧
        read msg 0 msgs.flatten.length = msgs.flatten

theorem toNat_ret_length {n : Nat} (hlen : n + PROTO_HEAD_SIZE < 2 ^ 16) :
    (UInt16.ofNat n + 11).toNat = PROTO_HEAD_SIZE + n := by
  unfold PROTO_HEAD_SIZE at hlen ⊢
  rw [UInt16.toNat_add, UInt16.toNat_ofNat', show (11 : UInt16).toNat = 11 from rfl]
  omega

/-- A command of 15 bits keeps all of them. -/
theorem and_cmd_of_lt {cmd_ : UInt16} (hcmd : cmd_ < 0x8000) : cmd_ &&& 0x7FFF = cmd_ := by
  apply UInt16.toNat_inj.mp
  have hlt : cmd_.toNat < 2 ^ 15 := UInt16.lt_iff_toNat_lt.mp hcmd
  rw [UInt16.toNat_and, show (0x7FFF : UInt16).toNat = 2 ^ 15 - 1 from rfl,
    Nat.and_two_pow_sub_one_eq_mod, Nat.mod_eq_of_lt hlt]

/-- A message the head can describe is packed alike, and comes back, exactly if
    head and message together have a length of 16 bits. -/
theorem packed_alike_iff (ret_block : Nat → UInt8) (msgs : List (List UInt8)) (cmd_ : UInt16)
    (seq_ : UInt32) (hlen : msgs.flatten.length < 2 ^ 16) (hcmd : cmd_ < 0x8000) :
    PackedAlike ret_block msgs cmd_ seq_ ↔
      msgs.flatten.length + PROTO_HEAD_SIZE < 2 ^ 16 := by
  have hpack := pack_msgs_eq ret_block msgs cmd_ seq_ hlen
  constructor
  · intro h
    -- the length returned is one of 16 bits
    obtain ⟨bytes, ret_length, _, hbytes, hret⟩ := h.written
    have hlt := ret_length.toNat_lt
    omega
  · intro hfit
    have hret := toNat_ret_length hfit
    refine ⟨?_, ?_, ?_⟩
    · rw [hpack, pack_eq _ _ _ _ hlen]
    · exact ⟨_, _, hpack, length_frame .., by rw [hret, length_frame]⟩
    · intro block ret_length ret_msg hblock
      rw [hpack] at hblock
      obtain ⟨rfl, rfl⟩ := Prod.mk.inj (Option.some.inj hblock)
      have hframe := read_write_of_length ret_block 0 _ (frame msgs.flatten cmd_ seq_)
        (length_frame ..)
      refine ⟨get_a_head 0x2e (UInt16.ofNat msgs.flatten.length) 0 cmd_ false seq_,
        write ret_msg 0 msgs.flatten, ?_, ?_, ?_, ?_, read_write ret_msg 0 msgs.flatten⟩
      · rw [hframe]
        exact unpack_eq ret_msg _ _ _ hret
      · rw [get_cmd_get_a_head, and_cmd_of_lt hcmd]
      · rw [get_a_head_seq]
      · rw [get_a_head_len, UInt16.toNat_ofNat']
        omega

/-- The last eleven lengths wrap `ret_length` to less than a head, and unpacking
    with it runs out of the frame. -/
theorem unpack_pack_of_long (ret_block ret_msg : Nat → UInt8) (msgs : List (List UInt8))
    (cmd_ : UInt16) (seq_ : UInt32) (hlen : msgs.flatten.length < 2 ^ 16)
    (hlong : 2 ^ 16 ≤ msgs.flatten.length + PROTO_HEAD_SIZE) :
    ∃ block ret_length,
      pack_msgs ret_block msgs (msgs.map List.length) cmd_ seq_ = some (block, ret_length) ∧
      unpack ret_msg (read block 0 (PROTO_HEAD_SIZE + msgs.flatten.length)) ret_length = none := by
  refine ⟨_, _, pack_msgs_eq ret_block msgs cmd_ seq_ hlen, ?_⟩
  apply unpack_short
  · unfold PROTO_HEAD_SIZE at hlong ⊢
    rw [UInt16.toNat_add, UInt16.toNat_ofNat', show (11 : UInt16).toNat = 11 from rfl]
    omega
  · rw [length_read]
    unfold PROTO_HEAD_SIZE
    omega

theorem packed_alike_of_three : PackedAlike (fun _ => 0) [[1, 2], [], [3]] 7 9 :=
  (packed_alike_iff (fun _ => 0) [[1, 2], [], [3]] 7 9 (by decide) (by decide)).mpr (by decide)

/-- A message of 65525 bytes makes a frame of 65536, whose length wraps to zero. -/
theorem not_always_packed_alike : ¬ ∀ ret_block msgs cmd_ seq_,
    msgs.flatten.length < 2 ^ 16 → cmd_ < 0x8000 → PackedAlike ret_block msgs cmd_ seq_ := by
  intro h
  have hlen : [List.replicate 65525 (0 : UInt8)].flatten.length = 65525 := by
    rw [List.flatten_singleton, List.length_replicate]
  obtain ⟨bytes, ret_length, _, hbytes, hret⟩ :=
    (h (fun _ => 0) [List.replicate 65525 0] 7 9 (by rw [hlen]; decide) (by decide)).written
  have hlt := ret_length.toNat_lt
  rw [hlen] at hbytes
  unfold PROTO_HEAD_SIZE at hbytes
  omega

end protocol_head

end AsioNet
