import AsioNet.CsNetwork.SocketClient

/-! # The two frame heads

    Client and proxy put eleven bytes before a body. The proxy's head is a packed
    struct in host order: key, a length of two bytes, the mask, the command with
    the compression bit, the number. The client writes and expects a length of
    four bytes where the proxy has length and mask, and writes everything most
    significant byte first.
-/

namespace AsioNet.CsNetwork

open Exec

namespace SocketClient

variable {σ : Type}

/-! ### The frame `WrapSendData` builds -/

/-- A round of the copy loop that returns has stored byte `i` of the frame. -/
theorem of_copy_round_ok {head data : List UInt8} (hhead : head.length = TcpContentHead.HEAD_SIZE)
    {i : Nat} (hi : i < 2 ^ 31) {newRet newRet' : Option block}
    (h : exec (copy_round head data i) newRet = (.ok .unit, newRet')) :
    ∃ b byte, newRet = some b ∧ (head ++ data)[i]? = some byte ∧ i < b.cells.length ∧
      newRet' = some { b with cells := b.cells.set i byte } := by
  unfold copy_round at h
  rw [exec_get_bind] at h
  obtain ⟨byte, hbyte, h⟩ := of_exec_lift_bind_ok h
  obtain ⟨b, hb, h⟩ := of_exec_lift_bind_ok h
  obtain ⟨cells, hstore, h⟩ := of_exec_lift_bind_ok h
  obtain ⟨hlt, rfl⟩ := of_store_ok hi hstore
  rw [exec_set] at h
  refine ⟨b, byte, ?_, ?_, hlt, (Prod.mk.inj h).2.symm⟩
  · rcases newRet with _ | b'
    · simp [deref] at hb
    · exact congrArg some (Except.ok.inj hb)
  · split at hbyte
    · rename_i hin
      rw [List.getElem?_append_left (by omega)]
      exact of_load_ok hi hbyte
    · rename_i hout
      rw [List.getElem?_append_right (by omega), hhead]
      exact of_load_ok (by omega) hbyte

/-- The copy loop that returns has filled the block with the frame. -/
theorem of_copy_loop_ok {head data : List UInt8} (hhead : head.length = TcpContentHead.HEAD_SIZE)
    {n : Nat} (hn : n < 2 ^ 31) (hpos : 0 < n) {newRet newRet' : Option block}
    (h : exec (for_loop (copy_round head data) n 0) newRet = (.ok .unit, newRet')) :
    ∃ b, newRet' = some b ∧ b.cells.take n = (head ++ data).take n := by
  let Inv : Nat → Option block → Prop := fun i newRet =>
    0 < i → ∃ b, newRet = some b ∧ b.cells.take i = (head ++ data).take i
  have hend : Inv n newRet' := by
    apply of_for_loop_ok Inv (fun i r r' hi hinv hround => ?_) (Nat.zero_add n) h
    · intro hzero
      omega
    · intro _
      obtain ⟨b, byte, hr, hbyte, hlt, hr'⟩ := of_copy_round_ok hhead (by omega) hround
      refine ⟨_, hr', ?_⟩
      rw [List.take_add_one, List.take_add_one, hbyte, List.getElem?_set_self hlt,
        List.take_set_of_le (Nat.le_refl i)]
      rcases Nat.eq_zero_or_pos i with rfl | hpos
      · rfl
      · obtain ⟨b', hb', htake⟩ := hinv hpos
        rw [hr, Option.some.injEq] at hb'
        rw [hb', htake]
  exact hend hpos

/-- The length `WrapSendData` works with. -/
theorem wrap_length {body : List UInt8} {length : Int32} (hlength : length = 0 ∨ length = Int32.ofNat body.length) :
    (if 0 < length then length else Int32.ofNat body.length) = Int32.ofNat body.length := by
  rcases hlength with rfl | rfl
  · rfl
  · rw [ite_self]

/-- **What `WrapSendData` returns**, when it returns: head and body. -/
theorem of_WrapSendData_ok {A : Allocator σ} {body : List UInt8} (hpos : 1 ≤ body.length)
    (hle : body.length ≤ 65525) {length : Int32}
    (hlength : length = 0 ∨ length = Int32.ofNat body.length) {s s' : client_state σ}
    {db : DataBlock} (h : exec (WrapSendData A body length) s = (.ok db, s')) :
    ∃ b, db.data = some b ∧
      b.cells.take db.length.toNatClampNeg =
        head_bytes (UInt32.ofNat body.length) TcpContentHead.COMMON_CMD
          (nextSeq s.client._sendSeq) ++ body := by
  have harr : (Int32.ofNat TcpContentHead.HEAD_SIZE +
      (UInt32.ofNat body.length).toInt32).toNatClampNeg = 11 + body.length := by
    have hlen : (UInt32.ofNat body.length).toInt32 = Int32.ofNat body.length := rfl
    have hsum : Int32.ofNat TcpContentHead.HEAD_SIZE + Int32.ofNat body.length =
        Int32.ofNat (11 + body.length) := (Int32.ofNat_add 11 body.length).symm
    rw [hlen, hsum, toNatClampNeg_ofNat (by omega)]
  unfold WrapSendData at h
  rw [wrap_length hlength, Int32.toUInt32_ofNat', exec_get_bind, exec_set_bind] at h
  obtain ⟨newRet, s₁, -, h⟩ := of_exec_bind_eq_ok h
  obtain ⟨newRet', s₂, hcopied, h⟩ := of_exec_bind_eq_ok h
  rw [exec_pure] at h
  rw [exec_of] at hcopied
  rw [harr] at hcopied
  rcases hloop : exec (for_loop (copy_round (head_bytes (UInt32.ofNat body.length)
    TcpContentHead.COMMON_CMD (nextSeq s.client._sendSeq)) body) (11 + body.length) 0) newRet with
    ⟨_ | _, copied⟩
  · rw [hloop] at hcopied
    simp [Except.map] at hcopied
  · rw [hloop] at hcopied
    obtain ⟨b, hb, htake⟩ := of_copy_loop_ok rfl (by omega) (by omega) hloop
    have hnew : newRet' = copied := by
      have hok := (Prod.mk.inj hcopied).1
      simpa [Except.map] using hok.symm
    have hdb : db = ⟨newRet', Int32.ofNat TcpContentHead.HEAD_SIZE +
        (UInt32.ofNat body.length).toInt32⟩ := by
      simpa using (Prod.mk.inj h).1.symm
    refine ⟨b, ?_, ?_⟩
    · rw [hdb, hnew, hb]
    · rw [hdb, harr, htake, List.take_of_length_le]
      rw [List.length_append]
      exact Nat.le_refl _

/-! ### The client's frame at the proxy -/

/-- `unpack_head` and `pick_a_entire_msg` read length, command, number and body
    off the frame. -/
structure ProxyReads (frame body : List UInt8) (cmd : UInt16) (seq : UInt32) : Prop where
  len : (protocol_head.unpack_head frame).len.toNat = body.length
  cmd : (protocol_head.unpack_head frame).get_cmd = cmd
  seq : (protocol_head.unpack_head frame).seq = seq
  body : (protocol_head.format.firstFrame frame).2 = body

/-- The proxy reads the upper half of the client's length, which is zero. -/
theorem unpack_head_of_client {n : Nat} (hn : n < 65536) (cmd : UInt16) (seq : UInt32)
    (body : List UInt8) :
    (protocol_head.unpack_head (head_bytes (UInt32.ofNat n) cmd seq ++ body)).len = 0 := by
  have hhigh : ∀ k : UInt32, 16 ≤ k.toNat → k.toNat < 32 →
      ((UInt32.ofNat n >>> k) &&& 0xFF).toUInt8 = 0 := by
    intro k hk hk32
    have hzero : UInt32.ofNat n >>> k = 0 := by
      apply UInt32.toNat_inj.mp
      have hsize : n < UInt32.size := by
        show n < 4294967296
        omega
      rw [UInt32.toNat_shiftRight, UInt32.toNat_ofNat_of_lt' hsize, Nat.mod_eq_of_lt hk32,
        Nat.shiftRight_eq_div_pow]
      apply Nat.div_eq_of_lt
      exact Nat.lt_of_lt_of_le hn (Nat.pow_le_pow_right Nat.two_pos hk)
    rw [hzero]
    rfl
  show of_host_uint16 ((UInt32.ofNat n >>> 24) &&& 0xFF).toUInt8
    ((UInt32.ofNat n >>> 16) &&& 0xFF).toUInt8 = 0
  rw [hhigh 24 (by decide) (by decide), hhigh 16 (by decide) (by decide)]
  rfl

/-! ### The proxy's frame at the client -/

/-- The four bytes the client takes for the length hold length and mask. -/
theorem decode_head_len (h : protocol_head) :
    (decode_head h.bytes).len.toNat = h.len.toNat + 65536 * h.mask.toNat := by
  have hlen := h.len.toNat_lt
  have hmask := h.mask.toNat_lt
  show (of_host_uint32 (UInt8.ofNat (h.len.toNat % 256)) (UInt8.ofNat (h.len.toNat / 256))
    (UInt8.ofNat (h.mask.toNat % 256)) (UInt8.ofNat (h.mask.toNat / 256))).toNat = _
  simp only [of_host_uint32, UInt32.toNat_ofNat', UInt8.toNat_ofNat']
  omega

theorem decode_head_cmd (h : protocol_head) : (decode_head h.bytes).cmd = h.cmd_compressed_flag :=
  of_host_uint16_host h.cmd_compressed_flag

theorem decode_head_seq (h : protocol_head) : (decode_head h.bytes).seq = h.seq :=
  of_host_uint32_host h.seq

/-- The command is the whole flag word when the compression bit is clear. -/
theorem get_cmd_eq_flag_iff (h : protocol_head) :
    h.cmd_compressed_flag = h.get_cmd ↔ h.get_compressed = false := by
  have hlt := h.cmd_compressed_flag.toNat_lt
  have hcmd : h.get_cmd.toNat = h.cmd_compressed_flag.toNat % 32768 := by
    rw [protocol_head.get_cmd, UInt16.toNat_and]
    exact Nat.and_two_pow_sub_one_eq_mod h.cmd_compressed_flag.toNat 15
  have hbit : (h.cmd_compressed_flag >>> 15).toNat = h.cmd_compressed_flag.toNat / 32768 := by
    rw [UInt16.toNat_shiftRight, Nat.shiftRight_eq_div_pow]
    rfl
  rw [protocol_head.get_compressed, bne_eq_false_iff_eq, ← UInt16.toNat_inj, ← UInt16.toNat_inj,
    hcmd, hbit, UInt16.toNat_zero]
  omega

/-- `Recv` decodes a proxy head exactly when its mask is zero and its compression
    bit is clear. -/
theorem decode_head_iff (h : protocol_head) :
    decode_head h.bytes = ⟨h.len.toUInt32, h.get_cmd, h.seq⟩ ↔
      h.mask = 0 ∧ h.get_compressed = false := by
  have hlen : (decode_head h.bytes).len = h.len.toUInt32 ↔ h.mask = 0 := by
    rw [← UInt32.toNat_inj, ← UInt16.toNat_inj, decode_head_len, UInt16.toNat_toUInt32,
      UInt16.toNat_zero]
    omega
  rw [← hlen, ← get_cmd_eq_flag_iff, ← decode_head_cmd]
  constructor
  · intro heq
    rw [heq]
    exact ⟨rfl, rfl⟩
  · rintro ⟨hl, hc⟩
    have hs := decode_head_seq h
    rcases hd : decode_head h.bytes with ⟨len, cmd, seq⟩
    rw [hd] at hl hc hs
    rw [show len = h.len.toUInt32 from hl, show cmd = h.get_cmd from hc,
      show seq = h.seq from hs]

/-! ### Both directions -/

/-- **The two heads agree on no frame of the client, and on a frame of the proxy
    exactly when its mask is zero and it is not compressed.** -/
theorem heads_agree_iff (A : Allocator σ) (s : client_state σ) {body : List UInt8}
    (hpos : 1 ≤ body.length) (hle : body.length ≤ 65525) {length : Int32}
    (hlength : length = 0 ∨ length = Int32.ofNat body.length) {cmd : UInt16} (hcmd : cmd < 0x8000)
    (len : UInt16) (compressed : Bool) (seq : UInt32) :
    (¬∃ db s' b, exec (WrapSendData A body length) s = (.ok db, s') ∧ db.data = some b ∧
        ProxyReads (b.cells.take db.length.toNatClampNeg) body TcpContentHead.COMMON_CMD
          (nextSeq s.client._sendSeq)) ∧
      (decode_head (proto_mask.masked_head
          (protocol_head.get_a_head FRAME_KEY len 0 cmd compressed seq) body).bytes =
          ⟨len.toUInt32, cmd, seq⟩ ↔
        proto_mask.get_mask
            (protocol_head.get_a_head FRAME_KEY len 0 cmd compressed seq).bytes body = 0 ∧
          compressed = false) := by
  constructor
  · rintro ⟨db, s', b, hrun, hb, hreads⟩
    obtain ⟨b', hb', hframe⟩ := of_WrapSendData_ok hpos hle hlength hrun
    obtain rfl : b = b' := Option.some.inj (hb.symm.trans hb')
    have hlen := hreads.len
    rw [hframe, unpack_head_of_client (by omega)] at hlen
    exact absurd hlen (by rw [UInt16.toNat_zero]; omega)
  · have hcmd' : cmd &&& 0x7FFF = cmd := by
      apply UInt16.toNat_inj.mp
      rw [UInt16.toNat_and]
      have hmod := Nat.and_two_pow_sub_one_eq_mod cmd.toNat 15
      have hlt : cmd.toNat < 32768 := UInt16.lt_iff_toNat_lt.mp hcmd
      rw [Nat.mod_eq_of_lt hlt] at hmod
      exact hmod
    have hiff := decode_head_iff (proto_mask.masked_head
      (protocol_head.get_a_head FRAME_KEY len 0 cmd compressed seq) body)
    rw [proto_mask.masked_head_get_cmd, proto_mask.masked_head_get_compressed,
      protocol_head.get_cmd_get_a_head, protocol_head.get_compressed_get_a_head, hcmd'] at hiff
    exact hiff

theorem heads_agree_a :
    (¬∃ db s' b, exec (WrapSendData Allocator.new_arrays [0x61] 1) ⟨make, 0⟩ = (.ok db, s') ∧
        db.data = some b ∧
        ProxyReads (b.cells.take db.length.toNatClampNeg) [0x61] TcpContentHead.COMMON_CMD
          (nextSeq make._sendSeq)) ∧
      (decode_head (proto_mask.masked_head
          (protocol_head.get_a_head FRAME_KEY 1 0 7 false 1) [0x61]).bytes = ⟨1, 7, 1⟩ ↔
        proto_mask.get_mask (protocol_head.get_a_head FRAME_KEY 1 0 7 false 1).bytes [0x61] = 0 ∧
          false = false) :=
  heads_agree_iff Allocator.new_arrays ⟨make, 0⟩ (show 1 ≤ [0x61].length by decide) (by decide)
    (Or.inr rfl) (by decide) 1 false 1

/-- A body of one byte: the client's frame announces no byte to the proxy, the
    proxy's frame announces more than one to the client. -/
theorem one_byte_not_understood :
    (exec (WrapSendData Allocator.new_arrays [0x61] 1) ⟨make, 0⟩).1.map
        (fun db => db.data.map fun b => (protocol_head.unpack_head b.cells).len) =
      .ok (some 0) ∧
    (decode_head (proto_mask.masked_head
      (protocol_head.get_a_head FRAME_KEY 1 0 7 false 1) [0x61]).bytes).len ≠ 1 := by
  decide +kernel

end SocketClient

end AsioNet.CsNetwork
