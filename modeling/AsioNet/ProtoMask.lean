import AsioNet.Library.OnesComplement
import AsioNet.Protocol

/-! # The frame mask (`proto_mask.hpp`)

    A sender stores the complement of the 16-bit one's-complement sum over head
    and body in the head's `mask` field, the receiver's sum over both must then
    complement to `0`. The source sums big-endian words in a 32-bit accumulator
    while the mask sits little-endian across two of these words, so its bytes
    still contribute exactly its value.
-/

namespace AsioNet

open OnesComplement

namespace proto_mask

/-- The loop of `mask_off_32` over the octets. -/
def mask_words : List UInt8 → UInt32 → UInt32
  | a :: b :: rest, acc => mask_words rest (acc + ((a.toUInt16 <<< 8) ||| b.toUInt16).toUInt32)
  | [a], acc => acc + (a.toUInt16 <<< 8).toUInt32
  | [], acc => acc

def mask_off_32 (dataptr : List UInt8) (acc : UInt32) : UInt32 :=
  let acc := mask_words dataptr acc
  -- add deferred carry bits
  let acc := (acc >>> 16) + (acc &&& 0x0000ffff)
  if (acc &&& (0xffff0000 : UInt32)) != 0 then (acc >>> 16) + (acc &&& 0x0000ffff) else acc

def get_mask (head data : List UInt8) : UInt16 :=
  let inverseMask := mask_off_32 head 0
  let inverseMask := mask_off_32 data inverseMask
  (~~~(inverseMask &&& 0xffff)).toUInt16

/-! ### The accumulator never overflows -/

theorem toNat_word (a b : UInt8) :
    ((a.toUInt16 <<< 8) ||| b.toUInt16).toUInt32.toNat = 256 * a.toNat + b.toNat := by
  have ha := a.toNat_lt
  have hb := b.toNat_lt
  -- the two bytes of a word share no bit
  have hor := Nat.shiftLeft_add_eq_or_of_lt (i := 8) hb a.toNat
  rw [Nat.shiftLeft_eq] at hor
  simp only [UInt16.toNat_toUInt32, UInt16.toNat_or, UInt16.toNat_shiftLeft, UInt8.toNat_toUInt16]
  have h8 : UInt16.toNat 8 % 16 = 8 := rfl
  rw [h8, Nat.shiftLeft_eq, Nat.mod_eq_of_lt (by omega), ← hor]
  omega

theorem toNat_high (a : UInt8) : (a.toUInt16 <<< 8).toUInt32.toNat = 256 * a.toNat := by
  have h := toNat_word a 0
  simpa using h

theorem toNat_mask_words (bs : List UInt8) (acc : UInt32)
    (h : acc.toNat + wordSum bs < 2 ^ 32) :
    (mask_words bs acc).toNat = acc.toNat + wordSum bs := by
  fun_induction wordSum bs generalizing acc with
  | case1 a b rest ih =>
    have hadd : (acc + ((a.toUInt16 <<< 8) ||| b.toUInt16).toUInt32).toNat =
        acc.toNat + (256 * a.toNat + b.toNat) := by
      rw [UInt32.toNat_add, toNat_word, Nat.mod_eq_of_lt (by omega)]
    rw [mask_words, ih _ (by omega), hadd]
    omega
  | case2 a => rw [mask_words, UInt32.toNat_add, toNat_high, Nat.mod_eq_of_lt (by omega)]
  | case3 => rfl

theorem toNat_carry (x : UInt32) :
    ((x >>> 16) + (x &&& 0x0000ffff)).toNat = x.toNat / 65536 + x.toNat % 65536 := by
  have hx := x.toNat_lt
  have hshift : (x >>> 16).toNat = x.toNat / 65536 := by
    simp [UInt32.toNat_shiftRight, Nat.shiftRight_eq_div_pow]
  have hand : (x &&& 0x0000ffff).toNat = x.toNat % 65536 := by
    rw [UInt32.toNat_and]
    exact Nat.and_two_pow_sub_one_eq_mod x.toNat 16
  rw [UInt32.toNat_add, hshift, hand, Nat.mod_eq_of_lt (by omega)]

theorem carry_test (x : UInt32) :
    ((x &&& (0xffff0000 : UInt32)) != 0) = decide (65536 ≤ x.toNat) := by
  have hsplit : (x &&& (0xffff0000 : UInt32)).toNat = 65536 * (x.toNat / 65536) := by
    have hx := x.toNat_lt
    -- the mask keeps the upper half, as shifting down and up again does
    have hmask : (x &&& (0xffff0000 : UInt32)) = (x >>> 16) <<< 16 := by
      apply UInt32.toBitVec_inj.mp
      apply BitVec.eq_of_getLsbD_eq
      intro i hi
      interval_cases i <;> simp
    rw [hmask, UInt32.toNat_shiftLeft, UInt32.toNat_shiftRight]
    have h16 : UInt32.toNat 16 % 32 = 16 := rfl
    rw [h16, Nat.shiftRight_eq_div_pow, Nat.shiftLeft_eq]
    omega
  have hzero : (x &&& (0xffff0000 : UInt32)) = 0 ↔ (x &&& (0xffff0000 : UInt32)).toNat = 0 :=
    ⟨fun h => by rw [h]; rfl, fun h => UInt32.toNat_inj.mp h⟩
  rw [bne, Bool.eq_iff_iff]
  simp only [Bool.not_eq_true', beq_eq_false_iff_ne, ne_eq, decide_eq_true_eq, hzero, hsplit]
  omega

/-- `mask_off_32` is the folded sum of the words. -/
theorem toNat_mask_off_32 (bs : List UInt8) (acc : UInt32)
    (h : acc.toNat + wordSum bs < 2 ^ 32) :
    (mask_off_32 bs acc).toNat = fold (acc.toNat + wordSum bs) := by
  have hsum := toNat_mask_words bs acc h
  have hcarry := toNat_carry (mask_words bs acc)
  rw [hsum] at hcarry
  simp only [mask_off_32, fold, carry_test, decide_eq_true_eq, hcarry]
  -- the second carry is added only when the first one made one
  by_cases hbig : 65536 ≤ (acc.toNat + wordSum bs) / 65536 + (acc.toNat + wordSum bs) % 65536
  · rw [if_pos hbig, if_neg (by omega), toNat_carry, hcarry]
  · rw [if_neg hbig, if_pos (by omega), hcarry]

/-- The sums of a head and a body of at most 64 KiB stay far below `2 ^ 32`. -/
theorem wordSum_lt {bs : List UInt8} (h : bs.length ≤ 65536) : wordSum bs < 2 ^ 32 - 2 ^ 17 := by
  have := wordSum_le bs
  omega

theorem toNat_get_mask {head data : List UInt8} (hh : head.length ≤ 65536)
    (hd : data.length ≤ 65536) :
    (get_mask head data).toNat = 65535 - fold (fold (wordSum head) + wordSum data) := by
  have hh' := wordSum_lt hh
  have hd' := wordSum_lt hd
  have h₁ : (mask_off_32 head 0).toNat = fold (wordSum head) := by
    have h := toNat_mask_off_32 head 0 (by rw [UInt32.toNat_zero]; omega)
    simpa using h
  have hle := fold_le (x := wordSum head) (by omega)
  have h₂ : (mask_off_32 data (mask_off_32 head 0)).toNat =
      fold (fold (wordSum head) + wordSum data) := by
    rw [toNat_mask_off_32 data _ (by rw [h₁]; omega), h₁]
  have hle₂ := fold_le (x := fold (wordSum head) + wordSum data) (by omega)
  have hand : (mask_off_32 data (mask_off_32 head 0) &&& 0xffff).toNat =
      fold (fold (wordSum head) + wordSum data) := by
    rw [UInt32.toNat_and, h₂]
    have := Nat.and_two_pow_sub_one_eq_mod (fold (fold (wordSum head) + wordSum data)) 16
    rw [Nat.mod_eq_of_lt (by omega)] at this
    exact this
  simp only [get_mask, UInt32.toNat_toUInt16, UInt32.toNat_not, hand, UInt32.size]
  omega

/-! ### Signing and verifying -/

/-- The head a sender puts on the wire: `head` with the mask over it and `body`
    in place of its zero mask field. -/
def masked_head (head : protocol_head) (body : List UInt8) : protocol_head :=
  { head with mask := get_mask head.bytes body }

@[simp] theorem masked_head_len (head : protocol_head) (body : List UInt8) :
    (masked_head head body).len = head.len := rfl

@[simp] theorem masked_head_seq (head : protocol_head) (body : List UInt8) :
    (masked_head head body).seq = head.seq := rfl

@[simp] theorem masked_head_get_cmd (head : protocol_head) (body : List UInt8) :
    (masked_head head body).get_cmd = head.get_cmd := rfl

@[simp] theorem masked_head_get_compressed (head : protocol_head) (body : List UInt8) :
    (masked_head head body).get_compressed = head.get_compressed := rfl

/-- The head of a sender's first frame if it relays `body`. -/
def relayed_head (compressed : Bool) (body : List UInt8) : protocol_head :=
  masked_head (protocol_head.get_a_head FRAME_KEY (UInt16.ofNat body.length) 0
    protocol_cmd.Commands_RoutingTransparent.val compressed 1) body

theorem relayed_head_get_cmd (compressed : Bool) (body : List UInt8) :
    (relayed_head compressed body).get_cmd = protocol_cmd.Commands_RoutingTransparent.val := by
  unfold relayed_head
  rw [masked_head_get_cmd, protocol_head.get_cmd_get_a_head]
  rfl

/-- Head and body of a frame are determined by its bytes. -/
theorem frame_injective {h h' : protocol_head} {b b' : List UInt8}
    (heq : h.bytes ++ b = h'.bytes ++ b') : h = h' ∧ b = b' := by
  obtain ⟨hhead, hbody⟩ := List.append_inj heq (by simp)
  refine ⟨?_, hbody⟩
  rw [← protocol_head.unpack_head_bytes h, hhead, protocol_head.unpack_head_bytes]

/-- So are those of the last frame of a stream. -/
theorem last_frame_injective {h h' : protocol_head} {b b' : List UInt8} {frames : List (List UInt8)}
    (heq : frames ++ [h.bytes ++ b] = frames ++ [h'.bytes ++ b']) : h = h' ∧ b = b' :=
  frame_injective (List.singleton_inj.mp (List.append_cancel_left heq))

/-- The little-endian mask adds its value to the big-endian sum. -/
theorem wordSum_head_mask (head : protocol_head) (m : UInt16) (h : head.mask = 0) :
    wordSum { head with mask := m }.bytes = wordSum head.bytes + m.toNat := by
  have hm := m.toNat_lt
  have hlo : (UInt8.ofNat (m.toNat % 256)).toNat = m.toNat % 256 := by
    rw [UInt8.toNat_ofNat']; omega
  have hhi : (UInt8.ofNat (m.toNat / 256)).toNat = m.toNat / 256 := by
    rw [UInt8.toNat_ofNat']; omega
  have hzero : (UInt8.ofNat 0).toNat = 0 := rfl
  simp only [protocol_head.bytes, host_uint16, host_uint32, List.cons_append, List.nil_append,
    wordSum, h, hlo, hhi, UInt16.toNat_zero, Nat.zero_mod, Nat.zero_div, hzero]
  omega

/-- **A signed frame verifies.** Storing `get_mask` over a head with zero mask
    and a body of at most 64 KiB makes `get_mask` over the frame `0`. -/
theorem get_mask_masked_head (head : protocol_head) (body : List UInt8) (hm : head.mask = 0)
    (hb : body.length ≤ 65536) : get_mask (masked_head head body).bytes body = 0 := by
  have hlen : ∀ h : protocol_head, h.bytes.length ≤ 65536 := fun h => by
    rw [protocol_head.length_bytes]; decide
  have hb' := wordSum_lt hb
  have hh' := wordSum_lt (hlen head)
  have hsum := wordSum_head_mask head (get_mask head.bytes body) hm
  rw [toNat_get_mask (hlen head) hb] at hsum
  -- the mask is the complement of the fold over head and body, so the fold over
  -- the signed frame is 65535
  have hcomplement := fold_add_complement (h := wordSum head.bytes) (b := wordSum body)
    (by omega) (by omega)
  apply UInt16.toNat_inj.mp
  rw [toNat_get_mask (hlen _) hb]
  simp only [masked_head, hsum, hcomplement]
  rfl

/-! ### The accumulator on the way -/

/-- No addition of the loop of `mask_off_32` leaves 32 bits. -/
def NoOverflow : List UInt8 → UInt32 → Prop
  | a :: b :: rest, acc =>
    acc.toNat + ((a.toUInt16 <<< 8) ||| b.toUInt16).toUInt32.toNat < 2 ^ 32 ∧
      NoOverflow rest (acc + ((a.toUInt16 <<< 8) ||| b.toUInt16).toUInt32)
  | [a], acc => acc.toNat + (a.toUInt16 <<< 8).toUInt32.toNat < 2 ^ 32
  | [], _ => True

/-- A sum that fits at the end fits all the time. -/
theorem noOverflow_of_wordSum (bs : List UInt8) (acc : UInt32)
    (h : acc.toNat + wordSum bs < 2 ^ 32) : NoOverflow bs acc := by
  fun_induction wordSum bs generalizing acc with
  | case1 a b rest ih =>
    have hword := toNat_word a b
    have hadd : (acc + ((a.toUInt16 <<< 8) ||| b.toUInt16).toUInt32).toNat =
        acc.toNat + (256 * a.toNat + b.toNat) := by
      rw [UInt32.toNat_add, hword, Nat.mod_eq_of_lt (by omega)]
    refine ⟨by omega, ih _ ?_⟩
    rw [hadd]
    omega
  | case2 a =>
    show acc.toNat + (a.toUInt16 <<< 8).toUInt32.toNat < 2 ^ 32
    rw [toNat_high]
    exact h
  | case3 => trivial

/-- Two carries bring any accumulator back to 16 bits. -/
theorem toNat_mask_off_32_le (dataptr : List UInt8) (acc : UInt32) :
    (mask_off_32 dataptr acc).toNat ≤ 0xFFFF := by
  unfold mask_off_32
  generalize mask_words dataptr acc = x
  have hx := x.toNat_lt
  have hcarry := toNat_carry x
  simp only [carry_test, decide_eq_true_eq]
  split
  · -- the first carry made another one, which leaves little room below
    rw [toNat_carry, hcarry]
    omega
  · omega

/-- Summing a head and then a body of at most 64 KiB never overflows. -/
theorem noOverflow_frame {head data : List UInt8} (hh : head.length ≤ 65536)
    (hd : data.length ≤ 65536) :
    NoOverflow head 0 ∧ NoOverflow data (mask_off_32 head 0) := by
  have hh' := wordSum_lt hh
  have hd' := wordSum_lt hd
  have hle := toNat_mask_off_32_le head 0
  refine ⟨noOverflow_of_wordSum head 0 ?_, noOverflow_of_wordSum data _ (by omega)⟩
  rw [UInt32.toNat_zero]
  omega

/-- `m` stored in the `mask` field of the head at `head`: two bytes at offset 3. -/
def store_mask (head : List UInt8) (m : UInt16) : List UInt8 :=
  head.take 3 ++ host_uint16 m ++ head.drop 5

theorem store_mask_bytes (head : protocol_head) (m : UInt16) :
    store_mask head.bytes m = { head with mask := m }.bytes := rfl

/-- **Signing and verifying agree**, and no sum on the way is too large. -/
theorem sign_then_verify (head : protocol_head) (body : List UInt8) (hmask : head.mask = 0)
    (hbody : body.length ≤ 65536) :
    let signed := store_mask head.bytes (get_mask head.bytes body)
    get_mask signed body = 0 ∧
      (NoOverflow head.bytes 0 ∧ NoOverflow body (mask_off_32 head.bytes 0)) ∧
      (NoOverflow signed 0 ∧ NoOverflow body (mask_off_32 signed 0)) ∧
      ∀ dataptr acc, (mask_off_32 dataptr acc).toNat ≤ 0xFFFF := by
  intro signed
  have hlen : ∀ h : protocol_head, h.bytes.length ≤ 65536 := fun h => by
    rw [protocol_head.length_bytes]; decide
  have hsigned : signed = (masked_head head body).bytes := store_mask_bytes head _
  rw [hsigned]
  exact ⟨get_mask_masked_head head body hmask hbody, noOverflow_frame (hlen head) hbody,
    noOverflow_frame (hlen _) hbody, toNat_mask_off_32_le⟩

/-- A head that is all zeros, over a body of one byte. -/
theorem sign_then_verify_a :
    let head : protocol_head := ⟨0, 0, 0, 0, 0⟩
    get_mask (store_mask head.bytes (get_mask head.bytes [0x61])) [0x61] = 0 :=
  (sign_then_verify ⟨0, 0, 0, 0, 0⟩ [0x61] rfl (by decide)).1

/-! ### A corrupted byte -/

/-- A frame verifies exactly when the sum over head and body is a nonzero multiple of
    `65535`. -/
theorem get_mask_eq_zero_iff {head data : List UInt8} (hh : head.length ≤ 65536)
    (hd : data.length ≤ 65536) :
    get_mask head data = 0 ↔
      (wordSum head + wordSum data) % 65535 = 0 ∧ wordSum head + wordSum data ≠ 0 := by
  have hh' := wordSum_lt hh
  have hd' := wordSum_lt hd
  have hle := fold_le (x := wordSum head) (by omega)
  have hmod := fold_mod (wordSum head)
  have hzero := fold_eq_zero (wordSum head)
  have hmask := toNat_get_mask hh hd
  have hfold := fold_le (x := fold (wordSum head) + wordSum data) (by omega)
  have hmax := fold_eq_max_iff (x := fold (wordSum head) + wordSum data) (by omega)
  have heq : get_mask head data = 0 ↔ fold (fold (wordSum head) + wordSum data) = 65535 := by
    rw [← UInt16.toNat_inj, hmask, UInt16.toNat_zero]
    omega
  rw [heq, hmax]
  omega

/-- **A single corrupted byte is caught**, in the head or in the body. -/
theorem corrupted_byte_caught {head body : List UInt8} (hhead : head.length = PROTO_HEAD_SIZE)
    (hbody : body.length ≤ 65536) (hmask : get_mask head body = 0) :
    (∀ i, (hi : i < head.length) → ∀ b, b ≠ head[i] → get_mask (head.set i b) body ≠ 0) ∧
      ∀ i, (hi : i < body.length) → ∀ b, b ≠ body[i] → get_mask head (body.set i b) ≠ 0 := by
  have hsmall : head.length ≤ 65536 := by
    rw [hhead]
    decide
  obtain ⟨hdvd, -⟩ := (get_mask_eq_zero_iff hsmall hbody).mp hmask
  constructor
  · intro i hi b hb heq
    have hset : (head.set i b).length ≤ 65536 := by rwa [List.length_set]
    have hsum := ((get_mask_eq_zero_iff hset hbody).mp heq).1
    rw [Nat.add_comm] at hdvd hsum
    exact add_wordSum_set_mod hi hb hdvd hsum
  · intro i hi b hb heq
    have hset : (body.set i b).length ≤ 65536 := by rwa [List.length_set]
    exact add_wordSum_set_mod hi hb hdvd ((get_mask_eq_zero_iff hsmall hset).mp heq).1

/-- A byte of the mask field of a signed frame, and the odd last byte of its body. -/
theorem corrupted_byte_caught_a :
    let head := (masked_head ⟨0, 0, 0, 0, 0⟩ [0x61]).bytes
    get_mask (head.set 3 0) [0x61] ≠ 0 ∧ get_mask head [0x62] ≠ 0 := by
  intro head
  have hcaught := @corrupted_byte_caught head [0x61]
    (protocol_head.length_bytes _) (by decide) (get_mask_masked_head _ [0x61] rfl (by decide))
  exact ⟨hcaught.1 3 (by decide) 0 (by decide), hcaught.2 0 (by decide) 0x62 (by decide)⟩

/-! ### A head in front of a buffer's content -/

open ByteMemory reusabel_buffer

/-- The lines every `wrap_to_send_data` ends with: `head` is signed over the
    first `mask_length` bytes, copied to the start of the array, and the buffer
    grows by it. -/
def write_head (head : protocol_head) (mask_length : Nat) (buffer : once_buffer) :
    Checked once_buffer := do
  let data ← buffer.load (buffer.buffer 0) mask_length
  let buffer ← buffer.store (buffer.origin_buffer 0) (masked_head head data).bytes
  pure { buffer with
    offset := size_t_sub buffer.offset PROTO_HEAD_SIZE
    length := size_t_add buffer.length PROTO_HEAD_SIZE }

/-- The buffer with the signed head in front, when there was space for it. -/
def framed (head : protocol_head) (buffer : once_buffer) : once_buffer where
  offset := 0
  length := PROTO_HEAD_SIZE + buffer.length
  _buffer := write buffer._buffer 0 (masked_head head buffer.content).bytes

theorem write_head_eq (head : protocol_head) {buffer : once_buffer}
    (hoff : buffer.offset = PROTO_HEAD_SIZE)
    (hfit : PROTO_HEAD_SIZE + buffer.length ≤ ONCE_BUFFER_SIZE) :
    write_head head buffer.length buffer = .ok (framed head buffer) := by
  have hhead : PROTO_HEAD_SIZE ≤ ONCE_BUFFER_SIZE := by decide
  have hsmall : ONCE_BUFFER_SIZE < 2 ^ 64 := by decide
  rw [write_head, buffer_zero _ (by omega), hoff, load_of_le _ hfit, ok_bind,
    store_of_le _ (by rw [protocol_head.length_bytes, origin_buffer_eq]; omega), ok_bind,
    pure_eq_ok]
  simp only [hoff, origin_buffer_eq]
  rw [size_t_sub_of_le (Nat.le_refl _) (by omega), size_t_add_of_lt (by omega), Nat.sub_self,
    Nat.add_comm buffer.length]
  simp only [framed, content, hoff]

/-- The framed buffer holds the signed head and then the old content. -/
theorem content_framed (head : protocol_head) {buffer : once_buffer}
    (hoff : buffer.offset = PROTO_HEAD_SIZE) :
    (framed head buffer).content = (masked_head head buffer.content).bytes ++ buffer.content := by
  have hlen := protocol_head.length_bytes (masked_head head buffer.content)
  -- the head ends where the content starts
  have htail : read (framed head buffer)._buffer PROTO_HEAD_SIZE buffer.length = buffer.content := by
    rw [framed, read_write_of_disjoint _ _ _ _ _ (Or.inr (by omega)), content, hoff]
  have hhead : read (framed head buffer)._buffer 0 PROTO_HEAD_SIZE =
      (masked_head head buffer.content).bytes :=
    read_write_of_length buffer._buffer 0 _ _ hlen
  calc (framed head buffer).content
      = read (framed head buffer)._buffer 0 (PROTO_HEAD_SIZE + buffer.length) := rfl
    _ = (masked_head head buffer.content).bytes ++ buffer.content := by
        rw [read_add, hhead, Nat.zero_add, htail]

/-- Without space in front of the content the head overwrites it, and the offset
    wraps around. -/
theorem write_head_of_no_space (head : protocol_head) (buffer : once_buffer)
    (hoff : buffer.offset = 0) (hfit : buffer.length ≤ ONCE_BUFFER_SIZE) :
    ∃ b, write_head head buffer.length buffer = .ok b ∧ b.offset ≠ 0 := by
  rw [write_head, buffer_zero_of_eq hoff (Nat.zero_le _), load_of_le _ (by omega), ok_bind,
    store_of_le _ (by rw [protocol_head.length_bytes, origin_buffer_eq]; decide), ok_bind,
    pure_eq_ok]
  refine ⟨_, rfl, ?_⟩
  simp only [hoff]
  decide

@[simp] theorem framed_offset (head : protocol_head) (buffer : once_buffer) :
    (framed head buffer).offset = 0 := rfl

@[simp] theorem framed_length (head : protocol_head) (buffer : once_buffer) :
    (framed head buffer).length = PROTO_HEAD_SIZE + buffer.length := rfl

end proto_mask

end AsioNet
