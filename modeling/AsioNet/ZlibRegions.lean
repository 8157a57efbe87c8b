import AsioNet.BodyAccesses
import AsioNet.FailedWraps
import AsioNet.ProxySession

/-! # The output regions given to zlib (`client_session_logic.cpp`)

    The wrappers around zlib make space for more output with `resize`, which for a
    pooled buffer only sets the length. The regions they go on to give to `deflate` and
    `inflate` end where the bytes to put out say, not where the array ends:
    `regions_inside_iff` has the bounds on these that keep the regions inside.
-/

namespace AsioNet

open ByteMemory reusabel_buffer proto_mask Traced

/-- A region for output lies in the array. -/
def access.Inside : access → Prop
  | .output pos n => pos + n ≤ ONCE_BUFFER_SIZE
  | .read .. => True
  | .write .. => True
  | .sub .. => True

/-- Where the last region ends if regions of `step` bytes are given from `start` on
    until one is left with space. -/
def regions_end (start step produced : Nat) : Nat := start + step * (produced / step + 1)

theorem regions_end_of_lt (start : Nat) {step produced : Nat} (h : produced < step) :
    regions_end start step produced = start + step := by
  unfold regions_end
  rw [Nat.div_eq_of_lt h, Nat.zero_add, Nat.mul_one]

/-- One region is full. -/
theorem regions_end_of_le (start : Nat) {step produced : Nat} (hpos : 0 < step)
    (h : step ≤ produced) :
    regions_end start step produced = regions_end (start + step) step (produced - step) := by
  unfold regions_end
  rw [Nat.div_eq_sub_div hpos h, Nat.mul_add step (_ + 1), Nat.mul_one]
  omega

theorem add_le_regions_end (start step produced : Nat) :
    start + step ≤ regions_end start step produced := by
  unfold regions_end
  have hstep : step * 1 ≤ step * (produced / step + 1) :=
    Nat.mul_le_mul_left _ (Nat.succ_le_succ (Nat.zero_le _))
  omega

/-! ### What `compress` gives to `deflate` -/

namespace gzip

/-- The loop of `compress`; `deflate` is given the region before it puts out. -/
def traced_compress_loop (size : Nat) (output : once_buffer) (size_compressed : Nat)
    (rest : List UInt8) : Traced access fault once_buffer := do
  let increase := size / 2 + 1024
  let output := grow output (size_compressed + increase)
  let output ← act (.output (output.buffer 0 + size_compressed) increase)
    (output.store (output.buffer 0 + size_compressed) (rest.take increase))
  if _h : increase ≤ rest.length then
    traced_compress_loop size output (size_compressed + increase) (rest.drop increase)
  else
    pure (output.resize (size_compressed + rest.length))
termination_by rest.length
decreasing_by
  simp only [List.length_drop]
  omega

def traced_compress (z : zlib) (output src : once_buffer) (data size : Nat) :
    Traced access fault (Option once_buffer) := do
  if size > 2000000000 then
    pure none
  else
    let input ← lift (src.load data size)
    match z.deflate input with
    | none => pure none
    | some stream => do
      let output ← traced_compress_loop size output 0 stream
      pure (some output)

theorem result_traced_compress_loop (size : Nat) (output : once_buffer) (size_compressed : Nat)
    (rest : List UInt8) :
    (traced_compress_loop size output size_compressed rest).result =
      compress_loop size output size_compressed rest := by
  rw [traced_compress_loop, compress_loop, result_bind, result_act]
  congr 1
  funext output'
  split
  · exact result_traced_compress_loop ..
  · rfl
termination_by rest.length
decreasing_by
  simp only [List.length_drop]
  omega

theorem result_traced_compress (z : zlib) (output src : once_buffer) (data size : Nat) :
    (traced_compress z output src data size).result = compress z output src data size := by
  unfold traced_compress compress
  rw [result_ite]
  split
  · rfl
  · rw [result_bind, result_lift]
    congr 1
    funext input
    cases z.deflate input with
    | none => rfl
    | some stream =>
      simp only [result_bind, result_traced_compress_loop, result_pure, pure_eq_ok]

end gzip

namespace client_session_logic

def traced_compress_to_send (z : zlib) (stale : Nat → UInt8) (buffer : once_buffer) :
    Traced access fault (Option (once_buffer × Bool)) := do
  if buffer.length > K_SIZE_COMPRESS then
    match ← gzip.traced_compress z (TEMP_BUFFER stale) buffer (buffer.buffer 0) buffer.length with
    | none => pure none
    | some compress_ret =>
      if compress_ret.length = 0 then
        pure none
      else if compress_ret.length < buffer.length then
        pure (some (compress_ret, true))
      else
        pure (some (buffer, false))
  else
    pure (some (buffer, false))

def traced_wrap_to_send_data (z : zlib) (stale : Nat → UInt8) (l : client_session_logic)
    (buffer : once_buffer) : Traced access fault once_buffer := do
  match ← traced_compress_to_send z stale buffer with
  | none => pure buffer
  | some (buffer, compressed) =>
    let buffer ← lift (l.crypt buffer buffer.length true)
    let buffer ← lift (write_head (l.head_to_send buffer.length compressed) buffer.length buffer)
    if buffer.offset ≠ 0 then
      lift (throw .assertion_failed)
    else
      pure buffer

theorem result_traced_compress_to_send (z : zlib) (stale : Nat → UInt8) (buffer : once_buffer) :
    (traced_compress_to_send z stale buffer).result = compress_to_send z stale buffer := by
  unfold traced_compress_to_send compress_to_send
  rw [result_ite]
  split
  · rw [result_bind, gzip.result_traced_compress]
    congr 1
    funext compressed
    cases compressed with
    | none => rfl
    | some compress_ret => simp only [result_ite, result_pure, pure_eq_ok]
  · rfl

theorem result_traced_wrap_to_send_data (z : zlib) (stale : Nat → UInt8)
    (l : client_session_logic) (buffer : once_buffer) :
    (l.traced_wrap_to_send_data z stale buffer).result = l.wrap_to_send_data z stale buffer := by
  unfold traced_wrap_to_send_data wrap_to_send_data
  rw [result_bind, result_traced_compress_to_send]
  congr 1
  funext to_send
  cases to_send with
  | none => rfl
  | some to_send =>
    simp only [result_bind, result_lift, result_ite, result_pure, pure_eq_ok]

end client_session_logic

namespace gzip

/-- What is put out into a region inside is stored there. -/
theorem exists_store (output : once_buffer) {pos n : Nat} (rest : List UInt8)
    (hin : pos + n ≤ ONCE_BUFFER_SIZE) :
    ∃ stored, output.store pos (rest.take n) = .ok stored ∧ stored.offset = output.offset := by
  have hfit : pos + (rest.take n).length ≤ ONCE_BUFFER_SIZE := by
    rw [List.length_take]
    omega
  exact ⟨_, store_of_le output hfit, rfl⟩

/-- The regions given to `deflate` lie in the array exactly if the last one does. -/
theorem inside_compress_loop (size : Nat) {output : once_buffer} (size_compressed : Nat)
    (rest : List UInt8) (hoff : output.offset = 0) :
    Always access.Inside (traced_compress_loop size output size_compressed rest) ↔
      regions_end size_compressed (size / 2 + 1024) rest.length ≤ ONCE_BUFFER_SIZE := by
  have hzero : (grow output (size_compressed + (size / 2 + 1024))).buffer 0 = 0 :=
    buffer_zero_of_eq ((grow_offset _ _).trans hoff) (Nat.zero_le _)
  have hlast := add_le_regions_end size_compressed (size / 2 + 1024) rest.length
  rw [traced_compress_loop]
  simp only [hzero, Nat.zero_add]
  by_cases hin : size_compressed + (size / 2 + 1024) ≤ ONCE_BUFFER_SIZE
  · obtain ⟨stored, hstore, hoff'⟩ :=
      exists_store (grow output (size_compressed + (size / 2 + 1024))) rest hin
    rw [always_bind_of_ok hstore, always_act]
    by_cases hfull : size / 2 + 1024 ≤ rest.length
    · rw [dif_pos hfull,
        inside_compress_loop size _ _ (hoff'.trans ((grow_offset _ _).trans hoff)),
        List.length_drop, ← regions_end_of_le _ (by omega) hfull]
      exact and_iff_right_of_imp fun _ => hin
    · rw [dif_neg hfull, regions_end_of_lt _ (Nat.not_le.mp hfull)]
      exact and_iff_left (always_pure _)
  · rw [always_bind, always_act]
    refine ⟨fun h => absurd h.1 hin, fun h => absurd (Nat.le_trans hlast h) hin⟩
termination_by rest.length
decreasing_by
  simp only [List.length_drop]
  omega

/-! ### What `decompress` gives to `inflate` -/

/-- The regions given to `inflate` lie in the array exactly if the last one does, when
    there is no error in the data. -/
theorem inside_decompress_loop {size : Nat} (hpos : size ≠ 0) (hsize : size ≤ ONCE_BUFFER_SIZE)
    (output : once_buffer) (size_uncompressed : Nat) (rest : List UInt8) {ret : inflate_ret}
    (hret : ret ≠ .Z_DATA_ERROR) (hoff : output.offset ≤ ONCE_BUFFER_SIZE)
    (hmax : size_uncompressed + 2 * size ≤ 1000000000) :
    Always access.Inside (traced_decompress_loop size output size_uncompressed rest ret) ↔
      regions_end (output.offset + size_uncompressed) (2 * size) rest.length ≤
        ONCE_BUFFER_SIZE := by
  have hbytes : ONCE_BUFFER_SIZE = 65536 := rfl
  have hzero : (output.resize (size_uncompressed + 2 * size)).buffer 0 = output.offset :=
    buffer_zero_of_eq rfl hoff
  have hlast := add_le_regions_end (output.offset + size_uncompressed) (2 * size) rest.length
  rw [traced_decompress_loop, if_neg (Nat.not_lt.mpr hmax)]
  simp only [hzero]
  rw [always_bind_of_ok (a := ()) rfl, always_act]
  by_cases hin : output.offset + size_uncompressed + 2 * size ≤ ONCE_BUFFER_SIZE
  · obtain ⟨stored, hstore, hoff'⟩ :=
      exists_store (output.resize (size_uncompressed + 2 * size)) rest hin
    replace hoff' : stored.offset = output.offset := hoff'
    rw [always_bind_of_ok ((access.result_store ..).trans hstore), access.always_store,
      if_neg (fun h => hret h.2)]
    by_cases hfull : 2 * size ≤ rest.length
    · rw [dif_pos hfull, dif_neg hpos, inside_decompress_loop hpos hsize _ _ _ hret
        (by omega) (by omega), List.length_drop, hoff', ← Nat.add_assoc,
        regions_end_of_le _ (by omega) hfull]
      exact ⟨fun h => h.2.2, fun h => ⟨hin, trivial, h⟩⟩
    · rw [dif_neg hfull, regions_end_of_lt _ (Nat.not_le.mp hfull)]
      exact ⟨fun h => h.1, fun h => ⟨h, trivial, always_pure _⟩⟩
  · refine ⟨fun h => absurd h.1 hin, fun h => absurd (Nat.le_trans hlast h) hin⟩
termination_by rest.length
decreasing_by
  simp only [List.length_drop]
  omega

/-- What is put out lies in the regions, so that it fits when they do. -/
theorem fits_of_inside {size : Nat} (hpos : size ≠ 0) (hsize : size ≤ ONCE_BUFFER_SIZE)
    (output : once_buffer) (size_uncompressed : Nat) (rest : List UInt8) {ret : inflate_ret}
    (hoff : output.offset ≤ ONCE_BUFFER_SIZE) (hmax : size_uncompressed + 2 * size ≤ 1000000000)
    (h : Always access.Inside (traced_decompress_loop size output size_uncompressed rest ret)) :
    output.offset + size_uncompressed + rest.length ≤ ONCE_BUFFER_SIZE := by
  have hbytes : ONCE_BUFFER_SIZE = 65536 := rfl
  have hzero : (output.resize (size_uncompressed + 2 * size)).buffer 0 = output.offset :=
    buffer_zero_of_eq rfl hoff
  rw [traced_decompress_loop, if_neg (Nat.not_lt.mpr hmax)] at h
  simp only [hzero] at h
  rw [always_bind_of_ok (a := ()) rfl, always_act] at h
  obtain ⟨hin, h⟩ := h
  replace hin : output.offset + size_uncompressed + 2 * size ≤ ONCE_BUFFER_SIZE := hin
  by_cases hlast : rest.length ≤ 2 * size
  · omega
  · obtain ⟨stored, hstore, hoff'⟩ :=
      exists_store (output.resize (size_uncompressed + 2 * size)) rest hin
    replace hoff' : stored.offset = output.offset := hoff'
    rw [always_bind_of_ok ((access.result_store ..).trans hstore), access.always_store,
      if_neg (fun h => hlast h.1), dif_pos (by omega), dif_neg hpos] at h
    have hrest := fits_of_inside hpos hsize stored _ _ (by omega) (by omega) h.2
    rw [List.length_drop] at hrest
    omega
termination_by rest.length
decreasing_by
  simp only [List.length_drop]
  omega

/-- An error in the data is noticed when everything before it was put out. -/
theorem decompress_loop_data_error {size : Nat} (hpos : size ≠ 0)
    (hsize : size ≤ ONCE_BUFFER_SIZE) (output : once_buffer) (size_uncompressed : Nat)
    (rest : List UInt8)
    (hfit : output.offset + size_uncompressed + rest.length ≤ ONCE_BUFFER_SIZE)
    (hmax : size_uncompressed + 2 * size ≤ 1000000000) :
    decompress_loop size output size_uncompressed rest .Z_DATA_ERROR = .ok none := by
  have hbytes : ONCE_BUFFER_SIZE = 65536 := rfl
  have hzero : (output.resize (size_uncompressed + 2 * size)).buffer 0 = output.offset :=
    buffer_zero_of_eq rfl (by omega)
  rw [decompress_loop, if_neg (Nat.not_lt.mpr hmax)]
  simp only [hzero]
  rw [store_of_le _ (by rw [List.length_take]; omega), ok_bind]
  by_cases hlast : rest.length ≤ 2 * size
  · rw [if_pos ⟨hlast, trivial⟩, pure_eq_ok]
  · rw [if_neg (fun h => hlast h.1), dif_pos (by omega), dif_neg hpos]
    apply decompress_loop_data_error hpos hsize
    · simp only [resize, List.length_drop]
      omega
    · omega
termination_by rest.length
decreasing_by
  simp only [List.length_drop]
  omega

/-- Only such an error makes the loop throw, once everything is stored. -/
theorem data_error_of_decompress_loop {size : Nat} (hpos : size ≠ 0)
    (hsize : size ≤ ONCE_BUFFER_SIZE) (output : once_buffer) (size_uncompressed : Nat)
    (rest : List UInt8) {ret : inflate_ret} (hoff : output.offset ≤ ONCE_BUFFER_SIZE)
    (hmax : size_uncompressed + 2 * size ≤ 1000000000)
    (h : decompress_loop size output size_uncompressed rest ret = .ok none) :
    ret = .Z_DATA_ERROR ∧
      output.offset + size_uncompressed + rest.length ≤ ONCE_BUFFER_SIZE := by
  have hbytes : ONCE_BUFFER_SIZE = 65536 := rfl
  have hzero : (output.resize (size_uncompressed + 2 * size)).buffer 0 = output.offset :=
    buffer_zero_of_eq rfl hoff
  rw [decompress_loop, if_neg (Nat.not_lt.mpr hmax)] at h
  simp only [hzero] at h
  obtain ⟨stored, hstore, h⟩ := bind_eq_ok.mp h
  obtain ⟨hin, rfl⟩ := store_eq_ok hstore
  rw [List.length_take] at hin
  by_cases hlast : rest.length ≤ 2 * size ∧ ret = .Z_DATA_ERROR
  · exact ⟨hlast.2, by omega⟩
  rw [if_neg hlast] at h
  by_cases hfull : 2 * size ≤ rest.length
  · rw [dif_pos hfull, dif_neg hpos] at h
    obtain ⟨hret, hfit⟩ := data_error_of_decompress_loop hpos hsize _ _ _ (by exact hoff)
      (by omega) h
    simp only [resize, List.length_drop] at hfit
    exact ⟨hret, by omega⟩
  · rw [dif_neg hfull] at h
    cases h
termination_by rest.length
decreasing_by
  simp only [List.length_drop]
  omega

/-- What `decompress` gives to `inflate` lies in an array that has space for all that is
    put out before an error, or else for the last region too. -/
def InflateFits (start size : Nat) (run : inflate_run) : Prop :=
  if run.ret = .Z_DATA_ERROR then start + run.output.length ≤ ONCE_BUFFER_SIZE
  else regions_end start (2 * size) run.output.length ≤ ONCE_BUFFER_SIZE

instance (start size : Nat) (run : inflate_run) : Decidable (InflateFits start size run) := by
  unfold InflateFits
  infer_instance

/-- The regions are inside, or the loop throws before anything outside is touched. -/
theorem inside_or_throws_iff {size : Nat} (hpos : size ≠ 0) (hsize : size ≤ ONCE_BUFFER_SIZE)
    {output : once_buffer} (hoff : output.offset ≤ ONCE_BUFFER_SIZE) (run : inflate_run) :
    (Always access.Inside (traced_decompress_loop size output 0 run.output run.ret) ∨
      decompress_loop size output 0 run.output run.ret = .ok none) ↔
      InflateFits output.offset size run := by
  have hbytes : ONCE_BUFFER_SIZE = 65536 := rfl
  unfold InflateFits
  split
  · next hret =>
    constructor
    · rintro (hinside | hthrows)
      · exact fits_of_inside hpos hsize _ _ _ hoff (by omega) hinside
      · exact (data_error_of_decompress_loop hpos hsize _ _ _ hoff (by omega) hthrows).2
    · intro hfit
      rw [hret]
      exact Or.inr (decompress_loop_data_error hpos hsize _ _ _ hfit (by omega))
  · next hret =>
    have hinside := inside_decompress_loop hpos hsize output 0 run.output hret hoff (by omega)
    rw [Nat.add_zero] at hinside
    rw [← hinside]
    constructor
    · rintro (h | hthrows)
      · exact h
      · exact absurd (data_error_of_decompress_loop hpos hsize _ _ _ hoff (by omega) hthrows).1
          hret
    · exact Or.inl

end gzip

namespace client_session_logic

/-- In `unwrap_received_data` zlib is given regions of the array only, or the frame is
    dropped before anything outside is touched. -/
def UnwrapInside (z : zlib) (l : client_session_logic) (buffer : once_buffer)
    (head : protocol_head) (ret_block : once_buffer) : Prop :=
  Always access.Inside (l.traced_unwrap_received_data z buffer head ret_block) ∨
    ∃ r, l.unwrap_received_data z buffer head ret_block = .ok r ∧ r.accepted = false

/-- In `wrap_to_send_data` zlib is given regions of the array only, or it returns early
    before anything outside is touched. -/
def WrapInside (z : zlib) (stale : Nat → UInt8) (l : client_session_logic)
    (buffer : once_buffer) : Prop :=
  Always access.Inside (l.traced_wrap_to_send_data z stale buffer) ∨
    compress_to_send z stale buffer = .ok none

/-- `buffer` with its body decrypted in place. -/
def decrypted_block (l : client_session_logic) (buffer : once_buffer) (body : List UInt8) :
    once_buffer :=
  { buffer with _buffer := write buffer._buffer (buffer.buffer 0) (l.decrypt body) }

section compressed_frames

variable {z : zlib} {l : client_session_logic} {buffer ret_block : once_buffer}
  {head : protocol_head} {body : List UInt8}

theorem length_decrypt_body (hbody : buffer.load (buffer.buffer 0) head.len.toNat = .ok body) :
    buffer.buffer 0 + head.len.toNat ≤ ONCE_BUFFER_SIZE ∧
      (l.decrypt body).length = head.len.toNat := by
  obtain ⟨hfit, rfl⟩ := load_eq_ok hbody
  refine ⟨hfit, ?_⟩
  unfold decrypt
  rw [rc4.length_rc4_crypt, length_read]

theorem crypt_decrypt (hbody : buffer.load (buffer.buffer 0) head.len.toNat = .ok body) :
    l.crypt buffer head.len.toNat false = .ok (l.decrypted_block buffer body) := by
  obtain ⟨hfit, hlen⟩ := length_decrypt_body (l := l) hbody
  unfold crypt
  rw [hbody, ok_bind]
  exact store_of_le _ (by rw [← hlen] at hfit; exact hfit)

theorem load_decrypted_block
    (hbody : buffer.load (buffer.buffer 0) head.len.toNat = .ok body) :
    (l.decrypted_block buffer body).load ((l.decrypted_block buffer body).buffer 0)
      head.len.toNat = .ok (l.decrypt body) := by
  obtain ⟨hfit, hlen⟩ := length_decrypt_body (l := l) hbody
  exact load_of_write rfl hlen hfit

/-- zlib is only used in `decompress`. -/
theorem inside_unwrap_received_data
    (hbody : buffer.load (buffer.buffer 0) head.len.toNat = .ok body)
    (hseq : head.seq = l._seq + 1) (hmask : get_mask head.bytes body = 0) (hne : head.len ≠ 0)
    (hcompressed : head.get_compressed = true) :
    Always access.Inside (l.traced_unwrap_received_data z buffer head ret_block) ↔
      Always access.Inside (gzip.traced_decompress z ret_block (l.decrypted_block buffer body)
        ((l.decrypted_block buffer body).buffer 0) head.len.toNat) := by
  have hcrypt := crypt_decrypt (l := l) hbody
  have hquiet : Always access.Inside (l.traced_crypt buffer head.len.toNat false) := by
    unfold traced_crypt
    rw [always_bind]
    exact ⟨access.always_load.mpr trivial, fun _ _ => access.always_store.mpr trivial⟩
  unfold traced_unwrap_received_data
  simp only
  rw [if_neg (not_not.mpr hseq), always_bind_of_ok hbody, access.always_load,
    if_neg (not_not.mpr hmask.symm), if_neg hne,
    always_bind_of_ok ((result_traced_crypt { l with _seq := l._seq + 1 } ..).trans hcrypt),
    if_pos hcompressed, always_bind]
  constructor
  · rintro ⟨-, -, h, -⟩
    exact h
  · intro h
    refine ⟨trivial, hquiet, h, ?_⟩
    intro decompressed _
    cases decompressed with
    | none => exact always_pure _
    | some b => exact always_pure _

/-- A verified frame is dropped if `decompress` throws. -/
theorem dropped_iff (hbody : buffer.load (buffer.buffer 0) head.len.toNat = .ok body)
    (hseq : head.seq = l._seq + 1) (hmask : get_mask head.bytes body = 0) (hne : head.len ≠ 0)
    (hcompressed : head.get_compressed = true) :
    (∃ r, l.unwrap_received_data z buffer head ret_block = .ok r ∧ r.accepted = false) ↔
      gzip.decompress z ret_block (l.decrypted_block buffer body)
        ((l.decrypted_block buffer body).buffer 0) head.len.toNat = .ok none := by
  have hcrypt := crypt_decrypt (l := { l with _seq := l._seq + 1 }) hbody
  unfold unwrap_received_data
  simp only
  rw [if_neg (not_not.mpr hseq), hbody, ok_bind, if_neg (not_not.mpr hmask.symm), if_neg hne,
    hcrypt, ok_bind, if_pos hcompressed]
  constructor
  · rintro ⟨r, hr, haccepted⟩
    obtain ⟨decompressed, hdecompress, hr⟩ := bind_eq_ok.mp hr
    cases decompressed with
    | none => exact hdecompress
    | some b =>
      cases hr
      cases haccepted
  · intro hthrows
    have hthrows' : gzip.decompress z ret_block
        (decrypted_block { l with _seq := l._seq + 1 } buffer body)
        ((decrypted_block { l with _seq := l._seq + 1 } buffer body).buffer 0) head.len.toNat =
        .ok none := hthrows
    rw [hthrows', ok_bind]
    exact ⟨_, rfl, rfl⟩

/-- A frame whose sequence number or mask is wrong does not get to zlib. -/
theorem unwrapInside_of_not_verified
    (hbody : buffer.load (buffer.buffer 0) head.len.toNat = .ok body)
    (h : ¬ (head.seq = l._seq + 1 ∧ get_mask head.bytes body = 0)) :
    UnwrapInside z l buffer head ret_block := by
  refine Or.inr ?_
  unfold unwrap_received_data
  simp only
  by_cases hseq : head.seq = l._seq + 1
  · have hmask : 0 ≠ get_mask head.bytes body := fun hmask => h ⟨hseq, hmask.symm⟩
    rw [if_neg (not_not.mpr hseq), hbody, ok_bind, if_pos hmask]
    exact ⟨_, rfl, rfl⟩
  · rw [if_pos hseq]
    exact ⟨_, rfl, rfl⟩

/-- What `inflate` puts out for the body has to leave space for its last region. -/
theorem unwrapInside_iff (z : zlib)
    (hbody : buffer.load (buffer.buffer 0) head.len.toNat = .ok body) (hne : head.len ≠ 0)
    (hcompressed : head.get_compressed = true) (hoff : ret_block.offset ≤ ONCE_BUFFER_SIZE) :
    UnwrapInside z l buffer head ret_block ↔
      (head.seq = l._seq + 1 → get_mask head.bytes body = 0 →
        ∀ run, z.inflate (l.decrypt body) = some run →
          gzip.InflateFits ret_block.offset head.len.toNat run) := by
  by_cases hverified : head.seq = l._seq + 1 ∧ get_mask head.bytes body = 0
  · obtain ⟨hseq, hmask⟩ := hverified
    obtain ⟨hfit, -⟩ := length_decrypt_body (l := l) hbody
    have hbytes : ONCE_BUFFER_SIZE = 65536 := rfl
    have hpos : head.len.toNat ≠ 0 := fun h => hne (UInt16.toNat_inj.mp h)
    unfold UnwrapInside
    rw [inside_unwrap_received_data hbody hseq hmask hne hcompressed,
      dropped_iff hbody hseq hmask hne hcompressed]
    unfold gzip.traced_decompress gzip.decompress
    rw [if_neg (by omega), if_neg (by omega),
      always_bind_of_ok ((access.result_load ..).trans (load_decrypted_block hbody)),
      access.always_load, load_decrypted_block hbody, ok_bind]
    cases hinflate : z.inflate (l.decrypt body) with
    | none =>
      refine ⟨?_, fun _ => Or.inr rfl⟩
      intro _ _ _ run hrun
      cases hrun
    | some run =>
      have hloop := gzip.inside_or_throws_iff hpos (by omega) hoff run
      constructor
      · intro h _ _ run' hrun
        obtain rfl := Option.some.inj hrun
        exact hloop.mp (h.imp_left And.right)
      · intro h
        exact (hloop.mpr (h hseq hmask run rfl)).imp_left fun h => ⟨trivial, h⟩
  · refine ⟨?_, fun _ => unwrapInside_of_not_verified hbody hverified⟩
    intro _ hseq hmask
    exact absurd ⟨hseq, hmask⟩ hverified

end compressed_frames

section large_payloads

variable {z : zlib} {stale : Nat → UInt8} {l : client_session_logic} {buffer : once_buffer}

/-- zlib is only used in `compress`. -/
theorem inside_wrap_to_send_data (hlong : K_SIZE_COMPRESS < buffer.length) :
    Always access.Inside (l.traced_wrap_to_send_data z stale buffer) ↔
      Always access.Inside (gzip.traced_compress z (TEMP_BUFFER stale) buffer (buffer.buffer 0)
        buffer.length) := by
  unfold traced_wrap_to_send_data traced_compress_to_send
  rw [if_pos hlong, always_bind, always_bind]
  constructor
  · rintro ⟨⟨h, -⟩, -⟩
    exact h
  · intro h
    refine ⟨⟨h, ?_⟩, ?_⟩
    · intro compressed _
      cases compressed with
      | none => exact always_pure _
      | some compress_ret => simp
    · intro to_send _
      cases to_send with
      | none => exact always_pure _
      | some to_send =>
        simp only [always_bind, always_lift, always_ite, always_pure, implies_true, and_self]

/-- What `deflate` puts out for the payload has to leave space for its last region. -/
theorem wrapInside_iff (z : zlib) (stale : Nat → UInt8) (l : client_session_logic)
    (hlong : K_SIZE_COMPRESS < buffer.length)
    (hfit : buffer.offset + buffer.length ≤ ONCE_BUFFER_SIZE) :
    WrapInside z stale l buffer ↔
      ∀ stream, z.deflate buffer.content = some stream →
        regions_end 0 (buffer.length / 2 + 1024) stream.length ≤ ONCE_BUFFER_SIZE := by
  have hbytes : ONCE_BUFFER_SIZE = 65536 := rfl
  have hzero : buffer.buffer 0 = buffer.offset := buffer_zero_of_eq rfl (by omega)
  unfold WrapInside
  rw [inside_wrap_to_send_data hlong]
  unfold gzip.traced_compress
  rw [if_neg (by omega), hzero, always_bind_of_ok (load_of_le buffer hfit),
    and_iff_right (always_lift _)]
  show _ ∨ _ ↔ ∀ stream, z.deflate (read buffer._buffer buffer.offset buffer.length) =
    some stream → _
  cases hdeflate : z.deflate (read buffer._buffer buffer.offset buffer.length) with
  | none =>
    refine ⟨?_, fun _ => Or.inl (always_pure _)⟩
    intro _ stream hstream
    cases hstream
  | some stream =>
    have hloop := @gzip.inside_compress_loop buffer.length (TEMP_BUFFER stale) 0 stream rfl
    rw [always_bind, hloop, and_iff_left (fun _ _ => always_pure _)]
    constructor
    · rintro (h | hnone) stream' hstream
      · obtain rfl := Option.some.inj hstream
        exact h
      · -- nothing was put out, and the first region is the last one
        obtain rfl := Option.some.inj hstream
        rw [compress_to_send_large stale hlong hfit hdeflate] at hnone
        have hempty : stream.length = 0 := by
          by_contra hne
          split at hnone
          · cases hnone
          · split at hnone
            · cases hnone
            · cases hnone
        rw [hempty, regions_end_of_lt _ (by omega)]
        omega
    · intro h
      exact Or.inl (h stream rfl)

end large_payloads

/-- **Regions inside the array**: exactly if zlib puts out so little, both ways, that it
    leaves space for the last region. -/
theorem regions_inside_iff (z : zlib) (l : client_session_logic)
    {data_block : once_buffer} {head : protocol_head} {body : List UInt8}
    (hbody : data_block.load (data_block.buffer 0) head.len.toNat = .ok body)
    (hne : head.len ≠ 0) (hcompressed : head.get_compressed = true)
    {unwrap_data : once_buffer} (hunwrap : unwrap_data.offset = l.prefix_size)
    {payload : once_buffer} (hoff : payload.offset = PROTO_HEAD_SIZE)
    (hlong : K_SIZE_COMPRESS < payload.length)
    (hfit : PROTO_HEAD_SIZE + payload.length ≤ ONCE_BUFFER_SIZE) (stale : Nat → UInt8) :
    (UnwrapInside z l data_block head unwrap_data ↔
      (head.seq = l._seq + 1 → get_mask head.bytes body = 0 →
        ∀ run, z.inflate (l.decrypt body) = some run →
          gzip.InflateFits l.prefix_size head.len.toNat run)) ∧
    (WrapInside z stale l payload ↔
      ∀ stream, z.deflate payload.content = some stream →
        regions_end 0 (payload.length / 2 + 1024) stream.length ≤ ONCE_BUFFER_SIZE) := by
  constructor
  · rw [← hunwrap]
    exact unwrapInside_iff z hbody hne hcompressed (hunwrap ▸ (by decide : 15 ≤ 65536))
  · exact wrapInside_iff z stale l hlong (hoff ▸ hfit)

/-- What zlib makes of 70000 zero bytes. -/
def gzip_bomb : List UInt8 :=
  [0x1f, 0x8b, 0x08, 0x00, 0x00, 0x00, 0x00, 0x00, 0x00, 0x03, 0xed, 0xc1, 0x31, 0x01, 0x00, 0x00,
    0x00, 0xc2, 0xa0, 0xf5, 0x4f, 0x6d, 0x09, 0x4f, 0xa0] ++ List.replicate 67 0x00 ++
  [0x80, 0xb7, 0x01, 0xdc, 0xc8, 0xa9, 0xa6, 0x70, 0x11, 0x01, 0x00]

/-- A zlib that also makes `run` of `stream`. -/
def zlib_with (stream : List UInt8) (run : inflate_run) : zlib :=
  { zlib.stored with
    inflate := fun s => if s = stream then some run else zlib.stored.inflate s }

theorem inflate_zlib_with (stream : List UInt8) (run : inflate_run) :
    (zlib_with stream run).inflate stream = some run :=
  if_pos rfl

/-- The first frame is verified, and its body is decrypted. -/
theorem load_compressed_body {body : List UInt8} (hle : body.length ≤ 65525) :
    (proxy_manager.received_block (fun _ => 0) body).load
      ((proxy_manager.received_block (fun _ => 0) body).buffer 0)
      (relayed_head true body).len.toNat = .ok body := by
  have hlen : (relayed_head true body).len.toNat = body.length := by
    show (UInt16.ofNat body.length).toNat = body.length
    rw [UInt16.toNat_ofNat', Nat.mod_eq_of_lt (by omega)]
  rw [proxy_manager.received_block_buffer, hlen]
  exact proxy_manager.load_received_block _ (Nat.le_trans hle (by decide))

theorem relayed_head_compressed (body : List UInt8) :
    (relayed_head true body).get_compressed = true := by
  unfold relayed_head
  rw [masked_head_get_compressed]
  exact protocol_head.get_compressed_get_a_head ..

/-- A stream of two bytes, and 65 zero bytes. -/
theorem regions_inside_stored :
    UnwrapInside zlib.stored one_client_logic
        (proxy_manager.received_block (fun _ => 0) (one_client_logic.encrypt [0xff, 0x61]))
        (relayed_head true (one_client_logic.encrypt [0xff, 0x61]))
        { TEMP_BUFFER (fun _ => 0) with offset := 15 } ∧
      WrapInside zlib.stored (fun _ => 0) one_client_logic (zeros_to_send 65) := by
  have hlen := one_client_logic.length_encrypt [0xff, 0x61]
  have hne : (relayed_head true (one_client_logic.encrypt [0xff, 0x61])).len ≠ 0 := by
    show UInt16.ofNat (one_client_logic.encrypt [0xff, 0x61]).length ≠ 0
    rw [hlen]
    decide
  have hunwrap_data : ({ TEMP_BUFFER (fun _ => 0) with offset := 15 } : once_buffer).offset =
      one_client_logic.prefix_size := rfl
  have hpayload : (zeros_to_send 65).offset = PROTO_HEAD_SIZE := rfl
  obtain ⟨hunwrap, hwrap⟩ := regions_inside_iff zlib.stored one_client_logic
    (load_compressed_body (by rw [hlen]; decide)) hne (relayed_head_compressed _)
    hunwrap_data hpayload (by decide) (by decide) (fun _ => 0)
  refine ⟨hunwrap.mpr ?_, hwrap.mpr ?_⟩
  · intro _ _ run hrun
    rw [decrypt_encrypt] at hrun
    obtain rfl := Option.some.inj hrun
    show gzip.InflateFits 15
      (UInt16.ofNat (one_client_logic.encrypt [0xff, 0x61]).length).toNat _
    rw [hlen]
    decide
  · intro stream hstream
    obtain rfl := Option.some.inj hstream
    decide

/-- A client's frame of 103 bytes has zlib put out behind the end of the array. -/
theorem not_always_regions_inside :
    ¬ ∀ (z : zlib) (l : client_session_logic) (data_block : once_buffer) (head : protocol_head)
      (body : List UInt8) (unwrap_data : once_buffer),
      data_block.load (data_block.buffer 0) head.len.toNat = .ok body → head.len ≠ 0 →
      PROTO_HEAD_SIZE + head.len.toNat ≤ ONCE_BUFFER_SIZE → head.get_compressed = true →
      unwrap_data.offset = l.prefix_size →
      UnwrapInside z l data_block head unwrap_data := by
  intro hall
  have hlen : (one_client_logic.encrypt gzip_bomb).length = 103 := by
    rw [length_encrypt]
    decide
  have hhead : (relayed_head true (one_client_logic.encrypt gzip_bomb)).len.toNat = 103 := by
    show (UInt16.ofNat (one_client_logic.encrypt gzip_bomb).length).toNat = 103
    rw [hlen]
    decide
  have hne : (relayed_head true (one_client_logic.encrypt gzip_bomb)).len ≠ 0 := by
    intro hzero
    rw [hzero] at hhead
    cases hhead
  have hbody := @load_compressed_body (one_client_logic.encrypt gzip_bomb)
    (by rw [hlen]; decide)
  have hinside := hall (zlib_with gzip_bomb ⟨List.replicate 70000 0, .Z_STREAM_END⟩)
    one_client_logic _ _ _
    { TEMP_BUFFER (fun _ => 0) with offset := 15 } hbody hne (by rw [hhead]; decide)
    (relayed_head_compressed _) rfl
  have hfits := (unwrapInside_iff _ hbody hne (relayed_head_compressed _)
    (by decide : 15 ≤ 65536)).mp hinside rfl
    (get_mask_masked_head _ _ rfl (by rw [hlen]; decide)) _
    (by rw [decrypt_encrypt]; exact inflate_zlib_with _ _)
  -- the last of its regions ends at 70055
  have hend : regions_end 15 (2 * 103) 70000 ≤ ONCE_BUFFER_SIZE := by
    unfold gzip.InflateFits at hfits
    rw [if_neg (by decide), List.length_replicate, hhead] at hfits
    exact hfits
  exact absurd hend (by decide)

end client_session_logic

end AsioNet
