import AsioNet.ReusabelBuffer

/-! # The gzip wrappers (`compression/compress.hpp`, `compression/decompress.hpp`)

    zlib is a parameter. A `zlib` value says what the streaming calls produce in
    total; the loops of the wrappers around `deflate` and `inflate`, which hand
    out the output region piece by piece, are the source's. The output is a
    pooled buffer whose `resize` only sets the length, so each piece is stored
    where the array ends or not.
-/

namespace AsioNet

open ByteMemory reusabel_buffer

/-- Why `inflate` stops when the output region is not exhausted. Left out are
    `Z_NEED_DICT` (the input asks for a preset dictionary) and `Z_MEM_ERROR`: zlib sets
    no message then, and the wrapper makes a `std::string` of the null pointer. -/
inductive inflate_ret where
  | Z_STREAM_END
  | Z_BUF_ERROR
  | Z_DATA_ERROR
  deriving DecidableEq, Repr

/-- All that `inflate` puts out for an input, and why it stops then. -/
structure inflate_run where
  output : List UInt8
  ret : inflate_ret

/-- zlib, as far as the wrappers use it. -/
structure zlib where
  /-- All that `deflate` with `Z_FINISH` puts out, `none` if `deflateInit2` fails. -/
  deflate : List UInt8 → Option (List UInt8)
  /-- `none` if `inflateInit2` fails. -/
  inflate : List UInt8 → Option inflate_run

/-- zlib at work: `deflate` makes a stream, never an empty one, that `inflate`
    turns back into its input. -/
structure zlib.Lawful (z : zlib) : Prop where
  deflate_ok : ∀ p, ∃ s, z.deflate p = some s
  deflate_ne_nil : ∀ p, z.deflate p ≠ some []
  inflate_deflate : ∀ p s, z.deflate p = some s → z.inflate s = some ⟨p, .Z_STREAM_END⟩

/-- What zlib makes of a hundred zero bytes. -/
def gzip_zeros : List UInt8 :=
  [0x1f, 0x8b, 0x08, 0x00, 0x00, 0x00, 0x00, 0x00, 0x00, 0x03, 0x63, 0x60, 0xa0, 0x3d, 0x00, 0x00,
    0xca, 0xc6, 0x88, 0x99, 0x64, 0x00, 0x00, 0x00]

/-- A lawful zlib that agrees with the real one on a hundred zero bytes and
    stores everything else behind a byte no gzip stream starts with. -/
def zlib.stored : zlib where
  deflate p := some (if p = List.replicate 100 0 then gzip_zeros else 0xff :: p)
  inflate s := some (if s = gzip_zeros then ⟨List.replicate 100 0, .Z_STREAM_END⟩
    else match s with
      | 0xff :: p => ⟨p, .Z_STREAM_END⟩
      | _ => ⟨[], .Z_DATA_ERROR⟩)

theorem zlib.lawful_stored : zlib.stored.Lawful where
  deflate_ok p := ⟨_, rfl⟩
  deflate_ne_nil p := by
    unfold zlib.stored
    simp only [ne_eq, Option.some.injEq]
    split
    · exact List.cons_ne_nil _ _
    · exact List.cons_ne_nil _ _
  inflate_deflate p s h := by
    simp only [zlib.stored, Option.some.injEq] at h ⊢
    -- a stored input starts with 0xff, the gzip stream does not
    by_cases hp : p = List.replicate 100 0
    · rw [if_pos hp] at h
      rw [← h, if_pos rfl, hp]
    · have hne : 0xff :: p ≠ gzip_zeros := by
        intro heq
        exact absurd (List.head_eq_of_cons_eq heq) (by decide)
      rw [if_neg hp] at h
      rw [← h, if_neg hne]
      rfl

namespace gzip

/-! ### `Compressor::compress` -/

/-- `if (output.size() < n) output.resize(n)` -/
def grow (output : once_buffer) (n : Nat) : once_buffer :=
  if output.length < n then output.resize n else output

/-- The `do … while (avail_out == 0)` loop; `rest` is what `deflate` has still
    to put out. -/
def compress_loop (size : Nat) (output : once_buffer) (size_compressed : Nat)
    (rest : List UInt8) : Checked once_buffer := do
  let increase := size / 2 + 1024
  let output := grow output (size_compressed + increase)
  let output ← output.store (output.buffer 0 + size_compressed) (rest.take increase)
  if _h : increase ≤ rest.length then
    compress_loop size output (size_compressed + increase) (rest.drop increase)
  else
    pure (output.resize (size_compressed + rest.length))
termination_by rest.length
decreasing_by
  simp only [List.length_drop]
  omega

/-- Compress `size` bytes at index `data` of `src` into `output`; `none` is a
    thrown exception. -/
def compress (z : zlib) (output src : once_buffer) (data size : Nat) :
    Checked (Option once_buffer) := do
  if size > 2000000000 then
    pure none
  else
    let input ← src.load data size
    match z.deflate input with
    | none => pure none
    | some stream => do
      let output ← compress_loop size output 0 stream
      pure (some output)

@[simp] theorem grow_offset (output : once_buffer) (n : Nat) :
    (grow output n).offset = output.offset := by
  unfold grow; split <;> rfl

@[simp] theorem grow_buffer (output : once_buffer) (n : Nat) :
    (grow output n)._buffer = output._buffer := by
  unfold grow; split <;> rfl

/-- Storing a run of bytes piece by piece. -/
theorem write_take_drop (m : Nat → UInt8) (pos k : Nat) (bs : List UInt8) (h : k ≤ bs.length) :
    write (write m pos (bs.take k)) (pos + k) (bs.drop k) = write m pos bs := by
  have htake : (bs.take k).length = k := by
    rw [List.length_take]; omega
  conv_rhs => rw [← List.take_append_drop k bs, write_append, htake]

/-- Everything is stored when it fits the array. -/
theorem compress_loop_ok (size : Nat) (output : once_buffer) (size_compressed : Nat)
    (rest : List UInt8) (h : output.offset + size_compressed + rest.length ≤ ONCE_BUFFER_SIZE) :
    compress_loop size output size_compressed rest =
      .ok { output with
        length := size_compressed + rest.length
        _buffer := write output._buffer (output.offset + size_compressed) rest } := by
  have hsmall : output.offset < 2 ^ 64 := by
    simp only [ONCE_BUFFER_SIZE] at h; omega
  rw [compress_loop]
  simp only [buffer_zero _ (show (grow output _).offset < 2 ^ 64 by simpa using hsmall),
    grow_offset]
  rw [store_of_le _ (by rw [List.length_take]; omega), ok_bind]
  simp only [grow_buffer]
  by_cases hle : size / 2 + 1024 ≤ rest.length
  · -- `avail_out == 0`: the loop goes on behind the piece just stored
    rw [dif_pos hle, compress_loop_ok size _ _ _ (by
      simp only [grow_offset, List.length_drop]; omega)]
    have hlen : size_compressed + (size / 2 + 1024) + (rest.drop (size / 2 + 1024)).length =
        size_compressed + rest.length := by
      rw [List.length_drop]; omega
    simp only [grow_offset, hlen, ← Nat.add_assoc output.offset, write_take_drop _ _ _ _ hle]
  · -- the last piece
    rw [dif_neg hle, List.take_of_length_le (by omega)]
    simp only [resize, grow_offset, pure_eq_ok]
termination_by rest.length
decreasing_by
  simp only [List.length_drop]
  omega

/-- A stream that does not fit runs over the end of the array. -/
theorem compress_loop_overrun (size : Nat) (output : once_buffer) (size_compressed : Nat)
    (rest : List UInt8) (h : ONCE_BUFFER_SIZE < output.offset + size_compressed + rest.length)
    (hoff : output.offset < 2 ^ 64) :
    compress_loop size output size_compressed rest = .error .out_of_bounds := by
  rw [compress_loop]
  simp only [buffer_zero _ (show (grow output _).offset < 2 ^ 64 by simpa using hoff), grow_offset]
  by_cases hfit : output.offset + size_compressed + (rest.take (size / 2 + 1024)).length ≤
      ONCE_BUFFER_SIZE
  · -- this piece fits, a later one does not
    rw [store_of_le _ hfit, ok_bind]
    rw [List.length_take] at hfit
    have hle : size / 2 + 1024 ≤ rest.length := by omega
    rw [dif_pos hle]
    exact compress_loop_overrun size _ _ _ (by
      simp only [grow_offset, List.length_drop]; omega) (by simpa using hoff)
  · rw [store_of_lt _ (Nat.not_le.mp hfit), error_bind]
termination_by rest.length
decreasing_by
  simp only [List.length_drop]
  omega

/-! ### `Decompressor::decompress` -/

/-- The `do … while (avail_out == 0)` loop; `rest` is what `inflate` has still
    to put out and `ret` why it stops then. -/
def decompress_loop (size : Nat) (output : once_buffer) (size_uncompressed : Nat)
    (rest : List UInt8) (ret : inflate_ret) : Checked (Option once_buffer) := do
  let resize_to := size_uncompressed + 2 * size
  if resize_to > 1000000000 then
    pure none
  else
    let output := output.resize resize_to
    let output ← output.store (output.buffer 0 + size_uncompressed) (rest.take (2 * size))
    if rest.length ≤ 2 * size ∧ ret = .Z_DATA_ERROR then
      pure none
    else if _h : 2 * size ≤ rest.length then
      if _h₀ : size = 0 then
        -- no output region at all, so `avail_out == 0` for ever
        throw .diverges
      else
        decompress_loop size output (size_uncompressed + 2 * size) (rest.drop (2 * size)) ret
    else
      pure (some (output.resize (size_uncompressed + rest.length)))
termination_by rest.length
decreasing_by
  simp only [List.length_drop]
  omega

/-- Decompress `size` bytes at index `data` of `src` into `output`; `none` is a
    thrown exception. -/
def decompress (z : zlib) (output src : once_buffer) (data size : Nat) :
    Checked (Option once_buffer) := do
  if size > 1000000000 ∨ size * 2 > 1000000000 then
    pure none
  else
    let input ← src.load data size
    match z.inflate input with
    | none => pure none
    | some run => decompress_loop size output 0 run.output run.ret

/-- A whole stream that fits the array is stored. -/
theorem decompress_loop_ok {size : Nat} (hsize : size ≠ 0) (output : once_buffer)
    (size_uncompressed : Nat) (rest : List UInt8)
    (h : output.offset + size_uncompressed + rest.length ≤ ONCE_BUFFER_SIZE)
    (hmax : size_uncompressed + rest.length + 2 * size ≤ 1000000000) :
    decompress_loop size output size_uncompressed rest .Z_STREAM_END =
      .ok (some { output with
        length := size_uncompressed + rest.length
        _buffer := write output._buffer (output.offset + size_uncompressed) rest }) := by
  have hsmall : output.offset < 2 ^ 64 := by
    simp only [ONCE_BUFFER_SIZE] at h; omega
  have hpos : (output.resize (size_uncompressed + 2 * size)).buffer 0 = output.offset :=
    buffer_zero _ hsmall
  rw [decompress_loop, if_neg (by omega)]
  simp only [hpos]
  rw [store_of_le _ (by rw [List.length_take]; omega), ok_bind, if_neg (by simp)]
  by_cases hle : 2 * size ≤ rest.length
  · -- `avail_out == 0`: the loop goes on behind the piece just stored
    rw [dif_pos hle, dif_neg hsize, decompress_loop_ok hsize _ _ _ (by
      simp only [resize, List.length_drop]; omega) (by simp only [List.length_drop]; omega)]
    have hlen : size_uncompressed + 2 * size + (rest.drop (2 * size)).length =
        size_uncompressed + rest.length := by
      rw [List.length_drop]; omega
    simp only [resize, hlen, ← Nat.add_assoc output.offset, write_take_drop _ _ _ _ hle]
  · rw [dif_neg hle, List.take_of_length_le (by omega)]
    simp only [resize, pure_eq_ok]
termination_by rest.length
decreasing_by
  simp only [List.length_drop]
  omega

end gzip

end AsioNet
