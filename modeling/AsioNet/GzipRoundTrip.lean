import AsioNet.AccessBounds

/-! # Through `compress` and back (`compression/compress.hpp`, `compression/decompress.hpp`)

    The two wrappers give the output to zlib in regions of different sizes: half of the
    input and a kilobyte to `deflate`, twice the input to `inflate`. However the pieces
    fall, what comes back is what went in, exactly if the stream and the data fit the
    arrays they are put into. A pooled buffer never grows, so otherwise a piece is stored
    behind the array, or an exception is thrown.
-/

namespace AsioNet

open ByteMemory reusabel_buffer

namespace gzip

variable {z : zlib} {output restored src : once_buffer} {data size : Nat}

/-- The bytes `compress` is given. -/
def input (src : once_buffer) (data size : Nat) : List UInt8 := read src._buffer data size

/-- What is compressed into `output` is what is decompressed into `restored`. -/
def RoundTrips (z : zlib) (src : once_buffer) (data size : Nat) (output restored : once_buffer) :
    Prop :=
  ∃ compressed plain, compress z output src data size = .ok (some compressed) ∧
    decompress z restored compressed (compressed.buffer 0) compressed.length = .ok (some plain) ∧
    plain.content = input src data size

/-- The input lies in its array, and stream and data fit theirs. -/
structure Fits (z : zlib) (src : once_buffer) (data size : Nat) (output restored : once_buffer) :
    Prop where
  input : data + size ≤ ONCE_BUFFER_SIZE
  stream : ∀ s, z.deflate (gzip.input src data size) = some s →
    output.offset + s.length ≤ ONCE_BUFFER_SIZE
  plain : restored.offset + size ≤ ONCE_BUFFER_SIZE

/-- `compress` stores the stream at the start of the output. -/
theorem compress_ok {s : List UInt8} (hin : data + size ≤ ONCE_BUFFER_SIZE)
    (hs : z.deflate (input src data size) = some s)
    (hfit : output.offset + s.length ≤ ONCE_BUFFER_SIZE) :
    compress z output src data size = .ok (some { output with
      length := s.length
      _buffer := write output._buffer output.offset s }) := by
  have hsize : ONCE_BUFFER_SIZE = 65536 := rfl
  unfold input at hs
  unfold compress
  rw [if_neg (by omega), load_of_le _ hin, ok_bind]
  simp only [hs]
  rw [compress_loop_ok size output 0 s (by omega), ok_bind, Nat.zero_add, Nat.add_zero]
  rfl

/-- `compress` ends only if input and stream lie in their arrays. -/
theorem fits_of_compress {compressed : once_buffer} (hoff : output.offset ≤ ONCE_BUFFER_SIZE)
    (h : compress z output src data size = .ok (some compressed)) :
    data + size ≤ ONCE_BUFFER_SIZE ∧ ∃ s, z.deflate (input src data size) = some s ∧
      output.offset + s.length ≤ ONCE_BUFFER_SIZE := by
  have hlt : output.offset < 2 ^ 64 := by
    simp only [ONCE_BUFFER_SIZE] at hoff
    omega
  unfold compress at h
  split at h
  · cases h
  obtain ⟨bytes, hload, h⟩ := bind_eq_ok.mp h
  obtain ⟨hin, rfl⟩ := load_eq_ok hload
  refine ⟨hin, ?_⟩
  split at h
  · cases h
  next s hs =>
  refine ⟨s, hs, ?_⟩
  by_contra hover
  rw [compress_loop_overrun size output 0 s (by omega) hlt, error_bind] at h
  cases h

/-- `decompress` stores what the stream in `b` stands for. -/
theorem decompress_ok {b : once_buffer} {s p : List UInt8}
    (hin : b.offset + b.length ≤ ONCE_BUFFER_SIZE) (hcontent : b.content = s) (hne : s ≠ [])
    (hs : z.inflate s = some ⟨p, .Z_STREAM_END⟩)
    (hfit : restored.offset + p.length ≤ ONCE_BUFFER_SIZE) :
    decompress z restored b (b.buffer 0) b.length = .ok (some { restored with
      length := p.length
      _buffer := write restored._buffer restored.offset p }) := by
  have hmax : ONCE_BUFFER_SIZE = 65536 := rfl
  have hlength : b.length = s.length := by
    rw [← hcontent, content, length_read]
  have hpos : 0 < s.length := List.length_pos_iff.mpr hne
  have hread : read b._buffer b.offset b.length = s := hcontent
  unfold decompress
  rw [buffer_zero_of_eq (n := b.offset) rfl (by omega), if_neg (by omega), load_of_le _ hin,
    ok_bind, hread]
  simp only [hs]
  rw [decompress_loop_ok (by omega) restored 0 p (by omega) (by omega), Nat.zero_add, Nat.add_zero]

/-- **Round trip, exactly.** -/
theorem gzip_round_trip_iff (hz : z.Lawful) (houtput : output.offset ≤ ONCE_BUFFER_SIZE)
    (hrestored : restored.offset ≤ ONCE_BUFFER_SIZE) :
    RoundTrips z src data size output restored ↔ Fits z src data size output restored := by
  have hmax : ONCE_BUFFER_SIZE = 65536 := rfl
  constructor
  · intro ⟨compressed, plain, hcompress, hdecompress, hcontent⟩
    obtain ⟨hin, s, hs, hstream⟩ := fits_of_compress houtput hcompress
    refine ⟨hin, ?_, ?_⟩
    · intro s' hs'
      rw [hs] at hs'
      cases hs'
      exact hstream
    · -- what was put out lies in the array and is as long as the input
      have hlength := congrArg List.length hcontent
      unfold content input at hlength
      rw [length_read, length_read] at hlength
      unfold decompress at hdecompress
      split at hdecompress
      · cases hdecompress
      obtain ⟨bytes, -, hdecompress⟩ := bind_eq_ok.mp hdecompress
      split at hdecompress
      · cases hdecompress
      obtain ⟨hoff, hroom⟩ := decompress_loop_eq_some hrestored hdecompress
      rw [hoff, hlength] at hroom
      exact hroom
  · intro hfits
    obtain ⟨s, hs⟩ := hz.deflate_ok (input src data size)
    have hstream := hfits.stream s hs
    have hne : s ≠ [] := by
      intro hnil
      rw [hnil] at hs
      exact hz.deflate_ne_nil _ hs
    have hlength : (input src data size).length = size := length_read ..
    have hplain := hfits.plain
    rw [← hlength] at hplain
    exact ⟨_, _, compress_ok hfits.input hs hstream,
      decompress_ok hstream (read_write _ _ _) hne (hz.inflate_deflate _ s hs) hplain,
      read_write _ _ _⟩

/-- A hundred zeros fit behind a head, as they do in front of one. -/
theorem round_trip_zeros :
    RoundTrips zlib.stored (TEMP_BUFFER fun _ => 0) 0 100 (TEMP_BUFFER fun _ => 0xff)
      { TEMP_BUFFER fun _ => 0xff with offset := PROTO_HEAD_SIZE } := by
  refine (gzip_round_trip_iff zlib.lawful_stored (by decide) (by decide)).mpr
    ⟨by decide, ?_, by decide⟩
  intro s hs
  have hzeros : input (TEMP_BUFFER fun _ => 0) 0 100 = List.replicate 100 0 := by decide
  rw [hzeros] at hs
  cases hs
  decide

end gzip

end AsioNet
