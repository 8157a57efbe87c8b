import AsioNet.ProxySession

/-! # Framing does not depend on the segmentation

    What a session has received is a byte stream; what it should pass on are the
    frames `LengthPrefixed` cuts off that stream. The link is `Held`: the receive
    buffer holds the rest of the stream, and there is no buffer when there is no
    rest. `pick_loop_spec` says that the extraction loop cuts off all complete
    frames of what is held, `on_read_spec` that a read continues the cut. A logic
    that may refuse frames stops the loop, and what is left stays held: `Picked`.
-/

namespace AsioNet

open ByteMemory LengthPrefixed LengthPrefixed.Format reusabel_buffer

/-- A frame as it is given to `unwrap_received_data`. -/
def unpack_frame (f : Frame UInt8) : protocol_head × List UInt8 :=
  (protocol_head.unpack_head f.1, f.2)

/-- A head and as many bytes as it announces are one frame. -/
theorem cut_single {head : protocol_head} {body : List UInt8}
    (hbody : body.length = head.len.toNat) :
    protocol_head.format.cut (head.bytes ++ body) = ([(head.bytes, body)], []) := by
  have hsize : body.length = protocol_head.format.bodySize head.bytes := by
    show body.length = (protocol_head.unpack_head head.bytes).len.toNat
    rw [protocol_head.unpack_head_bytes, hbody]
  have hcut := cut_cons (F := protocol_head.format) (f := (head.bytes, body))
    ⟨protocol_head.length_bytes head, hsize.symm⟩ []
  rwa [List.append_nil, cut_nil] at hcut

namespace recv_session

variable {σ : Type} {L : session_logic_interface σ} {pool : Nat → recycled}

/-- The session's buffer holds exactly the bytes `bs`. -/
structure BufferHolds (s : recv_session σ) (recv : once_buffer_sptr) (bs : List UInt8) : Prop where
  recv_eq : s._recv_not_entire = some recv
  offset_eq : recv.buf.offset = 0
  length_eq : recv.buf.length = bs.length
  length_le : bs.length ≤ ONCE_BUFFER_SIZE
  content_eq : read recv.buf._buffer 0 bs.length = bs

/-- The session holds the bytes `bs`, and no buffer if there are none. -/
def Held (s : recv_session σ) (bs : List UInt8) : Prop :=
  (bs = [] ∧ s._recv_not_entire = none) ∨ (bs ≠ [] ∧ ∃ recv, s.BufferHolds recv bs)

/-! ### One call of `pick_a_entire_msg` -/

theorem frameSize_eq (bs : List UInt8) : protocol_head.format.frameSize bs =
    PROTO_HEAD_SIZE + (protocol_head.unpack_head (bs.take PROTO_HEAD_SIZE)).len.toNat := rfl

/-- The buffer holds `bs` from its start, and `bs` starts with a frame of the head `head`
    and the body `body`. -/
structure StartsWithFrame (b : once_buffer) (bs : List UInt8) (head : protocol_head)
    (body : List UInt8) : Prop where
  size_le : PROTO_HEAD_SIZE + head.len.toNat ≤ bs.length
  frameSize : protocol_head.format.frameSize bs = PROTO_HEAD_SIZE + head.len.toNat
  length_body : body.length = head.len.toNat
  head_eq : protocol_head.unpack_head (read b._buffer 0 PROTO_HEAD_SIZE) = head
  body_eq : read b._buffer PROTO_HEAD_SIZE head.len.toNat = body
  rest_eq : read b._buffer (PROTO_HEAD_SIZE + head.len.toNat)
    (bs.length - (PROTO_HEAD_SIZE + head.len.toNat)) =
      bs.drop (PROTO_HEAD_SIZE + head.len.toNat)

theorem startsWithFrame {b : once_buffer} {bs : List UInt8}
    (hcontent : read b._buffer 0 bs.length = bs) (hc : protocol_head.format.Complete bs) :
    StartsWithFrame b bs (unpack_frame (protocol_head.format.firstFrame bs)).1
      (unpack_frame (protocol_head.format.firstFrame bs)).2 := by
  have hsize := frameSize_eq bs
  have hle := hc.2
  rw [hsize] at hle
  have hfirst : unpack_frame (protocol_head.format.firstFrame bs) =
      (protocol_head.unpack_head (bs.take PROTO_HEAD_SIZE), (bs.drop PROTO_HEAD_SIZE).take
        (protocol_head.unpack_head (bs.take PROTO_HEAD_SIZE)).len.toNat) := rfl
  rw [hfirst]
  refine ⟨hle, hsize, ?_, ?_, ?_, ?_⟩
  · rw [List.length_take, List.length_drop]
    simp only
    omega
  · have hhead_le : PROTO_HEAD_SIZE ≤ bs.length := hc.1
    rw [← take_read _ _ _ _ hhead_le, hcontent]
  · rw [← read_part hcontent hle, Nat.zero_add]
  · rw [← read_rest hcontent hle, Nat.zero_add]

/-- Without a complete frame nothing happens. -/
theorem pick_a_entire_msg_of_not_complete {s : recv_session σ} {recv : once_buffer_sptr}
    {bs : List UInt8} (h : s.BufferHolds recv bs) (hc : ¬ protocol_head.format.Complete bs)
    (data_block : once_buffer) :
    s.pick_a_entire_msg L pool data_block = .ok (false, s, data_block) := by
  obtain ⟨hrecv, hoff, hlen, hle, hcontent⟩ := h
  rw [pick_a_entire_msg, hrecv]
  simp only [hlen]
  by_cases hshort : bs.length < PROTO_HEAD_SIZE
  · rw [if_pos hshort, pure_eq_ok]
  · have hhead : read recv.buf._buffer 0 PROTO_HEAD_SIZE = bs.take PROTO_HEAD_SIZE := by
      rw [← hcontent, take_read _ _ _ _ (Nat.not_lt.mp hshort)]
    have hpos : recv.buf.buffer 0 = 0 := by
      rw [buffer_zero _ (by rw [hoff]; decide), hoff]
    rw [if_neg hshort, hpos, load_of_le _ (by omega), ok_bind, hhead]
    -- the head is there, so the body is not
    have hsize : bs.length < protocol_head.format.frameSize bs := by
      by_contra hge
      exact hc ⟨Nat.not_lt.mp hshort, Nat.not_lt.mp hge⟩
    rw [frameSize_eq] at hsize
    rw [if_pos (by omega), pure_eq_ok]

/-- What `pick_a_entire_msg` does with the logic, the pool and the log when it has found
    the frame `f`. -/
def handled (s : recv_session σ) (f : protocol_head × List UInt8) (logic : σ) : recv_session σ :=
  { s with logic := logic, taken := s.taken + 1, passed := s.passed ++ [f] }

/-- The body `body` in the buffer it is handed over in. -/
def block_of (data_block : once_buffer) (body : List UInt8) : once_buffer :=
  { data_block with
    length := body.length
    _buffer := write data_block._buffer data_block.offset body }

variable (L pool) in
/-- **A complete frame** is handled. If it is refused the timer is started and the buffer
    stays as it is, otherwise the frame is taken off the buffer. -/
theorem pick_a_entire_msg_of_frame {s : recv_session σ} {recv : once_buffer_sptr}
    {bs : List UInt8} (h : s.BufferHolds recv bs) (hc : protocol_head.format.Complete bs)
    {data_block : once_buffer} (hroom : data_block.offset + bs.length ≤ ONCE_BUFFER_SIZE) :
    let f := unpack_frame (protocol_head.format.firstFrame bs)
    let msg := L.handle_msg (pool s.taken) s.logic f.1 (block_of data_block f.2)
    (msg.1 = false ∧
      s.pick_a_entire_msg L pool data_block =
        .ok (false, (s.handled f msg.2.1).start_timer, msg.2.2)) ∨
    (msg.1 = true ∧ ∃ recv',
      s.pick_a_entire_msg L pool data_block =
        .ok (true, { s.handled f msg.2.1 with _recv_not_entire := recv' }, msg.2.2) ∧
      Held { s.handled f msg.2.1 with _recv_not_entire := recv' }
        (bs.drop (protocol_head.format.frameSize bs))) := by
  obtain ⟨hrecv, hoff, hlen, hle, hcontent⟩ := h
  intro f msg
  have hframe : StartsWithFrame recv.buf bs f.1 f.2 := startsWithFrame hcontent hc
  rw [hframe.frameSize]
  have hsize := hframe.size_le
  -- all positions are inside the arrays
  have hsmall : ONCE_BUFFER_SIZE < 2 ^ 64 := by decide
  have hpos : ∀ n, n ≤ ONCE_BUFFER_SIZE → recv.buf.buffer n = n := by
    intro n hn
    rw [buffer_of_lt _ (by omega), hoff, Nat.zero_add]
  have hdata : data_block.buffer 0 = data_block.offset := buffer_zero _ (by omega)
  have hblock : block_of data_block f.2 =
      { data_block with
        length := f.1.len.toNat
        _buffer := write data_block._buffer data_block.offset f.2 } := by
    rw [block_of, hframe.length_body]
  -- up to the call of the logic nothing depends on its answer
  have hpick : s.pick_a_entire_msg L pool data_block = (do
      if msg.1 = false then pure (false, (s.handled f msg.2.1).start_timer, msg.2.2)
      else
        let length := recv.buf.length - (PROTO_HEAD_SIZE + f.1.len.toNat)
        if length ≠ 0 then
          let rest ← recv.buf.load (recv.buf.buffer (PROTO_HEAD_SIZE + f.1.len.toNat)) length
          let buf ← recv.buf.store (recv.buf.buffer 0) rest
          pure (true,
            { s.handled f msg.2.1 with
              _recv_not_entire := some { recv with buf := { buf with length := length } } },
            msg.2.2)
        else
          pure (true, { s.handled f msg.2.1 with _recv_not_entire := none }, msg.2.2)) := by
    simp only [msg, hblock]
    obtain ⟨state, recv_not_entire, logic, taken, reads, pending, elapsed, cancelled, passed⟩ := s
    obtain rfl : recv_not_entire = some recv := hrecv
    rw [pick_a_entire_msg]
    simp only [hlen]
    rw [if_neg (by omega), hpos 0 (by omega), load_of_le _ (by omega), ok_bind]
    simp only [hframe.head_eq]
    rw [if_neg (by omega), hpos _ (by omega), load_of_le _ (by omega), ok_bind, hframe.body_eq,
      hdata, store_of_le _ (by rw [hframe.length_body]; omega), ok_bind]
    rfl
  rw [hpick, hlen]
  cases hcopied : msg.1 with
  | false => exact Or.inl ⟨rfl, rfl⟩
  | true =>
    -- taken: the buffer is left with what follows the frame
    refine Or.inr ⟨rfl, ?_⟩
    rw [if_neg nofun]
    simp only
    by_cases hnil : bs.length - (PROTO_HEAD_SIZE + f.1.len.toNat) = 0
    · -- nothing follows: the buffer is released
      rw [if_neg (not_not_intro hnil)]
      refine ⟨_, rfl, Or.inl ⟨?_, rfl⟩⟩
      rw [List.drop_eq_nil_iff]
      omega
    · -- what follows moves to the front
      rw [if_pos hnil, hpos _ (by omega), hpos _ (by omega), load_of_le _ (by omega), ok_bind,
        hframe.rest_eq, store_of_le _ (by rw [List.length_drop]; omega), ok_bind]
      refine ⟨_, rfl, Or.inr ⟨?_, _, rfl, hoff, ?_, ?_, ?_⟩⟩
      · rw [ne_eq, List.drop_eq_nil_iff]
        omega
      · rw [List.length_drop]
      · rw [List.length_drop]
        omega
      · exact read_write recv.buf._buffer 0 _

variable (pool) in
/-- A complete frame is passed on and taken off the buffer. -/
theorem pick_a_entire_msg_of_complete (hL : L.Accepting) {s : recv_session σ}
    {recv : once_buffer_sptr} {bs : List UInt8} (h : s.BufferHolds recv bs)
    (hc : protocol_head.format.Complete bs) {data_block : once_buffer}
    (hroom : data_block.offset + bs.length ≤ ONCE_BUFFER_SIZE) :
    ∃ s' data_block', s.pick_a_entire_msg L pool data_block = .ok (true, s', data_block') ∧
      s'.Held (bs.drop (protocol_head.format.frameSize bs)) ∧
      s'.passed = s.passed ++ [unpack_frame (protocol_head.format.firstFrame bs)] ∧
      s'.reads = s.reads ∧ s'._state = s._state ∧
      data_block'.offset ≤ data_block.offset + protocol_head.format.frameSize bs := by
  have hoffset := L.handle_msg_offset_le (pool s.taken) s.logic
    (unpack_frame (protocol_head.format.firstFrame bs)).1
    (block_of data_block (unpack_frame (protocol_head.format.firstFrame bs)).2)
  rcases pick_a_entire_msg_of_frame L pool h hc hroom with ⟨hrefused, -⟩ | ⟨-, recv', hpick, hheld⟩
  · rw [hL.handle_msg] at hrefused
    cases hrefused
  · exact ⟨_, _, hpick, hheld, rfl, rfl, rfl, hoffset⟩

/-! ### The extraction loop -/

/-- With nothing held the loop stops at once. -/
theorem pick_a_entire_msg_of_none {s : recv_session σ} (h : s._recv_not_entire = none)
    (data_block : once_buffer) :
    s.pick_a_entire_msg L pool data_block = .ok (false, s, data_block) := by
  rw [pick_a_entire_msg, h]
  rfl

/-- The loop passes on all complete frames of what is held, in order, and keeps
    the rest. Every round takes off at least a head, so the rounds suffice. -/
theorem pick_while_spec (hL : L.Accepting) {fuel : Nat} {s : recv_session σ} {bs : List UInt8}
    {tmp_buffer : once_buffer} (hheld : s.Held bs) (hfuel : bs.length < fuel)
    (hroom : tmp_buffer.offset + bs.length ≤ ONCE_BUFFER_SIZE) :
    ∃ s', pick_while L pool fuel s tmp_buffer = .ok s' ∧
      s'.Held (protocol_head.format.cut bs).2 ∧
      s'.passed = s.passed ++ (protocol_head.format.cut bs).1.map unpack_frame ∧
      s'.reads = s.reads ∧ s'._state = s._state := by
  -- on the rounds; what is held gets shorter by a frame in each
  induction fuel generalizing s bs tmp_buffer with
  | zero => omega
  | succ fuel ih =>
    rw [pick_while]
    by_cases hc : protocol_head.format.Complete bs
    · have hne : bs ≠ [] := by
        rintro rfl
        exact absurd hc.1 (by decide)
      rcases hheld with ⟨hnil, -⟩ | ⟨-, recv, hrecv⟩
      · exact absurd hnil hne
      obtain ⟨s₁, tmp₁, hpick, hheld₁, hpassed₁, hreads₁, hstate₁, hoff₁⟩ :=
        pick_a_entire_msg_of_complete pool hL hrecv hc hroom
      have hsize := hc.2
      have hpos : 0 < protocol_head.format.frameSize bs := by
        rw [frameSize_eq]
        exact Nat.add_pos_left (by decide) _
      have hrest : (bs.drop (protocol_head.format.frameSize bs)).length =
          bs.length - protocol_head.format.frameSize bs := List.length_drop
      -- the offset of the reused buffer creeps up, by no more than was taken off
      have hroom₁ : tmp₁.offset + (bs.drop (protocol_head.format.frameSize bs)).length ≤
          ONCE_BUFFER_SIZE := by
        omega
      obtain ⟨s₂, hloop, hheld₂, hpassed₂, hreads₂, hstate₂⟩ :=
        ih hheld₁ (by omega) hroom₁
      rw [hpick, ok_bind]
      simp only [if_true]
      refine ⟨s₂, hloop, ?_, ?_, hreads₂.trans hreads₁, hstate₂.trans hstate₁⟩
      · rw [cut_of_complete hc]
        exact hheld₂
      · rw [hpassed₂, hpassed₁, cut_of_complete hc, List.map_cons, List.append_assoc]
        rfl
    · have hpick : s.pick_a_entire_msg L pool tmp_buffer = .ok (false, s, tmp_buffer) := by
        rcases hheld with ⟨-, hnone⟩ | ⟨-, recv, hrecv⟩
        · exact pick_a_entire_msg_of_none hnone tmp_buffer
        · exact pick_a_entire_msg_of_not_complete hrecv hc tmp_buffer
      rw [hpick, ok_bind, cut_of_not_complete hc]
      exact ⟨s, rfl, hheld, by simp, rfl, rfl⟩

theorem pick_loop_spec (hL : L.Accepting) {s : recv_session σ} {recv : once_buffer_sptr}
    {bs : List UInt8} (h : s.BufferHolds recv bs) (hne : bs ≠ []) :
    ∃ s', s.pick_loop L pool = .ok s' ∧
      s'.Held (protocol_head.format.cut bs).2 ∧
      s'.passed = s.passed ++ (protocol_head.format.cut bs).1.map unpack_frame ∧
      s'.reads = s.reads ∧ s'._state = s._state := by
  rw [pick_loop]
  simp only [take_buffer]
  have hrounds : rounds { s with taken := s.taken + 1 } = bs.length + 1 := by
    simp only [rounds, h.recv_eq, h.length_eq]
  rw [hrounds]
  refine pick_while_spec hL (Or.inr ⟨hne, recv, ?_⟩) (Nat.lt_succ_self _) ?_
  · exact ⟨h.recv_eq, h.offset_eq, h.length_eq, h.length_le, h.content_eq⟩
  · simp only [TEMP_BUFFER]
    have := h.length_le
    omega

/-! ### Reads -/

theorem read_target_eq {s : recv_session σ} {recv : once_buffer_sptr} {bs : List UInt8}
    (h : s.BufferHolds recv bs) :
    read_target recv = ⟨recv.id, bs.length, ONCE_BUFFER_SIZE - bs.length⟩ := by
  have hle := h.length_le
  have hsmall : ONCE_BUFFER_SIZE < 2 ^ 64 := by decide
  have hpos : recv.buf.buffer bs.length = bs.length := by
    rw [buffer_of_lt _ (by rw [h.offset_eq]; omega), h.offset_eq, Nat.zero_add]
  have hcap : recv.buf.available_capacity = ONCE_BUFFER_SIZE := by
    rw [available_capacity, h.offset_eq, size_t_sub_of_le (by omega) (by omega), Nat.sub_zero]
  rw [read_target, h.length_eq, hpos, hcap, size_t_sub_of_le hle (by omega)]

/-- What a read brings is appended to what the buffer holds. -/
theorem received_spec {s : recv_session σ} {recv : once_buffer_sptr} {bs : List UInt8}
    (h : s.BufferHolds recv bs) {bytes : List UInt8}
    (hfit : bytes.length ≤ (read_target recv).size) :
    ∃ s' recv', s.received (read_target recv) bytes = .ok s' ∧
      s'.BufferHolds recv' (bs ++ bytes) ∧ s'.passed = s.passed ∧
      s'.reads = s.reads.erase (read_target recv) ∧ s'._state = s._state := by
  obtain ⟨hrecv, hoff, hlen, hle, hcontent⟩ := h
  rw [read_target_eq ⟨hrecv, hoff, hlen, hle, hcontent⟩] at hfit ⊢
  simp only at hfit
  simp only [received, receive_bytes, hrecv, if_true, add_length, pure_eq_ok]
  refine ⟨_, _, rfl, ⟨rfl, hoff, ?_, ?_, ?_⟩, rfl, rfl, rfl⟩
  · rw [List.length_append, hlen]
  · rw [List.length_append]
    omega
  · -- the read lands right behind the content
    have hread := read_append hcontent bytes
    rw [Nat.zero_add] at hread
    exact hread

/-- A connected session with one read into the free tail of a buffer that holds
    the rest of the stream `bs`. -/
structure Listening (s : recv_session σ) (bs : List UInt8) : Prop where
  connecting : s._state = .CONNECTING
  holds : ∃ recv, s.BufferHolds recv (protocol_head.format.cut bs).2 ∧
    s.reads = [read_target recv]
  passed_eq : s.passed = (protocol_head.format.cut bs).1.map unpack_frame

/-- After the extraction loop, `async_recv_loop` listens for more. -/
theorem listening_async_recv_loop {s : recv_session σ} {bs : List UInt8}
    (hstate : s._state = .CONNECTING) (hreads : s.reads = [])
    (hheld : s.Held (protocol_head.format.cut bs).2)
    (hpassed : s.passed = (protocol_head.format.cut bs).1.map unpack_frame) :
    (s.async_recv_loop pool).Listening bs := by
  rw [async_recv_loop, if_neg (by simp [hstate])]
  rcases hheld with ⟨hnil, hnone⟩ | ⟨-, recv, hrecv⟩
  · rw [hnone]
    refine ⟨hstate, ⟨_, ⟨rfl, rfl, ?_, ?_, ?_⟩, ?_⟩, hpassed⟩
    · rw [hnil]
      rfl
    · rw [hnil]
      exact Nat.zero_le _
    · rw [hnil]
      rfl
    · simp only [take_buffer, hreads, List.nil_append]
  · rw [hrecv.recv_eq]
    refine ⟨hstate, ⟨recv, ⟨rfl, ?_, ?_, ?_, ?_⟩, ?_⟩, hpassed⟩
    · exact hrecv.offset_eq
    · exact hrecv.length_eq
    · exact hrecv.length_le
    · exact hrecv.content_eq
    · simp only [hreads, List.nil_append]

variable (pool) in
/-- **One read.** The handler of a read appends the bytes to the stream, passes
    on the frames they complete and listens again. -/
theorem on_read_spec (hL : L.Accepting) {s : recv_session σ} {bs : List UInt8}
    (h : s.Listening bs) (region : read_region) (hregion : s.reads = [region])
    (bytes : List UInt8) (hne : bytes ≠ []) (hfit : bytes.length ≤ region.size) :
    ∃ s₁ s₂, s.received region bytes = .ok s₁ ∧ s₁.pick_loop L pool = .ok s₂ ∧
      s₂.Held (protocol_head.format.cut (bs ++ bytes)).2 ∧
      s.on_read L pool region bytes = .ok (s₂.async_recv_loop pool) ∧
      (s₂.async_recv_loop pool).Listening (bs ++ bytes) := by
  obtain ⟨hstate, ⟨recv, hrecv, hreads⟩, hpassed⟩ := h
  obtain rfl : read_target recv = region := by
    rw [hreads] at hregion
    exact List.singleton_inj.mp hregion
  obtain ⟨s₁, recv₁, hreceived, hrecv₁, hpassed₁, hreads₁, hstate₁⟩ := received_spec hrecv hfit
  have hne₁ : (protocol_head.format.cut bs).2 ++ bytes ≠ [] := by
    simp [hne]
  obtain ⟨s₂, hloop, hheld₂, hpassed₂, hreads₂, hstate₂⟩ := pick_loop_spec hL hrecv₁ hne₁
  have hcut := cut_append (F := protocol_head.format) bs bytes
  have hheld : s₂.Held (protocol_head.format.cut (bs ++ bytes)).2 := by
    rw [hcut]
    exact hheld₂
  refine ⟨s₁, s₂, hreceived, hloop, hheld, ?_, ?_⟩
  · rw [on_read, hreceived, ok_bind, pick_entire_msgs, hloop, ok_bind, pure_eq_ok]
  · apply listening_async_recv_loop (hstate₂.trans (hstate₁.trans hstate)) ?_ hheld
    · rw [hpassed₂, hpassed₁, hpassed, hcut, List.map_append]
    · rw [hreads₂, hreads₁, hreads, List.erase_cons_head]

/-! ### Whole streams -/

variable (L pool) in
/-- The session has received the stream, cut into non-empty reads that each fit
    the region offered for them. `logic` is the logic's state at the start. -/
inductive Delivers (logic : σ) : recv_session σ → List UInt8 → Prop where
  | connected : Delivers logic ((initial .CONNECTING logic).async_recv_loop pool) []
  | read {s s' : recv_session σ} {bs : List UInt8} {region : read_region} {bytes : List UInt8} :
      Delivers logic s bs → s.reads = [region] → bytes ≠ [] → bytes.length ≤ region.size →
      s.on_read L pool region bytes = .ok s' → Delivers logic s' (bs ++ bytes)

theorem Delivers.listening (hL : L.Accepting) {logic : σ} {s : recv_session σ} {bs : List UInt8}
    (h : Delivers L pool logic s bs) : s.Listening bs := by
  induction h with
  | connected =>
    apply listening_async_recv_loop rfl rfl
    · rw [cut_nil]
      exact Or.inl ⟨rfl, rfl⟩
    · rw [cut_nil]
      rfl
  | read _ hregion hne hfit hread ih =>
    obtain ⟨s₁, s₂, -, -, -, hread', hlistening⟩ := on_read_spec pool hL ih _ hregion _ hne hfit
    -- `on_read` is a function, so this is the state it returned
    rw [hread'] at hread
    cases hread
    exact hlistening

/-- **Framing.** However a stream of representable frames is cut into reads, the
    frames passed on are those of the stream, the buffer holds the rest, there is
    room for the next read, and the next read's handler runs through, releasing
    the buffer exactly when nothing is left over. -/
theorem frames_of_delivers (hL : L.Accepting) {logic : σ} {s : recv_session σ} {bs : List UInt8}
    (h : Delivers L pool logic s bs) (hbounded : protocol_head.format.Bounded 65525 bs) :
    s.passed = (protocol_head.format.cut bs).1.map unpack_frame ∧
    (∃ recv, s.BufferHolds recv (protocol_head.format.cut bs).2 ∧ s.reads = [read_target recv] ∧
      0 < (read_target recv).size) ∧
    ∀ region bytes, s.reads = [region] → bytes ≠ [] → bytes.length ≤ region.size →
      ∃ s₁ s₂, s.received region bytes = .ok s₁ ∧ s₁.pick_loop L pool = .ok s₂ ∧
        s₂.Held (protocol_head.format.cut (bs ++ bytes)).2 ∧
        s.on_read L pool region bytes = .ok (s₂.async_recv_loop pool) := by
  have hlistening := h.listening hL
  obtain ⟨hstate, ⟨recv, hrecv, hreads⟩, hpassed⟩ := h.listening hL
  refine ⟨hpassed, ⟨recv, hrecv, hreads, ?_⟩, ?_⟩
  · have hrest := hbounded.length_rest
    have hhead : protocol_head.format.headSize = PROTO_HEAD_SIZE := rfl
    rw [read_target_eq hrecv]
    simp only [hhead, PROTO_HEAD_SIZE, ONCE_BUFFER_SIZE] at hrest ⊢
    omega
  · intro region bytes hregion hne hfit
    obtain ⟨s₁, s₂, hreceived, hloop, hheld, hread, -⟩ :=
      on_read_spec pool hL hlistening _ hregion _ hne hfit
    exact ⟨s₁, s₂, hreceived, hloop, hheld, hread⟩

/-- The head of a keep-alive frame. -/
def keep_alive_head : protocol_head :=
  protocol_head.get_a_head FRAME_KEY 0 0 protocol_cmd.Commands_RoutingTransparent.val false 1

/-- A keep-alive that arrives in two reads at a proxy session is one frame. -/
theorem frames_of_delivers_keep_alive :
    ∃ s, Delivers (proxy_manager.interface zlib.stored 0) (fun _ _ _ => 0)
        (.ok proxy_manager.one_client) s
        (keep_alive_head.bytes.take 4 ++ keep_alive_head.bytes.drop 4) ∧
      s.passed = [(keep_alive_head, [])] := by
  have hL := proxy_manager.accepting_interface zlib.stored 0
  have hcut : protocol_head.format.cut keep_alive_head.bytes = ([(keep_alive_head.bytes, [])], []) := by
    have h := @cut_single keep_alive_head [] rfl
    rwa [List.append_nil] at h
  have hbounded : protocol_head.format.Bounded 65525 keep_alive_head.bytes := by
    rw [Bounded, hcut]
    constructor
    · intro f hf
      rw [List.mem_singleton.mp hf]
      decide
    · intro h
      exact absurd h (by decide)
  have h₀ : Delivers (proxy_manager.interface zlib.stored 0) (fun _ _ _ => 0)
      (.ok proxy_manager.one_client) _ [] := .connected
  obtain ⟨_, s₁, -, -, -, hread₁, hlisten₁⟩ := on_read_spec _ hL (h₀.listening hL) ⟨0, 0, 65536⟩
    rfl (keep_alive_head.bytes.take 4) (by decide) (by decide)
  have h₁ := h₀.read rfl (by decide) (by decide) hread₁
  obtain ⟨recv, hrecv, hreads⟩ := hlisten₁.holds
  have hroom : (keep_alive_head.bytes.drop 4).length ≤ (read_target recv).size := by
    have hpart : protocol_head.format.cut (keep_alive_head.bytes.take 4) =
        ([], keep_alive_head.bytes.take 4) := cut_of_not_complete (by decide)
    rw [read_target_eq hrecv, List.nil_append, hpart]
    simp only
    decide
  obtain ⟨_, s₂, -, -, -, hread₂, -⟩ := on_read_spec _ hL hlisten₁ _ hreads
    (keep_alive_head.bytes.drop 4) (by decide) hroom
  have h₂ := h₁.read hreads (by decide) hroom hread₂
  have hstream : [] ++ keep_alive_head.bytes.take 4 ++ keep_alive_head.bytes.drop 4 =
      keep_alive_head.bytes := rfl
  rw [hstream] at h₂
  refine ⟨_, h₂, ?_⟩
  rw [(frames_of_delivers hL h₂ hbounded).1, hcut]
  rfl

/-! ### Picking when frames may be refused -/

/-- The session holds the bytes `bs`, in a buffer if there are any. -/
def Keeping (s : recv_session σ) (bs : List UInt8) : Prop :=
  (bs = [] ∧ s._recv_not_entire = none) ∨ ∃ recv, s.BufferHolds recv bs

theorem Held.keeping {s : recv_session σ} {bs : List UInt8} (h : s.Held bs) : s.Keeping bs := by
  rcases h with hnone | ⟨-, hrecv⟩
  · exact Or.inl hnone
  · exact Or.inr hrecv

theorem BufferHolds.congr {s s' : recv_session σ} {recv : once_buffer_sptr} {bs : List UInt8}
    (h : s.BufferHolds recv bs) (hs : s'._recv_not_entire = s._recv_not_entire) :
    s'.BufferHolds recv bs :=
  ⟨hs.trans h.recv_eq, h.offset_eq, h.length_eq, h.length_le, h.content_eq⟩

/-- `P` holds of a logic and the frames it has not refused, whatever frame comes next. -/
def Tracks (L : session_logic_interface σ) (P : σ → List (Frame UInt8) → Prop) : Prop :=
  ∀ stale logic done f data_block, P logic done → protocol_head.format.WellFormed f →
    data_block.offset + f.2.length ≤ ONCE_BUFFER_SIZE →
    let msg := L.handle_msg stale logic (unpack_frame f).1 (block_of data_block (unpack_frame f).2)
    (msg.1 = false ∧ P msg.2.1 done) ∨ (msg.1 = true ∧ P msg.2.1 (done ++ [f]))

/-- `s'` is `s` after the frames `frames` were taken off the front of `bs`; `bs'` is left. -/
structure Picked (L : session_logic_interface σ) (P : σ → List (Frame UInt8) → Prop)
    (done : List (Frame UInt8)) (s s' : recv_session σ) (bs : List UInt8)
    (frames : List (Frame UInt8)) (bs' : List UInt8) : Prop where
  stream : bs = serialize frames ++ bs'
  wellFormed : ∀ f ∈ frames, protocol_head.format.WellFormed f
  /-- Nothing complete is left, if nothing is refused. -/
  rest : L.Accepting → ¬ protocol_head.format.Complete bs'
  keeping : s'.Keeping bs'
  reads : s'.reads = s.reads
  state : s'._state = s._state
  tracked : P s'.logic (done ++ frames)

/-- A complete frame is refused, and everything stays, or it is taken off. -/
theorem pick_a_entire_msg_tracked {P : σ → List (Frame UInt8) → Prop} (hP : Tracks L P)
    {s : recv_session σ} {recv : once_buffer_sptr} {done : List (Frame UInt8)} {bs : List UInt8}
    (h : s.BufferHolds recv bs) (hc : protocol_head.format.Complete bs)
    (htracked : P s.logic done) {data_block : once_buffer}
    (hroom : data_block.offset + bs.length ≤ ONCE_BUFFER_SIZE) :
    (¬ L.Accepting ∧ ∃ s' data_block',
      s.pick_a_entire_msg L pool data_block = .ok (false, s', data_block') ∧
      s'.Keeping bs ∧ s'.reads = s.reads ∧ s'._state = s._state ∧ P s'.logic done) ∨
    (∃ s' data_block', s.pick_a_entire_msg L pool data_block = .ok (true, s', data_block') ∧
      s'.Keeping (bs.drop (protocol_head.format.frameSize bs)) ∧ s'.reads = s.reads ∧
      s'._state = s._state ∧ P s'.logic (done ++ [protocol_head.format.firstFrame bs]) ∧
      data_block'.offset ≤ data_block.offset + protocol_head.format.frameSize bs) := by
  have hlen : (protocol_head.format.firstFrame bs).2.length ≤ bs.length := by
    have hsplit := congrArg List.length
      (show (protocol_head.format.firstFrame bs).1 ++ (protocol_head.format.firstFrame bs).2 ++
        bs.drop (protocol_head.format.frameSize bs) = bs from firstFrame_append_drop)
    simp only [List.length_append] at hsplit
    omega
  have hstep := hP (pool s.taken) s.logic done (protocol_head.format.firstFrame bs) data_block
    htracked (wellFormed_firstFrame hc) (by omega)
  have hoffset := L.handle_msg_offset_le (pool s.taken) s.logic
    (unpack_frame (protocol_head.format.firstFrame bs)).1
    (block_of data_block (unpack_frame (protocol_head.format.firstFrame bs)).2)
  rcases pick_a_entire_msg_of_frame L pool h hc hroom with
    ⟨hrefused, hpick⟩ | ⟨haccepted, recv', hpick, hheld⟩
  · rcases hstep with ⟨-, hlogic⟩ | ⟨hnot, -⟩
    · refine Or.inl ⟨?_, _, _, hpick, Or.inr ⟨recv, h.congr rfl⟩, rfl, rfl, hlogic⟩
      intro hL
      rw [hL.handle_msg] at hrefused
      cases hrefused
    · exact absurd (hnot.symm.trans hrefused) nofun
  · rcases hstep with ⟨hnot, -⟩ | ⟨-, hlogic⟩
    · exact absurd (hnot.symm.trans haccepted) nofun
    · exact Or.inr ⟨_, _, hpick, hheld.keeping, rfl, rfl, hlogic, hoffset⟩

variable (pool) in
/-- **The extraction loop** takes frames off the front until one is refused or incomplete. -/
theorem pick_while_picked {P : σ → List (Frame UInt8) → Prop} (hP : Tracks L P) {fuel : Nat}
    {s : recv_session σ} {done : List (Frame UInt8)} {bs : List UInt8} {tmp_buffer : once_buffer}
    (hkeeping : s.Keeping bs) (htracked : P s.logic done) (hfuel : bs.length < fuel)
    (hroom : tmp_buffer.offset + bs.length ≤ ONCE_BUFFER_SIZE) :
    ∃ s' frames bs', pick_while L pool fuel s tmp_buffer = .ok s' ∧
      Picked L P done s s' bs frames bs' := by
  -- on the rounds, as in `pick_while_spec`
  induction fuel generalizing s done bs tmp_buffer with
  | zero => omega
  | succ fuel ih =>
    unfold pick_while
    by_cases hc : protocol_head.format.Complete bs
    · have hne : bs ≠ [] := by
        rintro rfl
        exact absurd hc.1 (by decide)
      rcases hkeeping with ⟨hnil, -⟩ | ⟨recv, hrecv⟩
      · exact absurd hnil hne
      rcases pick_a_entire_msg_tracked hP hrecv hc htracked hroom with
        ⟨hnot, s₁, tmp₁, hpick, hkeeping₁, hreads₁, hstate₁, hlogic₁⟩ |
        ⟨s₁, tmp₁, hpick, hkeeping₁, hreads₁, hstate₁, hlogic₁, hoffset⟩
      · rw [hpick, ok_bind]
        refine ⟨s₁, [], bs, rfl, rfl, nofun, fun hL => absurd hL hnot, hkeeping₁, hreads₁,
          hstate₁, ?_⟩
        rw [List.append_nil]
        exact hlogic₁
      · have hsize := hc.2
        have hpos : 0 < protocol_head.format.frameSize bs := by
          rw [frameSize_eq]
          exact Nat.add_pos_left (by decide) _
        have hrest : (bs.drop (protocol_head.format.frameSize bs)).length =
            bs.length - protocol_head.format.frameSize bs := List.length_drop
        have hroom₁ : tmp₁.offset + (bs.drop (protocol_head.format.frameSize bs)).length ≤
            ONCE_BUFFER_SIZE := by
          omega
        obtain ⟨s₂, frames, bs', hloop, hpicked⟩ := ih hkeeping₁ hlogic₁ (by omega) hroom₁
        rw [hpick, ok_bind]
        refine ⟨s₂, protocol_head.format.firstFrame bs :: frames, bs', hloop, ?_, ?_,
          hpicked.rest, hpicked.keeping, hpicked.reads.trans hreads₁,
          hpicked.state.trans hstate₁, ?_⟩
        · show bs = (_ ++ _) ++ serialize frames ++ bs'
          rw [List.append_assoc, ← hpicked.stream, firstFrame_append_drop]
        · intro f hf
          rcases List.mem_cons.mp hf with rfl | hf
          · exact wellFormed_firstFrame hc
          · exact hpicked.wellFormed f hf
        · rw [List.append_cons]
          exact hpicked.tracked
    · have hpick : s.pick_a_entire_msg L pool tmp_buffer = .ok (false, s, tmp_buffer) := by
        rcases hkeeping with ⟨-, hnone⟩ | ⟨recv, hrecv⟩
        · exact pick_a_entire_msg_of_none hnone tmp_buffer
        · exact pick_a_entire_msg_of_not_complete hrecv hc tmp_buffer
      rw [hpick, ok_bind]
      refine ⟨s, [], bs, rfl, rfl, nofun, fun _ => hc, hkeeping, rfl, rfl, ?_⟩
      rw [List.append_nil]
      exact htracked

theorem Keeping.length_le {s : recv_session σ} {bs : List UInt8} (h : s.Keeping bs) :
    bs.length ≤ ONCE_BUFFER_SIZE := by
  rcases h with ⟨rfl, -⟩ | ⟨recv, hrecv⟩
  · exact Nat.zero_le _
  · exact hrecv.length_le

variable (pool) in
/-- `async_recv_loop` leaves what is kept in a buffer, which may be a new one. -/
theorem Keeping.async_recv_loop {s : recv_session σ} {bs : List UInt8} (h : s.Keeping bs)
    (hstate : s._state = .CONNECTING) :
    (∃ recv, (s.async_recv_loop pool).BufferHolds recv bs ∧
        (s.async_recv_loop pool).reads = s.reads ++ [read_target recv]) ∧
      (s.async_recv_loop pool)._state = .CONNECTING ∧
      (s.async_recv_loop pool).logic = s.logic := by
  unfold recv_session.async_recv_loop
  rw [if_neg (not_not_intro hstate)]
  rcases h with ⟨rfl, hnone⟩ | ⟨recv, hrecv⟩
  · rw [hnone]
    exact ⟨⟨_, ⟨rfl, rfl, rfl, Nat.zero_le _, rfl⟩, rfl⟩, hstate, rfl⟩
  · rw [hrecv.recv_eq]
    exact ⟨⟨recv, hrecv.congr hrecv.recv_eq.symm, rfl⟩, hstate, rfl⟩

variable (pool) in
/-- **Picking** takes frames off the front, and what is left is in a buffer. -/
theorem pick_entire_msgs_picked {P : σ → List (Frame UInt8) → Prop} (hP : Tracks L P)
    {s : recv_session σ} {recv : once_buffer_sptr} {done : List (Frame UInt8)} {bs : List UInt8}
    (h : s.BufferHolds recv bs) (hstate : s._state = .CONNECTING) (htracked : P s.logic done) :
    ∃ s' recv' frames bs', s.pick_entire_msgs L pool = .ok s' ∧ s'._state = .CONNECTING ∧
      s'.BufferHolds recv' bs' ∧ s'.reads = s.reads ++ [read_target recv'] ∧
      bs = serialize frames ++ bs' ∧
      (∀ f ∈ frames, protocol_head.format.WellFormed f) ∧
      (L.Accepting → ¬ protocol_head.format.Complete bs') ∧ P s'.logic (done ++ frames) := by
  have hrounds : rounds { s with taken := s.taken + 1 } = bs.length + 1 := by
    simp only [rounds, h.recv_eq, h.length_eq]
  have hle := h.length_le
  have hkeeping : Keeping { s with taken := s.taken + 1 } bs := Or.inr ⟨recv, h.congr rfl⟩
  have hroom : (TEMP_BUFFER (pool s.taken 0)).offset + bs.length ≤ ONCE_BUFFER_SIZE := by
    simp only [TEMP_BUFFER]
    omega
  obtain ⟨s₁, frames, bs', hloop, hpicked⟩ :=
    pick_while_picked pool hP hkeeping htracked (Nat.lt_succ_self _) hroom
  have hloop' : s.pick_loop L pool = .ok s₁ := by
    unfold pick_loop
    simp only [take_buffer]
    rw [hrounds]
    exact hloop
  obtain ⟨⟨recv', hrecv', hreads'⟩, hstate', hlogic⟩ :=
    hpicked.keeping.async_recv_loop pool (hpicked.state.trans hstate)
  rw [hpicked.reads] at hreads'
  refine ⟨_, recv', frames, bs', ?_, hstate', hrecv', hreads', hpicked.stream,
    hpicked.wellFormed, hpicked.rest, ?_⟩
  · unfold pick_entire_msgs
    rw [hloop', ok_bind, pure_eq_ok]
  · rw [hlogic]
    exact hpicked.tracked

/-- A read changes the buffer, not the logic. -/
theorem received_logic {s s' : recv_session σ} {region : read_region} {bytes : List UInt8}
    (h : s.received region bytes = .ok s') : s'.logic = s.logic := by
  unfold received at h
  simp only at h
  have hbytes : ({ s with reads := s.reads.erase region }.receive_bytes region bytes).logic =
      s.logic := by
    unfold receive_bytes
    split
    · rfl
    · split <;> rfl
  generalize { s with reads := s.reads.erase region }.receive_bytes region bytes = t at h hbytes
  unfold add_length at h
  split at h
  · cases h
  · cases h
    exact hbytes

end recv_session

end AsioNet
