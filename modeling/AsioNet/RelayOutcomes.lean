import AsioNet.AccessBounds
import AsioNet.SentContent

/-! # What a relayed frame comes to

    A frame from a client is inflated behind the space for its head and the uid, one
    from a game server is copied there. What becomes of it, in terms of the frame and
    the logic alone: it is dropped, it leaves a buffer, or known bytes are sent on.
-/

namespace AsioNet

open ByteMemory reusabel_buffer proto_mask proxy_manager

/-! ### Data from a client -/

/-- What becomes of a stream: it leaves the output, ends in an error of its data, or is
    stored. -/
theorem gzip.decompress_loop_eq {size : Nat} (hpos : size ≠ 0) (hsize : size ≤ ONCE_BUFFER_SIZE)
    (output : once_buffer) (size_uncompressed : Nat) (rest : List UInt8) (ret : inflate_ret)
    (hoff : output.offset + size_uncompressed ≤ ONCE_BUFFER_SIZE) :
    decompress_loop size output size_uncompressed rest ret =
      if ONCE_BUFFER_SIZE < output.offset + size_uncompressed + rest.length then
        .error .out_of_bounds
      else if ret = .Z_DATA_ERROR then .ok none
      else .ok (some { output with
        length := size_uncompressed + rest.length
        _buffer := write output._buffer (output.offset + size_uncompressed) rest }) := by
  have hbytes : ONCE_BUFFER_SIZE = 65536 := rfl
  have hzero : (output.resize (size_uncompressed + 2 * size)).buffer 0 = output.offset :=
    buffer_zero_of_eq rfl (by omega)
  rw [decompress_loop, if_neg (by omega)]
  simp only [hzero]
  by_cases hfit : output.offset + size_uncompressed + (rest.take (2 * size)).length ≤
      ONCE_BUFFER_SIZE
  · rw [store_of_le _ hfit, ok_bind]
    rw [List.length_take] at hfit
    by_cases hbad : rest.length ≤ 2 * size ∧ ret = .Z_DATA_ERROR
    · rw [if_pos hbad, if_neg (by omega), if_pos hbad.2, pure_eq_ok]
    by_cases hle : 2 * size ≤ rest.length
    · -- `avail_out == 0`: the loop goes on behind the piece just stored
      have hrest := gzip.decompress_loop_eq hpos hsize { output with
        length := size_uncompressed + 2 * size
        _buffer := write output._buffer (output.offset + size_uncompressed) (rest.take (2 * size)) }
        (size_uncompressed + 2 * size) (rest.drop (2 * size)) ret (by simp only; omega)
      have hlen : size_uncompressed + 2 * size + (rest.drop (2 * size)).length =
          size_uncompressed + rest.length := by
        rw [List.length_drop]
        omega
      have hend : output.offset + (size_uncompressed + 2 * size) + (rest.drop (2 * size)).length =
          output.offset + size_uncompressed + rest.length := by
        rw [List.length_drop]
        omega
      rw [if_neg hbad, dif_pos hle, dif_neg hpos]
      refine Eq.trans hrest ?_
      simp only [hlen, hend]
      simp only [← Nat.add_assoc output.offset, gzip.write_take_drop _ _ _ _ hle]
    · -- the last piece
      have hret : ret ≠ .Z_DATA_ERROR := fun h => hbad ⟨by omega, h⟩
      rw [if_neg hbad, dif_neg hle, if_neg (by omega), if_neg hret,
        List.take_of_length_le (by omega)]
      rfl
  · rw [store_of_lt _ (Nat.not_le.mp hfit), error_bind, if_pos]
    rw [List.length_take] at hfit
    omega
termination_by rest.length
decreasing_by
  simp only [List.length_drop]
  omega

theorem same_empty {SIZE : Nat} {b b' : reusabel_buffer SIZE} (hoff : b.offset = b'.offset)
    (hb : b.length = 0) (hb' : b'.length = 0) : b.SameContent b' where
  offset := hoff
  length := hb.trans hb'.symm
  content := by rw [content, content, hb, hb', read_zero, read_zero]

namespace client_session_logic

/-- The data a frame brings, unless it is dropped. A body that is not compressed is never
    copied to the output. -/
def received_data (z : zlib) (l : client_session_logic) (head : protocol_head)
    (body : List UInt8) : Option (List UInt8) :=
  if head.seq ≠ l._seq + 1 ∨ get_mask head.bytes body ≠ 0 then none
  else if head.len = 0 ∨ head.get_compressed = false then some []
  else
    match z.inflate (l.decrypt body) with
    | none => none
    | some run => if run.ret = .Z_DATA_ERROR then none else some run.output

/-- The output with the data behind the space for head and uid. -/
def unwrapped_block (held : Nat → UInt8) (data : List UInt8) : once_buffer where
  offset := PROTO_HEAD_SIZE + SIZEOF_SESSION_UID
  length := data.length
  _buffer := write held (PROTO_HEAD_SIZE + SIZEOF_SESSION_UID) data

theorem length_decrypt (l : client_session_logic) (data : List UInt8) :
    (l.decrypt data).length = data.length :=
  rc4.length_rc4_crypt ..

/-- What becomes of a compressed body, whatever the output held. -/
theorem decompress_eq (z : zlib) {src : once_buffer} (out : Nat → UInt8) {plain : List UInt8}
    (hoff : src.offset = 0) (hload : src.load 0 plain.length = .ok plain) (hne : plain.length ≠ 0)
    (hle : plain.length ≤ ONCE_BUFFER_SIZE) :
    gzip.decompress z (unwrapped_block out []) src (src.buffer 0) plain.length =
      match z.inflate plain with
      | none => .ok none
      | some run =>
        if ONCE_BUFFER_SIZE < PROTO_HEAD_SIZE + SIZEOF_SESSION_UID + run.output.length then
          .error .out_of_bounds
        else if run.ret = .Z_DATA_ERROR then .ok none
        else .ok (some (unwrapped_block out run.output)) := by
  have hsize : ONCE_BUFFER_SIZE = 65536 := rfl
  have hspace : PROTO_HEAD_SIZE + SIZEOF_SESSION_UID + 0 ≤ ONCE_BUFFER_SIZE := by decide
  rw [gzip.decompress, if_neg (by omega), buffer_zero_of_eq hoff (Nat.zero_le _), hload, ok_bind]
  cases z.inflate plain with
  | none => rfl
  | some run =>
    simp only
    rw [gzip.decompress_loop_eq hne hle _ 0 run.output run.ret hspace]
    simp only [unwrapped_block, write_nil, Nat.add_zero, Nat.zero_add]

/-- What unwrapping one frame comes to, whatever the buffers held. -/
theorem unwrap_cases (z : zlib) (l : client_session_logic) (head : protocol_head)
    {body : List UInt8} (hlen : head.len.toNat = body.length) :
    (¬ l.OutputFits z head body ∧
      ∀ held out, l.unwrap_received_data z (received_block held body) head
        { TEMP_BUFFER out with offset := l.prefix_size } = .error .out_of_bounds) ∨
    (l.OutputFits z head body ∧ l.received_data z head body = none ∧
      ∀ held out, ∃ b ret, l.unwrap_received_data z (received_block held body) head
        { TEMP_BUFFER out with offset := l.prefix_size } =
          .ok ⟨false, { l with _seq := l._seq + 1 }, b, ret⟩) ∨
    (l.OutputFits z head body ∧ ∃ data, l.received_data z head body = some data ∧
      PROTO_HEAD_SIZE + SIZEOF_SESSION_UID + data.length ≤ ONCE_BUFFER_SIZE ∧
      ∀ held out, ∃ b, l.unwrap_received_data z (received_block held body) head
        { TEMP_BUFFER out with offset := l.prefix_size } =
          .ok ⟨true, { l with _seq := l._seq + 1 }, b, unwrapped_block out data⟩) := by
  have hsize : ONCE_BUFFER_SIZE = 65536 := rfl
  have hbody : body.length ≤ ONCE_BUFFER_SIZE := by
    have hlt := head.len.toNat_lt
    omega
  have hspace : PROTO_HEAD_SIZE + SIZEOF_SESSION_UID + 0 ≤ ONCE_BUFFER_SIZE := by decide
  -- the output as it came
  have hempty (out : Nat → UInt8) : unwrapped_block out [] =
      { TEMP_BUFFER out with offset := l.prefix_size } := by
    rw [unwrapped_block, write_nil]
    rfl
  simp only [unwrap_received_data, crypt, hlen, received_block_buffer,
    load_received_block _ hbody, ok_bind]
  unfold OutputFits received_data
  -- the sequence and the mask are checked before anything is decrypted
  by_cases hseq : head.seq ≠ l._seq + 1
  · right; left
    refine ⟨fun h => absurd h hseq, if_pos (Or.inl hseq), ?_⟩
    intro held out
    rw [if_pos hseq]
    exact ⟨_, _, rfl⟩
  by_cases hmask : 0 ≠ get_mask head.bytes body
  · right; left
    refine ⟨fun _ h => absurd h.symm hmask, if_pos (Or.inr hmask.symm), ?_⟩
    intro held out
    rw [if_neg hseq, if_pos hmask]
    exact ⟨_, _, rfl⟩
  have htaken : ¬ (head.seq ≠ l._seq + 1 ∨ get_mask head.bytes body ≠ 0) :=
    not_or.mpr ⟨hseq, fun h => hmask h.symm⟩
  rw [if_neg htaken]
  -- an empty body is handed on as it came
  by_cases hzero : head.len = 0
  · right; right
    refine ⟨fun _ _ h => absurd hzero h, [], if_pos (Or.inl hzero), hspace, ?_⟩
    intro held out
    rw [if_neg hseq, if_neg hmask, if_pos hzero, hempty]
    exact ⟨_, rfl⟩
  -- the body is decrypted in place, in the left-over buffer it was received into
  have hdecrypt_len : (l.decrypt body).length = body.length := l.length_decrypt body
  have hdecrypt : rc4.rc4_crypt l._rc4_info.rc4_modvt_ l._rc4_info.rc4_key_ body
      l._rc4_info.rc4_subtract_ false = l.decrypt body := rfl
  have hcrypt (held : Nat → UInt8) : (received_block held body).store 0 (l.decrypt body) =
      .ok (received_block (write held 0 body) (l.decrypt body)) := by
    rw [store_of_le _ (by omega)]
    unfold received_block
    rw [hdecrypt_len]
  simp only [if_neg hseq, if_neg hmask, if_neg hzero, hdecrypt, hcrypt, ok_bind]
  cases hcompressed : head.get_compressed with
  | false =>
    -- what was not compressed stays in the received buffer, the output is empty
    right; right
    refine ⟨fun _ _ _ h => absurd h Bool.false_ne_true, [], if_pos (Or.inr rfl), hspace, ?_⟩
    intro held out
    rw [if_neg Bool.false_ne_true, hempty]
    exact ⟨_, rfl⟩
  | true =>
    have hne : (l.decrypt body).length ≠ 0 := by
      intro hnil
      apply hzero
      rw [← UInt16.toNat_inj, hlen, ← hdecrypt_len, hnil]
      rfl
    have hplain (held out : Nat → UInt8) := decompress_eq z out
      (show (received_block (write held 0 body) (l.decrypt body)).offset = 0 from rfl)
      (load_received_block (write held 0 body) (by omega)) hne (by omega)
    simp only [hempty, hdecrypt_len] at hplain
    simp only [if_true, hplain]
    rw [if_neg (not_or.mpr ⟨hzero, Bool.false_ne_true.symm⟩)]
    have hseq := not_not.mp hseq
    have hmask := (not_not.mp hmask).symm
    -- only here a frame may leave the output: inflate decides how long it gets
    cases hrun : z.inflate (l.decrypt body) with
    | none =>
      right; left
      refine ⟨fun _ _ _ _ run h => absurd h.symm (Option.some_ne_none run), rfl, ?_⟩
      intro held out
      exact ⟨_, _, rfl⟩
    | some run =>
      simp only
      by_cases hover :
          ONCE_BUFFER_SIZE < PROTO_HEAD_SIZE + SIZEOF_SESSION_UID + run.output.length
      · left
        refine ⟨?_, ?_⟩
        · intro hfits
          exact absurd (hfits hseq hmask hzero trivial run rfl) (Nat.not_le.mpr hover)
        · intro held out
          rw [if_pos hover, error_bind]
      · have hfits : PROTO_HEAD_SIZE + SIZEOF_SESSION_UID + run.output.length ≤
            ONCE_BUFFER_SIZE := Nat.not_lt.mp hover
        have hall : ∀ run', some run = some run' →
            PROTO_HEAD_SIZE + SIZEOF_SESSION_UID + run'.output.length ≤ ONCE_BUFFER_SIZE := by
          intro run' hrun'
          rw [← Option.some.inj hrun']
          exact hfits
        simp only [if_neg hover]
        by_cases hbad : run.ret = .Z_DATA_ERROR
        · right; left
          refine ⟨fun _ _ _ _ => hall, if_pos hbad, ?_⟩
          intro held out
          rw [if_pos hbad, ok_bind]
          exact ⟨_, _, rfl⟩
        · right; right
          refine ⟨fun _ _ _ _ => hall, run.output, if_neg hbad, hfits, ?_⟩
          intro held out
          rw [if_neg hbad, ok_bind]
          exact ⟨_, rfl⟩

/-- The data with the uid in front, as `try_copy_to_storage` sends it. -/
def with_uid (data : once_buffer) (uid : session_uid) : once_buffer where
  offset := PROTO_HEAD_SIZE
  length := data.length
  _buffer := write data._buffer PROTO_HEAD_SIZE (write_uint32 uid)

theorem try_copy_to_storage_of_offset (z : zlib) (stale : recycled) (w : proxy_manager)
    (i : session_sptr) (l : client_session_logic) {data : once_buffer}
    (hoff : data.offset = PROTO_HEAD_SIZE + SIZEOF_SESSION_UID) :
    l.try_copy_to_storage z stale w i data =
      (w.send_to_server z (stale 0) l._target_uid (with_uid data (w.sessions i)._uuid) >>=
        fun w => pure (true, w)) := by
  have hsub : size_t_sub data.offset SIZEOF_SESSION_UID = PROTO_HEAD_SIZE := by
    rw [hoff]
    rfl
  rw [try_copy_to_storage, store_of_le _ (by rw [origin_buffer_eq, length_write_uint32]; decide),
    ok_bind]
  simp only [origin_buffer_eq, hsub]
  rfl

theorem content_with_uid {data : once_buffer} (uid : session_uid)
    (hoff : data.offset = PROTO_HEAD_SIZE + SIZEOF_SESSION_UID) :
    (with_uid data uid).content = (write_uint32 uid ++ data.content).take data.length := by
  have huid : (write_uint32 uid).length = 4 := length_write_uint32 uid
  -- uid and data are adjacent
  have hboth : read (with_uid data uid)._buffer PROTO_HEAD_SIZE (4 + data.length) =
      write_uint32 uid ++ data.content := by
    rw [with_uid, read_add, read_write_of_length _ _ _ _ huid,
      read_write_of_disjoint _ _ _ _ _ (Or.inr (by rw [huid])), content, hoff]
    rfl
  rw [← hboth, take_read _ _ _ _ (by omega)]
  rfl

theorem content_unwrapped_block (held : Nat → UInt8) (data : List UInt8) :
    (unwrapped_block held data).content = data := by
  unfold unwrapped_block content
  rw [read_write]

/-- What relaying a frame from the client comes to: it leaves the output, is dropped, or
    its data is sent behind the uid. -/
theorem on_frame_cases (z : zlib) {w : proxy_manager} {i : session_sptr}
    {l : client_session_logic} (hl : (w.sessions i)._logic = .client_session l)
    (head : protocol_head) {body : List UInt8} (hlen : head.len.toNat = body.length) :
    (¬ l.OutputFits z head body ∧ ∀ stale, w.on_frame z stale i head body =
      .error .out_of_bounds) ∨
    (l.OutputFits z head body ∧ l.received_data z head body = none ∧
      ∀ stale, w.on_frame z stale i head body =
        .ok (w.set_logic i (.client_session { l with _seq := l._seq + 1 }))) ∨
    (l.OutputFits z head body ∧ ∃ data, l.received_data z head body = some data ∧
      PROTO_HEAD_SIZE + SIZEOF_SESSION_UID + data.length ≤ ONCE_BUFFER_SIZE ∧
      ∀ stale : recycled, w.on_frame z stale i head body =
        (w.set_logic i (.client_session { l with _seq := l._seq + 1 })).send_to_server z (stale 2)
          l._target_uid (with_uid (unwrapped_block (stale 1) data) (w.sessions i)._uuid)) := by
  have hprefix : (w.sessions i)._logic.prefix_size = l.prefix_size := by
    rw [hl]
    rfl
  rcases l.unwrap_cases z head hlen with ⟨hfits, hrun⟩ | ⟨hfits, hdata, hrun⟩ |
    ⟨hfits, data, hdata, hdata_fit, hrun⟩
  · left
    refine ⟨hfits, ?_⟩
    intro stale
    rw [on_frame_eq, hprefix]
    simp only [proxy_manager.unwrap_received_data, hl, hrun, error_bind]
  · right; left
    refine ⟨hfits, hdata, ?_⟩
    intro stale
    obtain ⟨b, ret, hb⟩ := hrun (stale 0) (stale 1)
    rw [on_frame_eq, hprefix]
    simp only [proxy_manager.unwrap_received_data, hl, hb, ok_bind, pure_eq_ok, if_true]
  · right; right
    refine ⟨hfits, data, hdata, hdata_fit, ?_⟩
    intro stale
    obtain ⟨b, hb⟩ := hrun (stale 0) (stale 1)
    rw [on_frame_eq, hprefix]
    simp only [proxy_manager.unwrap_received_data, hl, hb, ok_bind, pure_eq_ok,
      Bool.true_eq_false, if_false, proxy_manager.try_copy_to_storage, sessions_set_logic_self,
      basic_async_session.logic_modify_session_logic]
    rw [try_copy_to_storage_of_offset _ _ _ _ _ rfl, sessions_set_logic_self,
      basic_async_session.uuid_modify_session_logic]
    generalize (w.set_logic i (.client_session { l with _seq := l._seq + 1 })).send_to_server z
      (stale 2) l._target_uid _ = sent
    cases sent with
    | ok w' => rfl
    | error e => rfl

/-- **From a client** the same is relayed, and nothing leaves its buffer exactly if the
    inflated body and what is sent of it fit theirs. -/
theorem relay_of_same (z : zlib) {w : proxy_manager} {i : session_sptr}
    {l : client_session_logic} (hl : (w.sessions i)._logic = .client_session l)
    (head : protocol_head) {body : List UInt8} (hlen : head.len.toNat = body.length)
    (stale stale' : recycled) :
    w.on_frame z stale i head body = w.on_frame z stale' i head body ∧
      (Determined (w.on_frame z stale i head body) ↔ l.OutputFits z head body ∧
        ∀ data, l.received_data z head body = some data →
          w.SendToFits z w._server_sessions l._target_uid
            ((write_uint32 (w.sessions i)._uuid ++ data).take data.length)) := by
  rcases on_frame_cases z hl head hlen with ⟨hfits, hrun⟩ | ⟨hfits, hdata, hrun⟩ |
    ⟨hfits, data, hdata, hdata_fit, hrun⟩
  · rw [hrun, hrun]
    exact ⟨rfl, iff_of_false not_determined_out_of_bounds fun h => hfits h.1⟩
  · rw [hrun, hrun]
    refine ⟨rfl, iff_of_true (determined_ok _) ⟨hfits, ?_⟩⟩
    intro data h
    rw [hdata] at h
    cases h
  · have hcontent (held : Nat → UInt8) :
        (with_uid (unwrapped_block held data) (w.sessions i)._uuid).content =
          (write_uint32 (w.sessions i)._uuid ++ data).take data.length := by
      rw [content_with_uid _ rfl, content_unwrapped_block]
      rfl
    have hsame : (with_uid (unwrapped_block (stale 1) data) (w.sessions i)._uuid).SameContent
        (with_uid (unwrapped_block (stale' 1) data) (w.sessions i)._uuid) :=
      ⟨rfl, rfl, (hcontent _).trans (hcontent _).symm⟩
    have hfit : PROTO_HEAD_SIZE +
        (with_uid (unwrapped_block (stale 1) data) (w.sessions i)._uuid).length ≤
          ONCE_BUFFER_SIZE := by
      show PROTO_HEAD_SIZE + data.length ≤ ONCE_BUFFER_SIZE
      omega
    rw [hrun, hrun]
    refine ⟨send_to_of_same _ z _ _ hsame rfl hfit _ _, ?_⟩
    have hlogic : (session_logic.client_session { l with _seq := l._seq + 1 }).compresses =
        (w.sessions i)._logic.compresses := by
      rw [hl]
      rfl
    refine (determined_send_to_iff _ z (stale 2) _ _ rfl hfit).trans ?_
    rw [sendToFits_set_logic hlogic, hcontent]
    constructor
    · intro h
      refine ⟨hfits, ?_⟩
      intro data' hdata'
      rw [hdata] at hdata'
      cases hdata'
      exact h
    · intro h
      exact h.2 data hdata

end client_session_logic

/-! ### Data from a game server -/

namespace server_session_logic

/-- The frame is not dropped. -/
def Taken (l : server_session_logic) (head : protocol_head) (body : List UInt8) : Prop :=
  head.seq = l._seq + 1 ∧ get_mask head.bytes body = 0 ∧ head.len ≠ 0

/-- A body stored behind the prefix. -/
def stored_block (held : Nat → UInt8) (body : List UInt8) : once_buffer where
  offset := PROTO_HEAD_SIZE - SIZEOF_SESSION_UID
  length := body.length
  _buffer := write held (PROTO_HEAD_SIZE - SIZEOF_SESSION_UID) body

theorem content_stored_block (held : Nat → UInt8) (body : List UInt8) :
    (stored_block held body).content = body := by
  unfold stored_block content
  rw [read_write]

/-- What unwrapping one frame comes to, whatever the buffers held. -/
theorem unwrap_cases (l : server_session_logic) (head : protocol_head) {body : List UInt8}
    (hlen : head.len.toNat = body.length) :
    (¬ l.Taken head body ∧
      ∀ held out, l.unwrap_received_data (received_block held body) head
          { TEMP_BUFFER out with offset := l.prefix_size } =
        .ok ⟨false, { l with _seq := l._seq + 1 }, received_block held body,
          { TEMP_BUFFER out with offset := l.prefix_size }⟩) ∨
    (l.Taken head body ∧ ONCE_BUFFER_SIZE < l.prefix_size + body.length ∧
      ∀ held out, l.unwrap_received_data (received_block held body) head
        { TEMP_BUFFER out with offset := l.prefix_size } = .error .out_of_bounds) ∨
    (l.Taken head body ∧ l.prefix_size + body.length ≤ ONCE_BUFFER_SIZE ∧
      ∀ held out, l.unwrap_received_data (received_block held body) head
          { TEMP_BUFFER out with offset := l.prefix_size } =
        .ok ⟨true, { l with _seq := l._seq + 1 }, received_block held body,
          stored_block out body⟩) := by
  have hsize : ONCE_BUFFER_SIZE = 65536 := rfl
  have hbody : body.length ≤ ONCE_BUFFER_SIZE := by
    have hlt := head.len.toNat_lt
    omega
  have hpos (out : Nat → UInt8) :
      ({ TEMP_BUFFER out with offset := l.prefix_size } : once_buffer).buffer 0 =
        l.prefix_size :=
    buffer_zero_of_eq rfl (show PROTO_HEAD_SIZE - SIZEOF_SESSION_UID ≤ ONCE_BUFFER_SIZE by decide)
  simp only [unwrap_received_data, hlen, received_block_buffer, load_received_block _ hbody,
    ok_bind, hpos]
  unfold Taken
  -- what is refused or empty leaves the output as it came
  by_cases hseq : head.seq ≠ l._seq + 1
  · left
    refine ⟨fun h => hseq h.1, ?_⟩
    intro held out
    rw [if_pos hseq, pure_eq_ok]
  by_cases hmask : 0 ≠ get_mask head.bytes body
  · left
    refine ⟨fun h => hmask h.2.1.symm, ?_⟩
    intro held out
    rw [if_neg hseq, if_pos hmask, pure_eq_ok]
  by_cases hzero : head.len = 0
  · left
    refine ⟨fun h => h.2.2 hzero, ?_⟩
    intro held out
    rw [if_neg hseq, if_neg hmask, if_pos hzero, pure_eq_ok]
  right
  have htaken : head.seq = l._seq + 1 ∧ get_mask head.bytes body = 0 ∧ head.len ≠ 0 :=
    ⟨not_not.mp hseq, (not_not.mp hmask).symm, hzero⟩
  -- the body is copied behind the prefix, which is where it may not fit
  by_cases hfit : l.prefix_size + body.length ≤ ONCE_BUFFER_SIZE
  · right
    refine ⟨htaken, hfit, ?_⟩
    intro held out
    rw [if_neg hseq, if_neg hmask, if_neg hzero, store_of_le _ hfit, ok_bind]
    rfl
  · left
    refine ⟨htaken, Nat.not_le.mp hfit, ?_⟩
    intro held out
    rw [if_neg hseq, if_neg hmask, if_neg hzero, store_of_lt _ (Nat.not_le.mp hfit), error_bind]

/-- What relaying a frame from a game server comes to: it is dropped, leaves the buffer, or
    is stored and sent on. -/
theorem on_frame_cases (z : zlib) {w : proxy_manager} {i : session_sptr}
    {l : server_session_logic} (hl : (w.sessions i)._logic = .server_session l)
    (head : protocol_head) {body : List UInt8} (hlen : head.len.toNat = body.length) :
    (¬ l.Taken head body ∧ ∀ stale, w.on_frame z stale i head body =
      .ok (w.set_logic i (.server_session { l with _seq := l._seq + 1 }))) ∨
    (l.Taken head body ∧ ONCE_BUFFER_SIZE < l.prefix_size + body.length ∧
      ∀ stale, w.on_frame z stale i head body = .error .out_of_bounds) ∨
    (l.Taken head body ∧ l.prefix_size + body.length ≤ ONCE_BUFFER_SIZE ∧
      ∀ stale : recycled, w.on_frame z stale i head body =
        ({ l with _seq := l._seq + 1 }.try_copy_to_storage z (fun n => stale (n + 2))
          (w.set_logic i (.server_session { l with _seq := l._seq + 1 }))
          (stored_block (stale 1) body) head).map Prod.snd) := by
  have hprefix : (w.sessions i)._logic.prefix_size = l.prefix_size := by
    rw [hl]
    rfl
  rcases l.unwrap_cases head hlen with ⟨htaken, hrun⟩ | ⟨htaken, hlong, hrun⟩ |
    ⟨htaken, hfit, hrun⟩
  · left
    refine ⟨htaken, ?_⟩
    intro stale
    rw [on_frame_eq, hprefix]
    simp only [proxy_manager.unwrap_received_data, hl, hrun, ok_bind, pure_eq_ok, if_true]
  · right; left
    refine ⟨htaken, hlong, ?_⟩
    intro stale
    rw [on_frame_eq, hprefix]
    simp only [proxy_manager.unwrap_received_data, hl, hrun, error_bind]
  · right; right
    refine ⟨htaken, hfit, ?_⟩
    intro stale
    rw [on_frame_eq, hprefix]
    simp only [proxy_manager.unwrap_received_data, hl, hrun, ok_bind, pure_eq_ok,
      Bool.true_eq_false, if_false, proxy_manager.try_copy_to_storage, sessions_set_logic_self,
      basic_async_session.logic_modify_session_logic]
    generalize ({ l with _seq := l._seq + 1 } : server_session_logic).try_copy_to_storage z
      (fun n => stale (n + 2)) _ _ head = copied
    cases copied with
    | ok r => rfl
    | error e => rfl

/-- The uid a broadcast lists at `k`. -/
def target (body : List UInt8) (k : Nat) : session_uid :=
  read_uint32 ((body.drop (2 + k * 4)).take 4)

/-- One round of a broadcast's loop is silent if its target is not connected. -/
theorem silent_relay_to_target_iff (l : server_session_logic) (w : proxy_manager) {k : Nat}
    {data mutable_buffer : once_buffer} (hk : 2 + k * 4 + 4 ≤ data.length)
    (hfit : data.offset + data.length ≤ ONCE_BUFFER_SIZE) (hoff : mutable_buffer.offset = 0)
    (hlen : mutable_buffer.length = 0) (stale : recycled) :
    ∃ w', l.relay_to_target stale data mutable_buffer w k = .ok w' ∧
      (Silent w w' ↔ w.Unconnected w._client_sessions (target data.content k)) := by
  have hsize : ONCE_BUFFER_SIZE = 65536 := rfl
  have huid : read data._buffer (data.offset + (2 + k * 4)) 4 =
      (data.content.drop (2 + k * 4)).take 4 := read_part rfl hk
  obtain ⟨head_buffer, hpack, hhead_off, hhead_len⟩ :=
    l.pack_broadcast_head_spec (stale (k + 1)) hoff hlen
  rw [relay_to_target, data.buffer_of_lt (by omega), load_of_le _ (by omega), huid, ok_bind,
    hpack, ok_bind]
  exact silent_send_to_multi_iff _ w _ _ _ (by rw [hhead_off, hhead_len]; decide)
    (by rw [hoff, hlen]; decide)

/-- So is the whole loop, if none of them is. -/
theorem silent_relay_to_targets_iff (l : server_session_logic) {size : Nat}
    {data mutable_buffer : once_buffer} (hin : 2 + 4 * size ≤ data.length)
    (hfit : data.offset + data.length ≤ ONCE_BUFFER_SIZE) (hoff : mutable_buffer.offset = 0)
    (hlen : mutable_buffer.length = 0) (stale : recycled) {ks : List Nat}
    (hks : ∀ k ∈ ks, k < size) (w : proxy_manager) :
    ∃ w', ks.foldlM (relay_to_target stale l data mutable_buffer) w = .ok w' ∧
      (Silent w w' ↔
        ∀ k ∈ ks, w.Unconnected w._client_sessions (target data.content k)) := by
  -- on the rounds: a write of one round does not connect the target of a later one
  induction ks generalizing w with
  | nil => exact ⟨w, rfl, iff_of_true (Silent.refl w) nofun⟩
  | cons k ks ih =>
    have hk := hks k List.mem_cons_self
    obtain ⟨w₁, hround, hsilent⟩ :=
      l.silent_relay_to_target_iff w (by omega) hfit hoff hlen stale (k := k)
    obtain ⟨w', hrounds, hrest⟩ := ih (fun k hk => hks k (List.mem_cons_of_mem _ hk)) w₁
    refine ⟨w', ?_, ?_⟩
    · rw [List.foldlM_cons, hround, ok_bind, hrounds]
    · have hsends := sends_of_relay_to_target hround
      have hsends' := Sends.foldlM (fun _ _ _ => sends_of_relay_to_target) hrounds
      rw [hsends.silent_trans_iff hsends', hsilent, hrest, List.forall_mem_cons,
        hsends.client_sessions]
      simp only [hsends.unconnected_iff]

/-- The copy of the payload has no length. -/
theorem store_payload (held : Nat → UInt8) {payload : List UInt8}
    (hfit : payload.length ≤ ONCE_BUFFER_SIZE) :
    ∃ mutable_buffer, (TEMP_BUFFER held).store ((TEMP_BUFFER held).buffer 0) payload =
      .ok mutable_buffer ∧ mutable_buffer.offset = 0 ∧ mutable_buffer.length = 0 := by
  rw [buffer_zero_of_eq (n := 0) rfl (Nat.zero_le _), store_of_le _ (by omega)]
  exact ⟨_, rfl, rfl, rfl⟩

/-- **A broadcast** that lists all its targets is silent if none of them is connected. -/
theorem silent_broadcast_iff (z : zlib) (l : server_session_logic) (w : proxy_manager)
    (data : once_buffer) {head : protocol_head}
    (hcmd : head.get_cmd = protocol_cmd.Commands_BroadCast.val)
    (hlong : LongEnough head data.content)
    (hfit : data.offset + data.length ≤ ONCE_BUFFER_SIZE) (stale : recycled) :
    ∃ w', l.try_copy_to_storage z stale w data head = .ok (true, w') ∧ Sends w w' ∧
      (Silent w w' ↔ ∀ k < broadcast_count data.content,
        w.Unconnected w._client_sessions (target data.content k)) := by
  have hsize : ONCE_BUFFER_SIZE = 65536 := rfl
  have hcontent_len : data.content.length = data.length := length_read ..
  have hin : 2 + 4 * broadcast_count data.content ≤ data.length := by
    rw [LongEnough, if_pos hcmd, hcontent_len] at hlong
    exact hlong.2
  have hcount : read data._buffer data.offset 2 = data.content.take 2 :=
    (take_read _ _ _ _ (by omega)).symm
  have hrest : (read data._buffer (data.offset + (2 + 4 * broadcast_count data.content))
      (data.length - (2 + 4 * broadcast_count data.content))).length ≤ ONCE_BUFFER_SIZE := by
    rw [length_read]
    omega
  obtain ⟨mutable_buffer, hstore, hoff, hzero⟩ := store_payload (stale 0) hrest
  obtain ⟨w', hrounds, hsilent⟩ := l.silent_relay_to_targets_iff hin hfit hoff hzero stale
    (fun k hk => List.mem_range.mp hk) w
  refine ⟨w', ?_, Sends.foldlM (fun _ _ _ => sends_of_relay_to_target) hrounds, ?_⟩
  · rw [try_copy_to_storage, if_pos hcmd, buffer_zero_of_eq rfl (by omega), load_of_le _ (by omega),
      hcount, ok_bind]
    show data.load (data.buffer (2 + 4 * broadcast_count data.content)) (size_t_sub data.length
      (2 + 4 * broadcast_count data.content)) >>= _ = _
    rw [size_t_sub_of_le hin (by omega), data.buffer_of_lt (by omega), load_of_le _ (by omega),
      ok_bind, hstore, ok_bind]
    show (List.range (broadcast_count data.content)).foldlM
      (relay_to_target stale l data mutable_buffer) w >>= _ = _
    rw [hrounds, ok_bind, pure_eq_ok]
  · rw [hsilent]
    simp only [List.mem_range]

/-- **Data for one client**: what follows the uid is sent. -/
theorem data_for_client (z : zlib) (l : server_session_logic) (w : proxy_manager)
    {body : List UInt8} {head : protocol_head}
    (hcmd : head.get_cmd ≠ protocol_cmd.Commands_BroadCast.val)
    (hlong : SIZEOF_SESSION_UID ≤ body.length)
    (hfit : l.prefix_size + body.length ≤ ONCE_BUFFER_SIZE) :
    ∃ msg : (Nat → UInt8) → once_buffer,
      (∀ held, (msg held).offset = PROTO_HEAD_SIZE ∧
        PROTO_HEAD_SIZE + (msg held).length ≤ ONCE_BUFFER_SIZE ∧
        (msg held).content = body.drop 4) ∧
      ∀ held stale, l.try_copy_to_storage z stale w (stored_block held body) head =
        send_to w._client_sessions z (stale 0) w (read_uint32 (body.take 4)) (msg held) >>=
          fun w => .ok (true, w) := by
  have hsize : ONCE_BUFFER_SIZE = 65536 := rfl
  have hhead : PROTO_HEAD_SIZE = 11 := rfl
  have hwidth : SIZEOF_SESSION_UID = 4 := rfl
  have hprefix : l.prefix_size = 7 := rfl
  refine ⟨fun held => { stored_block held body with
    offset := PROTO_HEAD_SIZE, length := body.length - SIZEOF_SESSION_UID }, ?_, ?_⟩
  · intro held
    refine ⟨rfl, ?_, ?_⟩
    · simp only
      omega
    · exact read_rest (k := 4) (read_write held 7 body) hlong
  · intro held stale
    have huid : (stored_block held body).load ((stored_block held body).buffer 0) 4 =
        .ok (body.take 4) := by
      rw [buffer_zero_of_eq (n := 7) rfl (by decide), load_of_le _ (by decide)]
      exact congrArg Except.ok ((take_read _ _ _ _ hlong).symm.trans
        (congrArg _ (read_write held 7 body)))
    have hadd : size_t_add (stored_block held body).offset SIZEOF_SESSION_UID =
        PROTO_HEAD_SIZE := rfl
    have hsub : size_t_sub (stored_block held body).length SIZEOF_SESSION_UID =
        body.length - SIZEOF_SESSION_UID :=
      size_t_sub_of_le hlong (show body.length < 2 ^ 64 by omega)
    rw [try_copy_to_storage, if_neg hcmd, huid, ok_bind, hadd, hsub]
    rfl

/-- Data that is too short for a uid borrows from what the buffer held: it names a client
    that is not connected, or its length, below zero, is sent there. -/
theorem data_too_short (z : zlib) (l : server_session_logic) (w : proxy_manager)
    {body : List UInt8} {head : protocol_head}
    (hcmd : head.get_cmd ≠ protocol_cmd.Commands_BroadCast.val)
    (hshort : body.length < SIZEOF_SESSION_UID) (held : Nat → UInt8) (stale : recycled) :
    l.try_copy_to_storage z stale w (stored_block held body) head = .ok (true, w) ∧
        w.Unconnected w._client_sessions
          (read_uint32 (body ++ read held (l.prefix_size + body.length) (4 - body.length))) ∨
      l.try_copy_to_storage z stale w (stored_block held body) head = .error .out_of_bounds ∧
        ¬ w.Unconnected w._client_sessions
          (read_uint32 (body ++ read held (l.prefix_size + body.length) (4 - body.length))) := by
  have hwidth : SIZEOF_SESSION_UID = 4 := rfl
  have hprefix : l.prefix_size = 7 := rfl
  have huid : (stored_block held body).load ((stored_block held body).buffer 0) 4 =
      .ok (body ++ read held (l.prefix_size + body.length) (4 - body.length)) := by
    rw [buffer_zero_of_eq (n := 7) rfl (by decide), load_of_le _ (by decide)]
    have hfour : 4 = body.length + (4 - body.length) := by omega
    conv_lhs => rw [hfour, read_add]
    refine congrArg Except.ok (congr (congrArg _ (read_write held 7 body)) ?_)
    exact read_write_of_disjoint held 7 _ _ body (Or.inr (Nat.le_refl _))
  have hadd : size_t_add (stored_block held body).offset SIZEOF_SESSION_UID =
      PROTO_HEAD_SIZE := rfl
  have hsub : size_t_sub (stored_block held body).length SIZEOF_SESSION_UID =
      body.length + 2 ^ 64 - SIZEOF_SESSION_UID :=
    size_t_sub_of_lt hshort (show SIZEOF_SESSION_UID < 2 ^ 64 by decide)
  rw [try_copy_to_storage, if_neg hcmd, huid, ok_bind, hadd, hsub]
  generalize read_uint32 (body ++ read held (l.prefix_size + body.length) (4 - body.length)) = uid
  simp only [send_to_client, send_to, Unconnected]
  cases w._client_sessions.try_get uid with
  | none => exact Or.inl ⟨rfl, fun s h => absurd h.symm (Option.some_ne_none s)⟩
  | some s =>
    by_cases hstate : (w.sessions s)._state = .CONNECTING
    · right
      have hrun := async_send_below_zero z (stale 0) hstate { stored_block held body with
        offset := PROTO_HEAD_SIZE, length := body.length + 2 ^ 64 - SIZEOF_SESSION_UID } rfl
        (by simp only; omega) (by simp only; omega)
      refine ⟨?_, fun h => h s rfl hstate⟩
      simp only [hrun, error_bind]
    · left
      refine ⟨?_, ?_⟩
      · simp only [async_send_of_not_connecting z (stale 0) hstate, ok_bind, pure_eq_ok]
      · intro s' hs'
        rw [← Option.some.inj hs']
        exact hstate

end server_session_logic

end AsioNet
