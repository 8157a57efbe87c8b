import AsioNet.ProxyLogic
import AsioNet.RecvLoop

/-! # A proxy session in the receive loop

    The receive loop of session `i` runs the logic the session holds. None of
    the three logics moves the received body or refuses data, so they are
    instances of the generic interface. `on_frame` is what one received frame
    does to the proxy.
-/

namespace AsioNet

open ByteMemory reusabel_buffer proto_mask

/-! ### What unpacking leaves as it is -/

theorem client_session_logic.crypt_offset {l : client_session_logic} {buffer b : once_buffer}
    {length : Nat} {E : Bool} (h : l.crypt buffer length E = .ok b) : b.offset = buffer.offset := by
  unfold client_session_logic.crypt at h
  obtain ⟨data, -, h⟩ := bind_eq_ok.mp h
  obtain ⟨-, rfl⟩ := store_eq_ok h
  rfl

/-- A client's frame is counted, and the body is decrypted in place. -/
theorem client_session_logic.unwrap_received_data_leaves {z : zlib} {l : client_session_logic}
    {buffer ret_block : once_buffer} {head : protocol_head} {r : unwrapped client_session_logic}
    (h : l.unwrap_received_data z buffer head ret_block = .ok r) :
    r.state = { l with _seq := l._seq + 1 } ∧ r.buffer.offset = buffer.offset := by
  simp only [client_session_logic.unwrap_received_data] at h
  split at h
  · cases h
    exact ⟨rfl, rfl⟩
  obtain ⟨body, -, h⟩ := bind_eq_ok.mp h
  split at h
  · cases h
    exact ⟨rfl, rfl⟩
  split at h
  · cases h
    exact ⟨rfl, rfl⟩
  obtain ⟨b, hb, h⟩ := bind_eq_ok.mp h
  have hoff := client_session_logic.crypt_offset hb
  split at h
  · obtain ⟨ret, -, h⟩ := bind_eq_ok.mp h
    cases ret with
    | none =>
      cases h
      exact ⟨rfl, hoff⟩
    | some ret =>
      cases h
      exact ⟨rfl, hoff⟩
  · cases h
    exact ⟨rfl, hoff⟩

/-- A game server's frame is counted, and nothing else changes. -/
theorem server_session_logic.unwrap_received_data_leaves {l : server_session_logic}
    {buffer ret_block : once_buffer} {head : protocol_head} {r : unwrapped server_session_logic}
    (h : l.unwrap_received_data buffer head ret_block = .ok r) :
    r.state = { l with _seq := l._seq + 1 } ∧ r.buffer = buffer := by
  simp only [server_session_logic.unwrap_received_data] at h
  split at h
  · cases h
    exact ⟨rfl, rfl⟩
  obtain ⟨body, -, h⟩ := bind_eq_ok.mp h
  split at h
  · cases h
    exact ⟨rfl, rfl⟩
  split at h
  · cases h
    exact ⟨rfl, rfl⟩
  obtain ⟨ret, -, h⟩ := bind_eq_ok.mp h
  cases h
  exact ⟨rfl, rfl⟩

/-- Before a session has its kind, nothing it receives is passed on. -/
theorem default_session_logic.unwrap_received_data_leaves {z : zlib} {stale : recycled}
    {w : proxy_manager} {i : session_sptr} {l : default_session_logic}
    {buffer ret_block : once_buffer} {head : protocol_head} {r : unwrapped proxy_manager}
    (h : l.unwrap_received_data z stale w i buffer head ret_block = .ok r) :
    r.accepted = false ∧ r.buffer = buffer := by
  simp only [default_session_logic.unwrap_received_data] at h
  split at h
  · cases h
    exact ⟨rfl, rfl⟩
  obtain ⟨body, -, h⟩ := bind_eq_ok.mp h
  split at h
  · cases h
    exact ⟨rfl, rfl⟩
  split at h
  · obtain ⟨w', -, h⟩ := bind_eq_ok.mp h
    cases h
    exact ⟨rfl, rfl⟩
  · cases h
    exact ⟨rfl, rfl⟩

namespace proxy_manager

theorem unwrap_received_data_offset {z : zlib} {stale : recycled} {w : proxy_manager}
    {i : session_sptr} {buffer ret_block : once_buffer} {head : protocol_head}
    {r : unwrapped proxy_manager}
    (h : w.unwrap_received_data z stale i buffer head ret_block = .ok r) :
    r.buffer.offset = buffer.offset := by
  unfold unwrap_received_data at h
  split at h
  · rw [(default_session_logic.unwrap_received_data_leaves h).2]
  · obtain ⟨r', hr, h⟩ := bind_eq_ok.mp h
    cases h
    exact (client_session_logic.unwrap_received_data_leaves hr).2
  · obtain ⟨r', hr, h⟩ := bind_eq_ok.mp h
    cases h
    rw [(server_session_logic.unwrap_received_data_leaves hr).2]

/-! ### The interface -/

/-- The logic of session `i`, working on the proxy. -/
def interface (z : zlib) (i : session_sptr) : session_logic_interface (Checked proxy_manager) where
  prefix_size
    | .ok w => (w.sessions i)._logic.prefix_size
    | .error _ => 0
  unwrap_received_data stale s buffer head ret_block :=
    match s >>= fun w => w.unwrap_received_data z stale i buffer head ret_block with
    | .ok r => ⟨r.accepted, .ok r.state, r.buffer, r.ret_block⟩
    | .error e => ⟨false, .error e, buffer, ret_block⟩
  try_copy_to_storage stale s data head :=
    match s >>= fun w => w.try_copy_to_storage z stale i data head with
    | .ok copied => (copied.1, .ok copied.2)
    | .error e => (true, .error e)
  unwrap_offset_le stale s buffer head ret_block := by
    split
    · next r h =>
      obtain ⟨w, -, h⟩ := bind_eq_ok.mp h
      simp only [unwrap_received_data_offset h]
      exact Nat.le_add_right ..
    · exact Nat.le_add_right ..

theorem try_copy_to_storage_fst {z : zlib} {stale : recycled} {w : proxy_manager}
    {i : session_sptr} {data : once_buffer} {head : protocol_head} {r : Bool × proxy_manager}
    (h : w.try_copy_to_storage z stale i data head = .ok r) : r.1 = true := by
  unfold try_copy_to_storage at h
  split at h
  · cases h; rfl
  · unfold client_session_logic.try_copy_to_storage at h
    obtain ⟨b, -, h⟩ := bind_eq_ok.mp h
    obtain ⟨w', -, h⟩ := bind_eq_ok.mp h
    cases h; rfl
  · unfold server_session_logic.try_copy_to_storage at h
    split at h
    · -- a broadcast, then data for a single client
      obtain ⟨c, -, h⟩ := bind_eq_ok.mp h
      obtain ⟨c, -, h⟩ := bind_eq_ok.mp h
      obtain ⟨c, -, h⟩ := bind_eq_ok.mp h
      obtain ⟨c, -, h⟩ := bind_eq_ok.mp h
      cases h; rfl
    · obtain ⟨c, -, h⟩ := bind_eq_ok.mp h
      obtain ⟨c, -, h⟩ := bind_eq_ok.mp h
      cases h; rfl

/-- The proxy never refuses data. -/
theorem accepting_interface (z : zlib) (i : session_sptr) : (interface z i).Accepting := by
  intro stale s data head
  simp only [interface]
  split
  · next copied h =>
    obtain ⟨w, -, h⟩ := bind_eq_ok.mp h
    exact try_copy_to_storage_fst h
  · rfl

/-! ### One received frame -/

/-- The buffer `pick_a_entire_msg` hands over, on top of stale content. -/
def received_block (stale : Nat → UInt8) (body : List UInt8) : once_buffer where
  offset := 0
  length := body.length
  _buffer := write stale 0 body

@[simp] theorem received_block_offset (stale : Nat → UInt8) (body : List UInt8) :
    (received_block stale body).offset = 0 := rfl

@[simp] theorem received_block_length (stale : Nat → UInt8) (body : List UInt8) :
    (received_block stale body).length = body.length := rfl

@[simp] theorem received_block_buffer (stale : Nat → UInt8) (body : List UInt8) :
    (received_block stale body).buffer 0 = 0 :=
  buffer_zero_of_eq rfl (Nat.zero_le _)

theorem load_received_block (stale : Nat → UInt8) {body : List UInt8}
    (hle : body.length ≤ ONCE_BUFFER_SIZE) :
    (received_block stale body).load 0 body.length = .ok body :=
  load_of_write rfl rfl (by omega)

/-- What the frame of `head` and `body` does to the proxy when session `i`
    receives it. -/
def on_frame (z : zlib) (stale : recycled) (w : proxy_manager) (i : session_sptr)
    (head : protocol_head) (body : List UInt8) : Checked proxy_manager :=
  ((interface z i).handle_msg (fun n => stale (n + 1)) (.ok w) head
    (received_block (stale 0) body)).2.1

/-- The space kept in front of the data, then unwrapping, then storing. -/
theorem handle_msg_eq (z : zlib) (stale : recycled) (w : proxy_manager) (i : session_sptr)
    (head : protocol_head) (data_block : once_buffer) :
    ((interface z i).handle_msg stale (.ok w) head data_block).2.1 = (do
      let unwrap_data := { TEMP_BUFFER (stale 0) with offset := (w.sessions i)._logic.prefix_size }
      let r ← w.unwrap_received_data z (fun n => stale (n + 1)) i data_block head unwrap_data
      if r.accepted = false then pure r.state
      else
        let copied ← r.state.try_copy_to_storage z (fun n => stale (n + 1)) i r.ret_block head
        pure copied.2) := by
  unfold session_logic_interface.handle_msg
  -- a fault on the way is the outcome, in the interface as in the equation
  cases hr : w.unwrap_received_data z (fun n => stale (n + 1)) i data_block head
      { TEMP_BUFFER (stale 0) with offset := (w.sessions i)._logic.prefix_size } with
  | error e => simp [interface, hr]
  | ok r =>
    cases hacc : r.accepted with
    | false => simp [interface, hr, hacc]
    | true =>
      cases hc : r.state.try_copy_to_storage z (fun n => stale (n + 1)) i r.ret_block head with
      | error e => simp [interface, hr, hacc, hc]
      | ok copied => simp [interface, hr, hacc, hc]

theorem on_frame_eq (z : zlib) (stale : recycled) (w : proxy_manager) (i : session_sptr)
    (head : protocol_head) (body : List UInt8) :
    w.on_frame z stale i head body = (do
      let unwrap_data := { TEMP_BUFFER (stale 1) with offset := (w.sessions i)._logic.prefix_size }
      let r ← w.unwrap_received_data z (fun n => stale (n + 2)) i
        (received_block (stale 0) body) head unwrap_data
      if r.accepted = false then pure r.state
      else
        let copied ← r.state.try_copy_to_storage z (fun n => stale (n + 2)) i r.ret_block head
        pure copied.2) :=
  handle_msg_eq z (fun n => stale (n + 1)) w i head (received_block (stale 0) body)

end proxy_manager

end AsioNet
