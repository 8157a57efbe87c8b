import AsioNet.SessionLogic

/-! # Sending on a session (`basic_async_session.cpp`)

    A session wraps outgoing data with the logic it holds at that moment and
    hands the buffer's region to its socket. `written` records the regions given
    to `async_write_some`, in order; together they are the stream the peer sees.
-/

namespace AsioNet

inductive StateSocket where
  | INIT
  | WAIT_CONNECT
  | CONNECTING
  | TO_CLOSE
  | CLOSE_DONE
  deriving DecidableEq, Repr

/-- The part of a session that sends, over the type of its logic. -/
structure basic_async_session (Logic : Type) where
  _state : StateSocket
  _uuid : session_uid
  _logic : Logic
  /-- What `get_remote_ip` reads off the socket. -/
  remote_ip : UInt32
  written : List (List UInt8)

namespace basic_async_session

variable {Logic : Type}

/-- The bytes put on the stream so far. -/
def stream (s : basic_async_session Logic) : List UInt8 := s.written.flatten

/-- `_uuid` of a session constructed when `clock()` reads `clock`. -/
def generate_uuid (clock : Nat) : session_uid := UInt32.ofNat clock

def modify_session_logic (s : basic_async_session Logic) (logic : Logic) :
    basic_async_session Logic :=
  { s with _logic := logic }

/-- `_sock.async_write_some` over one region of memory or several. -/
def async_write_some (s : basic_async_session Logic) (region : List UInt8) :
    basic_async_session Logic :=
  { s with written := s.written ++ [region] }

/-- `wrap` is the logic's `wrap_to_send_data`. -/
def async_send (wrap : Logic → once_buffer → Checked (Logic × once_buffer))
    (s : basic_async_session Logic) (tmp_buffer : once_buffer) :
    Checked (basic_async_session Logic) := do
  if s._state ≠ .CONNECTING then
    pure s
  else
    let (logic, mutable_buffer) ← wrap s._logic tmp_buffer
    let region ← mutable_buffer.load (mutable_buffer.buffer 0) mutable_buffer.length
    pure ((s.modify_session_logic logic).async_write_some region)

/-- The regions are those the list is assigned. The list's array is gone once it is, and
    `async_write_some` reads the place: this is the run that finds it as it was left. -/
def async_send_multi (s : basic_async_session Logic) (head : Option tiny_buffer)
    (msg : Option once_buffer) : Checked (basic_async_session Logic) := do
  if s._state ≠ .CONNECTING then
    pure s
  else
    match head, msg with
    | none, none => throw .null_pointer
    | some head, none => do
      let region ← head.load (head.buffer 0) head.length
      pure (s.async_write_some region)
    | none, some msg => do
      let region ← msg.load (msg.buffer 0) msg.length
      pure (s.async_write_some region)
    | some head, some msg => do
      let region₁ ← head.load (head.buffer 0) head.length
      let region₂ ← msg.load (msg.buffer 0) msg.length
      pure (s.async_write_some (region₁ ++ region₂))

/-! ### Only a connected session writes, and only its own stream changes -/

@[simp] theorem written_async_write_some (s : basic_async_session Logic) (region : List UInt8) :
    (s.async_write_some region).written = s.written ++ [region] := rfl

@[simp] theorem state_async_write_some (s : basic_async_session Logic) (region : List UInt8) :
    (s.async_write_some region)._state = s._state := rfl

@[simp] theorem uuid_async_write_some (s : basic_async_session Logic) (region : List UInt8) :
    (s.async_write_some region)._uuid = s._uuid := rfl

@[simp] theorem logic_async_write_some (s : basic_async_session Logic) (region : List UInt8) :
    (s.async_write_some region)._logic = s._logic := rfl

@[simp] theorem written_modify_session_logic (s : basic_async_session Logic) (logic : Logic) :
    (s.modify_session_logic logic).written = s.written := rfl

@[simp] theorem state_modify_session_logic (s : basic_async_session Logic) (logic : Logic) :
    (s.modify_session_logic logic)._state = s._state := rfl

@[simp] theorem uuid_modify_session_logic (s : basic_async_session Logic) (logic : Logic) :
    (s.modify_session_logic logic)._uuid = s._uuid := rfl

@[simp] theorem logic_modify_session_logic (s : basic_async_session Logic) (logic : Logic) :
    (s.modify_session_logic logic)._logic = logic := rfl

theorem async_send_of_not_connecting (wrap : Logic → once_buffer → Checked (Logic × once_buffer))
    {s : basic_async_session Logic} (h : s._state ≠ .CONNECTING) (tmp_buffer : once_buffer) :
    s.async_send wrap tmp_buffer = .ok s := by
  simp [async_send, h]

/-- A buffer that wraps into a region of the array is written as that region. -/
theorem async_send_of_wrap {wrap : Logic → once_buffer → Checked (Logic × once_buffer)}
    {s : basic_async_session Logic} {tmp_buffer mutable_buffer : once_buffer} {logic : Logic}
    (h : s._state = .CONNECTING) (hwrap : wrap s._logic tmp_buffer = .ok (logic, mutable_buffer))
    (hfit : mutable_buffer.offset + mutable_buffer.length ≤ ONCE_BUFFER_SIZE) :
    s.async_send wrap tmp_buffer =
      .ok ((s.modify_session_logic logic).async_write_some mutable_buffer.content) := by
  have hpos : mutable_buffer.buffer 0 = mutable_buffer.offset := by
    apply reusabel_buffer.buffer_zero
    simp only [ONCE_BUFFER_SIZE] at hfit
    omega
  rw [async_send, if_neg (by simp [h]), hwrap, ok_bind]
  simp only
  rw [hpos, reusabel_buffer.load_of_le _ hfit]
  rfl

theorem async_send_of_wrap_fault
    {wrap : Logic → once_buffer → Checked (Logic × once_buffer)} {s : basic_async_session Logic}
    {tmp_buffer : once_buffer} {e : fault} (h : s._state = .CONNECTING)
    (hwrap : wrap s._logic tmp_buffer = .error e) : s.async_send wrap tmp_buffer = .error e := by
  rw [async_send, if_neg (by simp [h]), hwrap, error_bind]

theorem async_send_multi_of_not_connecting {s : basic_async_session Logic}
    (h : s._state ≠ .CONNECTING) (head : Option tiny_buffer) (msg : Option once_buffer) :
    s.async_send_multi head msg = .ok s := by
  simp [async_send_multi, h]

/-- Buffer and head go out one after the other, as their lengths say. -/
theorem async_send_multi_of_connecting {s : basic_async_session Logic} (h : s._state = .CONNECTING)
    {head : tiny_buffer} {msg : once_buffer}
    (hhead : head.offset + head.length ≤ TINY_ONCE_BUFFER_SIZE)
    (hmsg : msg.offset + msg.length ≤ ONCE_BUFFER_SIZE) :
    s.async_send_multi (some head) (some msg) =
      .ok (s.async_write_some (head.content ++ msg.content)) := by
  have hpos₁ : head.buffer 0 = head.offset := by
    apply reusabel_buffer.buffer_zero
    simp only [TINY_ONCE_BUFFER_SIZE] at hhead
    omega
  have hpos₂ : msg.buffer 0 = msg.offset := by
    apply reusabel_buffer.buffer_zero
    simp only [ONCE_BUFFER_SIZE] at hmsg
    omega
  rw [async_send_multi, if_neg (by simp [h])]
  simp only [hpos₁, hpos₂, reusabel_buffer.load_of_le _ hhead, reusabel_buffer.load_of_le _ hmsg,
    ok_bind]
  rfl

theorem async_send_multi_msg_of_connecting {s : basic_async_session Logic}
    (h : s._state = .CONNECTING) {msg : once_buffer}
    (hmsg : msg.offset + msg.length ≤ ONCE_BUFFER_SIZE) :
    s.async_send_multi none (some msg) = .ok (s.async_write_some msg.content) := by
  have hpos : msg.buffer 0 = msg.offset := by
    apply reusabel_buffer.buffer_zero
    simp only [ONCE_BUFFER_SIZE] at hmsg
    omega
  rw [async_send_multi, if_neg (by simp [h])]
  simp only [hpos, reusabel_buffer.load_of_le _ hmsg, ok_bind]
  rfl

/-- Sending either does nothing or lets the logic wrap the buffer and writes. -/
theorem async_send_eq_ok {wrap : Logic → once_buffer → Checked (Logic × once_buffer)}
    {s s' : basic_async_session Logic} {tmp_buffer : once_buffer}
    (h : s.async_send wrap tmp_buffer = .ok s') :
    s' = s ∨ ∃ r region, wrap s._logic tmp_buffer = .ok r ∧
      s' = (s.modify_session_logic r.1).async_write_some region := by
  by_cases hstate : s._state = .CONNECTING
  · rw [async_send, if_neg (by simp [hstate])] at h
    -- the logic wraps, then the region is read off the buffer
    obtain ⟨r, hwrap, h⟩ := bind_eq_ok.mp h
    obtain ⟨region, -, h⟩ := bind_eq_ok.mp h
    cases h
    exact Or.inr ⟨r, region, hwrap, rfl⟩
  · rw [async_send_of_not_connecting wrap hstate] at h
    cases h
    exact Or.inl rfl

theorem async_send_multi_eq_ok {s s' : basic_async_session Logic} {head : Option tiny_buffer}
    {msg : Option once_buffer} (h : s.async_send_multi head msg = .ok s') :
    s' = s ∨ ∃ region, s' = s.async_write_some region := by
  by_cases hstate : s._state = .CONNECTING
  · simp only [async_send_multi] at h
    rw [if_neg (by simp [hstate])] at h
    split at h
    · cases h
    · obtain ⟨region, -, h⟩ := bind_eq_ok.mp h
      cases h
      exact Or.inr ⟨region, rfl⟩
    · obtain ⟨region, -, h⟩ := bind_eq_ok.mp h
      cases h
      exact Or.inr ⟨region, rfl⟩
    · obtain ⟨region₁, -, h⟩ := bind_eq_ok.mp h
      obtain ⟨region₂, -, h⟩ := bind_eq_ok.mp h
      cases h
      exact Or.inr ⟨region₁ ++ region₂, rfl⟩
  · rw [async_send_multi_of_not_connecting hstate] at h
    cases h
    exact Or.inl rfl

end basic_async_session

end AsioNet
