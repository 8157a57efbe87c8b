import AsioNet.ActiveServerSessionLogic
import AsioNet.ParallelCore.RingBufferRuns

/-! # From the server session to the application

    `active_server_session_logic::try_copy_to_storage` puts the messages of clients
    into the ring, `active_server_session_mgr::pick_msg` should take them out one by
    one: first the eight bytes in front of the data, which it remembers, then the
    data.

    The test that decides whether these eight bytes are still to be read is the
    wrong way round. With nothing remembered `pick_msg` reads no bytes at all and
    delivers a message of zeros as soon as the ring has ever been written to:
    `client_msgs_in_order_iff`.
-/

namespace AsioNet

open ByteMemory reusabel_buffer

/-! ### The records in the ring -/

/-- A client's message. -/
structure client_msg where
  uid : session_uid
  cmd : UInt16
  data : List UInt8
  deriving DecidableEq

namespace client_msg

/-- `id(4) + cmd(2) + length(2) + data` -/
def record (msg : client_msg) : List UInt8 :=
  write_uint32 msg.uid ++ write_uint16 msg.cmd ++ write_uint16 (UInt16.ofNat msg.data.length) ++
    msg.data

/-- The message in the body of a frame. -/
def of_frame (head : protocol_head) (body : List UInt8) : client_msg where
  uid := read_uint32 (body.take SIZEOF_SESSION_UID)
  cmd := head.get_cmd
  data := body.drop SIZEOF_SESSION_UID

@[simp] theorem length_record (msg : client_msg) : msg.record.length = 8 + msg.data.length := by
  simp only [record, List.length_append, length_write_uint32, length_write_uint16]

end client_msg

/-- A body that holds at least the client's uid, in its buffer. -/
def IsBody (data : once_buffer) : Prop :=
  SIZEOF_SESSION_UID ≤ data.length ∧ data.offset + data.length ≤ ONCE_BUFFER_SIZE

instance (data : once_buffer) : Decidable (IsBody data) :=
  inferInstanceAs (Decidable (_ ∧ _))

open client_msg

/-- The four writes of a record. -/
def write_record (r : RingBuffer UInt8) (msg : client_msg) : RingBuffer UInt8 :=
  let storage := (r.tryWrite (write_uint32 msg.uid)).1
  let storage := (storage.tryWrite (write_uint16 msg.cmd)).1
  let storage := (storage.tryWrite (write_uint16 (UInt16.ofNat msg.data.length))).1
  (storage.tryWrite msg.data).1

/-- Where there is room for a record its writes go through one after the other. -/
theorem appends_write_record {r : RingBuffer UInt8} {msg : client_msg}
    (hcap : r._capacity < 2 ^ 63) (hroom : r.count + msg.record.length < r._capacity) :
    r.Appends (write_record r msg) msg.record := by
  rw [length_record] at hroom
  have hfirst := RingBuffer.appends_tryWrite (write_uint32 msg.uid) hcap
    (by rw [length_write_uint32]; omega)
  have hsecond := hfirst.tryWrite (write_uint16 msg.cmd) hcap
    (by rw [length_write_uint32, length_write_uint16]; omega)
  have hthird := hsecond.tryWrite (write_uint16 (UInt16.ofNat msg.data.length)) hcap
    (by
      rw [List.length_append, length_write_uint32, length_write_uint16, length_write_uint16]
      omega)
  exact hthird.tryWrite msg.data hcap
    (by
      simp only [List.length_append, length_write_uint32, length_write_uint16]
      omega)

/-- `try_copy_to_storage` asks for room for the record and writes it. -/
theorem active_server_session_logic.try_copy_to_storage_of_body {l : active_server_session_logic}
    {data : once_buffer} {head : protocol_head} (hcap : l._storage._capacity < 2 ^ 63)
    (hbody : IsBody data) :
    let msg := of_frame head data.content
    l.try_copy_to_storage data head =
      .ok (if l._storage._capacity ≤ l._storage.count + msg.record.length then (false, l)
        else (true, { l with _storage := write_record l._storage msg })) := by
  intro msg
  obtain ⟨huid, hfit⟩ := hbody
  have hsize : ONCE_BUFFER_SIZE = 65536 := rfl
  have hwidth : SIZEOF_SESSION_UID = 4 := rfl
  rw [hwidth] at huid
  have hdata : msg.data = read data._buffer (data.offset + 4) (data.length - 4) := by
    show data.content.drop SIZEOF_SESSION_UID = _
    rw [content, hwidth, drop_read _ _ _ _ huid]
  have huid_eq : read_uint32 (read data._buffer data.offset 4) = msg.uid := by
    show _ = read_uint32 (data.content.take SIZEOF_SESSION_UID)
    rw [content, hwidth, take_read _ _ _ _ huid]
  have hlen : msg.data.length = data.length - 4 := by
    rw [hdata, length_read]
  have hrecord : msg.record.length = 8 + (data.length - 4) := by
    rw [length_record, hlen]
  unfold active_server_session_logic.try_copy_to_storage
  rw [buffer_zero_of_eq rfl (by omega), load_of_le _ (by omega), ok_bind]
  simp only [hwidth, size_t_add_of_lt (show data.offset + 4 < 2 ^ 64 by omega),
    size_t_sub_of_le huid (by omega), huid_eq]
  rw [size_t_add_of_lt (by omega), RingBuffer.full_eq _ hcap (by omega)]
  rcases Nat.lt_or_ge (l._storage.count + msg.record.length) l._storage._capacity with hroom | hfull
  · rw [if_neg (Nat.not_le.mpr hroom), if_neg (by rw [decide_eq_true_eq]; omega),
      buffer_zero_of_eq (n := data.offset + 4) rfl (by omega), load_of_le _ (by omega), ok_bind,
      pure_eq_ok, ← hlen]
    simp only
    rw [hlen, ← hdata, ← hlen]
    rfl
  · rw [if_pos hfull, if_pos (by rw [decide_eq_true_eq]; omega), pure_eq_ok]

/-- **What `try_copy_to_storage` does**: it appends the record of the frame's message
    if there is room for all of it, and otherwise nothing. -/
theorem active_server_session_logic.try_copy_to_storage_cases {l : active_server_session_logic}
    {data : once_buffer} {head : protocol_head} (hcap : l._storage._capacity < 2 ^ 63)
    (hbody : IsBody data) :
    let msg := of_frame head data.content
    (l._storage._capacity ≤ l._storage.count + msg.record.length ∧
      l.try_copy_to_storage data head = .ok (false, l)) ∨
    (l._storage.count + msg.record.length < l._storage._capacity ∧
      ∃ storage, l._storage.Appends storage msg.record ∧
        l.try_copy_to_storage data head = .ok (true, { l with _storage := storage })) := by
  intro msg
  rw [try_copy_to_storage_of_body hcap hbody]
  rcases Nat.lt_or_ge (l._storage.count + msg.record.length) l._storage._capacity with hroom | hfull
  · rw [if_neg (Nat.not_le.mpr hroom)]
    exact Or.inr ⟨hroom, _, appends_write_record hcap hroom, rfl⟩
  · rw [if_pos hfull]
    exact Or.inl ⟨hfull, rfl⟩

/-! ### The manager's reader -/

/-- The manager's end of the ring, and what it remembers of the next record. -/
structure active_server_session_mgr where
  _storage : RingBuffer UInt8
  _already_read_uid : session_uid
  _already_read_cmd : UInt16
  _already_read_length : UInt16

/-- What `pick_msg` stores through its parameters when it returns `true`. -/
structure picked_msg where
  from_id : session_uid
  /-- The parameter is an `unsigned char*`. -/
  ret_cmd : UInt8
  ret_block : List UInt8
  ret_len : UInt16
  deriving DecidableEq

namespace active_server_session_mgr

/-- `tryRead(length, ret)`, and what is in `ret` afterwards. -/
def read_into (storage : RingBuffer UInt8) (length : Nat) (ret : List UInt8) :
    RingBuffer UInt8 × List UInt8 :=
  ((storage.tryRead length false).1, (storage.tryRead length false).2.getD ret)

/-- The first half of `pick_msg`; none when it returns `false`. `uid`, `cmd` and `len`
    are its uninitialised arrays. -/
def read_record_head (m : active_server_session_mgr) (uid cmd len : List UInt8) :
    Option active_server_session_mgr :=
  if m._already_read_length ≠ 0 then
    if m._storage.empty 8 then none
    else
      let (storage, uid) := read_into m._storage 4 uid
      let (storage, cmd) := read_into storage 2 cmd
      let (storage, len) := read_into storage 2 len
      some {
        _storage := storage
        _already_read_uid := read_uint32 uid
        _already_read_cmd := read_uint16 cmd
        _already_read_length := read_uint16 len }
  else some m

def pick_msg (m : active_server_session_mgr) (uid cmd len ret_block : List UInt8) :
    active_server_session_mgr × Option picked_msg :=
  match m.read_record_head uid cmd len with
  | none => (m, none)
  | some m =>
    if m._storage.empty m._already_read_length.toNat then (m, none)
    else
      let (storage, ret_block) := read_into m._storage m._already_read_length.toNat ret_block
      ({ _storage := storage
         _already_read_uid := 0
         _already_read_cmd := 0
         _already_read_length := 0 },
        some {
          from_id := m._already_read_uid
          ret_cmd := m._already_read_cmd.toUInt8
          ret_block := ret_block
          ret_len := m._already_read_length })

/-- Nothing is remembered. -/
structure Zeroed (m : active_server_session_mgr) : Prop where
  uid : m._already_read_uid = 0
  cmd : m._already_read_cmd = 0
  length : m._already_read_length = 0

/-- The message of zeros. -/
def zeros : picked_msg := { from_id := 0, ret_cmd := 0, ret_block := [], ret_len := 0 }

theorem read_into_zero {storage : RingBuffer UInt8} (hcap : storage._capacity < 2 ^ 63)
    (hpos : 0 < storage.count) (ret : List UInt8) :
    read_into storage 0 ret = (storage.shift_read 0, []) := by
  unfold read_into
  rw [RingBuffer.tryRead_of_le hcap hpos (Nat.zero_le _)]
  rfl

theorem read_record_head_of_zero (m : active_server_session_mgr) (uid cmd len : List UInt8)
    (h : m._already_read_length = 0) : m.read_record_head uid cmd len = some m := by
  unfold read_record_head
  rw [if_neg (not_not_intro h)]

/-- With nothing remembered nothing is read. -/
theorem pick_msg_of_zeroed {m : active_server_session_mgr} (hm : m.Zeroed)
    (hcap : m._storage._capacity < 2 ^ 63) (uid cmd len ret_block : List UInt8) :
    m.pick_msg uid cmd len ret_block =
      if m._storage.count = 0 then (m, none)
      else ({ m with _storage := m._storage.shift_read 0 }, some zeros) := by
  have hempty : m._storage.empty m._already_read_length.toNat = true ↔ m._storage.count = 0 := by
    rw [hm.length]
    exact RingBuffer.empty_iff m._storage hcap (by decide)
  unfold pick_msg
  rw [read_record_head_of_zero _ _ _ _ hm.length]
  rcases Nat.eq_zero_or_pos m._storage.count with hzero | hpos
  · rw [if_pos hzero]
    exact if_pos (hempty.mpr hzero)
  · have hne : m._storage.count ≠ 0 := Nat.ne_of_gt hpos
    -- a read of nothing succeeds
    rw [if_neg hne]
    refine (if_neg (mt hempty.mp hne)).trans ?_
    have hread := read_into_zero hcap hpos ret_block
    obtain ⟨storage, uid', cmd', length⟩ := m
    obtain ⟨rfl, rfl, rfl⟩ := hm
    have hlength : (0 : UInt16).toNat = 0 := rfl
    rw [hlength, hread]
    rfl

/-! ### Runs -/

/-- A successful `try_copy_to_storage`, or a `pick_msg` and its result. -/
inductive storage_event where
  | stored (msg : client_msg)
  | picked (result : Option picked_msg)

/-- The calls on the ring that the logic `l` shares with the manager, in any order. -/
inductive Run (l : active_server_session_logic) :
    active_server_session_mgr → List storage_event → active_server_session_mgr → Prop where
  | nil (m : active_server_session_mgr) : Run l m [] m
  | store {m m' : active_server_session_mgr} {l' : active_server_session_logic}
      {events : List storage_event} (data : once_buffer) (head : protocol_head) :
      IsBody data →
      { l with _storage := m._storage }.try_copy_to_storage data head = .ok (true, l') →
      Run l { m with _storage := l'._storage } events m' →
      Run l m (.stored (of_frame head data.content) :: events) m'
  | pick {m m' : active_server_session_mgr} {events : List storage_event}
      (uid cmd len ret_block : List UInt8) :
      Run l (m.pick_msg uid cmd len ret_block).1 events m' →
      Run l m (.picked (m.pick_msg uid cmd len ret_block).2 :: events) m'

/-- The message is delivered. -/
def IsMsg (p : picked_msg) (msg : client_msg) : Prop :=
  p.from_id = msg.uid ∧ p.ret_cmd.toUInt16 = msg.cmd ∧ p.ret_len.toNat = msg.data.length ∧
    p.ret_block = msg.data

/-- What a queue of messages answers. -/
def Answers : List client_msg → Option picked_msg → Prop
  | [], result => result = none
  | msg :: _, result => ∃ p, result = some p ∧ IsMsg p msg

/-- **The messages come out as they went in**: every `pick_msg` answers as the queue of
    the messages stored and not yet delivered does. -/
def InOrder : List client_msg → List storage_event → Prop
  | _, [] => True
  | queue, .stored msg :: events => InOrder (queue ++ [msg]) events
  | queue, .picked result :: events => Answers queue result ∧ InOrder queue.tail events

/-- Every `pick_msg` comes before the first store (`written` says whether there was
    one), or the oldest message not yet delivered is one of zeros. -/
def OnlyZeros : Bool → List client_msg → List storage_event → Prop
  | _, _, [] => True
  | _, queue, .stored msg :: events => OnlyZeros true (queue ++ [msg]) events
  | written, queue, .picked _ :: events =>
    (written = false ∨ queue.head? = some { uid := 0, cmd := 0, data := [] }) ∧
      OnlyZeros written queue.tail events

/-- The reader's state in a run that began with an empty ring. -/
structure Inv (written : Bool) (queue : List client_msg) (m : active_server_session_mgr) :
    Prop where
  zeroed : m.Zeroed
  capacity : m._storage._capacity < 2 ^ 63
  /-- no message is ever taken out of the ring -/
  count : m._storage.count = 0 ↔ written = false
  queue : written = false → queue = []

theorem Inv.store {written : Bool} {queue : List client_msg} {m : active_server_session_mgr}
    {storage : RingBuffer UInt8} {msg : client_msg} (h : Inv written queue m)
    (happ : m._storage.Appends storage msg.record) :
    Inv true (queue ++ [msg]) { m with _storage := storage } := by
  obtain ⟨⟨huid, hcmd, hlen⟩, hcap, -, -⟩ := h
  refine ⟨⟨huid, hcmd, hlen⟩, ?_, ?_, nofun⟩
  · show storage._capacity < 2 ^ 63
    rw [happ.capacity]
    exact hcap
  · show storage.count = 0 ↔ _
    rw [happ.count, length_record]
    exact ⟨fun hzero => by omega, nofun⟩

theorem Inv.pick {written : Bool} {queue : List client_msg} {m : active_server_session_mgr}
    (h : Inv written queue m) (uid cmd len ret_block : List UInt8) :
    Inv written queue.tail (m.pick_msg uid cmd len ret_block).1 := by
  have hcap := h.capacity
  have htail : written = false → queue.tail = [] := by
    intro hw
    rw [h.queue hw]
    rfl
  rw [pick_msg_of_zeroed h.zeroed hcap]
  rcases Nat.eq_zero_or_pos m._storage.count with hzero | hpos
  · rw [if_pos hzero]
    exact ⟨h.zeroed, hcap, h.count, htail⟩
  · rw [if_neg (Nat.ne_of_gt hpos)]
    have hcount := (RingBuffer.shift_read_of_le hcap (Nat.zero_le m._storage.count)).1
    rw [Nat.sub_zero] at hcount
    refine ⟨⟨h.zeroed.uid, h.zeroed.cmd, h.zeroed.length⟩, ?_, ?_, htail⟩
    · rw [RingBuffer.shift_read_capacity]
      exact hcap
    · rw [hcount]
      exact h.count

/-- When the reader answers as the queue does. -/
theorem answers_iff {written : Bool} {queue : List client_msg} {m : active_server_session_mgr}
    (h : Inv written queue m) (uid cmd len ret_block : List UInt8) :
    Answers queue (m.pick_msg uid cmd len ret_block).2 ↔
      written = false ∨ queue.head? = some { uid := 0, cmd := 0, data := [] } := by
  obtain ⟨hzeroed, hcap, hcount, hqueue⟩ := h
  rw [pick_msg_of_zeroed hzeroed hcap]
  cases written with
  | false =>
    rw [if_pos (hcount.mpr rfl), hqueue rfl]
    exact ⟨fun _ => Or.inl rfl, fun _ => rfl⟩
  | true =>
    have hne : m._storage.count ≠ 0 := fun hzero => Bool.noConfusion (hcount.mp hzero)
    rw [if_neg hne]
    -- zeros are delivered, whatever is in the queue
    cases queue with
    | nil => exact ⟨nofun, fun h => h.elim nofun nofun⟩
    | cons msg queue =>
      constructor
      · rintro ⟨p, hp, huid, hcmd, -, hdata⟩
        cases hp
        refine Or.inr ?_
        obtain ⟨uid', cmd', data⟩ := msg
        cases huid
        cases hcmd
        cases hdata
        rfl
      · rintro (hfalse | hhead)
        · cases hfalse
        · cases hhead
          exact ⟨zeros, rfl, rfl, rfl, rfl, rfl⟩

theorem in_order_iff_of_inv {l : active_server_session_logic} {m m' : active_server_session_mgr}
    {events : List storage_event} (hrun : Run l m events m') {written : Bool}
    {queue : List client_msg} (h : Inv written queue m) :
    InOrder queue events ↔ OnlyZeros written queue events := by
  induction hrun generalizing written queue with
  | nil m => exact Iff.rfl
  | @store m m' l' events data head hbody hcopy _ ih =>
    have hcases := @active_server_session_logic.try_copy_to_storage_cases
      { l with _storage := m._storage } data head h.capacity hbody
    rcases hcases with ⟨-, hrefused⟩ | ⟨-, storage, happ, hstored⟩
    · rw [hrefused] at hcopy
      cases hcopy
    · rw [hstored] at hcopy
      cases hcopy
      exact ih (h.store happ)
  | pick uid cmd len ret_block _ ih =>
    unfold InOrder OnlyZeros
    rw [answers_iff h uid cmd len ret_block, ih (h.pick uid cmd len ret_block)]

/-- **`pick_msg` delivers what was stored** exactly as long as nothing was stored, or
    the messages stored consist of zeros. -/
theorem client_msgs_in_order_iff {l : active_server_session_logic}
    {m m' : active_server_session_mgr} {events : List storage_event} (hm : m.Zeroed)
    (hcap : m._storage._capacity < 2 ^ 63) (hempty : m._storage.count = 0)
    (hrun : Run l m events m') :
    InOrder [] events ↔ OnlyZeros false [] events :=
  in_order_iff_of_inv hrun ⟨hm, hcap, ⟨fun _ => rfl, fun _ => hempty⟩, fun _ => rfl⟩

/-- One message is stored, if there is room, and then picked. -/
theorem run_one_message (l : active_server_session_logic) (m : active_server_session_mgr)
    (data : once_buffer) (head : protocol_head) (hcap : m._storage._capacity < 2 ^ 63)
    (hbody : IsBody data)
    (hroom : m._storage.count + (of_frame head data.content).record.length <
      m._storage._capacity) :
    ∃ result m', Run l m [.stored (of_frame head data.content), .picked result] m' := by
  have hcases := @active_server_session_logic.try_copy_to_storage_cases
    { l with _storage := m._storage } data head hcap hbody
  rcases hcases with ⟨hfull, -⟩ | ⟨-, storage, -, hstored⟩
  · exact absurd hroom (Nat.not_lt.mpr hfull)
  · exact ⟨_, _, .store data head hbody hstored (.pick [] [] [] [] (.nil _))⟩

/-- A manager that has just started. -/
def just_started : active_server_session_mgr where
  _storage := RingBuffer.new TOTAL_CACHE_SIZE (fun _ => 0) TOTAL_CACHE_SIZE_pos
  _already_read_uid := 0
  _already_read_cmd := 0
  _already_read_length := 0

/-- The logic of its session, which is given the ring. -/
def just_started_logic : active_server_session_logic where
  _authentication := .VERIFY_SUCC
  _seq := 1
  _storage := just_started._storage
  _sock_info_map := fun _ => none

theorem zeroed_just_started : just_started.Zeroed := ⟨rfl, rfl, rfl⟩

/-- The body of a frame with the bytes `bytes`. -/
def body_of (bytes : List UInt8) : once_buffer where
  offset := 0
  length := bytes.length
  _buffer := fun i => bytes.getD i 0

/-- A message of zeros comes out as it went in. -/
theorem picks_zeros_in_order :
    ∃ result m', Run just_started_logic just_started [.stored ⟨0, 0, []⟩, .picked result] m' ∧
      InOrder [] [.stored ⟨0, 0, []⟩, .picked result] := by
  have hempty : just_started._storage.count = 0 := by decide +kernel
  obtain ⟨result, m', hrun⟩ := run_one_message just_started_logic just_started
    (body_of [0, 0, 0, 0]) (protocol_head.unpack_head []) (by decide) (by decide)
    (by decide +kernel)
  refine ⟨result, m', hrun, ?_⟩
  exact (client_msgs_in_order_iff zeroed_just_started (by decide) hempty hrun).mpr
    ⟨Or.inr rfl, trivial⟩

/-- A message of the client with uid 5 does not. -/
theorem not_always_client_msgs_in_order :
    ¬ ∀ l m events m', Zeroed m → m._storage._capacity < 2 ^ 63 → m._storage.count = 0 →
      Run l m events m' → InOrder [] events := by
  intro hall
  have hempty : just_started._storage.count = 0 := by decide +kernel
  obtain ⟨result, m', hrun⟩ := run_one_message just_started_logic just_started
    (body_of [0, 0, 0, 5, 0x61])
    (protocol_head.get_a_head FRAME_KEY 5 0 protocol_cmd.Commands_RoutingTransparent.val false 1)
    (by decide) (by decide) (by decide +kernel)
  have horder := hall _ _ _ _ zeroed_just_started (by decide) hempty hrun
  rw [in_order_iff_of_inv hrun
    ⟨zeroed_just_started, by decide, ⟨fun _ => rfl, fun _ => hempty⟩, fun _ => rfl⟩] at horder
  rcases horder.1 with hfalse | hzeros
  · cases hfalse
  · exact absurd hzeros (by decide +kernel)

end active_server_session_mgr

end AsioNet
