import AsioNet.InnerSessionLogic
import AsioNet.ParallelCore.RingBufferRuns

/-! # From the inner session to its user (`inner_pair_session.cpp`)

    `inner_session_logic::try_copy_to_storage` puts heads and bodies into the ring,
    `inner_pair_session::pick_msg` takes the head out, remembers it, and takes the
    body out, possibly in a later call.

    Its last statement is `return false`: a call that delivers a message returns
    the same as one that does not. And `empty(PROTO_HEAD_SIZE)` is not true of an
    empty ring, so a call that finds the ring empty remembers a head that nobody
    sent. `inner_msgs_in_order_iff` says that no call does what it should.
-/

namespace AsioNet

open ByteMemory reusabel_buffer

/-! ### The records in the ring -/

/-- A frame, as the ring holds it. -/
structure inner_msg where
  head : protocol_head
  data : List UInt8
  deriving DecidableEq

def inner_msg.record (msg : inner_msg) : List UInt8 := msg.head.bytes ++ msg.data

/-- A body that is not empty and as long as its head says, in its buffer. -/
def IsInnerBody (head : protocol_head) (data : once_buffer) : Prop :=
  0 < data.length ∧ data.length = head.len.toNat ∧ data.offset + data.length ≤ ONCE_BUFFER_SIZE

instance (head : protocol_head) (data : once_buffer) : Decidable (IsInnerBody head data) :=
  inferInstanceAs (Decidable (_ ∧ _ ∧ _))

/-- **What `try_copy_to_storage` does**: it appends the record of the frame if there is
    room for all of it, and otherwise nothing. -/
theorem inner_session_logic.try_copy_to_storage_cases {l : inner_session_logic}
    {data : once_buffer} {head : protocol_head} (hcap : l._storage._capacity < 2 ^ 63)
    (hbody : IsInnerBody head data) :
    let msg : inner_msg := ⟨head, data.content⟩
    (l._storage._capacity ≤ l._storage.count + msg.record.length ∧
      l.try_copy_to_storage data head = .ok (false, l)) ∨
    (l._storage.count + msg.record.length < l._storage._capacity ∧
      ∃ storage, l._storage.Appends storage msg.record ∧
        l.try_copy_to_storage data head = .ok (true, { l with _storage := storage })) := by
  intro msg
  obtain ⟨-, -, hfit⟩ := hbody
  have hsize : ONCE_BUFFER_SIZE = 65536 := rfl
  have hhead : PROTO_HEAD_SIZE = 11 := rfl
  have hbytes : head.bytes.length = 11 := rfl
  have hcontent : data.content.length = data.length := length_read ..
  have hrecord : msg.record.length = 11 + data.length := by
    show (head.bytes ++ data.content).length = _
    rw [List.length_append, hbytes, hcontent]
  rcases Nat.lt_or_ge (l._storage.count + msg.record.length) l._storage._capacity with hroom | hfull
  · have hfirst := RingBuffer.appends_tryWrite head.bytes hcap (by omega)
    have hlast : l._storage.Appends _ msg.record :=
      hfirst.tryWrite data.content hcap (by omega)
    refine Or.inr ⟨hroom, _, hlast, ?_⟩
    unfold inner_session_logic.try_copy_to_storage
    rw [hhead, RingBuffer.full_eq _ hcap (by omega), if_neg (by rw [decide_eq_true_eq]; omega),
      buffer_zero_of_eq rfl (by omega), load_of_le _ hfit, ok_bind, pure_eq_ok]
    rfl
  · refine Or.inl ⟨hfull, inner_session_logic.try_copy_to_storage_refused ?_⟩
    rw [hhead, RingBuffer.full_eq _ hcap (by omega), decide_eq_true_eq]
    omega

/-! ### The reader -/

/-- The user's end of the ring, and the head that was taken out without its body. -/
structure inner_pair_session where
  _storage : RingBuffer UInt8
  _already_read_head : Option protocol_head

namespace inner_pair_session

/-- The first half of `pick_msg`: the ring and the head that is remembered then, none
    when `false` is returned. `stale` is what the head from the pool holds. -/
def read_head (m : inner_pair_session) (stale : protocol_head) :
    Option (RingBuffer UInt8 × protocol_head) :=
  match m._already_read_head with
  | some head => some (m._storage, head)
  | none =>
    if m._storage.empty PROTO_HEAD_SIZE then none
    else
      some ((m._storage.tryRead PROTO_HEAD_SIZE false).1,
        ((m._storage.tryRead PROTO_HEAD_SIZE false).2.map protocol_head.unpack_head).getD stale)

/-- What `pick_msg` returns, and what it stores through its parameters. -/
structure picked where
  returned : Bool
  delivered : Option inner_msg

/-- The second half, after `tryRead(_already_read_head->len, ret_data)`. -/
def take_body (head : protocol_head) (read : RingBuffer UInt8 × Option (List UInt8)) :
    inner_pair_session × picked :=
  match read.2 with
  | none => ({ _storage := read.1, _already_read_head := some head }, ⟨false, none⟩)
  -- `return false`, here as well
  | some data => ({ _storage := read.1, _already_read_head := none }, ⟨false, some ⟨head, data⟩⟩)

def pick_msg (m : inner_pair_session) (stale : protocol_head) : inner_pair_session × picked :=
  match m.read_head stale with
  | none => (m, ⟨false, none⟩)
  | some (storage, head) => take_body head (storage.tryRead head.len.toNat false)

/-- The reader holds `queue`: the head that is remembered and the ring together are the
    records of its messages. -/
def Represents (queue : List inner_msg) (m : inner_pair_session) : Prop :=
  match m._already_read_head with
  | none => m._storage.contents = queue.flatMap inner_msg.record
  | some head => ∃ msg rest, queue = msg :: rest ∧ head = msg.head ∧
    m._storage.contents = msg.data ++ rest.flatMap inner_msg.record

/-- Bodies are not empty and as long as their heads say. -/
def IsMsg (msg : inner_msg) : Prop :=
  0 < msg.data.length ∧ msg.data.length = msg.head.len.toNat

/-- The body is in front. -/
theorem read_body {storage : RingBuffer UInt8} {msg : inner_msg} {rest : List UInt8}
    (hcap : storage._capacity < 2 ^ 63) (hmsg : IsMsg msg)
    (hcontents : storage.contents = msg.data ++ rest) :
    ∃ storage', storage.tryRead msg.head.len.toNat false = (storage', some msg.data) ∧
      storage'.contents = rest := by
  obtain ⟨hpos, hlen⟩ := hmsg
  have hcount : storage.count = msg.data.length + rest.length := by
    rw [← RingBuffer.length_contents, hcontents, List.length_append]
  refine ⟨storage.shift_read msg.data.length, ?_, ?_⟩
  · rw [← hlen, RingBuffer.tryRead_of_le hcap (by omega) (by omega), hcontents, List.take_left]
  · rw [(RingBuffer.shift_read_of_le hcap (by omega)).2, hcontents, List.drop_left]

/-- A head and its body are in front. -/
theorem read_head_of_record {m : inner_pair_session} {msg : inner_msg} {rest : List UInt8}
    {stale : protocol_head} (hcap : m._storage._capacity < 2 ^ 63) (hmsg : IsMsg msg)
    (hnone : m._already_read_head = none)
    (hcontents : m._storage.contents = msg.record ++ rest) :
    ∃ storage, m.read_head stale = some (storage, msg.head) ∧
      storage._capacity = m._storage._capacity ∧ storage.contents = msg.data ++ rest := by
  have hhead : msg.head.bytes.length = PROTO_HEAD_SIZE := rfl
  have hcontents : m._storage.contents = msg.head.bytes ++ (msg.data ++ rest) := by
    rw [hcontents, inner_msg.record, List.append_assoc]
  have hcount : m._storage.count = PROTO_HEAD_SIZE + (msg.data.length + rest.length) := by
    rw [← RingBuffer.length_contents, hcontents, List.length_append, List.length_append, hhead]
  have hsize : PROTO_HEAD_SIZE = 11 := rfl
  have hmore : m._storage.empty PROTO_HEAD_SIZE = true ↔ m._storage.count = PROTO_HEAD_SIZE :=
    RingBuffer.empty_iff _ hcap (by decide)
  have hne : ¬ m._storage.empty PROTO_HEAD_SIZE = true := by
    rw [hmore]
    have hpos := hmsg.1
    omega
  refine ⟨m._storage.shift_read PROTO_HEAD_SIZE, ?_, rfl, ?_⟩
  · unfold read_head
    rw [hnone]
    refine (if_neg hne).trans ?_
    rw [RingBuffer.tryRead_of_le hcap (by omega) (by omega), hcontents, List.take_left' hhead]
    simp only [Option.map_some, Option.getD_some, protocol_head.unpack_head_bytes]
  · rw [(RingBuffer.shift_read_of_le hcap (by omega)).2, hcontents, List.drop_left' hhead]

theorem pick_msg_eq {m : inner_pair_session} {stale head : protocol_head}
    {storage : RingBuffer UInt8} (h : m.read_head stale = some (storage, head)) :
    m.pick_msg stale = take_body head (storage.tryRead head.len.toNat false) := by
  unfold pick_msg
  rw [h]

/-- **A call on a ring with a message** delivers it, and returns `false`. -/
theorem pick_msg_of_cons {m : inner_pair_session} {msg : inner_msg} {queue : List inner_msg}
    (stale : protocol_head) (hcap : m._storage._capacity < 2 ^ 63) (hmsg : IsMsg msg)
    (h : Represents (msg :: queue) m) :
    (m.pick_msg stale).2 = ⟨false, some msg⟩ ∧ Represents queue (m.pick_msg stale).1 := by
  -- first the head is read, if it is not remembered
  have hread : ∃ storage, m.read_head stale = some (storage, msg.head) ∧
      storage._capacity = m._storage._capacity ∧
      storage.contents = msg.data ++ queue.flatMap inner_msg.record := by
    unfold Represents at h
    cases hhead : m._already_read_head with
    | none =>
      rw [hhead] at h
      exact read_head_of_record hcap hmsg hhead h
    | some head =>
      rw [hhead] at h
      obtain ⟨msg', rest, hqueue, hmsg', hcontents⟩ := h
      obtain ⟨rfl, rfl⟩ := List.cons.inj hqueue
      refine ⟨m._storage, ?_, rfl, hcontents⟩
      unfold read_head
      rw [hhead, hmsg']
  obtain ⟨storage, hstorage, hcap', hcontents⟩ := hread
  obtain ⟨storage', hbody, hrest⟩ := read_body (by rw [hcap']; exact hcap) hmsg hcontents
  rw [pick_msg_eq hstorage, hbody]
  exact ⟨rfl, hrest⟩

/-- **A call on an empty ring** remembers whatever head it got from the pool. -/
theorem pick_msg_of_nil {m : inner_pair_session} (stale : protocol_head)
    (hcap : m._storage._capacity < 2 ^ 63) (h : Represents [] m) :
    (m.pick_msg stale).2 = ⟨false, none⟩ ∧
      (m.pick_msg stale).1._already_read_head = some stale := by
  unfold Represents at h
  cases hhead : m._already_read_head with
  | some head =>
    rw [hhead] at h
    obtain ⟨msg, rest, hqueue, -, -⟩ := h
    cases hqueue
  | none =>
    rw [hhead] at h
    have hzero : m._storage.count = 0 := (RingBuffer.contents_eq_nil _).mp h
    have hmore : m._storage.empty PROTO_HEAD_SIZE = true ↔ m._storage.count = PROTO_HEAD_SIZE :=
      RingBuffer.empty_iff _ hcap (by decide)
    have hread : m.read_head stale = some (m._storage, stale) := by
      unfold read_head
      rw [hhead]
      refine (if_neg ?_).trans ?_
      · rw [hmore, hzero]
        decide
      · rw [RingBuffer.tryRead_of_empty hcap hzero]
        rfl
    rw [pick_msg_eq hread, RingBuffer.tryRead_of_empty hcap hzero]
    exact ⟨rfl, rfl⟩

/-! ### Runs -/

/-- A successful `try_copy_to_storage`, or a `pick_msg` and what it did. -/
inductive storage_event where
  | stored (msg : inner_msg)
  | picked (result : picked) (after : inner_pair_session)

/-- The calls on the ring that the logic shares with its user, in any order. -/
inductive Run : inner_pair_session → List storage_event → inner_pair_session → Prop where
  | nil (m : inner_pair_session) : Run m [] m
  | store {m m' : inner_pair_session} {l' : inner_session_logic} {events : List storage_event}
      (data : once_buffer) (head : protocol_head) :
      IsInnerBody head data →
      inner_session_logic.try_copy_to_storage { _storage := m._storage } data head =
        .ok (true, l') →
      Run { m with _storage := l'._storage } events m' →
      Run m (.stored ⟨head, data.content⟩ :: events) m'
  | pick {m m' : inner_pair_session} {events : List storage_event} (stale : protocol_head) :
      Run (m.pick_msg stale).1 events m' →
      Run m (.picked (m.pick_msg stale).2 (m.pick_msg stale).1 :: events) m'

/-- What a call of `pick_msg` should do when `queue` is stored and not yet delivered. -/
structure Answers (queue : List inner_msg) (result : picked) (after : inner_pair_session) :
    Prop where
  /-- it returns `true` exactly when it delivers -/
  returned : result.returned = true ↔ result.delivered.isSome = true
  /-- what it delivers is the next message -/
  delivered : ∀ msg, result.delivered = some msg → queue.head? = some msg ∧
    Represents queue.tail after
  /-- when it delivers nothing the reader still holds the queue -/
  kept : result.delivered = none → Represents queue after

/-- **The messages come out as they went in.** -/
def InOrder : List inner_msg → List storage_event → Prop
  | _, [] => True
  | queue, .stored msg :: events => InOrder (queue ++ [msg]) events
  | queue, .picked result after :: events =>
    Answers queue result after ∧
      InOrder (if result.delivered.isSome then queue.tail else queue) events

/-- The run has no call of `pick_msg`. -/
def NoPicks (events : List storage_event) : Prop :=
  ∀ event ∈ events, ∃ msg, event = .stored msg

/-- No call does what it should. -/
theorem not_answers {m : inner_pair_session} {queue : List inner_msg} (stale : protocol_head)
    (hcap : m._storage._capacity < 2 ^ 63) (hqueue : ∀ msg ∈ queue, IsMsg msg)
    (h : Represents queue m) :
    ¬ Answers queue (m.pick_msg stale).2 (m.pick_msg stale).1 := by
  rintro ⟨hreturned, -, hkept⟩
  cases queue with
  | cons msg queue =>
    -- the message is delivered and `false` returned
    have hmsg := hqueue msg List.mem_cons_self
    rw [(pick_msg_of_cons stale hcap hmsg h).1] at hreturned
    exact Bool.noConfusion (hreturned.mpr rfl)
  | nil =>
    -- there is no message with the head that is remembered
    obtain ⟨hresult, hhead⟩ := pick_msg_of_nil stale hcap h
    rw [hresult] at hkept
    have hafter := hkept rfl
    unfold Represents at hafter
    rw [hhead] at hafter
    obtain ⟨msg, rest, hqueue, -, -⟩ := hafter
    cases hqueue

theorem Represents.store {m : inner_pair_session} {queue : List inner_msg}
    {storage : RingBuffer UInt8} {msg : inner_msg} (h : Represents queue m)
    (happ : m._storage.Appends storage msg.record) :
    Represents (queue ++ [msg]) { m with _storage := storage } := by
  obtain ⟨storage₀, head⟩ := m
  have hcontents : storage.contents = storage₀.contents ++ msg.record := happ.contents
  cases head with
  | none =>
    show storage.contents = _
    rw [hcontents, List.flatMap_append, List.flatMap_singleton]
    exact congrArg (· ++ _) h
  | some head =>
    obtain ⟨next, rest, rfl, hhead, hrest⟩ := h
    refine ⟨next, rest ++ [msg], rfl, hhead, ?_⟩
    show storage.contents = _
    rw [hcontents, List.flatMap_append, List.flatMap_singleton, ← List.append_assoc]
    exact congrArg (· ++ _) hrest

theorem in_order_iff_of_represents {m m' : inner_pair_session} {events : List storage_event}
    (hrun : Run m events m') {queue : List inner_msg} (hcap : m._storage._capacity < 2 ^ 63)
    (hqueue : ∀ msg ∈ queue, IsMsg msg) (h : Represents queue m) :
    InOrder queue events ↔ NoPicks events := by
  induction hrun generalizing queue with
  | nil m => exact ⟨fun _ => nofun, fun _ => trivial⟩
  | @store m m' l' events data head hbody hcopy _ ih =>
    have hcases := @inner_session_logic.try_copy_to_storage_cases
      { _storage := m._storage } data head hcap hbody
    rcases hcases with ⟨-, hrefused⟩ | ⟨-, storage, happ, hstored⟩
    · rw [hrefused] at hcopy
      cases hcopy
    · rw [hstored] at hcopy
      cases hcopy
      have hmsg : IsMsg ⟨head, data.content⟩ := by
        obtain ⟨hpos, hlen, -⟩ := hbody
        refine ⟨?_, ?_⟩
        · exact (length_read data._buffer data.offset data.length).symm ▸ hpos
        · exact (length_read data._buffer data.offset data.length).trans hlen
      have hqueue' : ∀ msg ∈ queue ++ [⟨head, data.content⟩], IsMsg msg := by
        intro msg hmem
        rcases List.mem_append.mp hmem with hmem | hmem
        · exact hqueue msg hmem
        · rw [List.mem_singleton.mp hmem]
          exact hmsg
      have hrest := ih (by rw [happ.capacity]; exact hcap) hqueue' (h.store happ)
      refine hrest.trans ⟨?_, fun hno event hmem => hno event (List.mem_cons_of_mem _ hmem)⟩
      intro hno event hmem
      rcases List.mem_cons.mp hmem with rfl | hmem
      · exact ⟨_, rfl⟩
      · exact hno event hmem
  | pick stale _ ih =>
    refine ⟨fun horder => absurd horder.1 (not_answers stale hcap hqueue h), ?_⟩
    intro hno
    obtain ⟨msg, hmsg⟩ := hno _ List.mem_cons_self
    cases hmsg

/-- **`pick_msg` never does what it should**: a run in which the messages come out as
    they went in is one without a call of it. -/
theorem inner_msgs_in_order_iff {m m' : inner_pair_session} {events : List storage_event}
    (hhead : m._already_read_head = none) (hcap : m._storage._capacity < 2 ^ 63)
    (hempty : m._storage.count = 0) (hrun : Run m events m') :
    InOrder [] events ↔ NoPicks events := by
  refine in_order_iff_of_represents hrun hcap nofun ?_
  unfold Represents
  rw [hhead]
  exact (RingBuffer.contents_eq_nil _).mpr hempty

/-- A pair session that has just started. -/
def just_started : inner_pair_session where
  _storage := RingBuffer.new TOTAL_CACHE_SIZE (fun _ => 0) TOTAL_CACHE_SIZE_pos
  _already_read_head := none

/-- The head and the body of a frame with one byte. -/
def one_byte_head : protocol_head :=
  protocol_head.get_a_head FRAME_KEY 1 0 protocol_cmd.Commands_RoutingTransparent.val false 0

def one_byte_body : once_buffer where
  offset := 0
  length := 1
  _buffer := fun _ => 0x61

/-- The frame is stored. -/
theorem stores_one_byte : ∃ m', Run just_started [.stored ⟨one_byte_head, [0x61]⟩] m' ∧
    InOrder [] [.stored ⟨one_byte_head, [0x61]⟩] := by
  have hempty : just_started._storage.count = 0 := by decide +kernel
  have hcases := @inner_session_logic.try_copy_to_storage_cases
    { _storage := just_started._storage } one_byte_body one_byte_head (by decide) (by decide)
  rcases hcases with ⟨hfull, -⟩ | ⟨-, storage, -, hstored⟩
  · exact absurd hfull (by decide +kernel)
  · have hrun : Run just_started [.stored ⟨one_byte_head, [0x61]⟩] _ :=
      .store one_byte_body one_byte_head (by decide) hstored (.nil _)
    refine ⟨_, hrun, (inner_msgs_in_order_iff rfl (by decide) hempty hrun).mpr ?_⟩
    intro event hmem
    exact ⟨_, List.mem_singleton.mp hmem⟩

/-- A call on the empty ring is enough. -/
theorem not_always_inner_msgs_in_order :
    ¬ ∀ m events m', m._already_read_head = none → m._storage._capacity < 2 ^ 63 →
      m._storage.count = 0 → Run m events m' → InOrder [] events := by
  intro hall
  have hempty : just_started._storage.count = 0 := by decide +kernel
  have horder := hall just_started _ _ rfl (by decide) hempty (.pick one_byte_head (.nil _))
  have hnothing : Represents [] just_started := (RingBuffer.contents_eq_nil _).mpr hempty
  exact not_answers one_byte_head (by decide) (fun _ hmem => absurd hmem List.not_mem_nil)
    hnothing horder.1

end inner_pair_session

end AsioNet
