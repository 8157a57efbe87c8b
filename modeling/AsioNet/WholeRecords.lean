import AsioNet.ServerStorage

/-! # A record is stored whole or not at all (`active_server_session_logic.cpp`)

    `try_copy_to_storage` asks the ring once, for the eight bytes in front of the
    data and the data, and then writes four times without looking at the results.

    It takes the uid's four bytes off the length first. A body that is shorter than
    that makes the length wrap around, and the sum with eight wraps around again: the
    ring is asked for less than the record takes, and the last write is one of nearly
    2^64 bytes. `whole_or_refused_iff` says that this is the only way to go wrong.
-/

namespace AsioNet

open ByteMemory reusabel_buffer client_msg proto_mask

namespace active_server_session_logic

/-- The lengths `try_copy_to_storage` computes are the ones it means. -/
structure NoWrap (length : Nat) : Prop where
  /-- `data->length -= sizeof(session_uid)` -/
  sub : size_t_sub length SIZEOF_SESSION_UID + SIZEOF_SESSION_UID = length
  /-- `8 + data->length` -/
  add : size_t_add 8 (size_t_sub length SIZEOF_SESSION_UID) =
    8 + size_t_sub length SIZEOF_SESSION_UID
  /-- the length field of the record -/
  field : (UInt16.ofNat (size_t_sub length SIZEOF_SESSION_UID)).toNat =
    size_t_sub length SIZEOF_SESSION_UID

/-- All four writes of a record succeed, and put it behind what the ring holds. -/
structure WritesRecord (r r' : RingBuffer UInt8) (msg : client_msg) : Prop where
  uid : (r.tryWrite (write_uint32 msg.uid)).2 = true
  cmd : ((r.tryWrite (write_uint32 msg.uid)).1.tryWrite (write_uint16 msg.cmd)).2 = true
  length : (((r.tryWrite (write_uint32 msg.uid)).1.tryWrite (write_uint16 msg.cmd)).1.tryWrite
    (write_uint16 (UInt16.ofNat msg.data.length))).2 = true
  data : (((r.tryWrite (write_uint32 msg.uid)).1.tryWrite (write_uint16 msg.cmd)).1.tryWrite
    (write_uint16 (UInt16.ofNat msg.data.length))).1.tryWrite msg.data = (r', true)
  appends : r.Appends r' msg.record

/-- The message is refused and nothing changes, or its record is stored. -/
def StoredWhole (l : active_server_session_logic) (data : once_buffer) (head : protocol_head) :
    Prop :=
  l.try_copy_to_storage data head = .ok (false, l) ∨
    ∃ storage, l.try_copy_to_storage data head = .ok (true, { l with _storage := storage }) ∧
      WritesRecord l._storage storage (of_frame head data.content)

/-- Storing is all or nothing. -/
structure AllOrNothing (l : active_server_session_logic) (data : once_buffer)
    (head : protocol_head) : Prop where
  no_wrap : NoWrap data.length
  stored : StoredWhole l data head

/-! ### A body that holds a uid -/

theorem noWrap_of_body {length : Nat} (huid : SIZEOF_SESSION_UID ≤ length)
    (hle : length ≤ ONCE_BUFFER_SIZE) : NoWrap length := by
  have hsize : ONCE_BUFFER_SIZE = 65536 := rfl
  have hwidth : SIZEOF_SESSION_UID = 4 := rfl
  have hsub : size_t_sub length SIZEOF_SESSION_UID = length - 4 := by
    rw [size_t_sub_of_le huid (by omega), hwidth]
  refine ⟨?_, ?_, ?_⟩
  · rw [hsub]
    omega
  · rw [hsub, size_t_add_of_lt (by omega)]
  · rw [hsub, UInt16.toNat_ofNat', Nat.mod_eq_of_lt (by omega)]

/-- A write behind elements that were appended, when all of it fits. -/
theorem tryWrite_of_appends {r r' : RingBuffer UInt8} {xs : List UInt8}
    (h : r.Appends r' xs) (data : List UInt8) (hcap : r._capacity < 2 ^ 63)
    (hfit : r.count + xs.length + data.length < r._capacity) :
    (r'.tryWrite data).2 = true := by
  have hcount := h.count
  have hcapacity := h.capacity
  exact (RingBuffer.tryWrite_of_fit (by omega) (by omega)).1

/-- **Room for the record is room for each write.** -/
theorem writesRecord_of_room {r : RingBuffer UInt8} {msg : client_msg}
    (hcap : r._capacity < 2 ^ 63) (hroom : r.count + msg.record.length < r._capacity) :
    WritesRecord r (write_record r msg) msg := by
  have happends := appends_write_record hcap hroom
  have huid : (write_uint32 msg.uid).length = 4 := length_write_uint32 _
  have hcmd : (write_uint16 msg.cmd).length = 2 := length_write_uint16 _
  have hlen : (write_uint16 (UInt16.ofNat msg.data.length)).length = 2 := length_write_uint16 _
  rw [length_record] at hroom
  have hfirst := RingBuffer.appends_tryWrite (write_uint32 msg.uid) hcap (by omega)
  have hsecond := hfirst.tryWrite (write_uint16 msg.cmd) hcap (by omega)
  have hthird := hsecond.tryWrite (write_uint16 (UInt16.ofNat msg.data.length)) hcap
    (by rw [List.length_append]; omega)
  refine ⟨?_, ?_, ?_, ?_, happends⟩
  · exact (RingBuffer.tryWrite_of_fit hcap (by omega)).1
  · exact tryWrite_of_appends hfirst _ hcap (by omega)
  · exact tryWrite_of_appends hsecond _ hcap (by rw [List.length_append]; omega)
  · exact Prod.ext rfl (tryWrite_of_appends hthird _ hcap
      (by simp only [List.length_append]; omega))

theorem storedWhole_of_body {l : active_server_session_logic} {data : once_buffer}
    {head : protocol_head} (hcap : l._storage._capacity < 2 ^ 63) (hbody : IsBody data) :
    StoredWhole l data head := by
  unfold StoredWhole
  rw [try_copy_to_storage_of_body hcap hbody]
  split
  · exact Or.inl rfl
  · next hroom => exact Or.inr ⟨_, rfl, writesRecord_of_room hcap (Nat.not_le.mp hroom)⟩

/-! ### A body that is too short for a uid -/

/-- The ring is asked for four bytes more than the body has; where it has them, the
    data written is longer than any array. -/
theorem try_copy_to_storage_of_short {l : active_server_session_logic} {data : once_buffer}
    (head : protocol_head) (hcap : l._storage._capacity < 2 ^ 63)
    (hfit : data.offset + SIZEOF_SESSION_UID ≤ ONCE_BUFFER_SIZE)
    (hshort : data.length < SIZEOF_SESSION_UID) :
    l.try_copy_to_storage data head =
      if l._storage._capacity ≤ l._storage.count + (data.length + 4) then .ok (false, l)
      else .error .out_of_bounds := by
  have hsize : ONCE_BUFFER_SIZE = 65536 := rfl
  have hwidth : SIZEOF_SESSION_UID = 4 := rfl
  have hsub : size_t_sub data.length SIZEOF_SESSION_UID = data.length + 2 ^ 64 - 4 :=
    size_t_sub_of_lt hshort (by decide)
  have hadd : size_t_add 8 (data.length + 2 ^ 64 - 4) = data.length + 4 := by
    unfold size_t_add
    omega
  unfold try_copy_to_storage
  rw [buffer_zero_of_eq rfl (by omega), load_of_le _ (hwidth ▸ hfit), ok_bind]
  simp only [hsub, hadd]
  rw [RingBuffer.full_eq _ hcap (by omega)]
  by_cases hfull : l._storage._capacity ≤ l._storage.count + (data.length + 4)
  · rw [if_pos hfull, if_pos (decide_eq_true hfull), pure_eq_ok]
  · rw [if_neg hfull, if_neg (by rw [decide_eq_true_eq]; exact hfull), load_of_lt _ (by omega),
      error_bind]

/-! ### The frames that are passed on -/

/-- What `unwrap_received_data` passes on is the frame's body behind the prefix. -/
theorem accepted_of_unwrap {l : active_server_session_logic} {buffer ret_block : once_buffer}
    {head : protocol_head} {r : unwrapped active_server_session_logic}
    (hoff : ret_block.offset ≤ ONCE_BUFFER_SIZE)
    (h : l.unwrap_received_data buffer head ret_block = .ok r) (haccepted : r.accepted = true) :
    r.state = l ∧ r.ret_block.offset = ret_block.offset ∧
      r.ret_block.length = head.len.toNat ∧
      ret_block.offset + head.len.toNat ≤ ONCE_BUFFER_SIZE := by
  unfold unwrap_received_data at h
  obtain ⟨body, hbody, h⟩ := bind_eq_ok.mp h
  split at h
  · cases h
    cases haccepted
  split at h
  · cases h
    cases haccepted
  split at h
  · obtain ⟨l', -, h⟩ := bind_eq_ok.mp h
    cases h
    cases haccepted
  split at h
  · obtain ⟨confirmed, -, h⟩ := bind_eq_ok.mp h
    cases h
    cases haccepted
  obtain ⟨stored, hstore, h⟩ := bind_eq_ok.mp h
  cases h
  obtain ⟨hfit, rfl⟩ := store_eq_ok hstore
  have hlen : body.length = head.len.toNat := length_of_load hbody
  rw [buffer_zero_of_eq rfl hoff, hlen] at hfit
  exact ⟨rfl, rfl, rfl, hfit⟩

/-- **All or nothing.** Storing the body of a frame that is passed on is all or nothing
    exactly if the body holds a uid. A shorter one is still refused, though for the
    wrong length, by a ring that has no more than four bytes left than it takes. -/
theorem whole_or_refused_iff {l : active_server_session_logic} {buffer : once_buffer}
    {head : protocol_head} (stale : Nat → UInt8) {r : unwrapped active_server_session_logic}
    (hcap : l._storage._capacity < 2 ^ 63)
    (h : l.unwrap_received_data buffer head
      { TEMP_BUFFER stale with offset := l.prefix_size } = .ok r) (haccepted : r.accepted = true) :
    (AllOrNothing r.state r.ret_block head ↔ SIZEOF_SESSION_UID ≤ head.len.toNat) ∧
      (StoredWhole r.state r.ret_block head ↔ SIZEOF_SESSION_UID ≤ head.len.toNat ∨
        l._storage._capacity ≤ l._storage.count + (head.len.toNat + 4)) := by
  have hsize : ONCE_BUFFER_SIZE = 65536 := rfl
  have hwidth : SIZEOF_SESSION_UID = 4 := rfl
  have hspace : l.prefix_size = 15 := rfl
  have hle : l.prefix_size ≤ ONCE_BUFFER_SIZE := (by decide : 15 ≤ 65536)
  obtain ⟨hstate, hoff, hlen, hfit⟩ := accepted_of_unwrap hle h haccepted
  rw [hstate]
  have hoffset : r.ret_block.offset = 15 := hoff
  simp only [hspace] at hfit
  rcases Nat.lt_or_ge r.ret_block.length SIZEOF_SESSION_UID with hshort | huid
  · have hcopy := try_copy_to_storage_of_short (l := l) head hcap (by omega) hshort
    have hnot : ¬ SIZEOF_SESSION_UID ≤ head.len.toNat := by omega
    refine ⟨⟨?_, fun huid => absurd huid hnot⟩, ?_⟩
    · intro hall
      have hsub := hall.no_wrap.sub
      rw [size_t_sub_of_lt hshort (by decide)] at hsub
      omega
    · unfold StoredWhole
      rw [hcopy, hlen]
      constructor
      · intro hstored
        refine Or.inr ?_
        by_contra hroom
        rw [if_neg hroom] at hstored
        rcases hstored with hrefused | ⟨storage, hstored, -⟩
        · cases hrefused
        · cases hstored
      · rintro (huid | hfull)
        · exact absurd huid hnot
        · rw [if_pos hfull]
          exact Or.inl rfl
  · have hbody : IsBody r.ret_block := ⟨huid, by omega⟩
    have hstored : StoredWhole l r.ret_block head := storedWhole_of_body hcap hbody
    rw [hlen] at huid
    refine ⟨⟨fun _ => huid, fun _ => ⟨?_, hstored⟩⟩, fun _ => Or.inl huid, fun _ => hstored⟩
    rw [hlen]
    exact noWrap_of_body huid (by omega)

/-- A relayed frame is passed on by a logic that is verified. -/
theorem exists_accepted (body : List UInt8) (hne : UInt16.ofNat body.length ≠ 0)
    (hlen : (UInt16.ofNat body.length).toNat = body.length)
    (hmask : get_mask (relayed_head false body).bytes body = 0)
    (hbody : (active_server_session_mgr.body_of body).load 0 body.length = .ok body)
    (hfit : 15 + body.length ≤ ONCE_BUFFER_SIZE) :
    ∃ r, active_server_session_mgr.just_started_logic.unwrap_received_data
        (active_server_session_mgr.body_of body) (relayed_head false body)
        { TEMP_BUFFER (fun _ => 0) with
          offset := active_server_session_mgr.just_started_logic.prefix_size } = .ok r ∧
      r.accepted = true := by
  refine ⟨_, unwrap_received_data_accepted _ _ nofun ?_ hmask hlen hbody hne hfit, rfl⟩
  rw [relayed_head_get_cmd]
  decide

/-- A message of one byte from the client with uid 5 is stored whole. -/
theorem all_or_nothing_a :
    ∃ r, active_server_session_mgr.just_started_logic.unwrap_received_data
        (active_server_session_mgr.body_of [0, 0, 0, 5, 0x61])
        (relayed_head false [0, 0, 0, 5, 0x61])
        { TEMP_BUFFER (fun _ => 0) with
          offset := active_server_session_mgr.just_started_logic.prefix_size } = .ok r ∧
      AllOrNothing r.state r.ret_block (relayed_head false [0, 0, 0, 5, 0x61]) := by
  obtain ⟨r, hr, haccepted⟩ := exists_accepted [0, 0, 0, 5, 0x61] (by decide) (by decide)
    (by decide) (by decide) (by decide)
  exact ⟨r, hr, (whole_or_refused_iff (fun _ => 0) (by decide) hr haccepted).1.mpr (by decide)⟩

/-- A body of one byte is neither refused nor stored. -/
theorem not_all_or_nothing_of_one_byte :
    ¬ ∀ (l : active_server_session_logic) (buffer : once_buffer) (head : protocol_head)
      (stale : Nat → UInt8) (r : unwrapped active_server_session_logic),
      l._storage._capacity < 2 ^ 63 →
      l.unwrap_received_data buffer head
        { TEMP_BUFFER stale with offset := l.prefix_size } = .ok r → r.accepted = true →
      AllOrNothing r.state r.ret_block head := by
  intro hall
  obtain ⟨r, hr, haccepted⟩ := exists_accepted [5] (by decide) (by decide) (by decide) (by decide)
    (by decide)
  have hcap : active_server_session_mgr.just_started_logic._storage._capacity < 2 ^ 63 := by
    decide
  obtain ⟨hstate, hoff, hlen, -⟩ := accepted_of_unwrap (by decide) hr haccepted
  have hstored := (hall _ _ _ _ r hcap hr haccepted).stored
  have hoffset : r.ret_block.offset = 15 := hoff
  have hlength : r.ret_block.length = 1 := hlen
  have hempty : active_server_session_mgr.just_started_logic._storage.count = 0 := by
    decide +kernel
  have hcopy := try_copy_to_storage_of_short (l := r.state) (relayed_head false [5]) (hstate ▸ hcap)
    (by rw [hoffset]; decide) (by rw [hlength]; decide)
  rw [hlength, hstate, hempty, if_neg (by decide)] at hcopy
  rw [hstate] at hstored
  unfold StoredWhole at hstored
  rw [hcopy] at hstored
  rcases hstored with hrefused | ⟨storage, hstored, -⟩
  · cases hrefused
  · cases hstored

end active_server_session_logic

end AsioNet
