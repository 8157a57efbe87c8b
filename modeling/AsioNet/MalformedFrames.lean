import AsioNet.BodyAccesses
import AsioNet.ProxySession

/-! # Frames from a game server that are too short (`server_session_logic.cpp`)

    `try_copy_to_storage` takes the uid of the addressee, or the number of addressees
    and their uids, off the front of the body. It compares neither with the body's
    length: `survives_iff` says that this is what a body has to be long enough for.
-/

namespace AsioNet

open ByteMemory reusabel_buffer Traced proto_mask

namespace server_session_logic

/-- What a body is to be accessed like: bytes are read of the body only, and no length
    goes below zero. -/
def InBody (data : once_buffer) : access → Prop
  | .read _ pos n => data.offset ≤ pos ∧ pos + n ≤ data.offset + data.length
  | .sub length amount => amount ≤ length
  | .write .. => True
  | .output .. => True

/-- The number of addressees a broadcast announces. -/
def broadcast_count (body : List UInt8) : Nat := (read_uint16 (body.take 2)).toNat

/-- The body has room for its uid, or for its count and as many uids. -/
def LongEnough (head : protocol_head) (body : List UInt8) : Prop :=
  if head.get_cmd = protocol_cmd.Commands_BroadCast.val then
    2 ≤ body.length ∧ 2 + 4 * broadcast_count body ≤ body.length
  else SIZEOF_SESSION_UID ≤ body.length

instance (head : protocol_head) (body : List UInt8) : Decidable (LongEnough head body) := by
  unfold LongEnough
  infer_instance

/-- The count is read off the array even where the body has no room for it. -/
theorem longEnough_broadcast_iff {data : once_buffer} {head : protocol_head}
    (hcmd : head.get_cmd = protocol_cmd.Commands_BroadCast.val) :
    LongEnough head data.content ↔
      2 + 4 * (read_uint16 (read data._buffer data.offset 2)).toNat ≤ data.length := by
  have hcontent : data.content.length = data.length := length_read _ _ _
  have hsame : 2 ≤ data.length →
      data.content.take 2 = read data._buffer data.offset 2 := take_read _ _ _ _
  unfold LongEnough broadcast_count
  rw [if_pos hcmd, hcontent]
  constructor
  · rintro ⟨htwo, hcount⟩
    rw [hsame htwo] at hcount
    exact hcount
  · intro hcount
    have htwo : 2 ≤ data.length := Nat.le_trans (Nat.le_add_right 2 _) hcount
    rw [hsame htwo]
    exact ⟨htwo, hcount⟩

theorem longEnough_transparent_iff {data : once_buffer} {head : protocol_head}
    (hcmd : head.get_cmd ≠ protocol_cmd.Commands_BroadCast.val) :
    LongEnough head data.content ↔ SIZEOF_SESSION_UID ≤ data.length := by
  have hcontent : data.content.length = data.length := length_read _ _ _
  unfold LongEnough
  rw [if_neg hcmd, hcontent]

/-- The relay survives the body in `data`. -/
structure Survives (z : zlib) (stale : recycled) (w : proxy_manager) (l : server_session_logic)
    (data : once_buffer) (head : protocol_head) : Prop where
  in_body : Always (InBody data) (l.traced_try_copy_to_storage z stale w data head)
  forwards_nothing : ¬ LongEnough head data.content →
    ∃ copied, l.try_copy_to_storage z stale w data head = .ok (copied, w)

/-! ### A body that is long enough -/

/-- A target's uid is in the body. -/
theorem inBody_relay_to_target (stale : recycled) (l : server_session_logic)
    {data mutable_buffer : once_buffer} (w : proxy_manager) {i : Nat}
    (hfit : data.offset + data.length ≤ ONCE_BUFFER_SIZE) (hin : 2 + i * 4 + 4 ≤ data.length) :
    Always (InBody data) (traced_relay_to_target stale l data mutable_buffer w i) := by
  have hpos : data.buffer (2 + i * 4) = data.offset + (2 + i * 4) :=
    buffer_of_lt _ (by simp only [ONCE_BUFFER_SIZE] at hfit; omega)
  unfold traced_relay_to_target
  rw [always_bind, hpos]
  refine ⟨access.always_load.mpr ⟨by omega, by omega⟩, ?_⟩
  intro uid _
  rw [always_bind]
  exact ⟨always_lift _, fun _ _ => always_lift _⟩

/-- What is handed to the client's session is the rest of the body. -/
theorem inBody_send_to (table : SafeHashMap session_uid session_sptr) (z : zlib)
    (stale : Nat → UInt8) (w : proxy_manager) (target : session_uid) {data msg : once_buffer}
    (hlow : data.offset ≤ msg.buffer 0)
    (hhigh : msg.buffer 0 + msg.length ≤ data.offset + data.length) :
    Always (InBody data) (proxy_manager.traced_send_to table z stale w target msg) := by
  unfold proxy_manager.traced_send_to
  split
  · exact always_pure _
  · rw [always_ite]
    exact ⟨fun _ => (always_act ..).mpr ⟨hlow, hhigh⟩, fun _ => always_lift _⟩

theorem inBody_of_longEnough (z : zlib) (stale : recycled) (w : proxy_manager)
    (l : server_session_logic) {data : once_buffer} {head : protocol_head}
    (hfit : data.offset + data.length ≤ ONCE_BUFFER_SIZE) (hlong : LongEnough head data.content) :
    Always (InBody data) (l.traced_try_copy_to_storage z stale w data head) := by
  have hsize : ONCE_BUFFER_SIZE = 65536 := rfl
  have hwidth : SIZEOF_SESSION_UID = 4 := rfl
  have hzero : data.buffer 0 = data.offset := buffer_zero_of_eq rfl (by omega)
  unfold traced_try_copy_to_storage
  rw [always_ite, hzero]
  refine ⟨?_, ?_⟩
  · intro hcmd
    have hcount := (longEnough_broadcast_iff hcmd).mp hlong
    rw [always_bind]
    refine ⟨access.always_load.mpr ⟨Nat.le_refl _, by omega⟩, ?_⟩
    intro count hload
    obtain ⟨-, rfl⟩ := load_eq_ok hload
    generalize (read_uint16 (read data._buffer data.offset 2)).toNat = size at hcount ⊢
    rw [always_bind]
    refine ⟨access.always_size_t_sub.mpr hcount, ?_⟩
    intro length hsub
    obtain rfl := Except.ok.inj hsub
    rw [size_t_sub_of_le hcount (by omega), buffer_of_lt _ (by omega), always_bind]
    refine ⟨access.always_load.mpr ⟨by omega, by omega⟩, ?_⟩
    intro rest _
    rw [always_bind]
    refine ⟨always_lift _, ?_⟩
    intro mutable_buffer _
    rw [always_bind]
    refine ⟨?_, fun _ _ => always_pure _⟩
    apply always_foldlM
    intro w' i hi
    have hlt := List.mem_range.mp hi
    exact inBody_relay_to_target stale l w' hfit (by omega)
  · intro hcmd
    replace hlong : 4 ≤ data.length := (longEnough_transparent_iff hcmd).mp hlong
    rw [always_bind]
    refine ⟨access.always_load.mpr ⟨Nat.le_refl _, by omega⟩, ?_⟩
    intro target_client_uid _
    rw [always_bind, hwidth]
    refine ⟨access.always_size_t_sub.mpr hlong, ?_⟩
    intro length hsub
    obtain rfl := Except.ok.inj hsub
    rw [size_t_sub_of_le hlong (by omega), size_t_add_of_lt (by omega), always_bind]
    refine ⟨?_, fun _ _ => always_pure _⟩
    -- what follows the uid
    obtain ⟨msg, hmsg⟩ : ∃ msg : once_buffer,
        { data with offset := data.offset + 4, length := data.length - 4 } = msg := ⟨_, rfl⟩
    have hpos : msg.buffer 0 = data.offset + 4 :=
      buffer_zero_of_eq (by rw [← hmsg]) (by omega)
    have hlen : msg.length = data.length - 4 := by
      rw [← hmsg]
    rw [hmsg]
    exact inBody_send_to _ z _ w _ (by omega) (by omega)

/-! ### A body that is too short -/

/-- Its length goes below zero. -/
theorem not_inBody_of_short (z : zlib) (stale : recycled) (w : proxy_manager)
    (l : server_session_logic) {data : once_buffer} {head : protocol_head}
    (hroom : data.offset + 4 ≤ ONCE_BUFFER_SIZE) (hshort : ¬ LongEnough head data.content) :
    ¬ Always (InBody data) (l.traced_try_copy_to_storage z stale w data head) := by
  have hsize : ONCE_BUFFER_SIZE = 65536 := rfl
  have hzero : data.buffer 0 = data.offset := buffer_zero_of_eq rfl (by omega)
  intro halways
  unfold traced_try_copy_to_storage at halways
  rw [always_ite, hzero] at halways
  by_cases hcmd : head.get_cmd = protocol_cmd.Commands_BroadCast.val
  · have hcount := halways.1 hcmd
    rw [always_bind_of_ok (a := read data._buffer data.offset 2)
      (load_of_le data (by omega)), always_bind] at hcount
    -- the length computed next is that of the payload
    exact hshort ((longEnough_broadcast_iff hcmd).mpr (access.always_size_t_sub.mp hcount.2.1))
  · have huid := halways.2 hcmd
    rw [always_bind_of_ok (a := read data._buffer data.offset 4)
      (load_of_le data hroom), always_bind] at huid
    exact hshort ((longEnough_transparent_iff hcmd).mpr (access.always_size_t_sub.mp huid.2.1))

/-- A broadcast that is too short reads past the end of its array. -/
theorem try_copy_to_storage_of_short_broadcast (z : zlib) (stale : recycled) (w : proxy_manager)
    (l : server_session_logic) {data : once_buffer} {head : protocol_head}
    (hroom : data.offset + 4 ≤ ONCE_BUFFER_SIZE)
    (hcmd : head.get_cmd = protocol_cmd.Commands_BroadCast.val)
    (hshort : ¬ LongEnough head data.content) :
    l.try_copy_to_storage z stale w data head = .error .out_of_bounds := by
  have hsize : ONCE_BUFFER_SIZE = 65536 := rfl
  have hzero : data.buffer 0 = data.offset := buffer_zero_of_eq rfl (by omega)
  have hbelow : data.length < 2 + 4 * (read_uint16 (read data._buffer data.offset 2)).toNat := by
    rw [longEnough_broadcast_iff hcmd] at hshort
    exact Nat.not_le.mp hshort
  have hcount := (read_uint16 (read data._buffer data.offset 2)).toNat_lt
  unfold try_copy_to_storage
  rw [if_pos hcmd, hzero, load_of_le _ (by omega), ok_bind]
  generalize (read_uint16 (read data._buffer data.offset 2)).toNat = size at hbelow hcount
  have hsub := size_t_sub_of_lt hbelow (by omega)
  simp only [hsub]
  rw [buffer_of_lt _ (by omega), load_of_lt _ (by omega), error_bind]

/-! ### The frames that are accepted -/

/-- What is stored of a frame that is accepted is its body, behind the prefix. -/
theorem accepted_of_unwrap {l : server_session_logic} {buffer ret_block : once_buffer}
    {head : protocol_head} {r : unwrapped server_session_logic}
    (hoff : ret_block.offset ≤ ONCE_BUFFER_SIZE)
    (h : l.unwrap_received_data buffer head ret_block = .ok r) (haccepted : r.accepted = true) :
    r.ret_block.offset = ret_block.offset ∧ r.ret_block.length = head.len.toNat ∧
      buffer.load (buffer.buffer 0) head.len.toNat = .ok r.ret_block.content ∧
      r.ret_block.offset + r.ret_block.length ≤ ONCE_BUFFER_SIZE := by
  unfold unwrap_received_data at h
  simp only at h
  split at h
  · cases h
    cases haccepted
  obtain ⟨body, hbody, h⟩ := bind_eq_ok.mp h
  split at h
  · cases h
    cases haccepted
  split at h
  · cases h
    cases haccepted
  obtain ⟨stored, hstore, h⟩ := bind_eq_ok.mp h
  cases h
  obtain ⟨hfit, rfl⟩ := store_eq_ok hstore
  have hlen : body.length = head.len.toNat := length_of_load hbody
  rw [buffer_zero_of_eq rfl hoff, hlen] at hfit
  refine ⟨rfl, rfl, ?_, hfit⟩
  rw [hbody]
  unfold content
  simp only [resize]
  rw [buffer_zero_of_eq rfl hoff, ← hlen, read_write]

/-- **The relay survives** exactly the bodies that are long enough. -/
theorem survives_iff {l : server_session_logic} {buffer : once_buffer} {head : protocol_head}
    (stale : Nat → UInt8) {r : unwrapped server_session_logic}
    (h : l.unwrap_received_data buffer head
      { TEMP_BUFFER stale with offset := l.prefix_size } = .ok r) (haccepted : r.accepted = true)
    (z : zlib) (stale' : recycled) (w : proxy_manager) :
    Survives z stale' w r.state r.ret_block head ↔ LongEnough head r.ret_block.content := by
  have hle : l.prefix_size ≤ ONCE_BUFFER_SIZE := (by decide : 7 ≤ 65536)
  obtain ⟨hoff, -, -, hfit⟩ := accepted_of_unwrap hle h haccepted
  have hoffset : r.ret_block.offset = 7 := hoff
  constructor
  · intro hsurvives
    by_contra hshort
    exact not_inBody_of_short z stale' w r.state (by rw [hoffset]; decide) hshort
      hsurvives.in_body
  · intro hlong
    exact ⟨inBody_of_longEnough z stale' w r.state hfit hlong, fun hshort => absurd hlong hshort⟩

/-- A logic that has received nothing yet. -/
def just_started_logic : server_session_logic where
  _seq := 0
  _server_info := ⟨0, 0, [], SessionType.ACTIVE_GAMESVR⟩

theorem not_broadcast_relayed_head (body : List UInt8) :
    (relayed_head false body).get_cmd ≠ protocol_cmd.Commands_BroadCast.val := by
  rw [relayed_head_get_cmd]
  decide

/-- A relayed frame is accepted, and its body is what is stored. -/
theorem exists_relayed {body : List UInt8} (hne : body ≠ [])
    (hlen : (UInt16.ofNat body.length).toNat = body.length)
    (hmask : get_mask (relayed_head false body).bytes body = 0)
    (hfit : 7 + body.length ≤ ONCE_BUFFER_SIZE) :
    ∃ r, just_started_logic.unwrap_received_data (proxy_manager.received_block (fun _ => 0) body)
        (relayed_head false body)
        { TEMP_BUFFER (fun _ => 0) with offset := just_started_logic.prefix_size } = .ok r ∧
      r.accepted = true ∧ r.ret_block.content = body := by
  have hbody := proxy_manager.load_received_block (fun _ => 0) (show body.length ≤ ONCE_BUFFER_SIZE
    by omega)
  rw [← proxy_manager.received_block_buffer (fun _ => 0) body] at hbody
  refine ⟨_, unwrap_received_data_accepted _ _ rfl hmask hlen hbody hne hfit, rfl, ?_⟩
  exact read_write _ _ _

/-- A body with the uid 5 and one byte. -/
theorem survives_one_byte :
    ∃ r, just_started_logic.unwrap_received_data
        (proxy_manager.received_block (fun _ => 0) [0, 0, 0, 5, 0x61])
        (relayed_head false [0, 0, 0, 5, 0x61])
        { TEMP_BUFFER (fun _ => 0) with offset := just_started_logic.prefix_size } = .ok r ∧
      Survives zlib.stored (fun _ _ => 0) proxy_manager.one_client r.state r.ret_block
        (relayed_head false [0, 0, 0, 5, 0x61]) := by
  obtain ⟨r, hr, haccepted, hcontent⟩ := @exists_relayed [0, 0, 0, 5, 0x61] (by decide)
    (by decide) (by decide) (by decide)
  refine ⟨r, hr, (survives_iff _ hr haccepted _ _ _).mpr ?_⟩
  rw [hcontent]
  unfold LongEnough
  rw [if_neg (not_broadcast_relayed_head _)]
  decide

/-- A body of one byte is too short for a uid. -/
theorem not_always_survives :
    ¬ ∀ (l : server_session_logic) (buffer : once_buffer) (head : protocol_head)
      (stale : Nat → UInt8) (r : unwrapped server_session_logic),
      l.unwrap_received_data buffer head
        { TEMP_BUFFER stale with offset := l.prefix_size } = .ok r → r.accepted = true →
      ∀ z stale' w, Survives z stale' w r.state r.ret_block head := by
  intro hall
  obtain ⟨r, hr, haccepted, hcontent⟩ := @exists_relayed [5] (by decide) (by decide) (by decide)
    (by decide)
  have hsurvives := hall _ _ _ _ r hr haccepted zlib.stored (fun _ _ => 0) proxy_manager.one_client
  obtain ⟨hoff, -, -, hfit⟩ := accepted_of_unwrap
    (by decide : just_started_logic.prefix_size ≤ ONCE_BUFFER_SIZE) hr haccepted
  have hoffset : r.ret_block.offset = 7 := hoff
  refine not_inBody_of_short _ _ _ _ (by rw [hoffset]; decide) ?_ hsurvives.in_body
  rw [hcontent]
  unfold LongEnough
  rw [if_neg (not_broadcast_relayed_head _)]
  decide

end server_session_logic

end AsioNet
