import AsioNet.ActiveServerSessionLogic
import AsioNet.Framing
import AsioNet.ProxyRuns
import AsioNet.ServerStorage

/-! # Sequence numbers (`active_server_session_logic.cpp`, `default_session_logic.cpp`,
    `server_session_logic.cpp`)

    A game server numbers its frames; the proxy counts the frames of a session and
    compares. Both counters start at `0` and wrap around together: the game server's
    is the number of frames it has sent, the proxy's the number of frames it has
    looked at, whoever's logic that was. A promotion hands the counter over.

    `in_step_of_reachable` says that the comparison never fails, in any order of
    sending, receiving and whatever else the proxy does.
-/

namespace AsioNet

open ByteMemory LengthPrefixed LengthPrefixed.Format TransitionSystem reusabel_buffer proto_mask

/-! ### The game server counts what it sends -/

namespace active_server_session_logic

/-- Nothing is sent, or one frame with the next number. -/
def Numbers (s s' : basic_async_session active_server_session_logic) : Prop :=
  s' = s ∨ ∃ head : protocol_head, ∃ body, head.seq = s._logic._seq + 1 ∧
    head.len.toNat = body.length ∧
    s' = (s.modify_session_logic { s._logic with _seq := s._logic._seq + 1 }).async_write_some
      (head.bytes ++ body)

/-- A buffer that leaves no space for itself behind a head is not wrapped. -/
theorem wrap_to_send_data_of_not_fit (l : active_server_session_logic) {buffer : once_buffer}
    (hoff : buffer.offset = PROTO_HEAD_SIZE)
    (hfit : ONCE_BUFFER_SIZE < PROTO_HEAD_SIZE + buffer.length) :
    l.wrap_to_send_data buffer = .error .out_of_bounds := by
  unfold wrap_to_send_data write_head
  rw [buffer_zero_of_eq hoff (by decide), load_of_lt _ hfit]
  rfl

/-- **One `async_send`** with space for a head. -/
theorem numbers_of_async_send {s s' : basic_async_session active_server_session_logic}
    {buffer : once_buffer} (hoff : buffer.offset = PROTO_HEAD_SIZE)
    (h : s.async_send wrap_to_send_data buffer = .ok s') : Numbers s s' := by
  by_cases hstate : s._state = .CONNECTING
  · rcases Nat.lt_or_ge ONCE_BUFFER_SIZE (PROTO_HEAD_SIZE + buffer.length) with hout | hfit
    · rw [basic_async_session.async_send_of_wrap_fault hstate
        (wrap_to_send_data_of_not_fit s._logic hoff hout)] at h
      cases h
    · rw [active_server_session_mgr.async_send_eq hstate hoff hfit] at h
      cases h
      refine Or.inr ⟨_, buffer.content, ?_, ?_, rfl⟩
      · rw [masked_head_seq]
        exact protocol_head.get_a_head_seq _ _ _ _ _ _
      · have hlen : buffer.content.length = buffer.length := length_read _ _ _
        rw [masked_head_len, hlen]
        show (UInt16.ofNat buffer.length).toNat = _
        rw [UInt16.toNat_ofNat']
        simp only [PROTO_HEAD_SIZE, ONCE_BUFFER_SIZE] at hfit
        omega
  · rw [basic_async_session.async_send_of_not_connecting _ hstate] at h
    cases h
    exact Or.inl rfl

theorem offset_of_pack {b : once_buffer} {ret_block : Nat} {area_id_ server_id_ : UInt16}
    {link_type_ : UInt8} {platform_ : List UInt8} {platform_len_ : UInt16}
    {r : once_buffer × UInt16}
    (h : authentication_aaa_request.pack b ret_block area_id_ server_id_ link_type_ platform_
      platform_len_ = .ok r) : r.1.offset = b.offset := by
  unfold authentication_aaa_request.pack at h
  obtain ⟨b₁, h₁, h⟩ := bind_eq_ok.mp h
  obtain ⟨b₂, h₂, h⟩ := bind_eq_ok.mp h
  obtain ⟨b₃, h₃, h⟩ := bind_eq_ok.mp h
  obtain ⟨b₄, h₄, h⟩ := bind_eq_ok.mp h
  obtain ⟨b₅, h₅, h⟩ := bind_eq_ok.mp h
  cases h
  obtain ⟨-, rfl⟩ := store_eq_ok h₁
  obtain ⟨-, rfl⟩ := store_eq_ok h₂
  obtain ⟨-, rfl⟩ := store_eq_ok h₃
  obtain ⟨-, rfl⟩ := store_eq_ok h₄
  obtain ⟨-, rfl⟩ := store_eq_ok h₅
  rfl

theorem numbers_of_send_verify_authentication {stale : Nat → UInt8}
    {s s' : basic_async_session active_server_session_logic} {_server_info : server_info}
    (h : send_verify_authentication stale s _server_info = .ok s') : Numbers s s' := by
  unfold send_verify_authentication at h
  obtain ⟨⟨send_buffer, len⟩, hpack, h⟩ := bind_eq_ok.mp h
  have hoff : (send_buffer.resize len.toNat).offset = PROTO_HEAD_SIZE := offset_of_pack hpack
  exact numbers_of_async_send hoff h

theorem numbers_of_tick_alive {stale : Nat → UInt8}
    {s s' : basic_async_session active_server_session_logic} (h : tick_alive stale s = .ok s') :
    Numbers s s' := by
  unfold tick_alive at h
  split at h
  · cases h
    exact Or.inl rfl
  · exact numbers_of_async_send rfl h

theorem numbers_of_send {stale : Nat → UInt8}
    {s s' : basic_async_session active_server_session_logic} {target_id : session_uid}
    {data_block : List UInt8}
    (h : active_server_session_mgr.send stale s target_id data_block = .ok s') : Numbers s s' := by
  unfold active_server_session_mgr.send at h
  obtain ⟨b, hpack, h⟩ := bind_eq_ok.mp h
  have hprefix : size_t_sub s._logic.prefix_size SIZEOF_SESSION_UID = PROTO_HEAD_SIZE :=
    size_t_sub_of_le (show 4 ≤ 15 by decide) (show 15 < 2 ^ 64 by decide)
  refine numbers_of_async_send ?_ h
  unfold active_server_session_mgr.pack_send at hpack
  obtain ⟨b₁, h₁, hpack⟩ := bind_eq_ok.mp hpack
  obtain ⟨b₂, h₂, hpack⟩ := bind_eq_ok.mp hpack
  have hoff : b.offset = size_t_sub b₂.offset SIZEOF_SESSION_UID := by
    rw [← Except.ok.inj hpack]
  have hoff₂ : b₂.offset = s._logic.prefix_size := by
    rw [(store_eq_ok h₂).2]
    show b₁.offset = _
    rw [(store_eq_ok h₁).2]
  -- the uid takes the last four bytes of the prefix
  rw [hoff, hoff₂, hprefix]

theorem numbers_of_broadcast {stale : Nat → UInt8}
    {s s' : basic_async_session active_server_session_logic} {targets : List session_uid}
    {data_block : List UInt8}
    (h : active_server_session_mgr.broadcast stale s targets data_block = .ok s') :
    Numbers s s' := by
  unfold active_server_session_mgr.broadcast at h
  split at h
  · cases h
    exact Or.inl rfl
  · obtain ⟨b, hpack, h⟩ := bind_eq_ok.mp h
    refine numbers_of_async_send ?_ h
    unfold active_server_session_mgr.pack_broadcast at hpack
    obtain ⟨b₁, -, hpack⟩ := bind_eq_ok.mp hpack
    obtain ⟨b₂, -, hpack⟩ := bind_eq_ok.mp hpack
    obtain ⟨b₃, -, hpack⟩ := bind_eq_ok.mp hpack
    cases hpack
    rfl

/-- What a game server does to send a frame. -/
inductive server_call where
  | send_verify_authentication (_server_info : server_info)
  | send (target_id : session_uid) (data_block : List UInt8)
  | broadcast (targets : List session_uid) (data_block : List UInt8)
  | tick_alive

def server_call.run (stale : Nat → UInt8)
    (s : basic_async_session active_server_session_logic) :
    server_call → Checked (basic_async_session active_server_session_logic)
  | .send_verify_authentication _server_info =>
    active_server_session_logic.send_verify_authentication stale s _server_info
  | .send target_id data_block => active_server_session_mgr.send stale s target_id data_block
  | .broadcast targets data_block =>
    active_server_session_mgr.broadcast stale s targets data_block
  | .tick_alive => active_server_session_logic.tick_alive stale s

/-- **Every call** numbers its frame. -/
theorem numbers_of_call {stale : Nat → UInt8}
    {s s' : basic_async_session active_server_session_logic} {call : server_call}
    (h : call.run stale s = .ok s') : Numbers s s' := by
  cases call with
  | send_verify_authentication _server_info => exact numbers_of_send_verify_authentication h
  | send target_id data_block => exact numbers_of_send h
  | broadcast targets data_block => exact numbers_of_broadcast h
  | tick_alive => exact numbers_of_tick_alive h

theorem seq_of_unwrap_received_data {l : active_server_session_logic}
    {buffer ret_block : once_buffer} {head : protocol_head}
    {r : unwrapped active_server_session_logic}
    (h : l.unwrap_received_data buffer head ret_block = .ok r) : r.state._seq = l._seq := by
  simp only [unwrap_received_data] at h
  obtain ⟨body, -, h⟩ := bind_eq_ok.mp h
  split at h
  · cases h
    rfl
  split at h
  · cases h
    rfl
  split at h
  · obtain ⟨l', hres, h⟩ := bind_eq_ok.mp h
    cases h
    obtain ⟨authentication, -, rfl⟩ := check_verify_res_eq_ok hres
    rfl
  split at h
  · obtain ⟨r', hconfirm, h⟩ := bind_eq_ok.mp h
    cases h
    obtain ⟨⟨map, hmap⟩, -⟩ := remote_session_info_confirm_eq_ok hconfirm
    show r'.1._seq = _
    rw [hmap]
  · obtain ⟨ret, -, h⟩ := bind_eq_ok.mp h
    cases h
    rfl

theorem seq_of_try_copy_to_storage {l : active_server_session_logic} {data : once_buffer}
    {head : protocol_head} {r : Bool × active_server_session_logic}
    (h : l.try_copy_to_storage data head = .ok r) : r.2._seq = l._seq := by
  unfold try_copy_to_storage at h
  obtain ⟨target_client_uid, -, h⟩ := bind_eq_ok.mp h
  simp only at h
  split at h
  · cases h
    rfl
  · obtain ⟨bytes, -, h⟩ := bind_eq_ok.mp h
    cases h
    rfl

/-- What the game server receives does not change its counter. -/
theorem seq_of_handle_msg {stale : recycled} {l l' : active_server_session_logic}
    {head : protocol_head} {data_block : once_buffer}
    (h : (interface.handle_msg stale (.ok l) head data_block).2.1 = .ok l') :
    l'._seq = l._seq := by
  rw [handle_msg_eq] at h
  obtain ⟨r, hr, h⟩ := bind_eq_ok.mp h
  have hseq := seq_of_unwrap_received_data hr
  split at h
  · cases h
    exact hseq
  · obtain ⟨copied, hcopied, h⟩ := bind_eq_ok.mp h
    cases h
    exact (seq_of_try_copy_to_storage hcopied).trans hseq

end active_server_session_logic

/-! ### The proxy counts what it looks at -/

/-- `_seq`, which all three logics have. -/
def session_logic.seq : session_logic → UInt32
  | .default_session l => l._seq
  | .client_session l => l._seq
  | .server_session l => l._seq

namespace proxy_manager

/-- Every session's counter is the same. -/
def SameSeq (w w' : proxy_manager) : Prop :=
  ∀ j, (w'.sessions j)._logic.seq = (w.sessions j)._logic.seq

/-- Session `i` has looked at one more frame. -/
structure Counts (i : session_sptr) (w w' : proxy_manager) : Prop where
  own : (w'.sessions i)._logic.seq = (w.sessions i)._logic.seq + 1
  others : ∀ j, j ≠ i → (w'.sessions j)._logic.seq = (w.sessions j)._logic.seq

theorem SameSeq.trans {w w' w'' : proxy_manager} (h : SameSeq w w') (h' : SameSeq w' w'') :
    SameSeq w w'' := fun j => (h' j).trans (h j)

theorem Counts.trans {i : session_sptr} {w w' w'' : proxy_manager} (h : Counts i w w')
    (h' : SameSeq w' w'') : Counts i w w'' :=
  ⟨(h' i).trans h.own, fun j hj => (h' j).trans (h.others j hj)⟩

theorem Sends.sameSeq {w w' : proxy_manager} (h : Sends w w') : SameSeq w w' :=
  fun j => congrArg session_logic.seq (h.logic j)

theorem sameSeq_set_logic {w : proxy_manager} {i : session_sptr} {logic : session_logic}
    (h : logic.seq = (w.sessions i)._logic.seq) : SameSeq w (w.set_logic i logic) := by
  intro j
  by_cases hj : j = i
  · rw [hj, sessions_set_logic_self]
    exact h
  · rw [sessions_set_logic_ne hj]

theorem counts_set_logic {w : proxy_manager} {i : session_sptr} {logic : session_logic}
    (h : logic.seq = (w.sessions i)._logic.seq + 1) : Counts i w (w.set_logic i logic) := by
  refine ⟨?_, ?_⟩
  · rw [sessions_set_logic_self]
    exact h
  · intro j hj
    rw [sessions_set_logic_ne hj]

/-- **The hand-over**: the new logic inherits the counter. -/
theorem sameSeq_of_move_server {w w' : proxy_manager} {uid : session_uid}
    (h : w.move_server_available uid = .ok w') : SameSeq w w' := by
  rcases move_server_available_cases h with rfl | ⟨s, l, -, hl, rfl⟩
  · intro j
    rfl
  · have hset : SameSeq w (w.set_logic s (.server_session l.trans_to_server)) := by
      apply sameSeq_set_logic
      rw [hl]
      rfl
    exact hset

theorem sameSeq_store_logic {w : proxy_manager} {i : session_sptr} {l : default_session_logic}
    (h : l._seq = (w.sessions i)._logic.seq) :
    SameSeq w (default_session_logic.store_logic w i l) := by
  unfold default_session_logic.store_logic
  split
  · exact sameSeq_set_logic h
  · intro j
    rfl

/-- **Authentication** counts nothing, whatever comes of it. -/
theorem sameSeq_of_verify_authentication {z : zlib} {stale : recycled} {w w' : proxy_manager}
    {i : session_sptr} {l : default_session_logic} {tmp_buffer : once_buffer} {cmd : UInt16}
    (hl : l._seq = (w.sessions i)._logic.seq)
    (h : l.verify_authentication z stale w i tmp_buffer cmd = .ok w') : SameSeq w w' := by
  obtain ⟨aaa_request, -, hsteps⟩ := verify_authentication_steps h
  have hset : SameSeq w (w.set_logic i (.default_session (l.set_server_info aaa_request))) :=
    sameSeq_set_logic hl
  -- after the answer the logic is stored and the reply is sent
  have hreply : ∀ {w₁ w₂ : proxy_manager} {l₁ : default_session_logic} {ec : TransferError},
      l₁.echo_authentication_res z stale (default_session_logic.store_logic w₁ i l₁) i ec =
        .ok w₂ → l₁._seq = l._seq → SameSeq w w₁ → SameSeq w w₂ := by
    intro w₁ w₂ l₁ ec hecho hseq hsame
    have hstore : SameSeq w₁ (default_session_logic.store_logic w₁ i l₁) := by
      apply sameSeq_store_logic
      rw [hseq, hl, hsame i]
    exact hsame.trans (hstore.trans (sends_of_echo hecho).sameSeq)
  rcases hsteps with ⟨l₁, rfl, hecho⟩ | ⟨-, -, -, w₁, l₁, -, hmove, rfl, hecho⟩
  · exact hreply hecho rfl hset
  · exact hreply hecho rfl (hset.trans (sameSeq_of_move_server hmove))

/-- **One frame** is counted, before anything else. -/
theorem counts_of_unwrap_received_data {z : zlib} {stale : recycled} {w : proxy_manager}
    {i : session_sptr} {buffer ret_block : once_buffer} {head : protocol_head}
    {r : unwrapped proxy_manager}
    (h : w.unwrap_received_data z stale i buffer head ret_block = .ok r) :
    Counts i w r.state := by
  unfold unwrap_received_data at h
  split at h
  · next l hl =>
    have hset : Counts i w (w.set_logic i (.default_session { l with _seq := l._seq + 1 })) := by
      apply counts_set_logic
      rw [hl]
      rfl
    simp only [default_session_logic.unwrap_received_data] at h
    split at h
    · cases h
      exact hset
    obtain ⟨body, -, h⟩ := bind_eq_ok.mp h
    split at h
    · cases h
      exact hset
    split at h
    · obtain ⟨w', hverify, h⟩ := bind_eq_ok.mp h
      cases h
      refine hset.trans (sameSeq_of_verify_authentication ?_ hverify)
      rw [sessions_set_logic_self]
      rfl
    · cases h
      exact hset
  · next l hl =>
    obtain ⟨r', hr, h⟩ := bind_eq_ok.mp h
    cases h
    apply counts_set_logic
    rw [hl]
    exact congrArg client_session_logic._seq
      (client_session_logic.unwrap_received_data_leaves hr).1
  · next l hl =>
    obtain ⟨r', hr, h⟩ := bind_eq_ok.mp h
    cases h
    apply counts_set_logic
    rw [hl]
    exact congrArg server_session_logic._seq
      (server_session_logic.unwrap_received_data_leaves hr).1

/-- **A frame of session `i`**, as the receive loop handles it. -/
theorem counts_of_handle_msg {z : zlib} {stale : recycled} {w w' : proxy_manager}
    {i : session_sptr} {head : protocol_head} {data_block : once_buffer}
    (h : ((interface z i).handle_msg stale (.ok w) head data_block).2.1 = .ok w') :
    Counts i w w' := by
  rw [handle_msg_eq] at h
  obtain ⟨r, hr, h⟩ := bind_eq_ok.mp h
  have hcounts := counts_of_unwrap_received_data hr
  split at h
  · cases h
    exact hcounts
  · obtain ⟨copied, hcopied, h⟩ := bind_eq_ok.mp h
    cases h
    exact hcounts.trans (sends_of_try_copy_to_storage hcopied).sameSeq

/-- Whether `e` is a frame on session `i`. -/
def OnSession (i : session_sptr) : proxy_event → Prop
  | .frame j _ _ _ => j = i
  | _ => False

instance (i : session_sptr) (e : proxy_event) : Decidable (OnSession i e) := by
  cases e <;> unfold OnSession <;> infer_instance

/-- **Whatever else the proxy does** leaves the counter of session `i` alone. -/
theorem seq_of_exec {z : zlib} {s s' : proxy_run} {e : proxy_event} {i : session_sptr}
    (hi : i < s.accepted) (he : ¬ OnSession i e) (h : proxy_run.exec z s e = some s') :
    i < s'.accepted ∧ (s'.proxy.sessions i)._logic.seq = (s.proxy.sessions i)._logic.seq := by
  cases e with
  | accept clock new_one left_over ip =>
    simp only [proxy_run.exec] at h
    split at h
    · cases h
      refine ⟨Nat.lt_succ_of_lt hi, ?_⟩
      -- the new session is another one
      unfold accept_a_session
      rw [sessions_set_session_ne (Nat.ne_of_lt hi)]
    · cases h
  | frame j stale head body =>
    simp only [proxy_run.exec] at h
    split at h
    · obtain ⟨w, hw, rfl⟩ := proxy_run.eq_some_of_toOption h
      refine ⟨hi, ?_⟩
      have hcounts : Counts j s.proxy w := counts_of_handle_msg hw
      exact hcounts.others i (fun hij => he hij.symm)
    · cases h
  | tick j stale =>
    obtain ⟨w, hw, rfl⟩ := proxy_run.eq_some_of_toOption h
    exact ⟨hi, (sends_of_tick_alive hw).sameSeq i⟩
  | socket j state =>
    cases h
    refine ⟨hi, ?_⟩
    by_cases hij : i = j
    · rw [hij, sessions_set_session_self]
    · rw [sessions_set_session_ne hij]
  | clean_up =>
    cases h
    exact ⟨hi, rfl⟩

/-! ### The checks of a run -/

/-- `head->seq == ++_seq`, unless the proxy has come to a fault. -/
def check_seq (i : session_sptr) (head : protocol_head) : Checked proxy_manager → List Bool
  | .ok w => [head.seq == (w.sessions i)._logic.seq + 1]
  | .error _ => []

/-- The logic of session `i` together with the outcomes of its checks, in order. -/
def logged (z : zlib) (i : session_sptr) :
    session_logic_interface (Checked proxy_manager × List Bool) where
  prefix_size s := (interface z i).prefix_size s.1
  unwrap_received_data stale s buffer head ret_block :=
    let r := (interface z i).unwrap_received_data stale s.1 buffer head ret_block
    ⟨r.accepted, (r.state, s.2 ++ check_seq i head s.1), r.buffer, r.ret_block⟩
  try_copy_to_storage stale s data head :=
    let copied := (interface z i).try_copy_to_storage stale s.1 data head
    (copied.1, copied.2, s.2)
  unwrap_offset_le stale s buffer head ret_block :=
    (interface z i).unwrap_offset_le stale s.1 buffer head ret_block

theorem accepting_logged (z : zlib) (i : session_sptr) : (logged z i).Accepting :=
  fun stale s data head => accepting_interface z i stale s.1 data head

/-- The log changes nothing. -/
theorem handle_msg_logged (z : zlib) (i : session_sptr) (stale : recycled)
    (s : Checked proxy_manager × List Bool) (head : protocol_head) (data_block : once_buffer) :
    (logged z i).handle_msg stale s head data_block =
      (((interface z i).handle_msg stale s.1 head data_block).1,
        (((interface z i).handle_msg stale s.1 head data_block).2.1,
          s.2 ++ check_seq i head s.1),
        ((interface z i).handle_msg stale s.1 head data_block).2.2) := by
  dsimp only [session_logic_interface.handle_msg, logged]
  split
  · rfl
  · rfl

/-- A frame that is logged as wrong goes no further than the counter. -/
theorem unwrap_of_check_failed {i : session_sptr} {head : protocol_head} {w : proxy_manager}
    (h : check_seq i head (.ok w) = [false]) (z : zlib) (stale : recycled)
    (buffer ret_block : once_buffer) :
    ∃ logic, logic.kind = (w.sessions i)._logic.kind ∧
      logic.seq = (w.sessions i)._logic.seq + 1 ∧
      w.unwrap_received_data z stale i buffer head ret_block =
        .ok ⟨false, w.set_logic i logic, buffer, ret_block⟩ := by
  have hseq : head.seq ≠ (w.sessions i)._logic.seq + 1 := by
    simpa [check_seq] using h
  unfold proxy_manager.unwrap_received_data
  cases hl : (w.sessions i)._logic with
  | default_session l =>
    replace hseq : head.seq ≠ l._seq + 1 := by rwa [hl] at hseq
    refine ⟨.default_session { l with _seq := l._seq + 1 }, rfl, rfl, ?_⟩
    simp only [default_session_logic.unwrap_received_data]
    rw [if_pos hseq, pure_eq_ok]
  | client_session l =>
    replace hseq : head.seq ≠ l._seq + 1 := by rwa [hl] at hseq
    refine ⟨.client_session { l with _seq := l._seq + 1 }, rfl, rfl, ?_⟩
    simp only [client_session_logic.unwrap_received_data]
    rw [if_pos hseq]
    rfl
  | server_session l =>
    replace hseq : head.seq ≠ l._seq + 1 := by rwa [hl] at hseq
    refine ⟨.server_session { l with _seq := l._seq + 1 }, rfl, rfl, ?_⟩
    simp only [server_session_logic.unwrap_received_data]
    rw [if_pos hseq]
    rfl

/-- Of one that is logged as right the body is read. -/
theorem unwrap_of_check_passed {i : session_sptr} {head : protocol_head} {w : proxy_manager}
    (h : check_seq i head (.ok w) = [true]) (z : zlib) (stale : recycled)
    {buffer : once_buffer} (ret_block : once_buffer) {e : fault}
    (hload : buffer.load (buffer.buffer 0) head.len.toNat = .error e) :
    w.unwrap_received_data z stale i buffer head ret_block = .error e := by
  have hseq : head.seq = (w.sessions i)._logic.seq + 1 := by
    simpa [check_seq] using h
  unfold proxy_manager.unwrap_received_data
  cases hl : (w.sessions i)._logic with
  | default_session l =>
    replace hseq : head.seq = l._seq + 1 := by rwa [hl] at hseq
    simp only [default_session_logic.unwrap_received_data]
    rw [if_neg (not_not_intro hseq), hload, error_bind]
  | client_session l =>
    replace hseq : head.seq = l._seq + 1 := by rwa [hl] at hseq
    simp only [client_session_logic.unwrap_received_data]
    rw [if_neg (not_not_intro hseq), hload, error_bind, error_bind]
  | server_session l =>
    replace hseq : head.seq = l._seq + 1 := by rwa [hl] at hseq
    simp only [server_session_logic.unwrap_received_data]
    rw [if_neg (not_not_intro hseq), hload, error_bind, error_bind]

/-- The outcomes of the checks on the frames of a session, from the first on. -/
def outcomes (frames : List (Frame UInt8)) : List Bool :=
  frames.mapIdx fun k f => (unpack_frame f).1.seq == UInt32.ofNat (k + 1)

theorem outcomes_concat (frames : List (Frame UInt8)) (f : Frame UInt8) :
    outcomes (frames ++ [f]) =
      outcomes frames ++ [(unpack_frame f).1.seq == UInt32.ofNat (frames.length + 1)] :=
  List.mapIdx_concat

/-- The counter of session `i` is the number of frames, and each of them was checked. -/
def Counted (i : session_sptr) : Checked proxy_manager × List Bool → List (Frame UInt8) → Prop
  | (.ok w, log), frames =>
    (w.sessions i)._logic.seq = UInt32.ofNat frames.length ∧ log = outcomes frames
  | (.error _, log), frames => log <+: outcomes frames

theorem Counted.log {i : session_sptr} {s : Checked proxy_manager × List Bool}
    {frames : List (Frame UInt8)} (h : Counted i s frames) :
    s.2 <+: outcomes frames ∧ ∀ w, s.1 = .ok w → s.2 = outcomes frames := by
  obtain ⟨logic, log⟩ := s
  cases logic with
  | error e => exact ⟨h, nofun⟩
  | ok w =>
    obtain ⟨-, rfl⟩ := h
    exact ⟨List.prefix_rfl, fun _ _ => rfl⟩

/-- **One frame** is checked against its place. -/
theorem tracks_counted (z : zlib) (i : session_sptr) :
    recv_session.Tracks (logged z i) (Counted i) := by
  intro stale s done f data_block hcounted _ _ msg
  obtain ⟨logic, log⟩ := s
  have hmsg : msg = _ := handle_msg_logged z i stale (logic, log) (unpack_frame f).1
    (recv_session.block_of data_block (unpack_frame f).2)
  have hpassed : ((interface z i).handle_msg stale logic (unpack_frame f).1
      (recv_session.block_of data_block (unpack_frame f).2)).1 = true :=
    (accepting_interface z i).handle_msg stale logic _ _
  refine Or.inr ⟨?_, ?_⟩
  · rw [hmsg]
    exact hpassed
  rw [hmsg]
  simp only
  cases logic with
  | error e =>
    have hstay : ((interface z i).handle_msg stale (.error e) (unpack_frame f).1
        (recv_session.block_of data_block (unpack_frame f).2)).2.1 = .error e := rfl
    rw [hstay]
    show log ++ [] <+: _
    rw [List.append_nil, outcomes_concat]
    exact List.IsPrefix.trans hcounted (List.prefix_append _ _)
  | ok w =>
    obtain ⟨hseq, hlog⟩ := hcounted
    have hchecked : log ++ check_seq i (unpack_frame f).1 (.ok w) = outcomes (done ++ [f]) := by
      rw [outcomes_concat, ← hlog, UInt32.ofNat_add, ← hseq]
      rfl
    rw [hchecked]
    cases hresult : ((interface z i).handle_msg stale (.ok w) (unpack_frame f).1
        (recv_session.block_of data_block (unpack_frame f).2)).2.1 with
    | error e => exact List.prefix_rfl
    | ok w' =>
      refine ⟨?_, rfl⟩
      rw [(counts_of_handle_msg hresult).own, hseq, List.length_append, UInt32.ofNat_add]
      rfl

end proxy_manager

/-! ### Runs -/

/-- A game server, what it has sent, and the proxy. -/
structure seq_run where
  server : basic_async_session active_server_session_logic
  /-- The frames as they arrive. -/
  wire : List (Frame UInt8)
  /-- The number of bytes that have arrived. -/
  delivered : Nat
  /-- The proxy's session; its logic works on the proxy. -/
  recv : recv_session (Checked proxy_manager × List Bool)
  accepted : Nat
  clock : Nat

inductive seq_event where
  /-- The server sends, and a frame it sends arrives as `arrives` says. -/
  | call (call : active_server_session_logic.server_call) (stale : Nat → UInt8)
      (arrives : Frame UInt8 → Frame UInt8)
  /-- The proxy's session reads up to `n` bytes. -/
  | read (n : Nat)
  /-- The server receives a frame. -/
  | receive (stale : recycled) (head : protocol_head) (body : List UInt8)
  /-- The server's socket closes or fails. -/
  | socket (state : StateSocket)
  /-- Anything else happens to the proxy. -/
  | proxy (e : proxy_event)

namespace seq_run

variable (z : zlib) (pool : Nat → recycled) (i : session_sptr)

/-- A region written to the socket, as a head and a body. -/
def frame_of (region : List UInt8) : Frame UInt8 :=
  (region.take PROTO_HEAD_SIZE, region.drop PROTO_HEAD_SIZE)

/-- `g` may arrive for `f`: the frame's mask may not fit any more, but its place and its
    extent are those of `f`. -/
def MayArrive (f g : Frame UInt8) : Prop :=
  g.1.length = f.1.length ∧ g.2.length = f.2.length ∧
    (unpack_frame g).1.len = (unpack_frame f).1.len ∧
    (unpack_frame g).1.seq = (unpack_frame f).1.seq

instance (f g : Frame UInt8) : Decidable (MayArrive f g) :=
  inferInstanceAs (Decidable (_ ∧ _ ∧ _ ∧ _))

def exec (s : seq_run) : seq_event → Option seq_run
  | .call call stale arrives =>
    match call.run stale s.server with
    | .error _ => none
    | .ok server =>
      let sent := (server.written.drop s.server.written.length).map frame_of
      if ∀ f ∈ sent, MayArrive f (arrives f) then
        some { s with server := server, wire := s.wire ++ sent.map arrives }
      else none
  | .read n =>
    match s.recv.reads with
    | [] => none
    | region :: _ =>
      let bytes := ((serialize s.wire).drop s.delivered).take n
      if n ≤ region.size then
        (s.recv.on_read (proxy_manager.logged z i) pool region bytes).toOption.map fun recv =>
          { s with recv := recv, delivered := s.delivered + bytes.length }
      else none
  | .receive stale head body =>
    match (active_server_session_logic.interface.handle_msg (fun n => stale (n + 1))
      (.ok s.server._logic) head (recv_session.block_of (TEMP_BUFFER (stale 0)) body)).2.1 with
    | .error _ => none
    | .ok logic => some { s with server := s.server.modify_session_logic logic }
  | .socket state => some { s with server := { s.server with _state := state } }
  | .proxy e =>
    match s.recv.logic.1 with
    | .error _ => none
    | .ok w =>
      -- the frames of session `i` come in through `read`
      if proxy_manager.OnSession i e then none
      else
        (proxy_run.exec z ⟨w, s.accepted, s.clock⟩ e).map fun r =>
          { s with
            recv := { s.recv with logic := (.ok r.proxy, s.recv.logic.2) }
            accepted := r.accepted
            clock := r.clock }

/-- The proxy has just accepted the session and listens on it. -/
def start (server : basic_async_session active_server_session_logic) (r : proxy_run) : seq_run where
  server := server
  wire := []
  delivered := 0
  recv := (recv_session.initial .CONNECTING (.ok r.proxy, [])).async_recv_loop pool
  accepted := r.accepted
  clock := r.clock

/-- A game server has connected, and the proxy, in any state, has accepted session `i`. -/
def Starts (s : seq_run) : Prop :=
  ∃ server l r r' clock new_one left_over ip,
    server._logic = active_server_session_logic.reset l ∧ r.accepted = i ∧
    proxy_run.exec z r (.accept clock new_one left_over ip) = some r' ∧ s = start pool server r'

def system : System seq_run seq_event := System.ofExec (Starts z pool i) (exec z pool i)

/-- The frames that have arrived completely. -/
def arrived (s : seq_run) : List (Frame UInt8) :=
  (protocol_head.format.cut ((serialize s.wire).take s.delivered)).1

/-- **In step**: all checks passed, and every frame that has arrived was checked, unless the
    proxy has come to a fault. -/
structure InStep (s : seq_run) : Prop where
  passed : ∀ outcome ∈ s.recv.logic.2, outcome = true
  every : ∀ w, s.recv.logic.1 = .ok w → s.recv.logic.2.length = s.arrived.length

/-! ### What holds along a run -/

/-- The frames on the wire are well formed and numbered from `1` on. -/
def Numbered (wire : List (Frame UInt8)) : Prop :=
  ∀ k f, wire[k]? = some f → protocol_head.format.WellFormed f ∧
    (unpack_frame f).1.seq = UInt32.ofNat (k + 1)

theorem Numbered.wellFormed {wire : List (Frame UInt8)} (h : Numbered wire) :
    ∀ f ∈ wire, protocol_head.format.WellFormed f := by
  intro f hf
  obtain ⟨k, hk⟩ := List.mem_iff_getElem?.mp hf
  exact (h k f hk).1

theorem Numbered.concat {wire : List (Frame UInt8)} (h : Numbered wire) {f : Frame UInt8}
    (hf : protocol_head.format.WellFormed f)
    (hseq : (unpack_frame f).1.seq = UInt32.ofNat (wire.length + 1)) : Numbered (wire ++ [f]) := by
  intro k g hg
  rcases Nat.lt_trichotomy k wire.length with hlt | rfl | hgt
  · rw [List.getElem?_append_left hlt] at hg
    exact h k g hg
  · rw [List.getElem?_concat_length] at hg
    cases hg
    exact ⟨hf, hseq⟩
  · rw [List.getElem?_eq_none (by rw [List.length_append, List.length_singleton]; omega)] at hg
    cases hg

/-- The first frames of a numbered wire pass their checks. -/
theorem Numbered.outcomes {wire frames : List (Frame UInt8)} (h : Numbered wire)
    (harrived : frames <+: wire) : ∀ outcome ∈ proxy_manager.outcomes frames, outcome = true := by
  intro outcome houtcome
  obtain ⟨k, hk, rfl⟩ := List.mem_mapIdx.mp houtcome
  have hget : wire[k]? = some frames[k] := by
    obtain ⟨rest, rfl⟩ := harrived
    rw [List.getElem?_append_left hk, List.getElem?_eq_getElem hk]
  rw [beq_iff_eq]
  exact (h k _ hget).2

theorem frame_of_append (head : protocol_head) (body : List UInt8) :
    frame_of (head.bytes ++ body) = (head.bytes, body) := by
  have hlen := protocol_head.length_bytes head
  unfold frame_of
  rw [List.take_left' hlen, List.drop_left' hlen]

theorem MayArrive.wellFormed {f g : Frame UInt8} (h : MayArrive f g)
    (hf : protocol_head.format.WellFormed f) : protocol_head.format.WellFormed g := by
  obtain ⟨hhead, hbody, hlen, -⟩ := h
  refine ⟨hhead.trans hf.1, ?_⟩
  show (unpack_frame g).1.len.toNat = _
  rw [hlen, hbody]
  exact hf.2

/-- What holds in every state of a run. -/
structure Inv (s : seq_run) : Prop where
  accepted : i < s.accepted
  numbered : Numbered s.wire
  server_seq : s.server._logic._seq = UInt32.ofNat s.wire.length
  delivered_le : s.delivered ≤ (serialize s.wire).length
  connecting : s.recv._state = .CONNECTING
  holds : ∃ recv, s.recv.BufferHolds recv
      (protocol_head.format.cut ((serialize s.wire).take s.delivered)).2 ∧
    s.recv.reads = [recv_session.read_target recv]
  counted : proxy_manager.Counted i s.recv.logic s.arrived

variable {z pool i}

theorem Inv.inStep {s : seq_run} (h : Inv i s) : InStep s := by
  have harrived : s.arrived <+: s.wire :=
    cut_prefix h.numbered.wellFormed (List.take_prefix _ _)
  have houtcomes := h.numbered.outcomes harrived
  obtain ⟨hlog, hall⟩ := h.counted.log
  refine ⟨?_, ?_⟩
  · intro outcome hmem
    exact houtcomes outcome (hlog.subset hmem)
  · intro w hw
    rw [hall w hw, proxy_manager.outcomes, List.length_mapIdx]

/-- A wire that gets longer holds what has arrived. -/
theorem Inv.extend {s : seq_run} (h : Inv i s)
    {server : basic_async_session active_server_session_logic} {f : Frame UInt8}
    (hf : protocol_head.format.WellFormed f)
    (hseq : (unpack_frame f).1.seq = UInt32.ofNat (s.wire.length + 1))
    (hserver : server._logic._seq = UInt32.ofNat (s.wire.length + 1)) :
    Inv i { s with server := server, wire := s.wire ++ [f] } := by
  have htake : (serialize (s.wire ++ [f])).take s.delivered =
      (serialize s.wire).take s.delivered := by
    rw [serialize_append, List.take_append_of_le_length h.delivered_le]
  refine ⟨h.accepted, h.numbered.concat hf hseq, ?_, ?_, h.connecting, ?_, ?_⟩
  · show server._logic._seq = UInt32.ofNat (s.wire ++ [f]).length
    rw [hserver, List.length_append, List.length_singleton]
  · show s.delivered ≤ (serialize (s.wire ++ [f])).length
    rw [serialize_append, List.length_append]
    exact Nat.le_trans h.delivered_le (Nat.le_add_right _ _)
  · show ∃ recv, s.recv.BufferHolds recv
      (protocol_head.format.cut ((serialize (s.wire ++ [f])).take s.delivered)).2 ∧ _
    rw [htake]
    exact h.holds
  · show proxy_manager.Counted i s.recv.logic
      (protocol_head.format.cut ((serialize (s.wire ++ [f])).take s.delivered)).1
    rw [htake]
    exact h.counted

/-- **The server sends**, or its session refuses to. -/
theorem inv_call {s s' : seq_run} (h : Inv i s)
    {call : active_server_session_logic.server_call} {stale : Nat → UInt8}
    {arrives : Frame UInt8 → Frame UInt8}
    (hexec : exec z pool i s (.call call stale arrives) = some s') : Inv i s' := by
  simp only [exec] at hexec
  split at hexec
  · cases hexec
  next server hserver =>
  split at hexec
  · next harrives =>
    cases hexec
    rcases active_server_session_logic.numbers_of_call hserver with
      rfl | ⟨head, body, hseq, hlen, rfl⟩
    · -- a session that is not connected sends nothing
      simp only [List.drop_length, List.map_nil, List.append_nil]
      exact h
    · have hsent : ((((s.server.modify_session_logic
          { s.server._logic with _seq := s.server._logic._seq + 1 }).async_write_some
            (head.bytes ++ body)).written.drop s.server.written.length).map frame_of) =
          [(head.bytes, body)] := by
        rw [basic_async_session.written_async_write_some,
          basic_async_session.written_modify_session_logic, List.drop_left, List.map_singleton,
          frame_of_append]
      rw [hsent] at harrives ⊢
      have hmay : MayArrive (head.bytes, body) (arrives (head.bytes, body)) :=
        harrives _ (List.mem_singleton.mpr rfl)
      have hframe : protocol_head.format.WellFormed (head.bytes, body) := by
        refine ⟨rfl, ?_⟩
        show (protocol_head.unpack_head head.bytes).len.toNat = body.length
        rw [protocol_head.unpack_head_bytes, hlen]
      have hnext : s.server._logic._seq + 1 = UInt32.ofNat (s.wire.length + 1) := by
        rw [h.server_seq, UInt32.ofNat_add]
        rfl
      refine h.extend (hmay.wellFormed hframe) ?_ hnext
      rw [hmay.2.2.2]
      show (protocol_head.unpack_head head.bytes).seq = _
      rw [protocol_head.unpack_head_bytes, hseq, hnext]
  · cases hexec

/-- **The proxy's session reads** a piece of the stream, of any size. -/
theorem inv_read {s s' : seq_run} (h : Inv i s) {n : Nat}
    (hexec : exec z pool i s (.read n) = some s') : Inv i s' := by
  obtain ⟨recv, hrecv, hreads⟩ := h.holds
  simp only [exec, hreads] at hexec
  split at hexec
  · next hn =>
    obtain ⟨recv_session', hread, rfl⟩ := proxy_run.eq_some_of_toOption hexec
    have hfit : (((serialize s.wire).drop s.delivered).take n).length ≤
        (recv_session.read_target recv).size :=
      Nat.le_trans (List.length_take_le _ _) hn
    obtain ⟨s₁, recv₁, hreceive, hrecv₁, -, hreads₁, hstate₁⟩ :=
      recv_session.received_spec hrecv hfit
    have hcounted := h.counted
    rw [← recv_session.received_logic hreceive] at hcounted
    obtain ⟨s₂, recv₂, frames, bs', hpick, hstate₂, hrecv₂, hreads₂, hstream, hwf, hrest,
      hcounted₂⟩ := recv_session.pick_entire_msgs_picked pool
        (proxy_manager.tracks_counted z i) hrecv₁ (hstate₁.trans h.connecting) hcounted
    unfold recv_session.on_read at hread
    rw [hreceive, ok_bind, hpick] at hread
    obtain rfl := Except.ok.inj hread
    -- the stream continues where it was cut before
    have hcut : protocol_head.format.cut ((serialize s.wire).take (s.delivered +
        (((serialize s.wire).drop s.delivered).take n).length)) = (s.arrived ++ frames, bs') := by
      have hbytes := List.prefix_iff_eq_take.mp
        (List.take_prefix n ((serialize s.wire).drop s.delivered))
      rw [List.take_add, ← hbytes, cut_append, hstream, cut_serialize hwf,
        cut_of_not_complete (hrest (proxy_manager.accepting_logged z i)), List.append_nil]
      rfl
    refine ⟨h.accepted, h.numbered, h.server_seq, ?_, hstate₂, ⟨recv₂, ?_, ?_⟩, ?_⟩
    · have hdelivered := h.delivered_le
      show s.delivered + (((serialize s.wire).drop s.delivered).take n).length ≤
        (serialize s.wire).length
      rw [List.length_take, List.length_drop]
      omega
    · show s₂.BufferHolds recv₂ (protocol_head.format.cut _).2
      rw [hcut]
      exact hrecv₂
    · show s₂.reads = _
      rw [hreads₂, hreads₁, hreads, List.erase_cons_head, List.nil_append]
    · show proxy_manager.Counted i s₂.logic (protocol_head.format.cut _).1
      rw [hcut]
      exact hcounted₂
  · cases hexec

/-- **Anything else** leaves wire, counters and log alone. -/
theorem inv_proxy {s s' : seq_run} (h : Inv i s) {e : proxy_event}
    (hexec : exec z pool i s (.proxy e) = some s') : Inv i s' := by
  simp only [exec] at hexec
  split at hexec
  · cases hexec
  next w hw =>
  split at hexec
  · cases hexec
  next he =>
  obtain ⟨r, hr, rfl⟩ := Option.map_eq_some_iff.mp hexec
  obtain ⟨haccepted, hseq⟩ := proxy_manager.seq_of_exec h.accepted he hr
  obtain ⟨recv, hrecv, hreads⟩ := h.holds
  refine ⟨haccepted, h.numbered, h.server_seq, h.delivered_le, h.connecting,
    ⟨recv, hrecv.congr rfl, hreads⟩, ?_⟩
  have hcounted : proxy_manager.Counted i (.ok w, s.recv.logic.2) s.arrived := by
    rw [← hw]
    exact h.counted
  exact ⟨hseq.trans hcounted.1, hcounted.2⟩

theorem inv_receive {s s' : seq_run} (h : Inv i s) {stale : recycled} {head : protocol_head}
    {body : List UInt8} (hexec : exec z pool i s (.receive stale head body) = some s') :
    Inv i s' := by
  simp only [exec] at hexec
  split at hexec
  · cases hexec
  · next logic hlogic =>
    cases hexec
    refine ⟨h.accepted, h.numbered, ?_, h.delivered_le, h.connecting, h.holds, h.counted⟩
    show logic._seq = _
    rw [active_server_session_logic.seq_of_handle_msg hlogic]
    exact h.server_seq

theorem inv_start {s : seq_run} (h : Starts z pool i s) : Inv i s := by
  obtain ⟨server, l, r, r', clock, new_one, left_over, ip, hserver, rfl, haccept, rfl⟩ := h
  simp only [proxy_run.exec] at haccept
  split at haccept
  swap
  · cases haccept
  cases haccept
  have hkeeping : (recv_session.initial .CONNECTING ((Except.ok
      (r.proxy.accept_a_session r.accepted clock new_one left_over ip), []) :
        Checked proxy_manager × List Bool)).Keeping [] := Or.inl ⟨rfl, rfl⟩
  obtain ⟨⟨recv, hrecv, hreads⟩, hstate, hlogic⟩ := hkeeping.async_recv_loop pool rfl
  have hnothing : protocol_head.format.cut ((serialize []).take 0) = ([], []) := cut_nil
  have hnumbered : Numbered [] := by
    intro k f hf
    cases hf
  refine ⟨Nat.lt_succ_self _, hnumbered, ?_, Nat.zero_le _, hstate, ⟨recv, ?_, hreads⟩, ?_⟩
  · show server._logic._seq = _
    rw [hserver]
    rfl
  · simp only [start]
    rw [hnothing]
    exact hrecv
  · simp only [start, arrived]
    rw [hnothing, hlogic]
    -- both counters start at zero
    refine ⟨?_, rfl⟩
    unfold proxy_manager.accept_a_session
    rw [proxy_manager.sessions_set_session_self]
    rfl

/-- **One event.** -/
theorem inv_exec {s s' : seq_run} (h : Inv i s) (e : seq_event)
    (hexec : exec z pool i s e = some s') : Inv i s' := by
  cases e with
  | call call stale arrives => exact inv_call h hexec
  | read n => exact inv_read h hexec
  | receive stale head body => exact inv_receive h hexec
  | socket state =>
    cases hexec
    exact ⟨h.accepted, h.numbered, h.server_seq, h.delivered_le, h.connecting, h.holds, h.counted⟩
  | proxy e => exact inv_proxy h hexec

/-- **Sequence numbers.** In every run, the check `head->seq == ++_seq` passes on every frame
    of the game server that has arrived at the proxy. -/
theorem in_step_of_reachable {s : seq_run} (h : (system z pool i).Reachable s) : InStep s := by
  have hinv : Inv i s := by
    refine System.invariant ?_ ?_ s h
    · intro s hs
      exact inv_start hs
    · intro s e s' hs hexec
      exact inv_exec hs e hexec
  exact hinv.inStep

/-- A game server that has just connected. -/
def connected_server : basic_async_session active_server_session_logic where
  _state := .CONNECTING
  _uuid := 0
  _logic := active_server_session_mgr.just_started_logic.reset
  remote_ip := 0
  written := []

/-- It authenticates itself, sends a message and a keep-alive, and the proxy reads one byte
    too few before it reads the rest. -/
def three_frames : List seq_event :=
  [.call (.send_verify_authentication ⟨0, 0, [], 0⟩) (fun _ => 0) id, .read 18,
    .call (.send 5 [0x61]) (fun _ => 0) id, .call .tick_alive (fun _ => 0) id, .read 30, .read 30]

theorem in_step_three_frames :
    ∃ s, three_frames.foldlM (exec zlib.stored (fun _ _ _ => 0) 0)
        (start (fun _ _ _ => 0) connected_server proxy_run.one_session) = some s ∧
      s.recv.logic.2 = [true, true, true] ∧ InStep s := by
  have hrun : (three_frames.foldlM (exec zlib.stored (fun _ _ _ => 0) 0)
      (start (fun _ _ _ => 0) connected_server proxy_run.one_session)).map
        (fun s => s.recv.logic.2) = some [true, true, true] := by
    decide +kernel
  obtain ⟨s, hs, hlog⟩ := Option.map_eq_some_iff.mp hrun
  have hstarts : Starts zlib.stored (fun _ _ _ => 0) 0
      (start (fun _ _ _ => 0) connected_server proxy_run.one_session) :=
    ⟨_, _, proxy_run.start fun _ => rc4_info.of_zero_rand, _, 0, rc4_info.of_zero_rand,
      ⟨0, 0, [], 0⟩, 0, rfl, rfl, rfl, rfl⟩
  have hinit : ((system zlib.stored (fun _ _ _ => 0) 0).restrict fun _ _ => True).Reachable _ :=
    .init hstarts
  have hreach := hinit.of_foldlM three_frames (fun _ _ _ => trivial) hs
  exact ⟨s, hs, hlog, in_step_of_reachable hreach.of_restrict⟩

end seq_run

end AsioNet
