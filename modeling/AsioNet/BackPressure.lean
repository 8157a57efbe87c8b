import AsioNet.Framing
import AsioNet.ReceiveRuns
import AsioNet.WholeRecords

/-! # A ring that is full (`basic_async_session.cpp`, `active_server_session_logic.cpp`)

    A game server's logic refuses a message the ring has no room for. The session
    keeps the frame, arms `_timer` to pick it again, and reads on.

    A second refusal arms the timer again, which cancels the first wait, and the
    handler of a wait that is cancelled closes the session. And the handler of a wait
    that elapses starts a read although one is outstanding. And a body that is shorter
    than what the logic reads it as takes the logic out of its arrays.
    `lossless_of_reachable` says that nothing is lost, nothing is stored twice and
    nothing is closed as long as no handler runs on a cancelled wait, reads complete
    where the receive buffer continues, and the frames received are of the sizes the
    logic expects.
-/

namespace AsioNet

open ByteMemory LengthPrefixed LengthPrefixed.Format TransitionSystem reusabel_buffer
  recv_session client_msg

/-! ### What a logic does with a stream -/

/-- The proxy has answered the authentication, with yes or no. -/
def active_server_session_logic.verified (l : active_server_session_logic) : Bool :=
  decide (l._authentication ≠ .BEFORE_VERIFY)

/-- What a frame that is not refused comes to: whether the logic is verified
    afterwards, and the message it stores. -/
def deposit (verified : Bool) (f : protocol_head × List UInt8) : Bool × List client_msg :=
  if 0 ≠ proto_mask.get_mask f.1.bytes f.2 then (verified, [])
  else if f.1.len = 0 then (verified, [])
  else if verified = false then (true, [])
  else if f.1.get_cmd = protocol_cmd.Commands_ConnectionConfirm.val then (true, [])
  else (true, [of_frame f.1 f.2])

/-- The messages of a run of frames, in order. -/
def deposits (verified : Bool) (frames : List (Frame UInt8)) : Bool × List client_msg :=
  frames.foldl (fun acc f =>
    ((deposit acc.1 (unpack_frame f)).1, acc.2 ++ (deposit acc.1 (unpack_frame f)).2))
    (verified, [])

theorem deposits_concat (verified : Bool) (frames : List (Frame UInt8)) (f : Frame UInt8) :
    deposits verified (frames ++ [f]) =
      ((deposit (deposits verified frames).1 (unpack_frame f)).1,
        (deposits verified frames).2 ++
          (deposit (deposits verified frames).1 (unpack_frame f)).2) := by
  unfold deposits
  rw [List.foldl_append]
  rfl

/-- The body is as long as what the logic takes it for: the answer to the authentication,
    a uid and its address, or a message behind its addressee's uid. A message also has to
    fit behind the prefix of a buffer. -/
def Sized (verified : Bool) (f : protocol_head × List UInt8) : Prop :=
  0 ≠ proto_mask.get_mask f.1.bytes f.2 ∨ f.1.len = 0 ∨
    if verified = false then 11 ≤ f.2.length
    else if f.1.get_cmd = protocol_cmd.Commands_ConnectionConfirm.val then 8 ≤ f.2.length
    else SIZEOF_SESSION_UID ≤ f.2.length ∧ 15 + f.2.length ≤ ONCE_BUFFER_SIZE

/-- A message that is stored has a uid. -/
theorem Sized.uid_le {f : protocol_head × List UInt8} (h : Sized true f) {m : client_msg}
    (hdeposit : deposit true f = (true, [m])) : SIZEOF_SESSION_UID ≤ f.2.length := by
  unfold deposit at hdeposit
  by_cases hmask : 0 ≠ proto_mask.get_mask f.1.bytes f.2
  · rw [if_pos hmask] at hdeposit
    cases hdeposit
  by_cases hempty : f.1.len = 0
  · rw [if_neg hmask, if_pos hempty] at hdeposit
    cases hdeposit
  by_cases hcmd : f.1.get_cmd = protocol_cmd.Commands_ConnectionConfirm.val
  · rw [if_neg hmask, if_neg hempty, if_neg nofun, if_pos hcmd] at hdeposit
    cases hdeposit
  have hsized := (h.resolve_left hmask).resolve_left hempty
  rw [if_neg nofun, if_neg hcmd] at hsized
  exact hsized.1

instance (verified : Bool) (f : protocol_head × List UInt8) : Decidable (Sized verified f) := by
  unfold Sized
  infer_instance

/-- So is every body of a run of frames. -/
def AllSized (verified : Bool) (frames : List (Frame UInt8)) : Prop :=
  ∀ done f, done ++ [f] <+: frames → Sized (deposits verified done).1 (unpack_frame f)

theorem AllSized.of_prefix {verified : Bool} {frames frames' : List (Frame UInt8)}
    (h : AllSized verified frames') (hearlier : frames <+: frames') : AllSized verified frames :=
  fun done f hdone => h done f (hdone.trans hearlier)

/-- The bytes of messages in the ring. -/
def records (msgs : List client_msg) : List UInt8 := msgs.flatMap client_msg.record

namespace active_server_session_logic

/-- `l'` is `l` after the frame `f`. -/
structure Deposits (l l' : active_server_session_logic) (f : protocol_head × List UInt8) : Prop where
  verified : l'.verified = (deposit l.verified f).1
  storage : l._storage.Appends l'._storage (records (deposit l.verified f).2)

theorem appends_nil (r : RingBuffer UInt8) : r.Appends r [] :=
  ⟨rfl, by rw [List.append_nil]⟩

/-- A frame that stores nothing. -/
theorem Deposits.of_skipped {l l' : active_server_session_logic} {f : protocol_head × List UInt8}
    (hstorage : l'._storage = l._storage) (hskip : deposit l.verified f = (l'.verified, [])) :
    Deposits l l' f := by
  refine ⟨?_, ?_⟩
  · rw [hskip]
  · rw [hskip, hstorage]
    exact appends_nil _

/-- The answer to the authentication is read. -/
theorem check_verify_res_of_le (l : active_server_session_logic) {data : once_buffer}
    (hmin : 11 ≤ data.length) (hlen : data.length < 2 ^ 16)
    (hfit : data.offset + data.length ≤ ONCE_BUFFER_SIZE) :
    ∃ l', l.check_verify_res data = .ok l' := by
  have hlength : (UInt16.ofNat data.length).toNat = data.length := UInt16.toNat_ofNat_of_lt' hlen
  have hle : (11 : UInt16) ≤ UInt16.ofNat data.length := by
    rw [UInt16.le_iff_toNat_le, hlength]
    exact hmin
  have hkey : (UInt16.ofNat data.length - 11).toNat = data.length - 11 := by
    rw [UInt16.toNat_sub_of_le _ _ hle, hlength]
    rfl
  unfold check_verify_res authentication_aaa_response.unpack
  rw [buffer_zero_of_eq rfl (by omega)]
  simp only [hkey]
  rw [load_of_le _ (by omega), load_of_le _ (by omega), load_of_le _ (by omega)]
  simp only [ok_bind, pure_eq_ok]
  split
  · exact ⟨_, rfl⟩
  · exact ⟨_, rfl⟩

/-- The confirmation of a client is read. -/
theorem remote_session_info_confirm_of_le (l : active_server_session_logic) {data : once_buffer}
    (hmin : 8 ≤ data.length) (hfit : data.offset + data.length ≤ ONCE_BUFFER_SIZE) :
    ∃ r, l.remote_session_info_confirm data = .ok r := by
  have hsize : ONCE_BUFFER_SIZE = 65536 := rfl
  have hmoved : size_t_add data.offset SIZEOF_SESSION_UID = data.offset + 4 :=
    size_t_add_of_lt (by rw [show SIZEOF_SESSION_UID = 4 from rfl]; omega)
  unfold remote_session_info_confirm session_connect_confirm.unpack
  rw [buffer_zero_of_eq rfl (by omega), load_of_le _ (by omega), ok_bind, hmoved]
  simp only
  rw [buffer_zero_of_eq (n := data.offset + 4) rfl (by omega), load_of_le _ (by omega)]
  exact ⟨_, rfl⟩

/-- What `unwrap_received_data` comes to: a fault, a frame that is not for the ring, or one
    that is. -/
theorem unwrap_received_data_cases (l : active_server_session_logic) {head : protocol_head}
    {body : List UInt8} {buffer : once_buffer} (ret_block : once_buffer)
    (hlen : head.len.toNat = body.length) (hlength : buffer.length = body.length)
    (hbody : buffer.load (buffer.buffer 0) body.length = .ok body)
    (hfit : buffer.offset + body.length ≤ ONCE_BUFFER_SIZE) (hoff : ret_block.offset = 15) :
    (¬ Sized l.verified (head, body) ∧
      ∃ e, l.unwrap_received_data buffer head ret_block = .error e) ∨
    (∃ r, l.unwrap_received_data buffer head ret_block = .ok r ∧ r.accepted = false ∧
      Deposits l r.state (head, body)) ∨
    (∃ r, l.unwrap_received_data buffer head ret_block = .ok r ∧ r.accepted = true ∧
      r.state = l ∧ r.ret_block.offset + r.ret_block.length ≤ ONCE_BUFFER_SIZE ∧
      r.ret_block.content = body ∧ deposit l.verified (head, body) = (true, [of_frame head body]) ∧
      l.verified = true) := by
  unfold unwrap_received_data
  rw [hlen, hbody, ok_bind]
  by_cases hmask : 0 ≠ proto_mask.get_mask head.bytes body
  · rw [if_pos hmask]
    refine Or.inr (Or.inl ⟨_, rfl, rfl, .of_skipped rfl ?_⟩)
    exact if_pos hmask
  rw [if_neg hmask]
  by_cases hempty : head.len = 0
  · rw [if_pos hempty]
    refine Or.inr (Or.inl ⟨_, rfl, rfl, .of_skipped rfl ?_⟩)
    exact (if_neg hmask).trans (if_pos hempty)
  rw [if_neg hempty]
  -- up to here the same tests as in `deposit` and in `Sized`
  have hsized : Sized l.verified (head, body) →
      if l.verified = false then 11 ≤ body.length
      else if head.get_cmd = protocol_cmd.Commands_ConnectionConfirm.val then 8 ≤ body.length
      else SIZEOF_SESSION_UID ≤ body.length ∧ 15 + body.length ≤ ONCE_BUFFER_SIZE :=
    fun h => (h.resolve_left hmask).resolve_left hempty
  have hdeposit : deposit l.verified (head, body) =
      if l.verified = false then (true, [])
      else if head.get_cmd = protocol_cmd.Commands_ConnectionConfirm.val then (true, [])
      else (true, [of_frame head body]) := (if_neg hmask).trans (if_neg hempty)
  by_cases hauth : l._authentication = .BEFORE_VERIFY
  · have hverified : l.verified = false := decide_eq_false (not_not_intro hauth)
    rw [if_pos hauth]
    cases hres : l.check_verify_res buffer with
    | error e =>
      refine Or.inl ⟨fun h => ?_, e, rfl⟩
      have hmin := hsized h
      rw [if_pos hverified] at hmin
      obtain ⟨l', hl'⟩ := l.check_verify_res_of_le (hlength ▸ hmin)
        (by rw [hlength, ← hlen]; exact head.len.toNat_lt) (by rw [hlength]; exact hfit)
      rw [hl'] at hres
      cases hres
    | ok l' =>
      obtain ⟨authentication, hne, rfl⟩ := check_verify_res_eq_ok hres
      refine Or.inr (Or.inl ⟨_, rfl, rfl, .of_skipped rfl ?_⟩)
      have hl' : verified { l with _authentication := authentication } = true := decide_eq_true hne
      rw [hdeposit, if_pos hverified, hl']
  have hverified : l.verified = true := decide_eq_true hauth
  rw [hverified, if_neg nofun] at hdeposit hsized
  rw [if_neg hauth]
  by_cases hcmd : head.get_cmd = protocol_cmd.Commands_ConnectionConfirm.val
  · rw [if_pos hcmd]
    cases hres : l.remote_session_info_confirm buffer with
    | error e =>
      refine Or.inl ⟨fun h => ?_, e, rfl⟩
      have hmin := hsized (hverified ▸ h)
      rw [if_pos hcmd] at hmin
      obtain ⟨r, hr⟩ := l.remote_session_info_confirm_of_le (hlength ▸ hmin)
        (by rw [hlength]; exact hfit)
      rw [hr] at hres
      cases hres
    | ok r =>
      obtain ⟨⟨map, hmap⟩, -⟩ := remote_session_info_confirm_eq_ok hres
      have hstorage : r.1._storage = l._storage := by
        rw [hmap]
      have hstill : r.1.verified = true := by
        rw [hmap]
        exact decide_eq_true hauth
      refine Or.inr (Or.inl ⟨_, rfl, rfl, .of_skipped hstorage ?_⟩)
      rw [hverified, hdeposit, if_pos hcmd, hstill]
  have hprefix : ret_block.offset ≤ ONCE_BUFFER_SIZE := by
    rw [hoff]
    decide
  rw [if_neg hcmd, buffer_zero_of_eq rfl hprefix]
  rcases Nat.lt_or_ge ONCE_BUFFER_SIZE (ret_block.offset + body.length) with hout | hin
  · -- there is less space behind the prefix than a frame may fill
    refine Or.inl ⟨fun h => ?_, .out_of_bounds, ?_⟩
    · have hroom := hsized (hverified ▸ h)
      rw [if_neg hcmd] at hroom
      omega
    · rw [store_of_lt _ hout]
      rfl
  · rw [store_of_le _ hin]
    refine Or.inr (Or.inr ⟨_, rfl, rfl, rfl, hin, read_write _ _ _, ?_, hverified⟩)
    rw [hverified, hdeposit, if_neg hcmd]

/-- **What the logic does with a frame**: it is a fault, or the ring has no room for it and
    nothing changes, or its message is stored. Only a body of the wrong size is a fault. -/
theorem handle_msg_cases {l : active_server_session_logic} (hcap : l._storage._capacity < 2 ^ 63)
    (stale : recycled) (head : protocol_head) (body : List UInt8) {data_block : once_buffer}
    (hlen : head.len.toNat = body.length)
    (hfit : data_block.offset + body.length ≤ ONCE_BUFFER_SIZE) :
    let msg := interface.handle_msg stale (.ok l) head (recv_session.block_of data_block body)
    (msg.1 = true ∧ ¬ Sized l.verified (head, body)) ∨
    (msg.1 = false ∧ msg.2.1 = .ok l) ∨
    (msg.1 = true ∧ ∃ l', msg.2.1 = .ok l' ∧ Deposits l l' (head, body)) := by
  have hbody : (recv_session.block_of data_block body).load
      ((recv_session.block_of data_block body).buffer 0) body.length = .ok body := by
    have hoff : (recv_session.block_of data_block body).offset = data_block.offset := rfl
    rw [buffer_zero_of_eq hoff (by omega), load_of_le _ hfit]
    exact congrArg Except.ok (read_write _ _ _)
  have hprefix : l.prefix_size ≤ ONCE_BUFFER_SIZE := (by decide : 15 ≤ 65536)
  have hcases := unwrap_received_data_cases l
    { TEMP_BUFFER (stale 0) with offset := l.prefix_size } hlen rfl hbody hfit rfl
  intro msg
  rcases hcases with ⟨hwrong, e, herr⟩ | ⟨r, hr, hskip, hdeposits⟩ |
    ⟨r, hr, haccepted, hstate, hroom, hcontent, hdeposit, hverified⟩
  · left
    simp only [msg, session_logic_interface.handle_msg, interface, ok_bind, herr]
    exact ⟨rfl, hwrong⟩
  · right; right
    simp only [msg, session_logic_interface.handle_msg, interface, ok_bind, hr, hskip, if_true]
    exact ⟨trivial, _, rfl, hdeposits⟩
  · obtain ⟨accepted, state, buffer, ret_block⟩ := r
    obtain rfl : accepted = true := haccepted
    obtain rfl : state = l := hstate
    have hmsg_ok : ∀ copied, state.try_copy_to_storage ret_block head = .ok copied →
        msg = (copied.1, .ok copied.2, buffer) := by
      intro copied hcopied
      simp only [msg, session_logic_interface.handle_msg, interface, ok_bind, hr, hcopied]
      rfl
    have hmsg_error : ∀ e, state.try_copy_to_storage ret_block head = .error e →
        msg = (true, .error e, buffer) := by
      intro e herr
      simp only [msg, session_logic_interface.handle_msg, interface, ok_bind, hr, herr]
      rfl
    rcases Nat.lt_or_ge ret_block.length SIZEOF_SESSION_UID with hshort | huid
    · have hoff : ret_block.offset = 15 := (accepted_of_unwrap hprefix hr rfl).2.1
      have hshort_copy := try_copy_to_storage_of_short (l := state) head hcap
        (by rw [hoff]; decide) hshort
      split at hshort_copy
      · rw [hmsg_ok _ hshort_copy]
        exact Or.inr (Or.inl ⟨rfl, rfl⟩)
      · rw [hmsg_error _ hshort_copy]
        refine Or.inl ⟨rfl, fun h => ?_⟩
        rw [hverified] at h hdeposit
        have hcontent_length : ret_block.content.length = ret_block.length := length_read ..
        have huid : SIZEOF_SESSION_UID ≤ body.length := h.uid_le hdeposit
        rw [← hcontent, hcontent_length] at huid
        omega
    · rcases @try_copy_to_storage_cases state ret_block head hcap ⟨huid, hroom⟩ with
        ⟨-, hrefused⟩ | ⟨-, storage, happends, hstored⟩
      · rw [hmsg_ok _ hrefused]
        exact Or.inr (Or.inl ⟨rfl, rfl⟩)
      · rw [hmsg_ok _ hstored]
        refine Or.inr (Or.inr ⟨rfl, _, rfl, ?_, ?_⟩)
        · rw [hdeposit]
          exact hverified
        · rw [hdeposit]
          simp only [records, List.flatMap_cons, List.flatMap_nil, List.append_nil, ← hcontent]
          exact happends

end active_server_session_logic

/-! ### Runs -/

/-- A connected session, what its reads have brought, and what the consumer has taken. -/
structure back_run where
  run : recv_run (Checked active_server_session_logic)
  received : List UInt8
  drained : List UInt8

/-- What can happen as long as the peer and the socket report no error. -/
inductive back_event where
  | read_done (region : read_region) (bytes : List UInt8)
  | timer_elapses
  | timer_handler
  | timer_handler_cancelled
  | run_posted
  | consume (n : Nat)

namespace back_run

variable (pool : Nat → recycled)

/-- The consumer reads `n` bytes. -/
def drain (n : Nat) (logic : Checked active_server_session_logic) :
    Checked active_server_session_logic :=
  logic.map fun l => { l with _storage := (l._storage.tryRead n false).1 }

/-- An event of the session. -/
def on_run (s : back_run) (e : recv_event Nat) : Option back_run :=
  (recv_run.exec active_server_session_logic.interface pool drain s.run e).map fun run =>
    { s with run := run }

def exec (s : back_run) : back_event → Option back_run
  | .read_done region bytes =>
    (s.on_run pool (.read_done region bytes)).map fun s =>
      { s with received := s.received ++ bytes }
  | .timer_elapses => s.on_run pool .timer_elapses
  | .timer_handler => s.on_run pool .timer_handler
  | .timer_handler_cancelled => s.on_run pool .timer_handler_cancelled
  | .run_posted => s.on_run pool .run_posted
  | .consume n =>
    match s.run.session.logic with
    | .error _ => none
    | .ok l =>
      -- no more than there is
      if n ≤ l._storage.count then
        (s.on_run pool (.consume n)).map fun s =>
          { s with drained := s.drained ++ (l._storage.tryRead n false).2.getD [] }
      else none

/-- The session has just connected and started its first read. -/
def start (l : active_server_session_logic) : back_run where
  run := {
    session := (initial .CONNECTING (.ok l)).async_recv_loop pool
    connected := true
    is_open := true
    posted := [] }
  received := []
  drained := []

def system (l : active_server_session_logic) : System back_run back_event :=
  System.ofExec (fun s => s = start pool l) (exec pool)

/-- **Nothing is lost**: the session is connected, the bytes received are frames that were
    not refused and the bytes held, and the messages of these frames are behind what the
    ring held at the start, in order. -/
structure Lossless (l₀ : active_server_session_logic) (s : back_run) : Prop where
  connecting : s.run.session._state = .CONNECTING
  stored : ∃ recv frames bs, s.run.session.BufferHolds recv bs ∧
    s.received = serialize frames ++ bs ∧
    (∀ f ∈ frames, protocol_head.format.WellFormed f) ∧
    ∃ l, s.run.session.logic = .ok l ∧ s.drained ++ l._storage.contents =
      l₀._storage.contents ++ records (deposits l₀.verified frames).2

/-- No handler runs on a cancelled wait, and a read completes where the buffer continues
    and brings frames of the sizes the logic expects. -/
def Undisturbed (l₀ : active_server_session_logic) (s : back_run) : back_event → Prop
  | .timer_handler_cancelled => False
  | .read_done region bytes =>
    s.run.session._recv_not_entire.map read_target = some region ∧
      AllSized l₀.verified (protocol_head.format.cut (s.received ++ bytes)).1
  | _ => True

/-- What the logic's state says about the frames that were not refused. -/
def Stored (l₀ : active_server_session_logic) (drained : List UInt8) :
    Checked active_server_session_logic → List (Frame UInt8) → Prop
  | .error _, _ => False
  | .ok l, frames =>
    l._storage._capacity < 2 ^ 63 ∧ l.verified = (deposits l₀.verified frames).1 ∧
      drained ++ l._storage.contents =
        l₀._storage.contents ++ records (deposits l₀.verified frames).2

/-- What holds in every state of an undisturbed run. -/
structure Inv (l₀ : active_server_session_logic) (s : back_run) : Prop where
  connecting : s.run.session._state = .CONNECTING
  is_open : s.run.is_open = true
  posted : s.run.posted = []
  sized : AllSized l₀.verified (protocol_head.format.cut s.received).1
  stored : ∃ recv frames bs, s.run.session.BufferHolds recv bs ∧
    s.received = serialize frames ++ bs ∧
    (∀ f ∈ frames, protocol_head.format.WellFormed f) ∧
    Stored l₀ s.drained s.run.session.logic frames

theorem Inv.lossless {l₀ : active_server_session_logic} {s : back_run} (h : Inv l₀ s) :
    Lossless l₀ s := by
  obtain ⟨recv, frames, bs, hrecv, hreceived, hwf, hstored⟩ := h.stored
  refine ⟨h.connecting, recv, frames, bs, hrecv, hreceived, hwf, ?_⟩
  cases hlogic : s.run.session.logic with
  | error e =>
    rw [hlogic] at hstored
    exact hstored.elim
  | ok l =>
    rw [hlogic] at hstored
    exact ⟨l, rfl, hstored.2.2⟩

theorem records_append (msgs msgs' : List client_msg) :
    records (msgs ++ msgs') = records msgs ++ records msgs' := List.flatMap_append

/-- A frame is refused and nothing changes, or its message is stored, as long as all that
    were not refused have the sizes expected. -/
theorem tracks_stored (l₀ : active_server_session_logic) (drained : List UInt8) :
    Tracks active_server_session_logic.interface fun logic done =>
      AllSized l₀.verified done → Stored l₀ drained logic done := by
  intro stale logic done f data_block hstored hwf hfit msg
  cases hpassed : msg.1 with
  | false =>
    refine Or.inl ⟨rfl, fun hsized => ?_⟩
    cases logic with
    | error e => exact absurd hpassed nofun
    | ok l =>
      obtain ⟨hcap, hverified, hcontents⟩ := hstored hsized
      have hcases := active_server_session_logic.handle_msg_cases hcap stale
        (unpack_frame f).1 (unpack_frame f).2 hwf.2 hfit
      rcases hcases with ⟨htrue, -⟩ | ⟨-, hstay⟩ | ⟨htrue, -⟩
      · exact absurd (hpassed.symm.trans htrue) nofun
      · rw [hstay]
        exact ⟨hcap, hverified, hcontents⟩
      · exact absurd (hpassed.symm.trans htrue) nofun
  | true =>
    refine Or.inr ⟨rfl, fun hsized => ?_⟩
    have hbefore := hstored (hsized.of_prefix (List.prefix_append done [f]))
    cases logic with
    | error e => exact hbefore.elim
    | ok l =>
      obtain ⟨hcap, hverified, hcontents⟩ := hbefore
      have hcases := active_server_session_logic.handle_msg_cases hcap stale
        (unpack_frame f).1 (unpack_frame f).2 hwf.2 hfit
      rcases hcases with ⟨-, hwrong⟩ | ⟨hfalse, -⟩ | ⟨-, l', hl', hdeposits⟩
      · rw [hverified] at hwrong
        exact absurd (hsized done f List.prefix_rfl) hwrong
      · exact absurd (hpassed.symm.trans hfalse) nofun
      · rw [hl']
        have hdeposit := deposits_concat l₀.verified done f
        rw [← hverified] at hdeposit
        refine ⟨?_, ?_, ?_⟩
        · rw [hdeposits.storage.capacity]
          exact hcap
        · rw [hdeposits.verified, hdeposit]
        · rw [hdeposits.storage.contents, hdeposit, ← List.append_assoc, hcontents,
            records_append, List.append_assoc]

/-- Frames taken off the front of a stream have the sizes expected if all have. -/
theorem allSized_of_stream {verified : Bool} {received bs : List UInt8}
    {frames : List (Frame UInt8)} (h : AllSized verified (protocol_head.format.cut received).1)
    (hstream : received = serialize frames ++ bs)
    (hwf : ∀ f ∈ frames, protocol_head.format.WellFormed f) : AllSized verified frames := by
  apply h.of_prefix
  rw [hstream, cut_serialize hwf]
  exact List.prefix_append _ _

/-- **Picking** keeps the invariant, if the buffer holds what was received. -/
theorem inv_of_picked {l₀ : active_server_session_logic} {s : back_run}
    {session : recv_session (Checked active_server_session_logic)}
    {recv : once_buffer_sptr} {done : List (Frame UInt8)} {bs : List UInt8}
    (h : session.BufferHolds recv bs) (hstate : session._state = .CONNECTING)
    (hstored : Stored l₀ s.drained session.logic done) (hopen : s.run.is_open = true)
    (hposted : s.run.posted = [])
    (hsized : AllSized l₀.verified (protocol_head.format.cut s.received).1)
    (hreceived : s.received = serialize done ++ bs)
    (hwf : ∀ f ∈ done, protocol_head.format.WellFormed f) :
    ∃ session', session.pick_entire_msgs active_server_session_logic.interface pool =
      .ok session' ∧ Inv l₀ { s with run := { s.run with session := session' } } := by
  obtain ⟨session', recv', frames, bs', hpick, hstate', hrecv', -, hstream, hwf', -, hstored'⟩ :=
    pick_entire_msgs_picked pool (tracks_stored l₀ s.drained) h hstate fun _ => hstored
  have hwf_all : ∀ f ∈ done ++ frames, protocol_head.format.WellFormed f := by
    intro f hf
    rcases List.mem_append.mp hf with hf | hf
    · exact hwf f hf
    · exact hwf' f hf
  have hreceived' : s.received = serialize (done ++ frames) ++ bs' := by
    rw [hreceived, hstream, serialize_append, List.append_assoc]
  refine ⟨session', hpick, hstate', hopen, hposted, hsized, recv', done ++ frames, bs', hrecv',
    hreceived', hwf_all, hstored' (allSized_of_stream hsized hreceived' hwf_all)⟩

/-- A handler of the session that ran through. -/
theorem on_run_eq_some {s s' : back_run} {e : recv_event Nat} (h : s.on_run pool e = some s') :
    ∃ run, recv_run.exec active_server_session_logic.interface pool drain s.run e = some run ∧
      s' = { s with run := run } := by
  unfold on_run at h
  obtain ⟨run, hrun, rfl⟩ := Option.map_eq_some_iff.mp h
  exact ⟨run, hrun, rfl⟩

/-- **A read** that completes where the buffer continues is handled. -/
theorem exec_read_done {l₀ : active_server_session_logic} {s : back_run} (h : Inv l₀ s)
    {region : read_region} {bytes : List UInt8}
    (hguard : Undisturbed l₀ s (.read_done region bytes)) (hmem : region ∈ s.run.session.reads)
    (hfit : bytes.length ≤ region.size) :
    ∃ s', exec pool s (.read_done region bytes) = some s' ∧ Inv l₀ s' := by
  obtain ⟨recv, done, bs, hrecv, hreceived, hwf, hstored⟩ := h.stored
  obtain ⟨hregion, hsized⟩ := hguard
  obtain rfl : read_target recv = region := by
    rw [hrecv.recv_eq] at hregion
    exact Option.some_inj.mp hregion
  obtain ⟨s₁, recv₁, hreceive, hrecv₁, -, -, hstate₁⟩ := received_spec hrecv hfit
  rw [← received_logic hreceive] at hstored
  obtain ⟨session, hpick, hinv⟩ := inv_of_picked pool
    (s := { s with received := s.received ++ bytes }) hrecv₁ (hstate₁.trans h.connecting) hstored
    h.is_open h.posted hsized (by rw [hreceived, List.append_assoc]) hwf
  have hread : s.run.session.on_read active_server_session_logic.interface pool
      (read_target recv) bytes = .ok session := by
    unfold on_read
    rw [hreceive, ok_bind, hpick]
  refine ⟨_, ?_, hinv⟩
  simp only [exec, on_run, recv_run.exec]
  rw [if_pos ⟨hmem, hfit⟩, hread]
  rfl

/-- **The retry timer** elapses and picks again. -/
theorem exec_timer_handler {l₀ : active_server_session_logic} {s : back_run} (h : Inv l₀ s)
    (helapsed : 0 < s.run.session.timer_elapsed) :
    ∃ s', exec pool s .timer_handler = some s' ∧ Inv l₀ s' := by
  obtain ⟨recv, done, bs, hrecv, hreceived, hwf, hstored⟩ := h.stored
  have hheld : { s.run.session with
      timer_elapsed := s.run.session.timer_elapsed - 1 }.BufferHolds recv bs := hrecv.congr rfl
  obtain ⟨session, hpick, hinv⟩ := inv_of_picked pool (s := s) hheld h.connecting hstored h.is_open
    h.posted h.sized hreceived hwf
  refine ⟨_, ?_, hinv⟩
  simp only [exec, on_run, recv_run.exec]
  rw [if_pos helapsed, hpick]
  rfl

/-- What the consumer reads is what is missing in the ring. -/
theorem stored_drain {l₀ l : active_server_session_logic} {drained : List UInt8}
    {frames : List (Frame UInt8)} {n : Nat} (h : Stored l₀ drained (.ok l) frames)
    (hle : n ≤ l._storage.count) :
    Stored l₀ (drained ++ (l._storage.tryRead n false).2.getD []) (drain n (.ok l)) frames := by
  obtain ⟨hcap, hverified, hcontents⟩ := h
  have hdrain : drain n (.ok l) = .ok { l with _storage := (l._storage.tryRead n false).1 } := rfl
  rw [hdrain]
  rcases Nat.eq_zero_or_pos l._storage.count with hzero | hpos
  · -- an empty ring gives nothing
    rw [RingBuffer.tryRead_of_empty hcap hzero, Option.getD_none, List.append_nil]
    exact ⟨hcap, hverified, hcontents⟩
  · rw [RingBuffer.tryRead_of_le hcap hpos hle, Option.getD_some]
    refine ⟨?_, hverified, ?_⟩
    · rw [RingBuffer.shift_read_capacity]
      exact hcap
    · rw [(RingBuffer.shift_read_of_le hcap hle).2, List.append_assoc, List.take_append_drop]
      exact hcontents

/-- **The consumer** takes bytes off the front of the ring. -/
theorem inv_consume {l₀ : active_server_session_logic} {s s' : back_run} (h : Inv l₀ s) {n : Nat}
    (hexec : exec pool s (.consume n) = some s') : Inv l₀ s' := by
  obtain ⟨recv, done, bs, hrecv, hreceived, hwf, hstored⟩ := h.stored
  simp only [exec] at hexec
  split at hexec
  · cases hexec
  next l hl =>
  split at hexec
  · next hle =>
    obtain ⟨t, ht, rfl⟩ := Option.map_eq_some_iff.mp hexec
    obtain ⟨run, hrun, rfl⟩ := on_run_eq_some pool ht
    cases hrun
    rw [hl] at hstored
    have hdrained := stored_drain hstored hle
    rw [← hl] at hdrained
    exact ⟨h.connecting, h.is_open, h.posted, h.sized, recv, done, bs, hrecv.congr rfl, hreceived,
      hwf, hdrained⟩
  · cases hexec

theorem inv_start {l₀ : active_server_session_logic} (hcap : l₀._storage._capacity < 2 ^ 63) :
    Inv l₀ (start pool l₀) := by
  have hkeeping : (initial .CONNECTING (Except.ok l₀ : Checked _)).Keeping [] :=
    Or.inl ⟨rfl, rfl⟩
  obtain ⟨⟨recv, hrecv, -⟩, hstate, hlogic⟩ := hkeeping.async_recv_loop pool rfl
  refine ⟨hstate, rfl, rfl, ?_, recv, [], [], hrecv, rfl, nofun, ?_⟩
  · intro done f hdone
    have hnone : (protocol_head.format.cut (start pool l₀).received).1 = [] := by
      show (protocol_head.format.cut []).1 = []
      rw [cut_nil]
    rw [hnone] at hdone
    exact absurd (List.prefix_nil.mp hdone) (List.append_ne_nil_of_right_ne_nil _ nofun)
  show Stored l₀ [] ((initial .CONNECTING (.ok l₀)).async_recv_loop pool).logic []
  rw [hlogic]
  have hnothing : records (deposits l₀.verified []).2 = [] := rfl
  refine ⟨hcap, rfl, ?_⟩
  rw [hnothing, List.append_nil, List.nil_append]

/-- **One event** keeps the invariant, unless it disturbs. -/
theorem inv_exec {l₀ : active_server_session_logic} {s s' : back_run} (h : Inv l₀ s)
    (e : back_event) (hguard : Undisturbed l₀ s e) (hexec : exec pool s e = some s') :
    Inv l₀ s' := by
  cases e with
  | read_done region bytes =>
    have hasked : region ∈ s.run.session.reads ∧ bytes.length ≤ region.size := by
      by_contra hnot
      simp only [exec, on_run, recv_run.exec] at hexec
      rw [if_neg hnot] at hexec
      cases hexec
    obtain ⟨t, ht, hinv⟩ := exec_read_done pool h hguard hasked.1 hasked.2
    rw [ht] at hexec
    cases hexec
    exact hinv
  | timer_elapses =>
    obtain ⟨run, hrun, rfl⟩ := on_run_eq_some pool hexec
    obtain ⟨recv, done, bs, hrecv, hreceived, hwf, hstored⟩ := h.stored
    simp only [recv_run.exec] at hrun
    split at hrun
    · cases hrun
      exact ⟨h.connecting, h.is_open, h.posted, h.sized, recv, done, bs, hrecv.congr rfl,
        hreceived, hwf, hstored⟩
    · cases hrun
  | timer_handler =>
    have helapsed : 0 < s.run.session.timer_elapsed := by
      by_contra hnot
      simp only [exec, on_run, recv_run.exec] at hexec
      rw [if_neg hnot] at hexec
      cases hexec
    obtain ⟨t, ht, hinv⟩ := exec_timer_handler pool h helapsed
    rw [ht] at hexec
    cases hexec
    exact hinv
  | timer_handler_cancelled => exact absurd hguard id
  | run_posted =>
    -- nobody has posted anything
    obtain ⟨run, hrun, rfl⟩ := on_run_eq_some pool hexec
    simp only [recv_run.exec] at hrun
    rw [h.posted] at hrun
    cases hrun
  | consume n => exact inv_consume pool h hexec

/-- When the handler of a cancelled wait does run, the session closes. -/
theorem closes_of_inv {l₀ : active_server_session_logic} {s s₁ s₂ : back_run} (h : Inv l₀ s)
    (hcancelled : exec pool s .timer_handler_cancelled = some s₁)
    (hposted : exec pool s₁ .run_posted = some s₂) : s₂.run.session._state = .CLOSE_DONE := by
  obtain ⟨run₁, hrun₁, rfl⟩ := on_run_eq_some pool hcancelled
  obtain ⟨run₂, hrun₂, rfl⟩ := on_run_eq_some pool hposted
  have hconnected : s.run.session._state ≠ .CLOSE_DONE := by
    rw [h.connecting]
    nofun
  simp only [recv_run.exec] at hrun₁
  split at hrun₁
  · cases hrun₁
    unfold recv_run.close at hrun₂
    rw [if_neg hconnected, h.posted] at hrun₂
    cases hrun₂
    unfold recv_run.close_body
    rw [if_neg hconnected]
    simp only [h.is_open]
    rfl
  · cases hrun₁

/-- A read that does not disturb is handled, and so is a wait that has elapsed, and nothing
    is lost thereby. -/
def RunsThrough (l₀ : active_server_session_logic) (s : back_run) : Prop :=
  (∀ region bytes, region ∈ s.run.session.reads → bytes.length ≤ region.size →
    Undisturbed l₀ s (.read_done region bytes) →
    ∃ s', exec pool s (.read_done region bytes) = some s' ∧ Lossless l₀ s') ∧
  (0 < s.run.session.timer_elapsed →
    ∃ s', exec pool s .timer_handler = some s' ∧ Lossless l₀ s')

theorem runsThrough_of_inv {l₀ : active_server_session_logic} {s : back_run} (h : Inv l₀ s) :
    RunsThrough pool l₀ s := by
  refine ⟨?_, ?_⟩
  · intro region bytes hmem hfit hguard
    obtain ⟨s', hexec, hinv⟩ := exec_read_done pool h hguard hmem hfit
    exact ⟨s', hexec, hinv.lossless⟩
  · intro helapsed
    obtain ⟨s', hexec, hinv⟩ := exec_timer_handler pool h helapsed
    exact ⟨s', hexec, hinv.lossless⟩

/-- **Back-pressure.** As long as no handler runs on a cancelled wait, reads complete where
    the buffer continues and the frames have the sizes expected, nothing is lost, nothing is
    stored twice and nothing is closed, and no handler gets stuck. A handler that does run on
    a cancelled wait closes the session. -/
theorem lossless_of_reachable {l₀ : active_server_session_logic}
    (hcap : l₀._storage._capacity < 2 ^ 63) {s : back_run}
    (h : ((system pool l₀).restrict (Undisturbed l₀)).Reachable s) :
    Lossless l₀ s ∧ RunsThrough pool l₀ s ∧
      ∀ s₁ s₂, exec pool s .timer_handler_cancelled = some s₁ →
        exec pool s₁ .run_posted = some s₂ → s₂.run.session._state = .CLOSE_DONE := by
  have hinv : Inv l₀ s := by
    refine System.invariant ?_ ?_ s h
    · rintro s rfl
      exact inv_start pool hcap
    · rintro s e s' hs ⟨hguard, hexec⟩
      exact inv_exec pool hs e hguard hexec
  exact ⟨hinv.lossless, runsThrough_of_inv pool hinv, fun _ _ => closes_of_inv pool hinv⟩

/-- The body of a client's message `a`, and a frame with it. -/
def body_a : List UInt8 := [0, 0, 0, 5, 0x61]

def head_a : protocol_head :=
  proto_mask.masked_head (protocol_head.get_a_head FRAME_KEY 5 0
    protocol_cmd.Commands_RoutingTransparent.val false 1) body_a

def msg_a : List UInt8 := head_a.bytes ++ body_a

/-- The pool hands out buffers of zeros. -/
def zero_pool : Nat → recycled := fun _ _ _ => 0

/-- A logic whose ring has one free cell. -/
def full_logic : active_server_session_logic :=
  { active_server_session_mgr.just_started_logic with
    _storage := recv_run.full_storage._storage }

/-- The message has the size expected. -/
theorem allSized_msg_a : AllSized full_logic.verified (protocol_head.format.cut msg_a).1 := by
  have hcut : protocol_head.format.cut msg_a = ([(head_a.bytes, body_a)], []) :=
    cut_single (by decide +kernel)
  intro done f hdone
  have hone : done ++ [f] <+: [] ++ [(head_a.bytes, body_a)] := by
    rw [hcut] at hdone
    exact hdone
  rcases List.prefix_concat_iff.mp hone with hone | hnone
  · obtain ⟨rfl, hf⟩ := List.append_inj' hone rfl
    obtain rfl := List.singleton_inj.mp hf
    decide +kernel
  · exact absurd (List.prefix_nil.mp hnone) (List.append_ne_nil_of_right_ne_nil _ nofun)

/-- The ring has no room for the message until the consumer has read, and the timer's
    handler picks it again. -/
def stored_when_drained : List back_event :=
  [.read_done ⟨0, 0, ONCE_BUFFER_SIZE⟩ msg_a, .consume 16, .timer_elapses, .timer_handler]

theorem lossless_stored_when_drained :
    ∃ s, stored_when_drained.foldlM (exec zero_pool) (start zero_pool full_logic) = some s ∧
      s.run.session.passed.length = 2 ∧ Lossless full_logic s := by
  have hpassed : (stored_when_drained.foldlM (exec zero_pool) (start zero_pool full_logic)).map
      (fun s => s.run.session.passed.length) = some 2 := by decide +kernel
  obtain ⟨s, hs, htwo⟩ := Option.map_eq_some_iff.mp hpassed
  have hparts := hs
  rw [stored_when_drained, List.foldlM_cons] at hparts
  obtain ⟨s₁, hread, hrest⟩ := Option.bind_eq_some_iff.mp hparts
  have hguard : Undisturbed full_logic (start zero_pool full_logic)
      (.read_done ⟨0, 0, ONCE_BUFFER_SIZE⟩ msg_a) := ⟨by decide +kernel, allSized_msg_a⟩
  have hfirst : ((system zero_pool full_logic).restrict (Undisturbed full_logic)).Reachable s₁ :=
    .step _ (.init rfl) ⟨hguard, hread⟩
  have hcap : full_logic._storage._capacity < 2 ^ 63 := by decide
  have hreach := hfirst.of_foldlM [.consume 16, .timer_elapses, .timer_handler] ?_ hrest
  · exact ⟨s, hs, htwo, (lossless_of_reachable zero_pool hcap hreach).1⟩
  · intro e he t
    have hcases : e = .consume 16 ∨ e = .timer_elapses ∨ e = .timer_handler := by simpa using he
    rcases hcases with rfl | rfl | rfl
    · trivial
    · trivial
    · trivial

/-- The message is refused. The next read brings some more bytes, it is refused again, and
    the handler of the first wait runs. -/
def refused_twice : List back_event :=
  [.read_done ⟨0, 0, ONCE_BUFFER_SIZE⟩ msg_a,
    .read_done ⟨0, msg_a.length, ONCE_BUFFER_SIZE - msg_a.length⟩ [0],
    .timer_handler_cancelled, .run_posted]

theorem closed_refused_twice :
    (refused_twice.foldlM (exec zero_pool) (start zero_pool full_logic)).map
      (fun s => s.run.session._state) = some .CLOSE_DONE := by
  decide +kernel

/-- A message that is refused twice closes the session. -/
theorem not_always_lossless :
    ¬ ∀ pool (l₀ : active_server_session_logic) s, l₀._storage._capacity < 2 ^ 63 →
      (system pool l₀).Reachable s → Lossless l₀ s := by
  intro hall
  obtain ⟨s, hs, hclosed⟩ := Option.map_eq_some_iff.mp closed_refused_twice
  have hinit : ((system zero_pool full_logic).restrict fun _ _ => True).Reachable
      (start zero_pool full_logic) := .init rfl
  have hreach := hinit.of_foldlM _ (fun _ _ _ => trivial) hs
  have hconnecting := (hall zero_pool full_logic s (by decide) hreach.of_restrict).connecting
  rw [hclosed] at hconnecting
  cases hconnecting

end back_run

end AsioNet
