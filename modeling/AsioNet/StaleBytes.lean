import AsioNet.RelayOutcomes

/-! # What pooled buffers held before

    `reset` leaves a recycled buffer's bytes alone. A frame is built in one or more
    of them, and a byte of the region handed to the socket that was not written on
    the way is one of another session's. Two runs that differ in what the buffers
    held show such a byte.

    `async_send_multi` keeps the regions in a list whose array is gone once the list
    is assigned: what is handed over is what the place names by then. `same_bytes_iff`
    lets these places differ, too. A run that leaves its arrays determines nothing;
    one that an assertion ends hands nothing over.
-/

namespace AsioNet

open ByteMemory reusabel_buffer proto_mask proxy_manager

namespace proxy_manager

/-! ### The other frames -/

theorem silent_kick_iff (w : proxy_manager) (i : session_sptr) (l : client_session_logic)
    (stale : recycled) : ∃ w', l.kick_peer stale w i = .ok w' ∧ Sends w w' ∧
      (Silent w w' ↔ w.Unconnected w._server_sessions l._target_uid) := by
  obtain ⟨head_buffer, data_block, hpack, hhead_off, hhead_len, hoff, hlen, -⟩ :=
    l.pack_kick_spec stale (w.sessions i)._uuid
  rw [client_session_logic.kick_peer, hpack]
  obtain ⟨w', hsend, hsilent⟩ := silent_send_to_multi_iff w._server_sessions w l._target_uid
    head_buffer data_block (by rw [hhead_off, hhead_len]; decide)
    (by rw [hoff, hlen]; decide)
  exact ⟨w', hsend, sends_of_send_to_multi hsend, hsilent⟩

theorem silent_confirm_iff (w : proxy_manager) (i : session_sptr) (l : server_session_logic)
    (client_id : session_uid) (ip : UInt32) (stale : Nat → UInt8) :
    ∃ w', w.send_confirm_connect i l stale client_id ip = .ok w' ∧ Sends w w' ∧
      (Silent w w' ↔ (w.sessions i)._state ≠ .CONNECTING) := by
  obtain ⟨b, hb, hoff, hlen, -⟩ := l.pack_confirm_connect_spec stale client_id ip
  rw [send_confirm_connect, hb, ok_bind]
  by_cases hstate : (w.sessions i)._state = .CONNECTING
  · have hfit : b.offset + b.length ≤ ONCE_BUFFER_SIZE := by
      rw [hoff, hlen]
      decide
    have hsend := async_send_multi_msg_eq hstate hfit
    exact ⟨_, hsend, sends_of_write (async_send_multi_cases hsend),
      iff_of_false (not_silent_write w i _) fun h => h hstate⟩
  · refine ⟨w, ?_, Sends.refl w, iff_of_true (Silent.refl w) hstate⟩
    rw [async_send_multi, basic_async_session.async_send_multi_of_not_connecting hstate,
      ok_bind, set_session_self, pure_eq_ok]

theorem tick_alive_of_same (z : zlib) (w : proxy_manager) (i : session_sptr)
    (stale stale' : recycled) : w.tick_alive z stale i = w.tick_alive z stale' i := by
  unfold tick_alive
  split
  · rfl
  · have hempty : ({ TEMP_BUFFER (stale 0) with offset := PROTO_HEAD_SIZE, length := 0 } :
        once_buffer).SameContent { TEMP_BUFFER (stale' 0) with
          offset := PROTO_HEAD_SIZE, length := 0 } := same_empty rfl rfl rfl
    exact async_send_of_same z w i hempty rfl
      (show PROTO_HEAD_SIZE + 0 ≤ ONCE_BUFFER_SIZE by decide) (stale 1) (stale' 1)

theorem determined_tick_alive (z : zlib) (w : proxy_manager) (i : session_sptr)
    (stale : recycled) : Determined (w.tick_alive z stale i) := by
  unfold tick_alive
  split
  · exact determined_ok _
  · refine (determined_async_send_iff z (stale 1) w i rfl
      (show PROTO_HEAD_SIZE + 0 ≤ ONCE_BUFFER_SIZE by decide)).mpr fun _ _ => Or.inl ?_
    exact Nat.zero_le _

/-- The response goes out with the two bytes behind its fields, framed in a way that
    keeps different contents apart. -/
theorem echo_writes (z : zlib) {w : proxy_manager} {i : session_sptr}
    (hstate : (w.sessions i)._state = .CONNECTING) (l : default_session_logic)
    (ec : TransferError) :
    ∃ frame : List UInt8 → List UInt8, Function.Injective frame ∧ ∀ stale : recycled,
      l.echo_authentication_res z stale w i ec = .ok (w.set_session i
        ((w.sessions i).async_write_some
          (frame (l.response_fields ec ++ [stale 0 29, stale 0 30])))) := by
  -- a way to frame twenty bytes is enough
  have hsent (frame : List UInt8 → List UInt8) (hinjective : Function.Injective frame)
      (hframe : ∀ (held : Nat → UInt8) (b : once_buffer), b.offset = PROTO_HEAD_SIZE →
        b.length = 20 → w.async_send z held i b =
          .ok (w.set_session i ((w.sessions i).async_write_some (frame b.content)))) :
      ∃ frame : List UInt8 → List UInt8, Function.Injective frame ∧ ∀ stale : recycled,
        l.echo_authentication_res z stale w i ec = .ok (w.set_session i
          ((w.sessions i).async_write_some
            (frame (l.response_fields ec ++ [stale 0 29, stale 0 30])))) := by
    refine ⟨frame, hinjective, ?_⟩
    intro stale
    obtain ⟨b, hpack, hoff, hlen, hcontent⟩ := l.pack_authentication_res_spec (stale 0) ec
    rw [default_session_logic.echo_authentication_res, hpack, ok_bind,
      hframe (stale 1) b hoff hlen, hcontent]
  have hfit {b : once_buffer} (hlen : b.length = 20) :
      PROTO_HEAD_SIZE + b.length ≤ ONCE_BUFFER_SIZE := by
    rw [hlen]
    decide
  rcases hlogic : (w.sessions i)._logic with l' | l' | l'
  · refine hsent (fun bytes => (masked_head (l'.head_to_send 20) bytes).bytes ++ bytes) ?_ ?_
    · intro bytes bytes' h
      exact (frame_injective h).2
    · intro held b hoff hlen
      rw [async_send_to_default_session z held hstate hlogic hoff (hfit hlen), hlen]
  · refine hsent (fun bytes => (masked_head (l'.head_to_send 20 false) (l'.encrypt bytes)).bytes ++
      l'.encrypt bytes) ?_ ?_
    · intro bytes bytes' h
      have hencrypted := congrArg l'.decrypt (frame_injective h).2
      rw [client_session_logic.decrypt_encrypt, client_session_logic.decrypt_encrypt] at hencrypted
      exact hencrypted
    · intro held b hoff hlen
      rw [async_send_to_client_session_plain hstate hlogic hoff (hfit hlen)
        (client_session_logic.compress_to_send_small z held (by rw [hlen]; decide)), hlen]
  · refine hsent (fun bytes => (masked_head (l'.head_to_send .Commands_RoutingTransparent 20)
      bytes).bytes ++ bytes) ?_ ?_
    · intro bytes bytes' h
      exact (frame_injective h).2
    · intro held b hoff hlen
      rw [async_send_to_server_session z held hstate hlogic hoff (hfit hlen), hlen]

/-! ### All frames -/

/-- What makes the proxy build frames, on one session, with the logic that does it. -/
inductive build where
  | authentication_response (l : default_session_logic) (ec : TransferError)
  /-- `send_confirm_connect` -/
  | confirm (l : server_session_logic) (client_id : session_uid) (ip : UInt32)
  /-- `kick_peer` -/
  | kick (l : client_session_logic)
  /-- A frame cut off a client's stream is relayed to its game server. -/
  | relay_to_server (l : client_session_logic) (head : protocol_head) (body : List UInt8)
      (hlen : head.len.toNat = body.length)
  /-- A frame cut off a game server's stream is relayed to a client or, if its command
      says so, broadcast. -/
  | relay_to_client (l : server_session_logic) (head : protocol_head) (body : List UInt8)
      (hlen : head.len.toNat = body.length)
  /-- `tick_alive` -/
  | keep_alive

def build.run (z : zlib) (stale : recycled) (w : proxy_manager) (i : session_sptr) :
    build → Checked proxy_manager
  | .authentication_response l ec => l.echo_authentication_res z stale w i ec
  | .confirm l client_id ip => w.send_confirm_connect i l (stale 0) client_id ip
  | .kick l => l.kick_peer stale w i
  | .relay_to_server l head body _ =>
    (w.set_logic i (.client_session l)).on_frame z stale i head body
  | .relay_to_client l head body _ =>
    (w.set_logic i (.server_session l)).on_frame z stale i head body
  | .keep_alive => w.tick_alive z stale i

/-- It is handed over in the lists of `async_send_multi`. -/
def build.multi : build → Bool
  | .confirm _ _ _ => true
  | .kick _ => true
  | .relay_to_client _ head _ _ => head.get_cmd = protocol_cmd.Commands_BroadCast.val
  | _ => false

/-- What the sockets have been handed after the frame is built. `left` is what the places
    name that the lists of `async_send_multi` leave. -/
def build.handed (z : zlib) (stale : recycled) (left : session_sptr → Nat → List UInt8)
    (w : proxy_manager) (i : session_sptr) (b : build) :
    Checked (session_sptr → List (List UInt8)) :=
  (b.run z stale w i).map fun w' j =>
    if b.multi then
      (w.sessions j).written ++
        ((w'.sessions j).written.drop (w.sessions j).written.length).mapIdx fun n _ => left j n
    else (w'.sessions j).written

/-- All sockets are handed the same bytes whatever the buffers held, and whatever the
    lists' places name. -/
def SameBytes (z : zlib) (w : proxy_manager) (i : session_sptr) (b : build) : Prop :=
  ∃ outcome, Determined outcome ∧ ∀ stale left, b.handed z stale left w i = outcome

/-- What `b` must be for that. -/
def build.Clean (z : zlib) (w : proxy_manager) (i : session_sptr) : build → Prop
  | .authentication_response _ _ => (w.sessions i)._state ≠ .CONNECTING
  | .confirm _ _ _ => (w.sessions i)._state ≠ .CONNECTING
  | .kick l => w.Unconnected w._server_sessions l._target_uid
  | .relay_to_server l head body _ =>
    l.OutputFits z head body ∧ ∀ data, l.received_data z head body = some data →
      (w.set_logic i (.client_session l)).SendToFits z w._server_sessions l._target_uid
        ((write_uint32 (w.sessions i)._uuid ++ data).take data.length)
  | .relay_to_client l head body _ =>
    l.Taken head body → l.prefix_size + body.length ≤ ONCE_BUFFER_SIZE ∧
      if head.get_cmd = protocol_cmd.Commands_BroadCast.val then
        server_session_logic.LongEnough head body ∧
          ∀ k < server_session_logic.broadcast_count body,
            w.Unconnected w._client_sessions (server_session_logic.target body k)
      else if SIZEOF_SESSION_UID ≤ body.length then
        (w.set_logic i (.server_session l)).SendToFits z w._client_sessions
          (read_uint32 (body.take 4)) (body.drop 4)
      else ∀ rest : List UInt8, body.length + rest.length = 4 →
        w.Unconnected w._client_sessions (read_uint32 (body ++ rest))
  | .keep_alive => True

theorem handed_of_not_multi {b : build} (hmulti : b.multi = false) (z : zlib) (stale : recycled)
    (left : session_sptr → Nat → List UInt8) (w : proxy_manager) (i : session_sptr) :
    b.handed z stale left w i = (b.run z stale w i).map fun w' j => (w'.sessions j).written := by
  simp only [build.handed, hmulti, Bool.false_eq_true, if_false]

section
variable {z : zlib} {w : proxy_manager} {i : session_sptr} {b : build}

/-- One run that leaves its buffer is enough. -/
theorem not_same_bytes_of_fault (stale : recycled)
    (hrun : b.run z stale w i = .error .out_of_bounds) : ¬ SameBytes z w i b := by
  rintro ⟨outcome, hdetermined, hsame⟩
  have hfault := hsame stale fun _ _ => []
  rw [build.handed, hrun] at hfault
  rw [← hfault] at hdetermined
  exact not_determined_out_of_bounds hdetermined

theorem same_bytes_of_silent
    (hrun : ∀ stale, ∃ w', b.run z stale w i = .ok w' ∧ Silent w w') : SameBytes z w i b := by
  refine ⟨.ok fun j => (w.sessions j).written, determined_ok _, ?_⟩
  intro stale left
  obtain ⟨w', hrun, hsilent⟩ := hrun stale
  rw [build.handed, hrun]
  refine congrArg Except.ok (funext fun j => ?_)
  simp only [hsilent j, List.drop_length, List.mapIdx_nil, List.append_nil, ite_self]

/-- A run that does not depend on the buffers decides it. -/
theorem same_bytes_iff_determined (hmulti : b.multi = false) (stale₀ : recycled)
    (hrun : ∀ stale, b.run z stale w i = b.run z stale₀ w i) :
    SameBytes z w i b ↔ Determined (b.run z stale₀ w i) := by
  unfold SameBytes
  simp only [handed_of_not_multi hmulti, hrun]
  constructor
  · rintro ⟨outcome, hdetermined, hsame⟩
    rw [← hsame stale₀ fun _ _ => []] at hdetermined
    exact (determined_map_iff _ _).mp hdetermined
  · intro hdetermined
    exact ⟨_, (determined_map_iff _ _).mpr hdetermined, fun _ _ => rfl⟩

/-- What a list's place names shows in every write of it. -/
theorem same_bytes_iff_silent (hmulti : b.multi = true) {P : Prop}
    (hrun : ∀ stale, ∃ w', b.run z stale w i = .ok w' ∧
      (∀ j, (w.sessions j).written <+: (w'.sessions j).written) ∧ (Silent w w' ↔ P)) :
    SameBytes z w i b ↔ P := by
  constructor
  · rintro ⟨outcome, -, hsame⟩
    obtain ⟨w', hrun, hadded, hsilent⟩ := hrun fun _ _ => 0
    refine hsilent.mp fun j => ?_
    -- two places that differ
    have hleft := (hsame (fun _ _ => 0) fun _ _ => []).trans
      (hsame (fun _ _ => 0) fun _ _ => [0]).symm
    rw [build.handed, build.handed, hrun, hmulti] at hleft
    have hj := congrFun (Except.ok.inj hleft) j
    simp only [if_true] at hj
    have hframes := List.append_cancel_left hj
    obtain ⟨frames, hframes_eq⟩ := hadded j
    rw [← hframes_eq, List.drop_left] at hframes
    cases frames with
    | nil => rw [← hframes_eq, List.append_nil]
    | cons frame frames =>
      rw [List.mapIdx_cons, List.mapIdx_cons] at hframes
      exact absurd (List.cons.inj hframes).1 (List.cons_ne_nil _ _).symm
  · intro hp
    refine same_bytes_of_silent fun stale => ?_
    obtain ⟨w', hrun, -, hsilent⟩ := hrun stale
    exact ⟨w', hrun, hsilent.mpr hp⟩

end

theorem Sends.written_grows {w w' : proxy_manager} (h : Sends w w') (j : session_sptr) :
    (w.sessions j).written <+: (w'.sessions j).written := by
  obtain ⟨frames, hj⟩ := h.session j
  exact ⟨frames, by rw [hj]⟩

/-- A response shows what the buffer held. -/
theorem not_same_bytes_of_response (z : zlib) {w : proxy_manager} {i : session_sptr}
    (hstate : (w.sessions i)._state = .CONNECTING) (l : default_session_logic)
    (ec : TransferError) : ¬ SameBytes z w i (.authentication_response l ec) := by
  rintro ⟨outcome, -, hsame⟩
  obtain ⟨frame, hinjective, hwrites⟩ := echo_writes z hstate l ec
  have hboth := (hsame (fun _ _ => 0) fun _ _ => []).trans (hsame (fun _ _ => 1) fun _ _ => []).symm
  rw [handed_of_not_multi rfl, handed_of_not_multi rfl, build.run, build.run, hwrites,
    hwrites] at hboth
  have hi := congrFun (Except.ok.inj hboth) i
  simp only [sessions_set_session_self, basic_async_session.written_async_write_some] at hi
  have hframes := List.singleton_inj.mp (List.append_cancel_left hi)
  exact absurd (List.append_cancel_left (hinjective hframes)) (by decide)

theorem same_bytes_response_iff (z : zlib) (w : proxy_manager) (i : session_sptr)
    (l : default_session_logic) (ec : TransferError) :
    SameBytes z w i (.authentication_response l ec) ↔ (w.sessions i)._state ≠ .CONNECTING := by
  constructor
  · intro hsame hstate
    exact not_same_bytes_of_response z hstate l ec hsame
  · intro hstate
    refine same_bytes_of_silent fun stale => ⟨w, ?_, Silent.refl w⟩
    obtain ⟨b, hpack, -⟩ := l.pack_authentication_res_spec (stale 0) ec
    rw [build.run, default_session_logic.echo_authentication_res, hpack, ok_bind,
      async_send_of_not_connecting z _ hstate]

section
variable {w : proxy_manager} {i : session_sptr} {logic : session_logic}

theorem unconnected_set_logic_iff (table : SafeHashMap session_uid session_sptr)
    (uid : session_uid) : (w.set_logic i logic).Unconnected table uid ↔
      w.Unconnected table uid := by
  refine forall_congr' fun s => imp_congr_right fun _ => ?_
  by_cases hs : s = i
  · rw [hs, sessions_set_logic_self, basic_async_session.state_modify_session_logic]
  · rw [sessions_set_logic_ne hs]

end

/-! ### What a game server's frame comes to -/

/-- In every run `b` comes to storing the body, with the logic `l` and in the proxy `w₁`. -/
def build.Stores (z : zlib) (w : proxy_manager) (i : session_sptr) (b : build)
    (l : server_session_logic) (w₁ : proxy_manager) (head : protocol_head)
    (body : List UInt8) : Prop :=
  ∀ stale : recycled, b.run z stale w i =
    (l.try_copy_to_storage z (fun n => stale (n + 2)) w₁
      (server_session_logic.stored_block (stale 1) body) head).map Prod.snd

section
variable {z : zlib} {w w₁ : proxy_manager} {i : session_sptr} {b : build}
  {l : server_session_logic} {head : protocol_head} {body : List UInt8}

theorem same_bytes_of_broadcast_iff (hrun : b.Stores z w i l w₁ head body)
    (hwritten : ∀ j, (w₁.sessions j).written = (w.sessions j).written)
    (hfit : l.prefix_size + body.length ≤ ONCE_BUFFER_SIZE) (hmulti : b.multi = true)
    (hcmd : head.get_cmd = protocol_cmd.Commands_BroadCast.val) :
    SameBytes z w i b ↔ server_session_logic.LongEnough head body ∧
      ∀ k < server_session_logic.broadcast_count body,
        w₁.Unconnected w₁._client_sessions (server_session_logic.target body k) := by
  by_cases hlong : server_session_logic.LongEnough head body
  · -- every run sends to the targets the body lists
    rw [and_iff_right hlong]
    refine same_bytes_iff_silent hmulti fun stale => ?_
    have hcontent := server_session_logic.content_stored_block (stale 1) body
    obtain ⟨w', hcopy, hsends, hsilent⟩ := l.silent_broadcast_iff z w₁
      (server_session_logic.stored_block (stale 1) body) hcmd (hcontent.symm ▸ hlong) hfit
      fun n => stale (n + 2)
    refine ⟨w', ?_, ?_, ?_⟩
    · rw [hrun, hcopy]
      rfl
    · intro j
      rw [← hwritten]
      exact hsends.written_grows j
    · rw [← hcontent, ← hsilent]
      unfold Silent
      simp only [hwritten]
  · -- every run reads past its array
    refine iff_of_false (not_same_bytes_of_fault (fun _ _ => 0) ?_) (fun h => hlong h.1)
    have hroom : PROTO_HEAD_SIZE - SIZEOF_SESSION_UID + 4 ≤ ONCE_BUFFER_SIZE := by decide
    rw [hrun, l.try_copy_to_storage_of_short_broadcast z _ w₁ hroom hcmd
      (by rw [server_session_logic.content_stored_block]; exact hlong)]
    rfl

/-- The bytes behind the uid. -/
theorem same_bytes_of_data_iff (hrun : b.Stores z w i l w₁ head body)
    (hfit : l.prefix_size + body.length ≤ ONCE_BUFFER_SIZE) (hmulti : b.multi = false)
    (hcmd : head.get_cmd ≠ protocol_cmd.Commands_BroadCast.val)
    (hlong : SIZEOF_SESSION_UID ≤ body.length) :
    SameBytes z w i b ↔
      w₁.SendToFits z w₁._client_sessions (read_uint32 (body.take 4)) (body.drop 4) := by
  obtain ⟨msg, hmsg, hcopy⟩ := l.data_for_client z w₁ hcmd hlong hfit
  have hsame (held held' : Nat → UInt8) : (msg held).SameContent (msg held') := by
    obtain ⟨hoff, -, hcontent⟩ := hmsg held
    obtain ⟨hoff', -, hcontent'⟩ := hmsg held'
    have hlength := congrArg List.length (hcontent.trans hcontent'.symm)
    rw [content, content, length_read, length_read] at hlength
    exact ⟨hoff.trans hoff'.symm, hlength, hcontent.trans hcontent'.symm⟩
  have hrun_eq (stale : recycled) : b.run z stale w i =
      send_to w₁._client_sessions z (stale 2) w₁ (read_uint32 (body.take 4)) (msg (stale 1)) := by
    rw [hrun, hcopy]
    cases send_to w₁._client_sessions z (stale 2) w₁ (read_uint32 (body.take 4))
      (msg (stale 1)) with
    | ok w' => rfl
    | error e => rfl
  obtain ⟨hoff, hmsg_fit, hcontent⟩ := hmsg fun _ => 0
  have hrun_same (stale : recycled) : b.run z stale w i = b.run z (fun _ _ => 0) w i := by
    rw [hrun_eq, hrun_eq]
    exact (send_to_of_same _ z w₁ _ (hsame (fun _ => 0) (stale 1)) hoff hmsg_fit _ _).symm
  rw [same_bytes_iff_determined hmulti (fun _ _ => 0) hrun_same, hrun_eq,
    determined_send_to_iff _ z _ _ _ hoff hmsg_fit, hcontent]

/-- A uid completed with what the buffer held. -/
theorem same_bytes_of_short_iff (hrun : b.Stores z w i l w₁ head body)
    (hwritten : ∀ j, (w₁.sessions j).written = (w.sessions j).written)
    (hcmd : head.get_cmd ≠ protocol_cmd.Commands_BroadCast.val)
    (hshort : body.length < SIZEOF_SESSION_UID) :
    SameBytes z w i b ↔ ∀ rest : List UInt8, body.length + rest.length = 4 →
      w₁.Unconnected w₁._client_sessions (read_uint32 (body ++ rest)) := by
  have hwidth : SIZEOF_SESSION_UID = 4 := rfl
  constructor
  · intro hsame rest hrest
    -- a buffer that held the bytes `rest` there
    let held := write (fun _ => 0) (l.prefix_size + body.length) rest
    have hheld : read held (l.prefix_size + body.length) (4 - body.length) = rest :=
      read_write_of_length _ _ _ _ (by omega)
    rcases l.data_too_short z w₁ hcmd hshort held (fun _ => held) with
      ⟨-, hunconnected⟩ | ⟨hfault, -⟩
    · rw [hheld] at hunconnected
      exact hunconnected
    · refine absurd hsame (not_same_bytes_of_fault (fun _ => held) ?_)
      rw [hrun, hfault]
      rfl
  · intro hunconnected
    refine same_bytes_of_silent fun stale => ⟨w₁, ?_, hwritten⟩
    rcases l.data_too_short z w₁ hcmd hshort (stale 1) (fun n => stale (n + 2)) with
      ⟨hok, -⟩ | ⟨-, hconnected⟩
    · rw [hrun, hok]
      rfl
    · exact absurd (hunconnected _ (by rw [length_read]; omega)) hconnected

end

/-- **From a game server**, by the kind of the frame. -/
theorem same_bytes_to_client_iff (z : zlib) (w : proxy_manager) (i : session_sptr)
    (l : server_session_logic) (head : protocol_head) {body : List UInt8}
    (hlen : head.len.toNat = body.length) :
    SameBytes z w i (.relay_to_client l head body hlen) ↔
      build.Clean z w i (.relay_to_client l head body hlen) := by
  have hlogic : ((w.set_logic i (.server_session l)).sessions i)._logic =
      .server_session l := by
    rw [sessions_set_logic_self]
    rfl
  have hwritten (l' : server_session_logic) (j : session_sptr) :
      ((((w.set_logic i (.server_session l)).set_logic i (.server_session l')).sessions j).written =
        (w.sessions j).written) := by
    rw [written_set_logic, written_set_logic]
  have hrun_eq (stale : recycled) :
      build.run z stale w i (.relay_to_client l head body hlen) =
        (w.set_logic i (.server_session l)).on_frame z stale i head body := by
    rw [build.run]
  unfold build.Clean
  rcases server_session_logic.on_frame_cases z hlogic head hlen with ⟨htaken, hrun⟩ |
    ⟨htaken, hlong, hrun⟩ | ⟨htaken, hfit, hrun⟩
  · -- dropped
    refine iff_of_true (same_bytes_of_silent fun stale => ?_) (fun h => absurd h htaken)
    exact ⟨_, (hrun_eq stale).trans (hrun stale), hwritten _⟩
  · refine iff_of_false (not_same_bytes_of_fault (fun _ _ => 0) ((hrun_eq _).trans (hrun _))) ?_
    intro h
    exact absurd (h htaken).1 (Nat.not_le.mpr hlong)
  have hrun (stale : recycled) := (hrun_eq stale).trans (hrun stale)
  refine Iff.trans ?_ (forall_prop_of_true htaken).symm
  rw [and_iff_right hfit]
  by_cases hcmd : head.get_cmd = protocol_cmd.Commands_BroadCast.val
  · rw [if_pos hcmd, same_bytes_of_broadcast_iff hrun (hwritten _) hfit (decide_eq_true hcmd) hcmd]
    simp only [unconnected_set_logic_iff]
    rfl
  rw [if_neg hcmd]
  by_cases hlong : SIZEOF_SESSION_UID ≤ body.length
  · rw [if_pos hlong, same_bytes_of_data_iff hrun hfit (decide_eq_false hcmd) hcmd hlong]
    exact sendToFits_set_logic (by rw [hlogic]; rfl) _ _ _
  · rw [if_neg hlong, same_bytes_of_short_iff hrun (hwritten _) hcmd (Nat.not_le.mp hlong)]
    simp only [unconnected_set_logic_iff]
    rfl

/-- **Nothing of an earlier use is sent**, exactly: an authentication response or a
    confirmation only to a session that is not connected, a kick or a broadcast only to
    targets none of which is, a relay if it stays inside its buffers and no client is
    connected whose uid a body of one to three bytes begins. -/
theorem same_bytes_iff (z : zlib) (w : proxy_manager) (i : session_sptr) (b : build) :
    SameBytes z w i b ↔ b.Clean z w i := by
  cases b with
  | authentication_response l ec => exact same_bytes_response_iff z w i l ec
  | confirm l client_id ip =>
    refine same_bytes_iff_silent rfl fun stale => ?_
    obtain ⟨w', hrun, hsends, hsilent⟩ := silent_confirm_iff w i l client_id ip (stale 0)
    exact ⟨w', hrun, hsends.written_grows, hsilent⟩
  | kick l =>
    refine same_bytes_iff_silent rfl fun stale => ?_
    obtain ⟨w', hrun, hsends, hsilent⟩ := silent_kick_iff w i l stale
    exact ⟨w', hrun, hsends.written_grows, hsilent⟩
  | relay_to_server l head body hlen =>
    have hlogic : ((w.set_logic i (.client_session l)).sessions i)._logic =
        .client_session l := by
      rw [sessions_set_logic_self]
      rfl
    have hrelay := client_session_logic.relay_of_same z hlogic head hlen
    have hsame (stale : recycled) : build.run z stale w i (.relay_to_server l head body hlen) =
        build.run z (fun _ _ => 0) w i (.relay_to_server l head body hlen) := by
      rw [build.run, build.run, (hrelay stale fun _ _ => 0).1]
    rw [same_bytes_iff_determined rfl (fun _ _ => 0) hsame, build.run,
      (hrelay (fun _ _ => 0) fun _ _ => 0).2, sessions_set_logic_self,
      basic_async_session.uuid_modify_session_logic]
    rfl
  | relay_to_client l head body hlen => exact same_bytes_to_client_iff z w i l head hlen
  | keep_alive =>
    have hsame (stale : recycled) :
        build.run z stale w i .keep_alive = build.run z (fun _ _ => 0) w i .keep_alive := by
      rw [build.run, build.run, tick_alive_of_same z w i stale fun _ _ => 0]
    refine (same_bytes_iff_determined rfl (fun _ _ => 0) hsame).trans (iff_true_intro ?_)
    rw [build.run]
    exact determined_tick_alive z w i fun _ _ => 0

/-- A session that was just accepted. -/
def first_accepted : proxy_manager :=
  (initial fun _ => rc4_info.of_zero_rand).accept_a_session 0 0 rc4_info.of_zero_rand
    ⟨0, 0, [], 0⟩ 0

/-- The refusal it is sent ends in two bytes of an earlier use. -/
theorem refusal_not_same_bytes :
    ¬ SameBytes zlib.stored first_accepted 0
      (.authentication_response (.reset rc4_info.of_zero_rand ⟨0, 0, [], 0⟩)
        .EC_ServerNotFound) :=
  not_same_bytes_of_response _ rfl _ _

end proxy_manager

end AsioNet
