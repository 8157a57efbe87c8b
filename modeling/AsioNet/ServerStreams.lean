import AsioNet.BroadcastRelay
import AsioNet.Framing
import AsioNet.Library.TransitionSystem
import AsioNet.Library.Mailboxes
import AsioNet.SequenceNumbers

/-! # Streams from the game server to the clients

    The messages of a game server reach the proxy as one byte stream, cut into
    reads anywhere, with keep-alive frames in between, while clients close. The
    proxy relays them to its clients' streams. This is a mailbox for every client:
    `simulates_mail`. What a client's stream holds are the frames of the first
    messages sent to it, in order, and of all that have arrived as long as the
    client is connected.
-/

namespace AsioNet

open ByteMemory LengthPrefixed LengthPrefixed.Format TransitionSystem Mailboxes reusabel_buffer
  proto_mask

/-! ### The frames on the two streams -/

/-- A uid and what is sent to it; a keep-alive is sent to nobody. -/
abbrev server_message := Option session_uid × List UInt8

namespace server_message

/-- The body of the frame that the game server sends. -/
def body : server_message → List UInt8
  | (some target_id, p) => write_uint32 target_id ++ p
  | (none, _) => []

/-- The frame is one, and the proxy can send on what is in it. -/
def Fits (z : zlib) (m : server_message) : Prop := m.2.length ≤ 65521 ∧ Sendable z m.2

theorem Fits.length_body {z : zlib} {m : server_message} (h : m.Fits z) :
    PROTO_HEAD_SIZE + m.body.length ≤ ONCE_BUFFER_SIZE := by
  obtain ⟨hle, -⟩ := h
  obtain ⟨target, p⟩ := m
  cases target with
  | none => exact Nat.le_of_ble_eq_true rfl
  | some target_id =>
    simp only [body, List.length_append, length_write_uint32, PROTO_HEAD_SIZE, ONCE_BUFFER_SIZE]
    simp only at hle
    omega

end server_message

namespace active_server_session_logic

/-- The logic after `n` more frames. -/
def after (l : active_server_session_logic) (n : Nat) : active_server_session_logic :=
  { l with _seq := l._seq + UInt32.ofNat n }

theorem after_zero (l : active_server_session_logic) : l.after 0 = l := by
  show ({ l with _seq := l._seq + 0 } : active_server_session_logic) = l
  rw [UInt32.add_zero]

/-- The frame of `m` after `k` others. -/
def frame_of_message (l : active_server_session_logic) (k : Nat) (m : server_message) :
    Frame UInt8 :=
  ((masked_head ((l.after k).head_to_send m.body.length) m.body).bytes, m.body)

theorem after_succ (l : active_server_session_logic) (n : Nat) :
    { l.after n with _seq := (l.after n)._seq + 1 } = l.after (n + 1) := by
  show { l with _seq := l._seq + UInt32.ofNat n + 1 } = { l with _seq := _ }
  rw [UInt32.ofNat_add, ← UInt32.add_assoc]
  rfl

/-- What the proxy looks at in a head. -/
theorem head_to_send_spec (l : active_server_session_logic) {body : List UInt8}
    (hfit : PROTO_HEAD_SIZE + body.length ≤ ONCE_BUFFER_SIZE) :
    let head := masked_head (l.head_to_send body.length) body
    head.seq = l._seq + 1 ∧ get_mask head.bytes body = 0 ∧ head.len.toNat = body.length ∧
      head.get_cmd ≠ protocol_cmd.Commands_BroadCast.val := by
  simp only [PROTO_HEAD_SIZE, ONCE_BUFFER_SIZE] at hfit
  refine ⟨rfl, get_mask_masked_head _ _ rfl (by omega), ?_, ?_⟩
  · rw [masked_head_len, head_to_send, protocol_head.get_a_head_len, UInt16.toNat_ofNat',
      Nat.mod_eq_of_lt (by omega)]
  · rw [masked_head_get_cmd, head_to_send, protocol_head.get_cmd_get_a_head, cmd_to_send]
    split <;> decide

theorem wellFormed_frame_of_message {z : zlib} (l : active_server_session_logic) (k : Nat)
    {m : server_message} (h : m.Fits z) :
    protocol_head.format.WellFormed (l.frame_of_message k m) := by
  obtain ⟨-, -, hlen, -⟩ := (l.after k).head_to_send_spec h.length_body
  refine ⟨protocol_head.length_bytes _, ?_⟩
  show (protocol_head.unpack_head (l.frame_of_message k m).1).len.toNat = m.body.length
  unfold frame_of_message
  rw [protocol_head.unpack_head_bytes]
  exact hlen

/-- **`send`** writes the frame of the message. -/
theorem send_message {stale : Nat → UInt8}
    {s : basic_async_session active_server_session_logic} {l : active_server_session_logic}
    {k : Nat} (hstate : s._state = .CONNECTING) (hl : s._logic = l.after k)
    (target_id : session_uid) {p : List UInt8} (hp : p.length ≤ 65521) :
    let f := l.frame_of_message k (some target_id, p)
    active_server_session_mgr.send stale s target_id p =
      .ok ((s.modify_session_logic (l.after (k + 1))).async_write_some (f.1 ++ f.2)) := by
  intro f
  rw [active_server_session_mgr.send_eq stale hstate target_id hp, hl, after_succ]
  rfl

/-- **`tick_alive`** writes the frame of a keep-alive. -/
theorem tick_message {stale : Nat → UInt8}
    {s : basic_async_session active_server_session_logic} {l : active_server_session_logic}
    {k : Nat} (hstate : s._state = .CONNECTING) (hl : s._logic = l.after k) :
    let f := l.frame_of_message k (none, [])
    tick_alive stale s =
      .ok ((s.modify_session_logic (l.after (k + 1))).async_write_some (f.1 ++ f.2)) := by
  intro f
  unfold tick_alive
  rw [if_neg (not_not_intro hstate),
    active_server_session_mgr.async_send_eq hstate rfl (Nat.le_of_ble_eq_true rfl), hl, after_succ]
  rfl

end active_server_session_logic

/-- The frame in which a client gets `p`. -/
def client_session_logic.frame_of (l : client_session_logic) (p : List UInt8) : List UInt8 :=
  (masked_head (l.head_to_send p.length false) (l.encrypt p)).bytes ++ l.encrypt p

/-! ### One frame at the proxy -/

namespace proxy_manager

/-- It does not matter which buffer a game server's frame is received in. -/
theorem handle_msg_of_server_session (z : zlib) (stale : recycled) {w : proxy_manager}
    {i : session_sptr} {l : server_session_logic} {head : protocol_head} {body : List UInt8}
    {data_block : once_buffer} (hl : (w.sessions i)._logic = .server_session l)
    (hlen : head.len.toNat = body.length)
    (hroom : data_block.offset + body.length ≤ ONCE_BUFFER_SIZE) :
    ((interface z i).handle_msg stale (.ok w) head (recv_session.block_of data_block body)).2.1 =
      w.on_frame z (fun n => stale (n - 1)) i head body := by
  have hload : (recv_session.block_of data_block body).load
      ((recv_session.block_of data_block body).buffer 0) body.length = .ok body := by
    have hle : data_block.offset ≤ ONCE_BUFFER_SIZE := by omega
    rw [buffer_zero_of_eq (b := recv_session.block_of data_block body) rfl hle]
    exact load_of_write rfl rfl hroom
  have hload' : (received_block (stale (0 - 1)) body).load
      ((received_block (stale (0 - 1)) body).buffer 0) body.length = .ok body := by
    rw [received_block_buffer]
    exact load_received_block _ (by omega)
  rw [handle_msg_eq, on_frame_eq]
  simp only [unwrap_received_data, hl, server_session_logic.unwrap_received_data, hlen, hload,
    hload', ok_bind]
  -- the body is copied to the same output or to none
  by_cases hseq : head.seq ≠ l._seq + 1
  · rw [if_pos hseq, if_pos hseq]
    rfl
  rw [if_neg hseq, if_neg hseq]
  by_cases hmask : 0 ≠ get_mask head.bytes body
  · rw [if_pos hmask, if_pos hmask]
    rfl
  rw [if_neg hmask, if_neg hmask]
  by_cases hzero : head.len = 0
  · rw [if_pos hzero, if_pos hzero]
    rfl
  rw [if_neg hzero, if_neg hzero]
  simp only [bind_assoc, pure_bind, Nat.add_succ_sub_one]

/-- What a frame for `target_id` with the payload `p` does to a proxy that knows its clients. -/
theorem on_frame_of_message {z : zlib} (hz : z.Lawful) (stale : recycled) {w : proxy_manager}
    {i : session_sptr} {ls : server_session_logic} {head : protocol_head}
    {target_id : session_uid} {p : List UInt8} (hls : (w.sessions i)._logic = .server_session ls)
    (hclients : ∀ uid c, w._client_sessions._container.lookup uid = some c →
      ∃ l, (w.sessions c)._logic = .client_session l)
    (hseq : head.seq = ls._seq + 1) (hmask : get_mask head.bytes (write_uint32 target_id ++ p) = 0)
    (hlen : head.len.toNat = (write_uint32 target_id ++ p).length)
    (hcmd : head.get_cmd ≠ protocol_cmd.Commands_BroadCast.val) (hle : p.length ≤ 65521)
    (hsendable : Sendable z p) :
    let w₁ := w.set_logic i (.server_session { ls with _seq := ls._seq + 1 })
    (w.on_frame z stale i head (write_uint32 target_id ++ p) = .ok w₁ ∧
      ∀ c, w._client_sessions._container.lookup target_id = some c →
        (w.sessions c)._state ≠ .CONNECTING) ∨
    ∃ c l, w._client_sessions._container.lookup target_id = some c ∧
      (w.sessions c)._logic = .client_session l ∧ (w.sessions c)._state = .CONNECTING ∧
      w.on_frame z stale i head (write_uint32 target_id ++ p) =
        .ok (w₁.set_session c ((w.sessions c).async_write_some (l.frame_of p))) := by
  intro w₁
  have hsize : ONCE_BUFFER_SIZE = 65536 := rfl
  have hhead : PROTO_HEAD_SIZE = 11 := rfl
  have hwidth : SIZEOF_SESSION_UID = 4 := rfl
  have hbody : (write_uint32 target_id ++ p).length = 4 + p.length := by
    rw [List.length_append, length_write_uint32]
  obtain ⟨uid, msg, hoff, hmsg_len, hlong, hframe⟩ := on_server_frame z stale hls hseq hmask hlen
    (by omega) hcmd (List.ne_nil_of_length_pos (by omega))
  obtain ⟨huid, hcontent⟩ := hlong (by omega)
  have hread := read_write_uint32 target_id []
  rw [List.append_nil] at hread
  rw [List.take_left' (length_write_uint32 target_id), hread] at huid
  rw [List.drop_left' (length_write_uint32 target_id)] at hcontent
  rw [hbody, hwidth, size_t_sub_of_le (by omega) (by omega), Nat.add_sub_cancel_left] at hmsg_len
  rw [hframe, huid, send_to_client, send_to, SafeHashMap.try_get_eq, client_sessions_set_logic]
  cases hc : w._client_sessions._container.lookup target_id with
  | none =>
    refine Or.inl ⟨rfl, ?_⟩
    intro c hc
    cases hc
  | some c =>
    obtain ⟨l, hl⟩ := hclients target_id c hc
    have hsession : w₁.sessions c = w.sessions c :=
      sessions_set_logic_ne (client_ne_server hl hls) ..
    by_cases hstate : (w.sessions c)._state = .CONNECTING
    · have hsend := async_send_to_client hz (stale 2) (w := w₁) (hsession ▸ hstate)
        (hsession ▸ hl) hoff (by omega)
      rw [hcontent, hmsg_len, hsession] at hsend
      rcases hsend with ⟨-, hok⟩ | ⟨hnot, -⟩
      · exact Or.inr ⟨c, l, rfl, hl, hstate, hok⟩
      · exact absurd hsendable hnot
    · left
      refine ⟨async_send_of_not_connecting z (stale 2) (hsession ▸ hstate) msg, ?_⟩
      intro c' hc'
      cases hc'
      exact hstate

end proxy_manager

/-- The mail of the proxy's clients. -/
abbrev client_mail := Mail (Option session_uid) session_sptr (List UInt8)

/-- The client session that a message leads to. -/
def proxy_manager.route (w : proxy_manager) (target : Option session_uid) : Option session_sptr :=
  target.bind fun uid => w._client_sessions._container.lookup uid

/-- The clients' streams hold the mail: the proxy was in `w₀` before it, `i` is the game
    server's session. -/
structure Serves (w₀ : proxy_manager) (i : session_sptr) (ls : server_session_logic)
    (w : proxy_manager) (m : client_mail) : Prop where
  table : w._client_sessions = w₀._client_sessions
  server : (w.sessions i)._logic =
    .server_session { ls with _seq := ls._seq + UInt32.ofNat m.delivered }
  logic : ∀ c l, (w₀.sessions c)._logic = .client_session l →
    (w.sessions c)._logic = .client_session l
  state : ∀ c, (w.sessions c)._state = .CONNECTING ↔ m.listens c = true
  written : ∀ c l, (w₀.sessions c)._logic = .client_session l →
    (w.sessions c).written = (w₀.sessions c).written ++ (m.inbox c).map l.frame_of

section Relaying

variable {w₀ w : proxy_manager} {i : session_sptr} {ls : server_session_logic} {m : client_mail}

/-- The game server's logic has counted a frame that is for nobody who listens. -/
theorem Serves.count (h : Serves w₀ i ls w m) {m' : client_mail}
    (hdelivered : m'.delivered = m.delivered + 1) (hinbox : m'.inbox = m.inbox)
    (hlistens : m'.listens = m.listens) :
    Serves w₀ i ls (w.set_logic i (.server_session
      { ls with _seq := ls._seq + UInt32.ofNat m.delivered + 1 })) m' := by
  have hne : ∀ c l, (w₀.sessions c)._logic = .client_session l → c ≠ i :=
    fun c l hl => proxy_manager.client_ne_server (h.logic c l hl) h.server
  refine ⟨h.table, ?_, ?_, ?_, ?_⟩
  · rw [proxy_manager.sessions_set_logic_self, hdelivered, UInt32.ofNat_add, ← UInt32.add_assoc]
    rfl
  · intro c l hl
    rw [proxy_manager.sessions_set_logic_ne (hne c l hl)]
    exact h.logic c l hl
  · intro c
    rw [hlistens, ← h.state c]
    by_cases hc : c = i
    · rw [hc, proxy_manager.sessions_set_logic_self]
      rfl
    · rw [proxy_manager.sessions_set_logic_ne hc]
  · intro c l hl
    rw [proxy_manager.sessions_set_logic_ne (hne c l hl), hinbox]
    exact h.written c l hl

/-- A client gets a payload. -/
theorem Serves.write (h : Serves w₀ i ls w m) {c : session_sptr} {l : client_session_logic}
    (hl : (w₀.sessions c)._logic = .client_session l) (p : List UInt8) :
    Serves w₀ i ls (w.set_session c ((w.sessions c).async_write_some (l.frame_of p)))
      { m with inbox := Function.update m.inbox c (m.inbox c ++ [p]) } := by
  have hlogic := h.logic c l hl
  have hic : i ≠ c := (proxy_manager.client_ne_server hlogic h.server).symm
  refine ⟨h.table, ?_, ?_, ?_, ?_⟩
  · rw [proxy_manager.sessions_set_session_ne hic]
    exact h.server
  · intro c' l' hl'
    by_cases hc : c' = c
    · rw [hc, proxy_manager.sessions_set_session_self]
      exact h.logic c l' (hc ▸ hl')
    · rw [proxy_manager.sessions_set_session_ne hc]
      exact h.logic c' l' hl'
  · intro c'
    by_cases hc : c' = c
    · rw [hc, proxy_manager.sessions_set_session_self]
      exact h.state c
    · rw [proxy_manager.sessions_set_session_ne hc]
      exact h.state c'
  · intro c' l' hl'
    dsimp only
    by_cases hc : c' = c
    · obtain rfl : l' = l := by
        rw [hc, hl] at hl'
        exact (session_logic.client_session.inj hl').symm
      rw [hc, proxy_manager.sessions_set_session_self, Function.update_self,
        basic_async_session.written_async_write_some, h.written c l' hl, List.map_append,
        List.append_assoc]
      rfl
    · rw [proxy_manager.sessions_set_session_ne hc, Function.update_of_ne hc]
      exact h.written c' l' hl'

/-- Every uid that is bound leads to a client's session. -/
def proxy_manager.ClientsListed (w : proxy_manager) : Prop :=
  ∀ uid c, w._client_sessions._container.lookup uid = some c →
    ∃ l, (w.sessions c)._logic = .client_session l

/-- **One frame is one delivery.** -/
theorem Serves.deliver {z : zlib} (hz : z.Lawful) (h : Serves w₀ i ls w m)
    (hlisted : w₀.ClientsListed) {l₀ : active_server_session_logic} (hstep : ls._seq = l₀._seq)
    {msg : server_message} (hnext : m.sent[m.delivered]? = some msg) (hfits : msg.Fits z)
    (stale : recycled) {data_block : once_buffer}
    (hroom : data_block.offset + msg.body.length ≤ ONCE_BUFFER_SIZE) :
    let f := l₀.frame_of_message m.delivered msg
    ∃ w', ((proxy_manager.interface z i).handle_msg stale (.ok w) (unpack_frame f).1
        (recv_session.block_of data_block (unpack_frame f).2)).2.1 = .ok w' ∧
      Serves w₀ i ls w' (m.deliver w₀.route) := by
  intro f
  obtain ⟨hseq, hmask, hlen, hcmd⟩ := (l₀.after m.delivered).head_to_send_spec hfits.length_body
  have hhead : (unpack_frame f).1 =
      masked_head ((l₀.after m.delivered).head_to_send msg.body.length) msg.body :=
    protocol_head.unpack_head_bytes _
  have hnumber : (l₀.after m.delivered)._seq = ls._seq + UInt32.ofNat m.delivered := by
    rw [hstep]
    rfl
  rw [hnumber] at hseq
  have hbody : (unpack_frame f).2 = msg.body := rfl
  rw [hhead, hbody, proxy_manager.handle_msg_of_server_session z stale h.server hlen hroom]
  obtain ⟨target, p⟩ := msg
  rw [Mail.deliver_of_next _ hnext]
  cases target with
  | none =>
    exact ⟨_, on_empty_server_frame z _ h.server hseq hmask hlen, h.count rfl rfl rfl⟩
  | some target_id =>
    have hclients : w.ClientsListed := by
      intro uid c hc
      rw [h.table] at hc
      obtain ⟨l, hl⟩ := hlisted uid c hc
      exact ⟨l, h.logic c l hl⟩
    rcases proxy_manager.on_frame_of_message hz (fun n => stale (n - 1)) h.server hclients hseq
      hmask hlen hcmd hfits.1 hfits.2 with ⟨hok, hclosed⟩ | ⟨c, l, hc, hl, hstate, hok⟩
    · refine ⟨_, hok, h.count rfl ?_ rfl⟩
      rw [h.table] at hclosed
      show m.put w₀.route (some target_id) p = m.inbox
      unfold Mail.put proxy_manager.route
      rw [Option.bind_some]
      cases hc : w₀._client_sessions._container.lookup target_id with
      | none => rfl
      | some c => exact if_neg fun hlistens => hclosed c hc ((h.state c).mpr hlistens)
    · rw [h.table] at hc
      obtain ⟨l', hl'⟩ := hlisted target_id c hc
      obtain rfl : l' = l :=
        session_logic.client_session.inj ((h.logic c l' hl').symm.trans hl)
      have hcount : Serves w₀ i ls _ { m with delivered := m.delivered + 1 } :=
        h.count rfl rfl rfl
      have hwrite := hcount.write hl' p
      rw [proxy_manager.sessions_set_logic_ne (proxy_manager.client_ne_server hl h.server)]
        at hwrite
      have hput : m.put w₀.route (some target_id) p =
          Function.update m.inbox c (m.inbox c ++ [p]) := by
        unfold Mail.put proxy_manager.route
        rw [Option.bind_some, hc]
        exact if_pos ((h.state c).mp hstate)
      rw [hput]
      exact ⟨_, hok, hwrite⟩

end Relaying

/-! ### Runs -/

/-- A game server, what it was made to send, and the proxy at the other end. -/
structure stream_run where
  server : basic_async_session active_server_session_logic
  sent : List server_message
  /-- The frames on the way to the proxy, from the first on. -/
  wire : List (Frame UInt8)
  /-- The number of bytes that have arrived. -/
  received : Nat
  /-- The proxy's session; its logic works on the proxy. -/
  recv : recv_session (Checked proxy_manager)

inductive stream_event where
  /-- The application sends `p` to a client. -/
  | send (stale : Nat → UInt8) (target_id : session_uid) (p : List UInt8)
  /-- It is time for a keep-alive. -/
  | tick (stale : Nat → UInt8)
  /-- The proxy's session reads up to `n` bytes. -/
  | read (n : Nat)
  /-- A client's socket closes or fails. -/
  | close (c : session_sptr) (state : StateSocket)

namespace stream_run

variable (z : zlib) (pool : Nat → recycled) (i : session_sptr)

/-- The server's session has written what `call` makes it write for `m`. -/
def written (s : stream_run) (m : server_message)
    (call : Checked (basic_async_session active_server_session_logic)) : Option stream_run :=
  call.toOption.map fun server =>
    { s with
      server := server
      sent := s.sent ++ [m]
      wire := s.wire ++
        (server.written.drop s.server.written.length).map seq_run.frame_of }

def exec (s : stream_run) : stream_event → Option stream_run
  | .send stale target_id p =>
    s.written (some target_id, p) (active_server_session_mgr.send stale s.server target_id p)
  | .tick stale => s.written (none, []) (active_server_session_logic.tick_alive stale s.server)
  | .read n =>
    match s.recv.reads with
    | [] => none
    | region :: _ =>
      let bytes := ((serialize s.wire).drop s.received).take n
      if n ≤ region.size then
        (s.recv.on_read (proxy_manager.interface z i) pool region bytes).toOption.map fun recv =>
          { s with recv := recv, received := s.received + bytes.length }
      else none
  | .close c state =>
    match s.recv.logic with
    | .error _ => none
    | .ok w =>
      match (w.sessions c)._logic with
      | .client_session _ =>
        if state = .CONNECTING then none
        else some { s with recv := { s.recv with
          logic := .ok (w.set_session c { w.sessions c with _state := state }) } }
      | _ => none

/-- Nothing is on the way, and the proxy's session listens. -/
def start (server : basic_async_session active_server_session_logic) (w : proxy_manager) :
    stream_run where
  server := server
  sent := []
  wire := []
  received := 0
  recv := (recv_session.initial .CONNECTING (.ok w)).async_recv_loop pool

def system (server : basic_async_session active_server_session_logic) (w : proxy_manager) :
    System stream_run stream_event :=
  System.ofExec (fun s => s = start pool server w) (exec z pool i)

/-- What is sent fits a frame, and the proxy can send it on. -/
def Fits (_s : stream_run) : stream_event → Prop
  | .send _ target_id p => server_message.Fits z (some target_id, p)
  | _ => True

variable {z pool i} in
theorem size_of_read {s s' : stream_run} {n : Nat} (h : exec z pool i s (.read n) = some s') :
    ∀ region ∈ s.recv.reads.head?, n ≤ region.size := by
  intro region hregion
  simp only [exec] at h
  split at h
  · cases h
  · next first rest hreads =>
    rw [hreads] at hregion
    cases hregion
    exact (Option.ite_none_right_eq_some.mp h).1

/-- The frames that have arrived completely. -/
def arrived (s : stream_run) : List (Frame UInt8) :=
  (protocol_head.format.cut ((serialize s.wire).take s.received)).1

/-! ### The proxy serves its clients -/

variable {z pool i} {w₀ : proxy_manager} {ls : server_session_logic}
  {l₀ : active_server_session_logic}

/-- The mail `m` says what has become of the messages. -/
structure Follows (z : zlib) (i : session_sptr) (w₀ : proxy_manager) (ls : server_session_logic)
    (l₀ : active_server_session_logic) (s : stream_run) (m : client_mail) : Prop where
  sent : m.sent = s.sent
  fits : ∀ msg ∈ s.sent, msg.Fits z
  wire : s.wire = s.sent.mapIdx l₀.frame_of_message
  connected : s.server._state = .CONNECTING
  logic : s.server._logic = l₀.after s.sent.length
  received_le : s.received ≤ (serialize s.wire).length
  connecting : s.recv._state = .CONNECTING
  holds : ∃ recv, s.recv.BufferHolds recv
      (protocol_head.format.cut ((serialize s.wire).take s.received)).2 ∧
    s.recv.reads = [recv_session.read_target recv]
  delivered : m.delivered = s.arrived.length
  serves : ∃ w, s.recv.logic = .ok w ∧ Serves w₀ i ls w m

variable {s s' : stream_run} {m : client_mail}

theorem Follows.wellFormed (h : Follows z i w₀ ls l₀ s m) :
    ∀ f ∈ s.wire, protocol_head.format.WellFormed f := by
  intro f hf
  rw [h.wire] at hf
  obtain ⟨k, hk, rfl⟩ := List.mem_mapIdx.mp hf
  exact l₀.wellFormed_frame_of_message k (h.fits _ (List.getElem_mem hk))

/-- **The server sends a frame.** -/
theorem Follows.written (h : Follows z i w₀ ls l₀ s m) {msg : server_message}
    (hfits : msg.Fits z) {call : Checked (basic_async_session active_server_session_logic)}
    (hcall : call = .ok ((s.server.modify_session_logic (l₀.after (s.sent.length + 1)))
      |>.async_write_some ((l₀.frame_of_message s.sent.length msg).1 ++
        (l₀.frame_of_message s.sent.length msg).2)))
    (hwritten : s.written msg call = some s') :
    Follows z i w₀ ls l₀ s' { m with sent := m.sent ++ [msg] } := by
  subst hcall
  cases hwritten
  dsimp only
  have hwire : (s.wire ++ List.map seq_run.frame_of
      ((((s.server.modify_session_logic (l₀.after (s.sent.length + 1))).async_write_some
        ((l₀.frame_of_message s.sent.length msg).1 ++
          (l₀.frame_of_message s.sent.length msg).2)).written).drop s.server.written.length)) =
      s.wire ++ [l₀.frame_of_message s.sent.length msg] := by
    rw [basic_async_session.written_async_write_some,
      basic_async_session.written_modify_session_logic, List.drop_left, List.map_singleton]
    exact congrArg (fun f => s.wire ++ [f]) (seq_run.frame_of_append _ _)
  rw [hwire]
  have htake : (serialize (s.wire ++ [l₀.frame_of_message s.sent.length msg])).take s.received =
      (serialize s.wire).take s.received := by
    rw [serialize_append, List.take_append_of_le_length h.received_le]
  refine ⟨?_, ?_, ?_, h.connected, ?_, ?_, h.connecting, ?_, ?_, ?_⟩
  · exact congrArg (· ++ [msg]) h.sent
  · intro msg' hmsg'
    rcases List.mem_append.mp hmsg' with hold | hnew
    · exact h.fits msg' hold
    · rw [List.mem_singleton.mp hnew]
      exact hfits
  · show _ = List.mapIdx _ (s.sent ++ [msg])
    rw [List.mapIdx_concat, h.wire]
  · show l₀.after (s.sent.length + 1) = l₀.after (s.sent ++ [msg]).length
    rw [List.length_append, List.length_singleton]
  · show s.received ≤ (serialize (s.wire ++ _)).length
    rw [serialize_append, List.length_append]
    exact Nat.le_add_right_of_le h.received_le
  · dsimp only
    rw [htake]
    exact h.holds
  · unfold arrived
    dsimp only
    rw [htake]
    exact h.delivered
  · obtain ⟨w, hw, hserves⟩ := h.serves
    exact ⟨w, hw, hserves.table, hserves.server, hserves.logic, hserves.state, hserves.written⟩

/-- The mail has been delivered up to the frames `done` of the stream. -/
def Served (s : stream_run) (m : client_mail) (i : session_sptr) (w₀ : proxy_manager)
    (ls : server_session_logic) (logic : Checked proxy_manager) (done : List (Frame UInt8)) :
    Prop :=
  m.delivered ≤ done.length ∧
    (done <+: s.wire → ∃ w, logic = .ok w ∧
      Serves w₀ i ls w ((Mail.deliver w₀.route)^[done.length - m.delivered] m))

/-- **The frames of the stream** are handled one delivery after the other. -/
theorem Follows.tracks (hz : z.Lawful) (hlisted : w₀.ClientsListed) (hstep : ls._seq = l₀._seq)
    (h : Follows z i w₀ ls l₀ s m) :
    recv_session.Tracks (proxy_manager.interface z i) (Served s m i w₀ ls) := by
  intro stale logic done f data_block hserved _ hroom msg
  obtain ⟨hle, hserves⟩ := hserved
  refine Or.inr ⟨(proxy_manager.accepting_interface z i).handle_msg stale logic _ _, ?_, ?_⟩
  · rw [List.length_append]
    exact Nat.le_add_right_of_le hle
  intro hprefix
  obtain ⟨w, rfl, hw⟩ := hserves ((List.prefix_append done [f]).trans hprefix)
  -- `f` is the frame of the next message
  have hlength : s.wire.length = s.sent.length := by
    rw [h.wire, List.length_mapIdx]
  have hlt : done.length < s.sent.length := by
    have hpart := hprefix.length_le
    rw [List.length_append, List.length_singleton] at hpart
    omega
  have hframe : f = l₀.frame_of_message done.length s.sent[done.length] := by
    obtain ⟨rest, hrest⟩ := hprefix
    have hget : s.wire[done.length]? = some f := by
      rw [← hrest, List.append_assoc, List.getElem?_append_right (Nat.le_refl _), Nat.sub_self]
      rfl
    rw [h.wire, List.getElem?_mapIdx, List.getElem?_eq_getElem hlt] at hget
    exact (Option.some.inj hget).symm
  have hdelivered : ((Mail.deliver w₀.route)^[done.length - m.delivered] m).delivered =
      done.length := by
    rw [Mail.delivered_iterate, Nat.add_sub_cancel' hle]
    rw [Nat.add_sub_cancel' hle, h.sent]
    exact Nat.le_of_lt hlt
  have hnext : ((Mail.deliver w₀.route)^[done.length - m.delivered] m).sent[
      ((Mail.deliver w₀.route)^[done.length - m.delivered] m).delivered]? =
        some s.sent[done.length] := by
    rw [hdelivered, Mail.sent_iterate, h.sent, List.getElem?_eq_getElem hlt]
  subst hframe
  obtain ⟨w', hw', hserves'⟩ := hw.deliver hz hlisted hstep hnext
    (h.fits _ (List.getElem_mem hlt)) stale hroom
  rw [hdelivered] at hw'
  refine ⟨w', hw', ?_⟩
  rw [List.length_append, List.length_singleton, Nat.sub_add_comm hle,
    Function.iterate_succ_apply']
  exact hserves'

/-- **The proxy's session reads** a piece of the stream, of any size: some messages are
    delivered. -/
theorem Follows.read (hz : z.Lawful) (hlisted : w₀.ClientsListed) (hstep : ls._seq = l₀._seq)
    (h : Follows z i w₀ ls l₀ s m) {n : Nat} (hn : ∀ region ∈ s.recv.reads.head?, n ≤ region.size) :
    ∃ s', exec z pool i s (.read n) = some s' ∧
      ∃ k, Follows z i w₀ ls l₀ s' ((Mail.deliver w₀.route)^[k] m) := by
  obtain ⟨recv, hrecv, hreads⟩ := h.holds
  replace hn : n ≤ (recv_session.read_target recv).size :=
    hn _ (by rw [hreads]; rfl)
  have hfit : (((serialize s.wire).drop s.received).take n).length ≤
      (recv_session.read_target recv).size :=
    Nat.le_trans (List.length_take_le _ _) hn
  obtain ⟨s₁, recv₁, hreceive, hrecv₁, -, hreads₁, hstate₁⟩ :=
    recv_session.received_spec hrecv hfit
  have hserved : Served s m i w₀ ls s₁.logic s.arrived := by
    rw [recv_session.received_logic hreceive]
    refine ⟨Nat.le_of_eq h.delivered, ?_⟩
    intro _
    rw [h.delivered, Nat.sub_self]
    exact h.serves
  obtain ⟨s₂, recv₂, frames, bs', hpick, hstate₂, hrecv₂, hreads₂, hstream, hwf, hrest,
    hserved₂⟩ := recv_session.pick_entire_msgs_picked pool (h.tracks hz hlisted hstep) hrecv₁
      (hstate₁.trans h.connecting) hserved
  have hexec : exec z pool i s (.read n) = some { s with
      recv := s₂
      received := s.received + (((serialize s.wire).drop s.received).take n).length } := by
    simp only [exec, hreads]
    rw [if_pos hn, recv_session.on_read, hreceive, ok_bind, hpick]
    rfl
  refine ⟨_, hexec, ?_⟩
  -- the stream continues where it was cut before
  have hcut : protocol_head.format.cut ((serialize s.wire).take (s.received +
      (((serialize s.wire).drop s.received).take n).length)) = (s.arrived ++ frames, bs') := by
    have hbytes := List.prefix_iff_eq_take.mp
      (List.take_prefix n ((serialize s.wire).drop s.received))
    rw [List.take_add, ← hbytes, cut_append, hstream, cut_serialize hwf,
      cut_of_not_complete (hrest (proxy_manager.accepting_interface z i)), List.append_nil]
    rfl
  have hprefix : s.arrived ++ frames <+: s.wire := by
    have hpart : (protocol_head.format.cut ((serialize s.wire).take (s.received +
        (((serialize s.wire).drop s.received).take n).length))).1 <+: s.wire :=
      cut_prefix h.wellFormed (List.take_prefix _ _)
    rw [hcut] at hpart
    exact hpart
  obtain ⟨hle, hserves⟩ := hserved₂
  have hcount : m.delivered + ((s.arrived ++ frames).length - m.delivered) =
      (s.arrived ++ frames).length := Nat.add_sub_cancel' hle
  refine ⟨(s.arrived ++ frames).length - m.delivered, ?_, h.fits, h.wire, h.connected, h.logic,
    ?_, hstate₂, ⟨recv₂, ?_, ?_⟩, ?_, hserves hprefix⟩
  · rw [Mail.sent_iterate]
    exact h.sent
  · have hreceived := h.received_le
    show s.received + (((serialize s.wire).drop s.received).take n).length ≤
      (serialize s.wire).length
    rw [List.length_take, List.length_drop]
    omega
  · show s₂.BufferHolds recv₂ (protocol_head.format.cut _).2
    rw [hcut]
    exact hrecv₂
  · show s₂.reads = _
    rw [hreads₂, hreads₁, hreads, List.erase_cons_head, List.nil_append]
  · rw [Mail.delivered_iterate, hcount]
    · show _ = (protocol_head.format.cut _).1.length
      rw [hcut]
    · rw [hcount, h.sent, ← List.length_mapIdx (f := l₀.frame_of_message), ← h.wire]
      exact hprefix.length_le

/-- The region that is outstanding is not empty. -/
theorem Follows.room (h : Follows z i w₀ ls l₀ s m) :
    ∃ region, s.recv.reads = [region] ∧ 0 < region.size := by
  obtain ⟨recv, hrecv, hreads⟩ := h.holds
  refine ⟨_, hreads, ?_⟩
  -- the buffer holds the start of a frame, which is shorter than the buffer
  have hbounded : protocol_head.format.Bounded 65525 ((serialize s.wire).take s.received) := by
    refine bounded_of_prefix h.wellFormed ?_ (List.take_prefix _ _)
    intro f hf
    rw [h.wire] at hf
    obtain ⟨k, hk, rfl⟩ := List.mem_mapIdx.mp hf
    have hlength := (h.fits _ (List.getElem_mem hk)).length_body
    simp only [PROTO_HEAD_SIZE, ONCE_BUFFER_SIZE] at hlength
    show (server_message.body _).length ≤ 65525
    omega
  have hrest := hbounded.length_rest
  have hhead : protocol_head.format.headSize = PROTO_HEAD_SIZE := rfl
  rw [recv_session.read_target_eq hrecv]
  simp only [hhead, PROTO_HEAD_SIZE, ONCE_BUFFER_SIZE] at hrest ⊢
  omega

/-- **A client closes.** -/
theorem Follows.close (h : Follows z i w₀ ls l₀ s m) {c : session_sptr} {state : StateSocket}
    (hexec : exec z pool i s (.close c state) = some s') :
    Follows z i w₀ ls l₀ s' { m with listens := Function.update m.listens c false } := by
  obtain ⟨w, hw, hserves⟩ := h.serves
  simp only [exec, hw] at hexec
  split at hexec
  swap
  · cases hexec
  next l hl =>
  obtain ⟨hstate, hexec⟩ := Option.ite_none_left_eq_some.mp hexec
  cases hexec
  have hic : i ≠ c := (proxy_manager.client_ne_server hl hserves.server).symm
  obtain ⟨recv, hrecv, hreads⟩ := h.holds
  refine ⟨h.sent, h.fits, h.wire, h.connected, h.logic, h.received_le, h.connecting,
    ⟨recv, hrecv.congr rfl, hreads⟩, h.delivered, _, rfl, hserves.table, ?_, ?_, ?_, ?_⟩
  · rw [proxy_manager.sessions_set_session_ne hic]
    exact hserves.server
  · intro c' l' hl'
    by_cases hc : c' = c
    · rw [hc, proxy_manager.sessions_set_session_self]
      exact hserves.logic c l' (hc ▸ hl')
    · rw [proxy_manager.sessions_set_session_ne hc]
      exact hserves.logic c' l' hl'
  · intro c'
    dsimp only
    by_cases hc : c' = c
    · rw [hc, proxy_manager.sessions_set_session_self, Function.update_self]
      exact ⟨fun heq => absurd heq hstate, nofun⟩
    · rw [proxy_manager.sessions_set_session_ne hc, Function.update_of_ne hc]
      exact hserves.state c'
  · intro c' l' hl'
    by_cases hc : c' = c
    · rw [hc, proxy_manager.sessions_set_session_self]
      exact hserves.written c l' (hc ▸ hl')
    · rw [proxy_manager.sessions_set_session_ne hc]
      exact hserves.written c' l' hl'

theorem follows_start (server : basic_async_session active_server_session_logic)
    (hlink : ServerLink server w₀ i ls) :
    Follows z i w₀ ls server._logic (start pool server w₀)
      (Mail.new fun c => decide ((w₀.sessions c)._state = .CONNECTING)) := by
  have hkeeping : (recv_session.initial .CONNECTING (.ok w₀ : Checked proxy_manager)).Keeping [] :=
    Or.inl ⟨rfl, rfl⟩
  obtain ⟨⟨recv, hrecv, hreads⟩, hstate, hlogic⟩ := hkeeping.async_recv_loop pool rfl
  have hnothing : protocol_head.format.cut ((serialize []).take 0) = ([], []) := cut_nil
  refine ⟨rfl, nofun, rfl, hlink.connected, ?_, Nat.zero_le _, hstate, ⟨recv, ?_, hreads⟩, ?_,
    w₀, hlogic, rfl, ?_, fun _ _ hl => hl, ?_, ?_⟩
  · exact server._logic.after_zero.symm
  · simp only [start]
    rw [hnothing]
    exact hrecv
  · simp only [start, arrived]
    rw [hnothing]
    rfl
  · show (w₀.sessions i)._logic = .server_session { ls with _seq := ls._seq + 0 }
    rw [hlink.logic, UInt32.add_zero]
  · intro c
    exact (decide_eq_true_iff).symm
  · intro c l _
    exact (List.append_nil _).symm

/-- **The relay is a mailbox for every client.** -/
theorem simulates_mail (hz : z.Lawful) (pool : Nat → recycled)
    {server : basic_async_session active_server_session_logic} (hlisted : w₀.ClientsListed)
    (hlink : ServerLink server w₀ i ls) :
    Simulation ((system z pool i server w₀).restrict (Fits z))
      (Mail.system w₀.route fun c => decide ((w₀.sessions c)._state = .CONNECTING))
      (Follows z i w₀ ls server._logic) where
  init := by
    intro s hs
    cases hs
    exact ⟨_, rfl, follows_start server hlink⟩
  step := by
    intro s e s' m h ⟨hguard, hexec⟩
    right
    cases e with
    | send stale target_id p =>
      refine ⟨.send (some target_id) p, _, rfl, h.written hguard ?_ hexec⟩
      exact active_server_session_logic.send_message h.connected h.logic target_id hguard.1
    | tick stale =>
      have hfits : server_message.Fits z (none, []) := ⟨Nat.zero_le _, Or.inl (Nat.zero_le _)⟩
      refine ⟨.send none [], _, rfl, h.written hfits ?_ hexec⟩
      exact active_server_session_logic.tick_message h.connected h.logic
    | read n =>
      have hn := size_of_read hexec
      obtain ⟨s'', hs'', k, hk⟩ := h.read hz hlisted hlink.in_step hn
      obtain rfl := Option.some.inj (hs''.symm.trans hexec)
      exact ⟨.deliver k, _, rfl, hk⟩
    | close c state => exact ⟨.close c, _, rfl, h.close hexec⟩

/-- The stream of client `c` goes on, after what was on it in `w₀`, with the frames of the
    first of `messages` that were sent to it, and of all of them while it is connected;
    and the client finds them in it. -/
def Gets (z : zlib) (w₀ w : proxy_manager) (c : session_sptr) (l : client_session_logic)
    (messages : List server_message) : Prop :=
  ∃ got, (w.sessions c).written = (w₀.sessions c).written ++ got.map l.frame_of ∧
    got <+: addressed w₀.route c messages ∧
    ((w.sessions c)._state = .CONNECTING → got = addressed w₀.route c messages) ∧
    ∀ p ∈ got, Decodes z l (masked_head (l.head_to_send p.length false) (l.encrypt p))
      (l.encrypt p) p

/-- **Relayed streams.** Wherever the stream from the game server is cut into reads and
    whichever clients close meanwhile, the proxy comes to no fault, and every client gets
    the messages for it that have arrived, in order, each once. When the stream has been
    read to its end, all of them have arrived; and the proxy always has a read outstanding
    that can bring as many bytes as its region has room for. -/
theorem streams_of_reachable (hz : z.Lawful) (pool : Nat → recycled)
    {server : basic_async_session active_server_session_logic} (hlisted : w₀.ClientsListed)
    (hlink : ServerLink server w₀ i ls) (s : stream_run)
    (hr : ((system z pool i server w₀).restrict (Fits z)).Reachable s) :
    (∃ w, s.recv.logic = .ok w ∧ ∀ c l, (w₀.sessions c)._logic = .client_session l →
      Gets z w₀ w c l (s.sent.take s.arrived.length)) ∧
    (s.received = (serialize s.wire).length → s.arrived.length = s.sent.length) ∧
    ∃ region, s.recv.reads = [region] ∧ 0 < region.size ∧
      ∀ n ≤ region.size, ∃ s', exec z pool i s (.read n) = some s' := by
  obtain ⟨m, hm, h⟩ := (simulates_mail hz pool hlisted hlink).exists_reachable hr
  have hordered := Mail.ordered_of_reachable _ m hm
  obtain ⟨w, hw, hserves⟩ := h.serves
  refine ⟨⟨w, hw, ?_⟩, ?_, ?_⟩
  · intro c l hl
    have hprefix := hordered.inbox_prefix c
    have hall := hordered.inbox_eq c
    rw [h.sent, h.delivered] at hprefix hall
    refine ⟨m.inbox c, hserves.written c l hl, hprefix, ?_, ?_⟩
    · intro hstate
      exact hall ((hserves.state c).mp hstate)
    · intro p hp
      -- what got through was sent, so it fits
      obtain ⟨msg, hmsg, hsome⟩ := List.mem_filterMap.mp (List.IsPrefix.subset hprefix hp)
      obtain ⟨-, hpayload⟩ := Option.ite_none_right_eq_some.mp hsome
      cases hpayload
      have hfits := (h.fits msg (List.mem_of_mem_take hmsg)).1
      refine decodes_masked_head z l ?_
      simp only [PROTO_HEAD_SIZE, ONCE_BUFFER_SIZE]
      omega
  · intro hend
    have hframes : s.arrived = s.wire := by
      have hcut := cut_serialize h.wellFormed []
      rw [List.append_nil, cut_nil, List.append_nil] at hcut
      unfold arrived
      rw [hend, List.take_length, hcut]
    rw [hframes, h.wire, List.length_mapIdx]
  · obtain ⟨region, hreads, hpos⟩ := h.room
    refine ⟨region, hreads, hpos, ?_⟩
    intro n hn
    have hfits : ∀ region' ∈ s.recv.reads.head?, n ≤ region'.size := by
      rw [hreads]
      rintro _ ⟨⟩
      exact hn
    obtain ⟨s', hs', -⟩ := h.read hz hlisted hlink.in_step hfits
    exact ⟨s', hs'⟩

/-- A message, a keep-alive, a message to nobody and, after the client has closed, one more;
    the proxy reads in pieces. -/
def four_frames : List stream_event :=
  [.send (fun _ => 0) 5 [0x61], .tick (fun _ => 0), .read 20, .send (fun _ => 0) 9 [0x62],
    .read 20, .close 0 .CLOSE_DONE, .send (fun _ => 0) 5 [0x63], .read 30]

theorem fits_four_frames : ∀ e ∈ four_frames, ∀ t, Fits zlib.stored t e := by
  intro e he t
  have hsmall : ∀ target_id b, server_message.Fits zlib.stored (some target_id, [b]) :=
    fun _ _ => ⟨Nat.le_of_ble_eq_true rfl, Or.inl (Nat.le_of_ble_eq_true rfl)⟩
  simp only [four_frames, List.mem_cons, List.not_mem_nil, or_false] at he
  rcases he with rfl | rfl | rfl | rfl | rfl | rfl | rfl | rfl
  · exact hsmall 5 0x61
  · trivial
  · trivial
  · exact hsmall 9 0x62
  · trivial
  · trivial
  · exact hsmall 5 0x63
  · trivial

theorem streams_of_four_frames : ∃ s : stream_run, s.arrived.length = 4 ∧
    (∃ w, s.recv.logic = .ok w ∧
      ∀ c l, (proxy_manager.one_client.sessions c)._logic = .client_session l →
        Gets zlib.stored proxy_manager.one_client w c l (s.sent.take s.arrived.length)) ∧
    (s.received = (serialize s.wire).length → s.arrived.length = s.sent.length) ∧
    ∃ region, s.recv.reads = [region] ∧ 0 < region.size ∧ ∀ n ≤ region.size,
      ∃ s', exec zlib.stored (fun _ _ _ => 0) 1 s (.read n) = some s' := by
  have hrun : (four_frames.foldlM (exec zlib.stored (fun _ _ _ => 0) 1)
      (start (fun _ _ _ => 0) game_server proxy_manager.one_client)).map
        (fun s => s.arrived.length) = some 4 := by
    decide +kernel
  obtain ⟨s, hs, hlength⟩ := Option.map_eq_some_iff.mp hrun
  have hinit : ((system zlib.stored (fun _ _ _ => 0) 1 game_server
      proxy_manager.one_client).restrict (Fits zlib.stored)).Reachable _ := .init rfl
  obtain ⟨ls, hlink⟩ := link_game_server
  have hlisted : proxy_manager.one_client.ClientsListed := by
    intro uid c hc
    by_cases huid : uid = 5
    · subst huid
      cases hc
      exact ⟨_, rfl⟩
    · have hnone := SafeHashMap.lookup_insert_ne (m := SafeHashMap.empty) huid (0 : session_sptr)
      rw [show proxy_manager.one_client._client_sessions =
        ((SafeHashMap.empty : SafeHashMap session_uid session_sptr).insert 5 0).1 from rfl] at hc
      rw [hnone] at hc
      cases hc
  exact ⟨s, hlength, streams_of_reachable zlib.lawful_stored _ hlisted hlink s
    (hinit.of_foldlM four_frames fits_four_frames hs)⟩

end stream_run

end AsioNet
