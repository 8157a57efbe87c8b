import Mathlib.Logic.Function.Basic
import AsioNet.BasicAsyncSession
import AsioNet.DefaultSessionLogic
import AsioNet.ParallelCore.SafeHashMap

/-! # The proxy's session tables (`proxy_manager.cpp`)

    The proxy knows its sessions by uid, in three tables: accepted but not yet
    authenticated, clients, and game servers. A `proxy_manager` value is the
    tables together with the sessions the tables' pointers lead to, so that one
    session's processing can write to another session's socket and replace
    another session's logic.
-/

namespace AsioNet

open reusabel_buffer

/-- A session is known by its place among the accepted ones. -/
abbrev session_sptr := Nat

/-- The logics a session of the proxy can hold. -/
inductive session_logic where
  | default_session (l : default_session_logic)
  | client_session (l : client_session_logic)
  | server_session (l : server_session_logic)

namespace session_logic

def get_session_type : session_logic → SessionType
  | default_session l => l.get_session_type
  | client_session l => l.get_session_type
  | server_session l => l.get_session_type

def prefix_size : session_logic → Nat
  | default_session l => l.prefix_size
  | client_session l => l.prefix_size
  | server_session l => l.prefix_size

def wrap_to_send_data (z : zlib) (stale : Nat → UInt8) (logic : session_logic)
    (buffer : once_buffer) : Checked (session_logic × once_buffer) := do
  let buffer ← match logic with
    | default_session l => l.wrap_to_send_data buffer
    | client_session l => l.wrap_to_send_data z stale buffer
    | server_session l => l.wrap_to_send_data buffer
  pure (logic, buffer)

end session_logic

structure proxy_manager where
  _server_sessions : SafeHashMap session_uid session_sptr
  _client_sessions : SafeHashMap session_uid session_sptr
  _un_managed_sessions : SafeHashMap session_uid session_sptr
  sessions : session_sptr → basic_async_session session_logic

namespace proxy_manager

/-- The proxy before it accepts anything. Every session starts with a logic that
    drew its cipher from `ciphers`. -/
def initial (ciphers : session_sptr → rc4_info) : proxy_manager where
  _server_sessions := SafeHashMap.empty
  _client_sessions := SafeHashMap.empty
  _un_managed_sessions := SafeHashMap.empty
  sessions i := {
    _state := .INIT
    _uuid := 0
    _logic := .default_session (default_session_logic.reset (ciphers i) ⟨0, 0, [], 0⟩)
    remote_ip := 0
    written := [] }

/-- Session `i` becomes `s`. -/
def set_session (w : proxy_manager) (i : session_sptr) (s : basic_async_session session_logic) :
    proxy_manager :=
  { w with sessions := Function.update w.sessions i s }

/-- A proxy with one client, session `0` with uid `5`, whose server is session
    `1` with uid `7`; both are connected. -/
def one_client : proxy_manager :=
  let w := initial fun _ => rc4_info.of_zero_rand
  let client : client_session_logic := {
    _rc4_info := rc4_info.of_zero_rand
    _seq := 0
    _server_info := ⟨0, 0, [], 0⟩
    _target_uid := 7 }
  let server : server_session_logic := {
    _seq := 0
    _server_info := ⟨0, 0, [], SessionType.ACTIVE_GAMESVR⟩ }
  let w := w.set_session 0 { w.sessions 0 with
    _state := .CONNECTING, _uuid := 5, _logic := .client_session client }
  let w := w.set_session 1 { w.sessions 1 with
    _state := .CONNECTING, _uuid := 7, _logic := .server_session server }
  { w with
    _client_sessions := (w._client_sessions.insert 5 0).1
    _server_sessions := (w._server_sessions.insert 7 1).1 }

/-- `modify_session_logic` on session `i`, also for changes inside its logic. -/
def set_logic (w : proxy_manager) (i : session_sptr) (logic : session_logic) : proxy_manager :=
  w.set_session i ((w.sessions i).modify_session_logic logic)

/-! ### Sending -/

def async_send (z : zlib) (stale : Nat → UInt8) (w : proxy_manager) (i : session_sptr)
    (msg : once_buffer) : Checked proxy_manager := do
  let s ← (w.sessions i).async_send (session_logic.wrap_to_send_data z stale) msg
  pure (w.set_session i s)

def async_send_multi (w : proxy_manager) (i : session_sptr) (head : Option tiny_buffer)
    (msg : Option once_buffer) : Checked proxy_manager := do
  let s ← (w.sessions i).async_send_multi head msg
  pure (w.set_session i s)

/-- Send to the session a table binds to `target`, if it binds one. -/
def send_to (table : SafeHashMap session_uid session_sptr) (z : zlib) (stale : Nat → UInt8)
    (w : proxy_manager) (target : session_uid) (msg : once_buffer) : Checked proxy_manager :=
  match table.try_get target with
  | none => pure w
  | some s => w.async_send z stale s msg

def send_to_multi (table : SafeHashMap session_uid session_sptr) (w : proxy_manager)
    (target : session_uid) (head : tiny_buffer) (msg : once_buffer) : Checked proxy_manager :=
  match table.try_get target with
  | none => pure w
  | some s => w.async_send_multi s (some head) (some msg)

def send_to_server (z : zlib) (stale : Nat → UInt8) (w : proxy_manager) (target : session_uid)
    (msg : once_buffer) : Checked proxy_manager :=
  send_to w._server_sessions z stale w target msg

def send_to_server_multi (w : proxy_manager) (target : session_uid) (head : tiny_buffer)
    (msg : once_buffer) : Checked proxy_manager :=
  send_to_multi w._server_sessions w target head msg

def send_to_client (z : zlib) (stale : Nat → UInt8) (w : proxy_manager)
    (client_uid : session_uid) (msg : once_buffer) : Checked proxy_manager :=
  send_to w._client_sessions z stale w client_uid msg

def send_to_client_multi (w : proxy_manager) (client_uid : session_uid) (head : tiny_buffer)
    (msg : once_buffer) : Checked proxy_manager :=
  send_to_multi w._client_sessions w client_uid head msg

/-- `server_session_logic::send_confirm_connect`, on the logic `l` of session `i`. -/
def send_confirm_connect (w : proxy_manager) (i : session_sptr) (l : server_session_logic)
    (stale : Nat → UInt8) (client_id : session_uid) (ip : UInt32) : Checked proxy_manager := do
  let buffer ← l.pack_confirm_connect stale client_id ip
  w.async_send_multi i none (some buffer)

/-! ### Promotion -/

/-- The body of both `move_…_available`: `trans` is the conversion of the logic,
    `enter` the insertion into the table. -/
def move_available (trans : default_session_logic → session_logic)
    (enter : proxy_manager → session_sptr → proxy_manager) (w : proxy_manager)
    (uid : session_uid) : Checked proxy_manager :=
  match w._un_managed_sessions.try_get uid with
  | none => pure w
  | some s =>
    -- erased before the logic is looked at, and not put back below
    let w := { w with _un_managed_sessions := (w._un_managed_sessions.erase uid).1 }
    let origin_logic := (w.sessions s)._logic
    if origin_logic.get_session_type ≠ SessionType.SINGLE_SESSION_BEGIN then
      pure w
    else
      match origin_logic with
      | .default_session default_logic => pure (enter (w.set_logic s (trans default_logic)) s)
      | _ => throw .null_pointer

def move_client_available (w : proxy_manager) (client_uid : session_uid) :
    Checked proxy_manager :=
  w.move_available (fun l => .client_session l.trans_to_client)
    (fun w c_s => { w with _client_sessions := (w._client_sessions.insert client_uid c_s).1 })
    client_uid

def move_server_available (w : proxy_manager) (server_uid : session_uid) :
    Checked proxy_manager :=
  w.move_available (fun l => .server_session l.trans_to_server)
    (fun w s_s => { w with _server_sessions := (w._server_sessions.insert server_uid s_s).1 })
    server_uid

/-! ### Authentication -/

/-- The variables `find_method` captures. -/
structure find_captured where
  find : Bool
  /-- What is stored through the pointer `target_uid`. -/
  target_uid : Option session_uid
  target_server_session : Option session_sptr

/-- The lambda that looks for the server with the requested id. -/
def find_method (w : proxy_manager) (server_id_ : server_id) :
    SafeHashMap.container_handler session_uid session_sptr (Checked find_captured) :=
  fun container captured =>
    container.entries.foldl (fun captured pair => do
      let found ← captured
      match (w.sessions pair.2)._logic with
      | .server_session server_logic =>
        if server_logic.get_server_id = server_id_ then
          pure {
            find := true
            target_uid := some (w.sessions pair.2)._uuid
            target_server_session := some pair.2 }
        else
          pure found
      | _ => throw .null_pointer) captured

/-- A store through a pointer to `_target_uid` of the logic session `i` holds. -/
def store_target_uid (w : proxy_manager) (i : session_sptr) : Option session_uid → proxy_manager
  | none => w
  | some uid =>
    match (w.sessions i)._logic with
    | .default_session l => w.set_logic i (.default_session { l with _target_uid := uid })
    | _ => w

/-- Returns the verdict and what was stored through `target_uid`, a pointer into
    the logic of session `target_uid`. -/
def verify_authentication (stale : Nat → UInt8) (w : proxy_manager) (session_type_ : SessionType)
    (server_id_ : server_id) (target_uid : session_sptr) (session_uid_ : session_uid)
    (ip : UInt32) : Checked (Bool × Option session_uid × proxy_manager) := do
  if session_type_ = SessionType.CLIENT_PROXY then
    let ret := w._server_sessions.complex_operation (w.find_method server_id_)
      (pure { find := false, target_uid := none, target_server_session := none })
    let w := { w with _server_sessions := ret.1 }
    let found ← ret.2
    -- the handler stores through the pointer as soon as it finds a server
    let w := w.store_target_uid target_uid found.target_uid
    if found.find = false then
      pure (false, found.target_uid, w)
    else
      match found.target_server_session with
      | none => throw .null_pointer
      | some target_server_session =>
        match (w.sessions target_server_session)._logic with
        | .server_session server_logic => do
          let w ← w.send_confirm_connect target_server_session server_logic stale session_uid_ ip
          let w ← w.move_client_available session_uid_
          pure (true, found.target_uid, w)
        | _ => throw .null_pointer
  else if session_type_ > SessionType.MULTI_SESSION_BEGIN then
    -- a game server must not be registered twice
    if w._server_sessions.contains_key session_uid_ then
      pure (false, none, w)
    else
      let w ← w.move_server_available session_uid_
      pure (true, none, w)
  else
    pure (false, none, w)

/-! ### Accepting, ticking, cleaning up -/

/-- The new session is the `i`-th; its uid was drawn when it was constructed, its
    logic when it got one. The result of the insertion is ignored. -/
def accept_a_session (w : proxy_manager) (i : session_sptr) (clock : Nat) (new_one : rc4_info)
    (left_over : server_info) (ip : UInt32) : proxy_manager :=
  let new_session : basic_async_session session_logic := {
    _state := .INIT
    _uuid := basic_async_session.generate_uuid clock
    _logic := .default_session (default_session_logic.reset new_one left_over)
    remote_ip := ip
    written := [] }
  let w := { w with _un_managed_sessions :=
    (w._un_managed_sessions.insert new_session._uuid i).1 }
  -- `passively_connect_succ`
  w.set_session i { new_session with _state := .CONNECTING }

/-- `tick_alive` when it is time for a keep-alive frame. -/
def tick_alive (z : zlib) (stale : recycled) (w : proxy_manager) (i : session_sptr) :
    Checked proxy_manager :=
  if (w.sessions i)._state ≠ .CONNECTING then pure w
  else
    let empty_buffer := { TEMP_BUFFER (stale 0) with offset := PROTO_HEAD_SIZE, length := 0 }
    w.async_send z (stale 1) i empty_buffer

/-- The handler `close_method` erases closed sessions from its own copy of the
    container and captures nothing. -/
def clean_up_closed_session (w : proxy_manager) : proxy_manager :=
  let close_method : SafeHashMap.container_handler session_uid session_sptr Unit :=
    fun _ captured => captured
  { w with
    _client_sessions := (w._client_sessions.complex_operation close_method ()).1
    _server_sessions := (w._server_sessions.complex_operation close_method ()).1 }

/-! ### What the steps change -/

@[simp] theorem sessions_set_session_self (w : proxy_manager) (i : session_sptr)
    (s : basic_async_session session_logic) : (w.set_session i s).sessions i = s := by
  simp [set_session]

@[simp] theorem sessions_set_session_ne {i j : session_sptr} (h : j ≠ i) (w : proxy_manager)
    (s : basic_async_session session_logic) :
    (w.set_session i s).sessions j = w.sessions j := by
  simp [set_session, h]

@[simp] theorem server_sessions_set_session (w : proxy_manager) (i : session_sptr)
    (s : basic_async_session session_logic) :
    (w.set_session i s)._server_sessions = w._server_sessions := rfl

@[simp] theorem client_sessions_set_session (w : proxy_manager) (i : session_sptr)
    (s : basic_async_session session_logic) :
    (w.set_session i s)._client_sessions = w._client_sessions := rfl

@[simp] theorem un_managed_sessions_set_session (w : proxy_manager) (i : session_sptr)
    (s : basic_async_session session_logic) :
    (w.set_session i s)._un_managed_sessions = w._un_managed_sessions := rfl

@[simp] theorem set_session_self (w : proxy_manager) (i : session_sptr) :
    w.set_session i (w.sessions i) = w := by
  simp [set_session]

@[simp] theorem server_sessions_set_logic (w : proxy_manager) (i : session_sptr)
    (logic : session_logic) : (w.set_logic i logic)._server_sessions = w._server_sessions := rfl

@[simp] theorem client_sessions_set_logic (w : proxy_manager) (i : session_sptr)
    (logic : session_logic) : (w.set_logic i logic)._client_sessions = w._client_sessions := rfl

@[simp] theorem un_managed_sessions_set_logic (w : proxy_manager) (i : session_sptr)
    (logic : session_logic) :
    (w.set_logic i logic)._un_managed_sessions = w._un_managed_sessions := rfl

@[simp] theorem sessions_set_logic_self (w : proxy_manager) (i : session_sptr)
    (logic : session_logic) :
    (w.set_logic i logic).sessions i = (w.sessions i).modify_session_logic logic := by
  simp [set_logic]

@[simp] theorem sessions_set_logic_ne {i j : session_sptr} (h : j ≠ i) (w : proxy_manager)
    (logic : session_logic) : (w.set_logic i logic).sessions j = w.sessions j := by
  simp [set_logic, h]

theorem client_ne_server {w : proxy_manager} {c s : session_sptr} {l : client_session_logic}
    {ls : server_session_logic} (hl : (w.sessions c)._logic = .client_session l)
    (hls : (w.sessions s)._logic = .server_session ls) : c ≠ s := by
  rintro rfl
  rw [hl] at hls
  cases hls

/-- A session that is not connected is sent nothing. -/
theorem async_send_of_not_connecting (z : zlib) (stale : Nat → UInt8) {w : proxy_manager}
    {i : session_sptr} (h : (w.sessions i)._state ≠ .CONNECTING) (msg : once_buffer) :
    w.async_send z stale i msg = .ok w := by
  rw [async_send, basic_async_session.async_send_of_not_connecting _ h, ok_bind, set_session_self,
    pure_eq_ok]

/-- What the logic makes of a buffer is written as it stands. -/
theorem async_send_of_wrap {z : zlib} {stale : Nat → UInt8} {w : proxy_manager}
    {i : session_sptr} {msg mutable_buffer : once_buffer}
    (hstate : (w.sessions i)._state = .CONNECTING)
    (hwrap : session_logic.wrap_to_send_data z stale (w.sessions i)._logic msg =
      .ok ((w.sessions i)._logic, mutable_buffer))
    (hfit : mutable_buffer.offset + mutable_buffer.length ≤ ONCE_BUFFER_SIZE) :
    w.async_send z stale i msg =
      .ok (w.set_session i ((w.sessions i).async_write_some mutable_buffer.content)) := by
  rw [async_send, basic_async_session.async_send_of_wrap hstate hwrap hfit, ok_bind, pure_eq_ok]
  rfl

/-- A session that is not authenticated is sent the content of the buffer in one
    frame. -/
theorem async_send_to_default_session (z : zlib) (stale : Nat → UInt8) {w : proxy_manager}
    {i : session_sptr} {l : default_session_logic} {msg : once_buffer}
    (hstate : (w.sessions i)._state = .CONNECTING)
    (hlogic : (w.sessions i)._logic = .default_session l) (hoff : msg.offset = PROTO_HEAD_SIZE)
    (hfit : PROTO_HEAD_SIZE + msg.length ≤ ONCE_BUFFER_SIZE) :
    w.async_send z stale i msg =
      .ok (w.set_session i ((w.sessions i).async_write_some
        ((proto_mask.masked_head (l.head_to_send msg.length) msg.content).bytes ++
          msg.content))) := by
  have hwrap : session_logic.wrap_to_send_data z stale (w.sessions i)._logic msg =
      .ok ((w.sessions i)._logic, proto_mask.framed (l.head_to_send msg.length) msg) := by
    rw [hlogic]
    simp only [session_logic.wrap_to_send_data, l.wrap_to_send_data_eq hoff hfit, ok_bind,
      pure_eq_ok]
  rw [async_send_of_wrap hstate hwrap (by simpa using hfit), proto_mask.content_framed _ hoff]

/-- A game server is sent it in one frame, too. -/
theorem async_send_to_server_session (z : zlib) (stale : Nat → UInt8) {w : proxy_manager}
    {i : session_sptr} {l : server_session_logic} {msg : once_buffer}
    (hstate : (w.sessions i)._state = .CONNECTING)
    (hlogic : (w.sessions i)._logic = .server_session l) (hoff : msg.offset = PROTO_HEAD_SIZE)
    (hfit : PROTO_HEAD_SIZE + msg.length ≤ ONCE_BUFFER_SIZE) :
    w.async_send z stale i msg =
      .ok (w.set_session i ((w.sessions i).async_write_some
        ((proto_mask.masked_head (l.head_to_send .Commands_RoutingTransparent msg.length)
          msg.content).bytes ++ msg.content))) := by
  have hwrap : session_logic.wrap_to_send_data z stale (w.sessions i)._logic msg =
      .ok ((w.sessions i)._logic,
        proto_mask.framed (l.head_to_send .Commands_RoutingTransparent msg.length) msg) := by
    rw [hlogic]
    simp only [session_logic.wrap_to_send_data, l.wrap_to_send_data_eq hoff hfit, ok_bind,
      pure_eq_ok]
  rw [async_send_of_wrap hstate hwrap (by simpa using hfit), proto_mask.content_framed _ hoff]

/-- A client is sent data that stays uncompressed encrypted, in one frame. -/
theorem async_send_to_client_session_plain {z : zlib} {stale : Nat → UInt8} {w : proxy_manager}
    {i : session_sptr} {l : client_session_logic} {msg : once_buffer}
    (hstate : (w.sessions i)._state = .CONNECTING)
    (hlogic : (w.sessions i)._logic = .client_session l) (hoff : msg.offset = PROTO_HEAD_SIZE)
    (hfit : PROTO_HEAD_SIZE + msg.length ≤ ONCE_BUFFER_SIZE)
    (hplain : client_session_logic.compress_to_send z stale msg = .ok (some (msg, false))) :
    w.async_send z stale i msg =
      .ok (w.set_session i ((w.sessions i).async_write_some
        ((proto_mask.masked_head (l.head_to_send msg.length false)
          (l.encrypt msg.content)).bytes ++ l.encrypt msg.content))) := by
  obtain ⟨b, hb, hb_off, hb_len, hb_content⟩ := l.wrap_to_send_data_plain hoff hfit hplain
  have hwrap : session_logic.wrap_to_send_data z stale (w.sessions i)._logic msg =
      .ok ((w.sessions i)._logic, b) := by
    rw [hlogic]
    simp only [session_logic.wrap_to_send_data, hb, ok_bind, pure_eq_ok]
  have hb_fit : b.offset + b.length ≤ ONCE_BUFFER_SIZE := by
    rw [hb_off, hb_len, Nat.zero_add]
    exact hfit
  rw [async_send_of_wrap hstate hwrap hb_fit, hb_content]

/-- A head buffer and a message go out as far as their lengths say. -/
theorem async_send_multi_eq {w : proxy_manager} {i : session_sptr} {head : tiny_buffer}
    {msg : once_buffer} (hstate : (w.sessions i)._state = .CONNECTING)
    (hhead : head.offset + head.length ≤ TINY_ONCE_BUFFER_SIZE)
    (hmsg : msg.offset + msg.length ≤ ONCE_BUFFER_SIZE) :
    w.async_send_multi i (some head) (some msg) =
      .ok (w.set_session i ((w.sessions i).async_write_some (head.content ++ msg.content))) := by
  rw [async_send_multi, basic_async_session.async_send_multi_of_connecting hstate hhead hmsg,
    ok_bind, pure_eq_ok]

theorem async_send_multi_msg_eq {w : proxy_manager} {i : session_sptr} {msg : once_buffer}
    (hstate : (w.sessions i)._state = .CONNECTING)
    (hmsg : msg.offset + msg.length ≤ ONCE_BUFFER_SIZE) :
    w.async_send_multi i none (some msg) =
      .ok (w.set_session i ((w.sessions i).async_write_some msg.content)) := by
  rw [async_send_multi, basic_async_session.async_send_multi_msg_of_connecting hstate hmsg,
    ok_bind, pure_eq_ok]

theorem async_send_to_client_session_fault {z : zlib} {stale : Nat → UInt8} {w : proxy_manager}
    {i : session_sptr} {l : client_session_logic} {msg : once_buffer} {e : fault}
    (hstate : (w.sessions i)._state = .CONNECTING)
    (hlogic : (w.sessions i)._logic = .client_session l)
    (hwrap : l.wrap_to_send_data z stale msg = .error e) :
    w.async_send z stale i msg = .error e := by
  have hwrap' : session_logic.wrap_to_send_data z stale (w.sessions i)._logic msg =
      .error e := by
    rw [hlogic]
    simp only [session_logic.wrap_to_send_data, hwrap, error_bind]
  rw [async_send, basic_async_session.async_send_of_wrap_fault hstate hwrap', error_bind]

/-- Erasing removes nothing, so a promotion leaves the first table alone. -/
theorem move_available_eq (trans : default_session_logic → session_logic)
    (enter : proxy_manager → session_sptr → proxy_manager) (w : proxy_manager)
    (uid : session_uid) :
    w.move_available trans enter uid =
      match w._un_managed_sessions._container.lookup uid with
      | none => .ok w
      | some s =>
        match (w.sessions s)._logic with
        | .default_session l => .ok (enter (w.set_logic s (trans l)) s)
        | .client_session _ => .ok w
        | .server_session l =>
          if l._server_info.link_type_ ≠ SessionType.SINGLE_SESSION_BEGIN then .ok w
          else .error .null_pointer := by
  rw [move_available]
  simp only [SafeHashMap.erase_eq, SafeHashMap.try_get_eq]
  cases w._un_managed_sessions._container.lookup uid with
  | none => rfl
  | some s =>
    simp only
    -- the type `SINGLE_SESSION_BEGIN` stands for a session that is not authenticated,
    -- or for a game server that announced itself with it
    cases (w.sessions s)._logic with
    | default_session l => rfl
    | client_session l => rfl
    | server_session l => rfl

/-- The search for a server never runs, so no client is ever let in. -/
theorem verify_authentication_client (stale : Nat → UInt8) (w : proxy_manager)
    (server_id_ : server_id) (target_uid : session_sptr) (session_uid_ : session_uid)
    (ip : UInt32) :
    w.verify_authentication stale SessionType.CLIENT_PROXY server_id_ target_uid session_uid_ ip =
      .ok (false, none, w) := by
  rw [verify_authentication, if_pos rfl]
  rfl

theorem verify_authentication_other {session_type_ : SessionType}
    (h : session_type_ ≠ SessionType.CLIENT_PROXY)
    (hle : ¬ session_type_ > SessionType.MULTI_SESSION_BEGIN) (stale : Nat → UInt8)
    (w : proxy_manager) (server_id_ : server_id) (target_uid : session_sptr)
    (session_uid_ : session_uid) (ip : UInt32) :
    w.verify_authentication stale session_type_ server_id_ target_uid session_uid_ ip =
      .ok (false, none, w) := by
  rw [verify_authentication, if_neg h, if_neg hle]
  rfl

theorem ne_client_of_gt {session_type_ : SessionType}
    (h : session_type_ > SessionType.MULTI_SESSION_BEGIN) :
    session_type_ ≠ SessionType.CLIENT_PROXY := by
  rintro rfl
  exact absurd h (by decide)

theorem verify_authentication_duplicate {session_type_ : SessionType}
    (h : session_type_ > SessionType.MULTI_SESSION_BEGIN) {w : proxy_manager}
    {session_uid_ : session_uid} (hmem : session_uid_ ∈ w._server_sessions._container)
    (stale : Nat → UInt8) (server_id_ : server_id) (target_uid : session_sptr) (ip : UInt32) :
    w.verify_authentication stale session_type_ server_id_ target_uid session_uid_ ip =
      .ok (false, none, w) := by
  rw [verify_authentication, if_neg (ne_client_of_gt h), if_pos h,
    if_pos ((SafeHashMap.contains_key_eq_true _ _).mpr hmem)]
  rfl

theorem verify_authentication_server {session_type_ : SessionType}
    (h : session_type_ > SessionType.MULTI_SESSION_BEGIN) {w : proxy_manager}
    {session_uid_ : session_uid} (hmem : session_uid_ ∉ w._server_sessions._container)
    (stale : Nat → UInt8) (server_id_ : server_id) (target_uid : session_sptr) (ip : UInt32) :
    w.verify_authentication stale session_type_ server_id_ target_uid session_uid_ ip =
      (do
        let w ← w.move_server_available session_uid_
        pure (true, none, w)) := by
  rw [verify_authentication, if_neg (ne_client_of_gt h), if_pos h,
    if_neg (by simpa using hmem)]

/-- `verify_authentication` says no and changes nothing, or it has tried to move a
    game server. -/
theorem verify_authentication_cases {stale : Nat → UInt8} {w : proxy_manager}
    {session_type_ : SessionType} {server_id_ : server_id} {target_uid : session_sptr}
    {session_uid_ : session_uid} {ip : UInt32} {r : Bool × Option session_uid × proxy_manager}
    (h : w.verify_authentication stale session_type_ server_id_ target_uid session_uid_ ip =
      .ok r) :
    r = (false, none, w) ∨ (session_type_ > SessionType.MULTI_SESSION_BEGIN ∧
      session_uid_ ∉ w._server_sessions._container ∧
      ∃ w', w.move_server_available session_uid_ = .ok w' ∧ r = (true, none, w')) := by
  -- the branches of `verify_authentication`, in their order
  by_cases hclient : session_type_ = SessionType.CLIENT_PROXY
  · subst hclient
    rw [verify_authentication_client] at h
    exact Or.inl (Except.ok.inj h).symm
  by_cases hgt : session_type_ > SessionType.MULTI_SESSION_BEGIN
  · by_cases hmem : session_uid_ ∈ w._server_sessions._container
    · rw [verify_authentication_duplicate hgt hmem] at h
      exact Or.inl (Except.ok.inj h).symm
    · rw [verify_authentication_server hgt hmem] at h
      obtain ⟨w', hmove, h⟩ := bind_eq_ok.mp h
      exact Or.inr ⟨hgt, hmem, w', hmove, (Except.ok.inj h).symm⟩
  · rw [verify_authentication_other hclient hgt] at h
    exact Or.inl (Except.ok.inj h).symm

/-- What a move amounts to: nothing, or the conversion of the session found under
    the uid. -/
theorem move_server_available_cases {w w' : proxy_manager} {server_uid : session_uid}
    (h : w.move_server_available server_uid = .ok w') :
    w' = w ∨ ∃ s l, w._un_managed_sessions._container.lookup server_uid = some s ∧
      (w.sessions s)._logic = .default_session l ∧
      w' = { w.set_logic s (.server_session l.trans_to_server) with
        _server_sessions := (w._server_sessions.insert server_uid s).1 } := by
  rw [move_server_available, move_available_eq] at h
  split at h
  · exact Or.inl (Except.ok.inj h).symm
  · next s hs =>
    split at h
    · next l hl => exact Or.inr ⟨s, l, hs, hl, (Except.ok.inj h).symm⟩
    · exact Or.inl (Except.ok.inj h).symm
    · split at h
      · exact Or.inl (Except.ok.inj h).symm
      · cases h

@[simp] theorem clean_up_closed_session_eq (w : proxy_manager) :
    w.clean_up_closed_session = w := rfl

end proxy_manager

end AsioNet
