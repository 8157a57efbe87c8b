import AsioNet.Library.TransitionSystem
import AsioNet.ParallelCore.ObjectPool
import AsioNet.ProxySession

/-! # The pooled logics of the sessions (`default_session_logic.cpp`, `proxy_manager.cpp`)

    A logic is an object of a pool. Sessions, and the calls that are working on
    them, hold it by `shared_ptr`; the last of these gives it back to its pool. The
    member functions of a logic only have `this`, which keeps nothing alive.

    The acceptor takes a `default_session_logic`, resets it and applies it to a new
    session. The strand of a session calls the logic the session holds at that
    moment; authenticating a game server goes from `unwrap_received_data` over
    `verify_authentication` and `move_server_available` back to
    `echo_authentication_res`, and other strands and the acceptor come between its
    steps. Clients are never let in (`verify_authentication_client`), so the proxy's
    logics are of two classes.
-/

namespace AsioNet

open TransitionSystem reusabel_buffer proto_mask

/-- A pointer to a logic. -/
inductive logic_sptr where
  | default_session (p : Nat)
  | server_session (p : Nat)
  deriving DecidableEq

/-- A logic with the session it was applied to. -/
structure pooled_logic (Logic : Type) where
  logic : Logic
  _session_holder : Option session_sptr

/-- Where the strand of a session stands. `this` is the logic whose member function
    is running, `holder` and the names behind it are the locals that own something. -/
inductive pooled_strand where
  | idle
  /-- `_logic->unwrap_received_data` has been called. -/
  | unwrap (this : logic_sptr) (buffer : once_buffer) (head : protocol_head)
  /-- `_logic->try_copy_to_storage` has been called. -/
  | copy (this : logic_sptr)
  | verify (this : Nat) (tmp_buffer : once_buffer) (cmd : UInt16)
  /-- `PROXY_MGR->verify_authentication` has been called. -/
  | ask (this : Nat) (holder : session_sptr) (session_type_ : SessionType)
  /-- `move_server_available` has been called. -/
  | move (this : Nat) (holder : session_sptr) (server_uid : session_uid)
  /-- The new logic is ready. -/
  | modify (this : Nat) (holder : session_sptr) (server_uid : session_uid) (s_s : session_sptr)
      (default_logic new_server_logic : Nat)
  /-- `move_server_available` is about to return. -/
  | leave (this : Nat) (holder s_s : session_sptr) (default_logic new_server_logic : Nat)
  /-- The verdict is known, the response will be written. -/
  | echo (this : Nat) (holder : session_sptr) (verified : Bool)

namespace pooled_strand

/-- The logic whose member functions have not returned. -/
def this : pooled_strand → Option logic_sptr
  | idle => none
  | unwrap this _ _ | copy this => some this
  | verify this _ _ | ask this _ _ | move this _ _ | modify this _ _ _ _ _ | leave this _ _ _ _
  | echo this _ _ => some (.default_session this)

/-- The logics the locals of the call hold. -/
def locals : pooled_strand → List logic_sptr
  | modify _ _ _ _ default_logic new_server_logic | leave _ _ _ default_logic new_server_logic =>
    [.server_session new_server_logic, .default_session default_logic]
  | _ => []

/-- The sessions they hold. -/
def sessions : pooled_strand → List session_sptr
  | ask _ holder _ | move _ holder _ | echo _ holder _ => [holder]
  | modify _ holder _ s_s _ _ | leave _ holder s_s _ _ => [holder, s_s]
  | _ => []

end pooled_strand

/-- How far the acceptor has got with its next session. -/
inductive acceptor_strand where
  | idle
  /-- `get_shared` has returned. -/
  | taken (p : Nat)
  /-- `reset` has returned. -/
  | reset (p : Nat)
  /-- The session has its logic and waits for a connection. -/
  | applied

/-- The logics the acceptor's temporaries hold. -/
def acceptor_strand.locals : acceptor_strand → List logic_sptr
  | taken p | reset p => [.default_session p]
  | _ => []

/-- What `echo_authentication_res` sends. -/
structure authentication_reply where
  /-- The session whose frame is answered. -/
  asker : session_sptr
  send_buffer : once_buffer
  /-- The session it is sent to. -/
  target : session_sptr

structure pooled_run where
  sessions : session_sptr → basic_async_session (Option logic_sptr)
  _un_managed_sessions : SafeHashMap session_uid session_sptr
  _server_sessions : SafeHashMap session_uid session_sptr
  default_pool : ThreadSafeObjectPool (pooled_logic default_session_logic)
  server_pool : ThreadSafeObjectPool (pooled_logic server_session_logic)
  acceptor : acceptor_strand
  /-- The number of sessions accepted so far. -/
  accepted : Nat
  /-- The last reading of `clock()`. -/
  clock : Nat
  strand : session_sptr → pooled_strand
  /-- The logic each session was given when it was accepted. -/
  given : session_sptr → default_session_logic
  /-- All responses so far. -/
  replies : List authentication_reply

inductive pooled_event where
  /-- A session is constructed and a logic taken for it. -/
  | take (clock : Nat)
  | reset (new_one : rc4_info)
  | apply
  | accept (ip : UInt32)
  /-- session `i` receives a frame -/
  | frame (i : session_sptr) (stale : recycled) (head : protocol_head) (body : List UInt8)
  /-- the strand of session `i` takes its next step on a thread -/
  | strand (i : session_sptr) (stale : recycled) (thread : Nat)
  /-- the socket of session `i` closes or fails -/
  | socket (i : session_sptr) (state : StateSocket)
  /-- session `i` is destroyed -/
  | destroy (i : session_sptr)

namespace pooled_run

/-! ### Who holds what -/

/-- Some `shared_ptr` points to the logic. -/
def Referred (s : pooled_run) (p : logic_sptr) : Prop :=
  (∃ i, i < s.accepted + 1 ∧ (s.sessions i)._logic = some p) ∨
    (∃ i, i < s.accepted ∧ p ∈ (s.strand i).locals) ∨ p ∈ s.acceptor.locals

/-- A member function of the logic has not returned. -/
def Running (s : pooled_run) (p : logic_sptr) : Prop :=
  ∃ i, i < s.accepted ∧ (s.strand i).this = some p

instance (s : pooled_run) (p : logic_sptr) : Decidable (s.Referred p) := by
  unfold Referred
  infer_instance

instance (s : pooled_run) (p : logic_sptr) : Decidable (s.Running p) := by
  unfold Running
  infer_instance

/-- The logic lies in a free list. -/
def Free (s : pooled_run) : logic_sptr → Prop
  | .default_session p => s.default_pool.Free p
  | .server_session p => s.server_pool.Free p

/-- The logic has been taken from its pool and not given back. -/
def Out (s : pooled_run) : logic_sptr → Prop
  | .default_session p => s.default_pool.Out p
  | .server_session p => s.server_pool.Out p

/-- The deleter of the `shared_ptr`. -/
def release (s : pooled_run) : logic_sptr → pooled_run
  | .default_session p => { s with default_pool := s.default_pool.release p }
  | .server_session p => { s with server_pool := s.server_pool.release p }

/-- A `shared_ptr` to `p` is gone. -/
def forget (s : pooled_run) (p : logic_sptr) : pooled_run :=
  if s.Referred p then s else s.release p

/-- `weak_ptr::lock` -/
def lock (s : pooled_run) (_session_holder : Option session_sptr) : Option session_sptr :=
  _session_holder.filter fun i => (s.sessions i)._logic.isSome

/-! ### Writing to the parts of the state -/

/-- The strand of session `i` goes on at `next`. -/
def go_on (s : pooled_run) (i : session_sptr) (next : pooled_strand) : pooled_run :=
  { s with strand := Function.update s.strand i next }

def set_session (s : pooled_run) (i : session_sptr)
    (session : basic_async_session (Option logic_sptr)) : pooled_run :=
  { s with sessions := Function.update s.sessions i session }

/-- The data of a `default_session_logic` change. -/
def set_default (s : pooled_run) (p : Nat) (l : default_session_logic) : pooled_run :=
  { s with default_pool := s.default_pool.set p { s.default_pool.objects p with logic := l } }

def set_server (s : pooled_run) (p : Nat) (l : server_session_logic) : pooled_run :=
  { s with server_pool := s.server_pool.set p { s.server_pool.objects p with logic := l } }

def apply_session (s : pooled_run) (i : session_sptr) : logic_sptr → pooled_run
  | .default_session p => { s with
      default_pool := s.default_pool.set p
        { s.default_pool.objects p with _session_holder := some i } }
  | .server_session p => { s with
      server_pool := s.server_pool.set p
        { s.server_pool.objects p with _session_holder := some i } }

/-- `modify_session_logic` on session `i`, but for the old logic. -/
def modify_session_logic (s : pooled_run) (i : session_sptr) (logic : logic_sptr) : pooled_run :=
  (s.set_session i ((s.sessions i).modify_session_logic (some logic))).apply_session i logic

/-- The logic behind a pointer. -/
def logic_at (s : pooled_run) : logic_sptr → session_logic
  | .default_session p => .default_session (s.default_pool.objects p).logic
  | .server_session p => .server_session (s.server_pool.objects p).logic

/-! ### The strand of a session -/

/-- `default_session_logic::unwrap_received_data`, up to the call of
    `verify_authentication`. -/
def unwrap_default (s : pooled_run) (i : session_sptr) (this : Nat) (buffer : once_buffer)
    (head : protocol_head) : Checked pooled_run := do
  let l := (s.default_pool.objects this).logic
  let l := { l with _seq := l._seq + 1 }
  let s := s.set_default this l
  if head.seq ≠ l._seq then
    pure (s.go_on i .idle)
  else
    let body ← buffer.load (buffer.buffer 0) head.len.toNat
    if 0 ≠ get_mask head.bytes body then
      pure (s.go_on i .idle)
    else if l._authentication = .BEFORE_VERIFY then
      pure (s.go_on i (.verify this buffer head.get_cmd))
    else
      pure (s.go_on i .idle)

/-- `server_session_logic::unwrap_received_data`, and the call that follows it. -/
def unwrap_server (stale : Nat → UInt8) (s : pooled_run) (i : session_sptr) (this : Nat)
    (buffer : once_buffer) (head : protocol_head) : Checked pooled_run := do
  let l := (s.server_pool.objects this).logic
  let r ← l.unwrap_received_data buffer head { TEMP_BUFFER stale with offset := l.prefix_size }
  let s := s.set_server this r.state
  if r.accepted = false then
    pure (s.go_on i .idle)
  else
    -- the logic may have been replaced in between
    match (s.sessions i)._logic with
    | none => throw .null_pointer
    | some logic => pure (s.go_on i (.copy logic))

/-- `default_session_logic::verify_authentication`, up to the question to the proxy. -/
def verify_authentication (s : pooled_run) (i : session_sptr) (this : Nat)
    (tmp_buffer : once_buffer) (cmd : UInt16) : Checked pooled_run := do
  let aaa_request ← authentication_aaa_request.unpack tmp_buffer (tmp_buffer.buffer 0)
    (UInt16.ofNat tmp_buffer.length)
  let s := s.set_default this ((s.default_pool.objects this).logic.set_server_info aaa_request)
  match s.lock (s.default_pool.objects this)._session_holder with
  | none => pure (s.go_on i .idle)
  | some holder =>
    if cmd ≠ protocol_cmd.Commands_AuthenticationAAA.val then
      pure (s.go_on i (.echo this holder false))
    else
      pure (s.go_on i (.ask this holder aaa_request.link_type))

/-- `proxy_manager::verify_authentication` -/
def ask_proxy (s : pooled_run) (i : session_sptr) (this : Nat) (holder : session_sptr)
    (session_type_ : SessionType) : pooled_run :=
  if session_type_ = SessionType.CLIENT_PROXY then
    -- `complex_operation` runs no handler, so no server is found
    s.go_on i (.echo this holder false)
  else if session_type_ > SessionType.MULTI_SESSION_BEGIN then
    if s._server_sessions.contains_key (s.sessions holder)._uuid then
      s.go_on i (.echo this holder false)
    else
      s.go_on i (.move this holder (s.sessions holder)._uuid)
  else
    s.go_on i (.echo this holder false)

/-- `default_session_logic::trans_to_server`: the new logic and the state. -/
def trans_to_server (s : pooled_run) (thread : Nat) (default_logic : Nat) : Nat × pooled_run :=
  let origin := s.default_pool.objects default_logic
  let (server_logic, pool) := s.server_pool.get_shared thread
  (server_logic, { s with server_pool := pool.set server_logic {
    logic := origin.logic.trans_to_server
    _session_holder := origin._session_holder } })

/-- `move_server_available`, up to the new logic. Erasing removes nothing. -/
def move_server_available (s : pooled_run) (i : session_sptr) (thread : Nat) (this : Nat)
    (holder : session_sptr) (server_uid : session_uid) : Checked pooled_run :=
  match s._un_managed_sessions.try_get server_uid with
  | none => pure (s.go_on i (.echo this holder true))
  | some s_s =>
    match (s.sessions s_s)._logic with
    | none => throw .null_pointer
    | some origin_logic =>
      if (s.logic_at origin_logic).get_session_type ≠ SessionType.SINGLE_SESSION_BEGIN then
        pure (s.go_on i (.echo this holder true))
      else
        match origin_logic with
        | .default_session default_logic =>
          let (new_server_logic, s) := s.trans_to_server thread default_logic
          pure (s.go_on i (.modify this holder server_uid s_s default_logic new_server_logic))
        | .server_session _ => throw .null_pointer

/-- The session gets its new logic and its place among the servers; the old logic has
    not been let go of. -/
def install (s : pooled_run) (i : session_sptr) (this : Nat) (holder : session_sptr)
    (server_uid : session_uid) (s_s : session_sptr) (default_logic new_server_logic : Nat) :
    pooled_run :=
  let s := s.modify_session_logic s_s (.server_session new_server_logic)
  let s := { s with _server_sessions := (s._server_sessions.insert server_uid s_s).1 }
  s.go_on i (.leave this holder s_s default_logic new_server_logic)

/-- The logics the next step of the strand lets go of. -/
def lets_go (s : pooled_run) (i : session_sptr) : List logic_sptr :=
  match s.strand i with
  | .modify _ _ _ s_s _ _ => (s.sessions s_s)._logic.toList
  | .leave _ _ _ default_logic new_server_logic =>
    [.server_session new_server_logic, .default_session default_logic]
  | _ => []

/-- `_session_logic->wrap_to_send_data` for the session `async_send` is called on. -/
def wrap_to_send_data (z : zlib) (stale : Nat → UInt8) (s : pooled_run)
    (logic : Option logic_sptr) (buffer : once_buffer) :
    Checked (Option logic_sptr × once_buffer) :=
  match logic with
  | none => throw .null_pointer
  | some p => do
    let (_, buffer) ← session_logic.wrap_to_send_data z stale (s.logic_at p) buffer
    pure (some p, buffer)

/-- The verdict of a logic that says yes or no. -/
def verdict : Bool → AuthenticationState × TransferError
  | true => (.VERIFY_SUCC, .EC_Success)
  | false => (.VERIFY_FAILED, .EC_ServerNotFound)

/-- The end of `default_session_logic::verify_authentication`. -/
def echo_authentication_res (z : zlib) (stale : recycled) (s : pooled_run) (i : session_sptr)
    (this : Nat) (verified : Bool) : Checked pooled_run := do
  let l := { (s.default_pool.objects this).logic with _authentication := (verdict verified).1 }
  let s := s.set_default this l
  let send_buffer ← l.pack_authentication_res (stale 0) (verdict verified).2
  match s.lock (s.default_pool.objects this)._session_holder with
  | none => pure (s.go_on i .idle)
  | some target => do
    let session ← (s.sessions target).async_send (wrap_to_send_data z (stale 1) s) send_buffer
    let s := s.set_session target session
    pure { s.go_on i .idle with
      replies := s.replies ++ [{ asker := i, send_buffer := send_buffer, target := target }] }

/-- The next step of the strand of session `i`. -/
def step_strand (z : zlib) (stale : recycled) (thread : Nat) (s : pooled_run) (i : session_sptr) :
    Checked pooled_run :=
  match s.strand i with
  | .idle => pure s
  | .unwrap (.default_session this) buffer head => s.unwrap_default i this buffer head
  | .unwrap (.server_session this) buffer head => unwrap_server (stale 0) s i this buffer head
  -- what a game server sends is for clients, and there are none
  | .copy _ => pure (s.go_on i .idle)
  | .verify this tmp_buffer cmd => s.verify_authentication i this tmp_buffer cmd
  | .ask this holder session_type_ => pure (s.ask_proxy i this holder session_type_)
  | .move this holder server_uid => s.move_server_available i thread this holder server_uid
  | .modify this holder server_uid s_s default_logic new_server_logic =>
    pure ((s.lets_go i).foldl forget
      (s.install i this holder server_uid s_s default_logic new_server_logic))
  | .leave this holder _ _ _ =>
    pure ((s.lets_go i).foldl forget (s.go_on i (.echo this holder true)))
  | .echo this _ verified => echo_authentication_res z stale s i this verified

/-! ### The system -/

/-- `_acceptor_executor` runs on a single thread. -/
def acceptor_thread : Nat := 0

/-- No `shared_ptr` points to the session any more. -/
def Abandoned (s : pooled_run) (i : session_sptr) : Prop :=
  i < s.accepted ∧ (s.strand i).this = none ∧
    i ∉ s._un_managed_sessions._container.entries.map Sigma.snd ∧
    i ∉ s._server_sessions._container.entries.map Sigma.snd ∧
    ∀ j, j < s.accepted → i ∉ (s.strand j).sessions

instance (s : pooled_run) (i : session_sptr) : Decidable (s.Abandoned i) := by
  unfold Abandoned
  infer_instance

/-- The state after an event; none if the event is impossible or ends in a fault. -/
def exec (z : zlib) (s : pooled_run) : pooled_event → Option pooled_run
  | .take clock =>
    match s.acceptor with
    | .idle =>
      if s.clock ≤ clock then
        let (p, pool) := s.default_pool.get_shared acceptor_thread
        let new_session : basic_async_session (Option logic_sptr) := {
          _state := .INIT
          _uuid := basic_async_session.generate_uuid clock
          _logic := none
          remote_ip := 0
          written := [] }
        some { s.set_session s.accepted new_session with
          default_pool := pool, acceptor := .taken p, clock := clock }
      else none
    | _ => none
  | .reset new_one =>
    match s.acceptor with
    | .taken p =>
      some { s.set_default p (default_session_logic.reset new_one
          (s.default_pool.objects p).logic._server_info) with acceptor := .reset p }
    | _ => none
  | .apply =>
    match s.acceptor with
    | .reset p =>
      some { s.modify_session_logic s.accepted (.default_session p) with
        acceptor := .applied
        given := Function.update s.given s.accepted (s.default_pool.objects p).logic }
    | _ => none
  | .accept ip =>
    match s.acceptor with
    | .applied =>
      let new_session := s.sessions s.accepted
      some { s.set_session s.accepted { new_session with
          _state := .CONNECTING, remote_ip := ip } with
        _un_managed_sessions := (s._un_managed_sessions.insert new_session._uuid s.accepted).1
        acceptor := .idle
        accepted := s.accepted + 1 }
    | _ => none
  | .frame i stale head body =>
    match s.strand i, (s.sessions i)._logic with
    | .idle, some logic =>
      if i < s.accepted ∧ head.len.toNat = body.length then
        some (s.go_on i (.unwrap logic (proxy_manager.received_block (stale 0) body) head))
      else none
    | _, _ => none
  | .strand i stale thread => (s.step_strand z stale thread i).toOption
  | .socket i state =>
    if i < s.accepted ∧ state ≠ .CONNECTING then
      some (s.set_session i { s.sessions i with _state := state })
    else none
  | .destroy i =>
    if s.Abandoned i then
      let logic := (s.sessions i)._logic
      some (logic.toList.foldl forget
        (s.set_session i { s.sessions i with _logic := none }))
    else none

/-- Nothing has been taken or accepted. -/
structure Starts (s : pooled_run) : Prop where
  default_pool : (∀ thread, s.default_pool._container thread = []) ∧ s.default_pool.count = 0
  server_pool : (∀ thread, s.server_pool._container thread = []) ∧ s.server_pool.count = 0
  acceptor : s.acceptor = .idle
  accepted : s.accepted = 0
  sessions : ∀ i, (s.sessions i)._logic = none
  un_managed : s._un_managed_sessions = SafeHashMap.empty
  servers : s._server_sessions = SafeHashMap.empty
  strand : ∀ i, s.strand i = .idle
  replies : s.replies = []

def system (z : zlib) : System pooled_run pooled_event := System.ofExec Starts (exec z)

end pooled_run

end AsioNet
