import AsioNet.AuthenticationResponse

/-! # Authentication in steps (`default_session_logic.cpp`, `proxy_manager.cpp`)

    Every session is processed on a strand of its own, and the strands come between
    each other's steps. An authentication frame is processed in several: the table is
    asked, a game server is told about its client or promoted, the answer is written.
    `complex_operation` is taken to run its handler on the stored container here, so
    that clients find their server. Where no handler runs, a strand that nobody
    interrupts does what `on_frame` does (`on_frame_of_strand`).
-/

namespace AsioNet

open TransitionSystem reusabel_buffer proto_mask proxy_manager

/-! ### The strands -/

/-- How far the strand of a session has got with an authentication frame. -/
inductive session_strand where
  | idle
  /-- The request is read, the proxy will be asked. -/
  | asking (l : default_session_logic) (aaa_request : authentication_aaa_request)
  /-- `find_method` has found the client's server. -/
  | found (l : default_session_logic) (target_server_session : session_sptr)
  /-- The server has been told about its client. -/
  | confirmed (l : default_session_logic)
  /-- `_server_sessions` does not contain the game server. -/
  | absent (l : default_session_logic)
  /-- The verdict is known, the response will be written. -/
  | answered (l : default_session_logic) (ec : TransferError)

structure strand_run where
  proxy : proxy_manager
  strand : session_sptr → session_strand
  /-- What `echo_authentication_res` has written on a session. -/
  response : session_sptr → Option (List UInt8)

inductive strand_event where
  /-- session `i` receives a frame -/
  | frame (i : session_sptr) (stale : recycled) (head : protocol_head) (body : List UInt8)
  /-- the strand of session `i` takes its next step -/
  | strand (i : session_sptr) (stale : recycled)
  | tick (i : session_sptr) (stale : recycled)
  /-- the socket of session `i` closes or fails -/
  | socket (i : session_sptr) (state : StateSocket)

namespace strand_run

/-- The strand of session `i` goes on with `w` at `next`. -/
def go_on (s : strand_run) (i : session_sptr) (w : proxy_manager) (next : session_strand) :
    strand_run :=
  { s with proxy := w, strand := Function.update s.strand i next }

/-- The verdict of a logic that says yes or no. -/
def verdict : Bool → AuthenticationState × TransferError
  | true => (.VERIFY_SUCC, .EC_Success)
  | false => (.VERIFY_FAILED, .EC_ServerNotFound)

/-- The proxy has answered. -/
def answer (s : strand_run) (i : session_sptr) (w : proxy_manager) (l : default_session_logic)
    (verified : Bool) : strand_run :=
  let l := { l with _authentication := (verdict verified).1 }
  s.go_on i (default_session_logic.store_logic w i l) (.answered l (verdict verified).2)

/-- `default_session_logic::unwrap_received_data`, up to the question to the proxy. -/
def receive (s : strand_run) (i : session_sptr) (l : default_session_logic)
    (buffer : once_buffer) (head : protocol_head) : Checked strand_run := do
  let l := { l with _seq := l._seq + 1 }
  let w := s.proxy.set_logic i (.default_session l)
  if head.seq ≠ l._seq then
    pure (s.go_on i w .idle)
  else
    let body ← buffer.load (buffer.buffer 0) head.len.toNat
    if 0 ≠ get_mask head.bytes body then
      pure (s.go_on i w .idle)
    else if l._authentication = .BEFORE_VERIFY then
      let aaa_request ← authentication_aaa_request.unpack buffer (buffer.buffer 0)
        (UInt16.ofNat buffer.length)
      let l := l.set_server_info aaa_request
      let w := w.set_logic i (.default_session l)
      if head.get_cmd ≠ protocol_cmd.Commands_AuthenticationAAA.val then
        pure (s.answer i w l false)
      else
        pure (s.go_on i w (.asking l aaa_request))
    else
      pure (s.go_on i w .idle)

/-- The handler runs on the stored container. -/
def complex_operation_on_stored {σ : Type} (m : SafeHashMap session_uid session_sptr)
    (handler : SafeHashMap.container_handler session_uid session_sptr σ) (captured : σ) : σ :=
  handler m._container captured

/-- The first thing `proxy_manager::verify_authentication` does with the tables. -/
def ask (s : strand_run) (i : session_sptr) (l : default_session_logic)
    (aaa_request : authentication_aaa_request) : Checked strand_run := do
  if aaa_request.link_type = SessionType.CLIENT_PROXY then
    let found ← complex_operation_on_stored s.proxy._server_sessions
      (s.proxy.find_method (cal_server_uid aaa_request.area_id aaa_request.server_id
        aaa_request.platform))
      (pure { find := false, target_uid := none, target_server_session := none })
    let w := s.proxy.store_target_uid i found.target_uid
    let l := { l with _target_uid := found.target_uid.getD l._target_uid }
    if found.find = false then pure (s.answer i w l false)
    else
      match found.target_server_session with
      | none => throw .null_pointer
      | some target_server_session => pure (s.go_on i w (.found l target_server_session))
  else if aaa_request.link_type > SessionType.MULTI_SESSION_BEGIN then
    if s.proxy._server_sessions.contains_key (s.proxy.sessions i)._uuid then
      pure (s.answer i s.proxy l false)
    else
      pure (s.go_on i s.proxy (.absent l))
  else
    pure (s.answer i s.proxy l false)

/-- The next step of the strand of session `i`. -/
def step_strand (z : zlib) (stale : recycled) (s : strand_run) (i : session_sptr) :
    Checked strand_run :=
  match s.strand i with
  | .idle => pure s
  | .asking l aaa_request => s.ask i l aaa_request
  | .found l target_server_session =>
    match (s.proxy.sessions target_server_session)._logic with
    | .server_session server_logic => do
      let w ← s.proxy.send_confirm_connect target_server_session server_logic (stale 2)
        (s.proxy.sessions i)._uuid (s.proxy.sessions i).remote_ip
      pure (s.go_on i w (.confirmed l))
    | _ => throw .null_pointer
  | .confirmed l => do
    let w ← s.proxy.move_client_available (s.proxy.sessions i)._uuid
    pure (s.answer i w l true)
  | .absent l => do
    let w ← s.proxy.move_server_available (s.proxy.sessions i)._uuid
    pure (s.answer i w l true)
  | .answered l ec => do
    let w ← default_session_logic.echo_authentication_res z stale s.proxy i l ec
    pure { s.go_on i w .idle with
      response := Function.update s.response i
        ((w.sessions i).written.drop (s.proxy.sessions i).written.length).head? }

def exec (z : zlib) (s : strand_run) : strand_event → Option strand_run
  | .frame i stale head body =>
    match s.strand i, (s.proxy.sessions i)._logic with
    | .idle, .default_session l =>
      (s.receive i l (received_block (stale 0) body) head).toOption
    | _, _ => none
  | .strand i stale => (s.step_strand z stale i).toOption
  | .tick i stale => (s.proxy.tick_alive z stale i).toOption.map fun w => { s with proxy := w }
  | .socket i state =>
    if state = .CONNECTING then none
    else
      some { s with
        proxy := s.proxy.set_session i { s.proxy.sessions i with _state := state } }

/-- Any sessions have been accepted, and nothing has been received or sent. -/
structure Starts (s : strand_run) : Prop where
  idle : ∀ i, s.strand i = .idle
  silent : ∀ i, s.response i = none ∧ (s.proxy.sessions i).written = []
  default_session : ∀ i, ∃ l, (s.proxy.sessions i)._logic = .default_session l
  no_server : s.proxy._server_sessions = SafeHashMap.empty

def system (z : zlib) : System strand_run strand_event := System.ofExec Starts (exec z)

/-! ### A strand that nobody interrupts -/

theorem step_strand_idle {z : zlib} {stale : recycled} {s s' : strand_run} {i : session_sptr}
    (hidle : s.strand i = .idle) (h : s.step_strand z stale i = .ok s') : s' = s := by
  unfold step_strand at h
  rw [hidle] at h
  exact (Except.ok.inj h).symm

/-- After the verdict there is only the response to write. -/
theorem step_strand_answer {z : zlib} {stale : recycled} {s s' : strand_run} {i : session_sptr}
    {w : proxy_manager} {l : default_session_logic} {verified : Bool}
    (h : (s.answer i w l verified).step_strand z stale i = .ok s') :
    s'.strand i = .idle ∧
      default_session_logic.echo_authentication_res z stale (default_session_logic.store_logic w i
        { l with _authentication := (verdict verified).1 }) i
        { l with _authentication := (verdict verified).1 } (verdict verified).2 = .ok s'.proxy := by
  have hstrand : (s.answer i w l verified).strand i =
      .answered { l with _authentication := (verdict verified).1 } (verdict verified).2 :=
    Function.update_self ..
  unfold step_strand at h
  rw [hstrand] at h
  obtain ⟨w', hecho, h⟩ := bind_eq_ok.mp h
  cases h
  exact ⟨Function.update_self .., hecho⟩

/-- From the question to the proxy on. -/
theorem answer_of_strand {z : zlib} {stale : recycled} {s s₂ s₃ s₄ : strand_run}
    {i : session_sptr} {l : default_session_logic} {aaa_request : authentication_aaa_request}
    (htype : aaa_request.link_type ≠ SessionType.CLIENT_PROXY)
    (hasking : s.strand i = .asking l aaa_request)
    (h₁ : s.step_strand z stale i = .ok s₂) (h₂ : s₂.step_strand z stale i = .ok s₃)
    (h₃ : s₃.step_strand z stale i = .ok s₄) :
    (do
      let (verified, target_uid, w) ← default_session_logic.ask_proxy stale s.proxy i aaa_request
      let l := { l with _target_uid := target_uid.getD l._target_uid }
      if verified then
        let l := { l with _authentication := .VERIFY_SUCC }
        default_session_logic.echo_authentication_res z stale
          (default_session_logic.store_logic w i l) i l .EC_Success
      else
        let l := { l with _authentication := .VERIFY_FAILED }
        default_session_logic.echo_authentication_res z stale
          (default_session_logic.store_logic w i l) i l .EC_ServerNotFound) = .ok s₄.proxy := by
  unfold step_strand at h₁
  rw [hasking] at h₁
  simp only at h₁
  unfold ask at h₁
  rw [if_neg htype] at h₁
  unfold default_session_logic.ask_proxy
  by_cases hgt : aaa_request.link_type > SessionType.MULTI_SESSION_BEGIN
  · rw [if_pos hgt] at h₁
    by_cases hmem : (s.proxy.sessions i)._uuid ∈ s.proxy._server_sessions._container
    · rw [if_pos ((SafeHashMap.contains_key_eq_true _ _).mpr hmem)] at h₁
      cases h₁
      obtain ⟨hidle, hecho⟩ := step_strand_answer h₂
      obtain rfl := step_strand_idle hidle h₃
      rw [verify_authentication_duplicate hgt hmem, ok_bind]
      exact hecho
    · rw [if_neg (fun hcontains => hmem ((SafeHashMap.contains_key_eq_true _ _).mp hcontains))]
        at h₁
      cases h₁
      have habsent : (s.go_on i s.proxy (.absent l)).strand i = .absent l :=
        Function.update_self ..
      unfold step_strand at h₂
      rw [habsent] at h₂
      obtain ⟨w', hmove, h₂⟩ := bind_eq_ok.mp h₂
      cases h₂
      obtain ⟨-, hecho⟩ := step_strand_answer h₃
      change s.proxy.move_server_available (s.proxy.sessions i)._uuid = .ok w' at hmove
      rw [verify_authentication_server hgt hmem, hmove, ok_bind, pure_eq_ok, ok_bind]
      exact hecho
  · -- an answer that needs no promotion comes a step earlier
    rw [if_neg hgt] at h₁
    cases h₁
    obtain ⟨hidle, hecho⟩ := step_strand_answer h₂
    obtain rfl := step_strand_idle hidle h₃
    rw [verify_authentication_other htype hgt, ok_bind]
    exact hecho

/-- From the request on. -/
theorem verify_authentication_of_strand {z : zlib} {stale : recycled} {s s₁ s₂ s₃ s₄ : strand_run}
    {i : session_sptr} {w : proxy_manager} {l : default_session_logic} {buffer : once_buffer}
    {cmd : UInt16} {aaa_request : authentication_aaa_request}
    (htype : aaa_request.link_type ≠ SessionType.CLIENT_PROXY)
    (hrequest : authentication_aaa_request.unpack buffer (buffer.buffer 0)
      (UInt16.ofNat buffer.length) = .ok aaa_request)
    (hframe : ((if cmd ≠ protocol_cmd.Commands_AuthenticationAAA.val then
        pure (s.answer i (w.set_logic i (.default_session (l.set_server_info aaa_request)))
          (l.set_server_info aaa_request) false)
      else
        pure (s.go_on i (w.set_logic i (.default_session (l.set_server_info aaa_request)))
          (.asking (l.set_server_info aaa_request) aaa_request))) : Checked strand_run) = .ok s₁)
    (h₁ : s₁.step_strand z stale i = .ok s₂) (h₂ : s₂.step_strand z stale i = .ok s₃)
    (h₃ : s₃.step_strand z stale i = .ok s₄) :
    l.verify_authentication z stale w i buffer cmd = .ok s₄.proxy := by
  rw [default_session_logic.verify_authentication, hrequest, ok_bind]
  simp only
  split at hframe
  · next hcmd =>
    cases hframe
    obtain ⟨hidle, hecho⟩ := step_strand_answer h₁
    obtain rfl := step_strand_idle hidle h₂
    obtain rfl := step_strand_idle hidle h₃
    rw [if_pos hcmd]
    exact hecho
  · next hcmd =>
    cases hframe
    rw [if_neg hcmd]
    exact answer_of_strand htype (Function.update_self ..) h₁ h₂ h₃

/-- The steps of a strand, one after the other, are what `on_frame` does, as long as no
    handler runs. -/
theorem on_frame_of_strand {z : zlib} {stale : recycled} {s s₁ s₂ s₃ s₄ : strand_run}
    {i : session_sptr} {head : protocol_head} {body : List UInt8} {l : default_session_logic}
    (hl : (s.proxy.sessions i)._logic = .default_session l)
    (hserver : ∀ aaa_request, authentication_aaa_request.unpack (received_block (stale 0) body)
      ((received_block (stale 0) body).buffer 0)
      (UInt16.ofNat (received_block (stale 0) body).length) = .ok aaa_request →
      aaa_request.link_type ≠ SessionType.CLIENT_PROXY)
    (hframe : s.receive i l (received_block (stale 0) body) head = .ok s₁)
    (h₁ : s₁.step_strand z (fun n => stale (n + 2)) i = .ok s₂)
    (h₂ : s₂.step_strand z (fun n => stale (n + 2)) i = .ok s₃)
    (h₃ : s₃.step_strand z (fun n => stale (n + 2)) i = .ok s₄) :
    s.proxy.on_frame z stale i head body = .ok s₄.proxy := by
  -- once the strand is idle the remaining steps do nothing
  have hend : ∀ w, s₁ = s.go_on i w .idle → s₄.proxy = w := by
    intro w hw
    have hidle : s₁.strand i = .idle := by
      rw [hw]
      exact Function.update_self ..
    obtain rfl := step_strand_idle hidle h₁
    obtain rfl := step_strand_idle hidle h₂
    obtain rfl := step_strand_idle hidle h₃
    rw [hw]
    rfl
  have hdefault : ∀ r, default_session_logic.unwrap_received_data z (fun n => stale (n + 2))
      s.proxy i l (received_block (stale 0) body) head
      { TEMP_BUFFER (stale 1) with offset := (s.proxy.sessions i)._logic.prefix_size } = .ok r →
      r.accepted = false → s.proxy.on_frame z stale i head body = .ok r.state := by
    intro r hr haccepted
    rw [on_frame_eq]
    unfold proxy_manager.unwrap_received_data
    simp only [hl] at hr ⊢
    rw [hr, ok_bind, if_pos haccepted]
    rfl
  unfold default_session_logic.unwrap_received_data at hdefault
  unfold receive at hframe
  simp only at hframe hdefault
  split at hframe
  · next hseq =>
    rw [if_pos hseq] at hdefault
    rw [hdefault _ rfl rfl, hend _ (Except.ok.inj hframe).symm]
  next hseq =>
  rw [if_neg hseq] at hdefault
  obtain ⟨data, hdata, hframe⟩ := bind_eq_ok.mp hframe
  rw [hdata] at hdefault
  simp only [ok_bind] at hdefault
  split at hframe
  · next hmask =>
    rw [if_pos hmask] at hdefault
    rw [hdefault _ rfl rfl, hend _ (Except.ok.inj hframe).symm]
  next hmask =>
  rw [if_neg hmask] at hdefault
  split at hframe
  · next hbefore =>
    rw [if_pos hbefore] at hdefault
    obtain ⟨aaa_request, hrequest, hframe⟩ := bind_eq_ok.mp hframe
    have hverify := verify_authentication_of_strand (hserver aaa_request hrequest) hrequest hframe
      h₁ h₂ h₃
    rw [hverify] at hdefault
    exact hdefault _ rfl rfl
  · next hbefore =>
    rw [if_neg hbefore] at hdefault
    rw [hdefault _ rfl rfl, hend _ (Except.ok.inj hframe).symm]

end strand_run

end AsioNet
