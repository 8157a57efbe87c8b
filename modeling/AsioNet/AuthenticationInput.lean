import AsioNet.Promotion

/-! # What authentication reads

    The buffer in which a session gets a frame comes from the pool, and behind the
    frame's body it still holds what was there before. `authentication_aaa_request::unpack`
    takes the length of the platform's name to be the body's length minus eight, as a
    `uint16_t`, and compares it with nothing. For a shorter body the name goes
    through the whole buffer, or past its end: `frame_only_iff`.
-/

namespace AsioNet

open ByteMemory reusabel_buffer proto_mask proxy_manager

/-! ### The bytes a request is read from -/

/-- What `unpack` loads of a body of `length` bytes, as positions and sizes. -/
def authentication_aaa_request.regions (length : UInt16) : List (Nat × Nat) :=
  [(0, 2), (2, 2), (4, 1), (5, (length - 8).toNat + 1)]

/-- Two buffers that agree there hold the same request. -/
theorem authentication_aaa_request.unpack_congr {b b' : once_buffer} {length : UInt16}
    (h : ∀ region ∈ regions length, b.load region.1 region.2 = b'.load region.1 region.2) :
    unpack b 0 length = unpack b' 0 length := by
  have harea := h (0, 2) (by simp [regions])
  have hserver := h (2, 2) (by simp [regions])
  have hlink := h (4, 1) (by simp [regions])
  have hplatform := h (5, (length - 8).toNat + 1) (by simp [regions])
  simp only [unpack, Nat.zero_add, harea, hserver, hlink, hplatform]

/-- The name's length is no less than its difference with eight only from eight on. -/
theorem authentication_aaa_request.inside_iff {n : Nat} (hn : n ≤ 65525) :
    (∀ region ∈ regions (UInt16.ofNat n), region.1 + region.2 ≤ n) ↔ 8 ≤ n := by
  have hlen : (UInt16.ofNat n - 8).toNat = (n + 65536 - 8) % 65536 := by
    rw [UInt16.toNat_sub, UInt16.toNat_ofNat', Nat.mod_eq_of_lt (show n < 2 ^ 16 by omega)]
    show (2 ^ 16 - 8 + n) % 2 ^ 16 = _
    omega
  constructor
  · intro h
    have hplatform := h (5, (UInt16.ofNat n - 8).toNat + 1) (by simp [regions])
    simp only [hlen] at hplatform
    omega
  · intro h region hregion
    simp only [regions, hlen, List.mem_cons, List.not_mem_nil, or_false] at hregion
    rcases hregion with rfl | rfl | rfl | rfl <;> simp only <;> omega

/-- A region inside the body is the same whatever is behind it. -/
theorem load_inside (stale : Nat → UInt8) {body : List UInt8} {pos n : Nat}
    (h : pos + n ≤ body.length) (hbody : body.length ≤ ONCE_BUFFER_SIZE) :
    (received_block stale body).load pos n = .ok ((body.drop pos).take n) := by
  have hread : read (received_block stale body)._buffer 0 body.length = body :=
    read_write_of_length stale 0 _ _ rfl
  rw [load_of_le _ (by omega), ← read_part hread h, Nat.zero_add]

namespace default_session_logic

variable (z : zlib) (stale : recycled) (w : proxy_manager) (i : session_sptr)
  (l : default_session_logic)

/-! ### The outcome of a frame -/

/-- What processing the frame in `buffer` comes to: the verdict, and the proxy with its
    tables and the session's logic, where server info and target are. -/
def outcome (head : protocol_head) (ret_block buffer : once_buffer) :
    Checked (Bool × proxy_manager) := do
  let r ← l.unwrap_received_data z stale w i buffer head ret_block
  pure (r.accepted, r.state)

/-- The frame gets to `verify_authentication`. -/
def Authenticates (head : protocol_head) (body : List UInt8) : Prop :=
  head.seq = l._seq + 1 ∧ get_mask head.bytes body = 0 ∧ l._authentication = .BEFORE_VERIFY

instance (head : protocol_head) (body : List UInt8) : Decidable (l.Authenticates head body) :=
  inferInstanceAs (Decidable (_ ∧ _ ∧ _))

/-- The regions of the buffer that are read. -/
def regions_read (head : protocol_head) (body : List UInt8) : List (Nat × Nat) :=
  (0, head.len.toNat) :: if l.Authenticates head body then
    authentication_aaa_request.regions (UInt16.ofNat body.length) else []

variable {z stale w i l}

theorem verify_authentication_congr (b b' : once_buffer) (cmd : UInt16)
    (h : authentication_aaa_request.unpack b (b.buffer 0) (UInt16.ofNat b.length) =
      authentication_aaa_request.unpack b' (b'.buffer 0) (UInt16.ofNat b'.length)) :
    l.verify_authentication z stale w i b cmd = l.verify_authentication z stale w i b' cmd := by
  unfold verify_authentication
  rw [h]

/-- **Only these**: two buffers that agree on them have the same outcome. -/
theorem outcome_congr {head : protocol_head} {body : List UInt8} {ret_block b b' : once_buffer}
    (hoff : b.offset = 0) (hoff' : b'.offset = 0) (hlen : b.length = body.length)
    (hlen' : b'.length = body.length) (hbody : b.load 0 head.len.toNat = .ok body)
    (h : ∀ region ∈ l.regions_read head body,
      b.load region.1 region.2 = b'.load region.1 region.2) :
    l.outcome z stale w i head ret_block b = l.outcome z stale w i head ret_block b' := by
  have hzero : b.buffer 0 = 0 := buffer_zero_of_eq hoff (Nat.zero_le _)
  have hzero' : b'.buffer 0 = 0 := buffer_zero_of_eq hoff' (Nat.zero_le _)
  have hbody' : b'.load 0 head.len.toNat = .ok body := by
    rw [← h (0, head.len.toNat) List.mem_cons_self]
    exact hbody
  unfold outcome
  simp only [unwrap_received_data, hzero, hzero', hbody, hbody', ok_bind]
  -- the two buffers themselves are not part of the outcome
  split
  · rfl
  · next hseq =>
    split
    · rfl
    · next hmask =>
      split
      · next hauth =>
        have hreaches : l.Authenticates head body := ⟨of_not_not hseq, (of_not_not hmask).symm, hauth⟩
        have hrequest : authentication_aaa_request.unpack b 0 (UInt16.ofNat body.length) =
            authentication_aaa_request.unpack b' 0 (UInt16.ofNat body.length) := by
          apply authentication_aaa_request.unpack_congr
          intro region hregion
          apply h
          rw [regions_read, if_pos hreaches]
          exact List.mem_cons_of_mem _ hregion
        rw [verify_authentication_congr b b' head.get_cmd
          (by rw [hzero, hzero', hlen, hlen', hrequest])]
        generalize verify_authentication z stale _ i _ b' head.get_cmd = verified
        cases verified with
        | ok w' => rfl
        | error e => rfl
      · rfl

variable (z stale w i l)

/-- **Authentication depends only on the frame.** Whatever the buffer held before, the
    outcome is the same, and only bytes of the body are read. -/
structure FrameOnly (head : protocol_head) (body : List UInt8) (ret_block : once_buffer) :
    Prop where
  same_outcome : ∀ held₁ held₂ : Nat → UInt8,
    l.outcome z stale w i head ret_block (received_block held₁ body) =
      l.outcome z stale w i head ret_block (received_block held₂ body)
  inside : ∀ region ∈ l.regions_read head body, region.1 + region.2 ≤ body.length

/-- Authentication depends only on the frame exactly if the request, when it is looked
    at, has its eight fixed bytes. -/
theorem frame_only_iff (head : protocol_head) (body : List UInt8) (ret_block : once_buffer)
    (hbody : body.length ≤ 65525) (hlen : head.len.toNat = body.length) :
    l.FrameOnly z stale w i head body ret_block ↔
      (l.Authenticates head body → 8 ≤ body.length) := by
  have hfit : body.length ≤ ONCE_BUFFER_SIZE := Nat.le_trans hbody (by decide)
  constructor
  · intro h hreaches
    refine (authentication_aaa_request.inside_iff hbody).mp ?_
    intro region hregion
    apply h.inside
    rw [regions_read, if_pos hreaches]
    exact List.mem_cons_of_mem _ hregion
  · intro h
    have hinside : ∀ region ∈ l.regions_read head body, region.1 + region.2 ≤ body.length := by
      intro region hregion
      rw [regions_read, List.mem_cons] at hregion
      rcases hregion with rfl | hregion
      · show 0 + head.len.toNat ≤ _
        omega
      · split at hregion
        · next hreaches =>
          exact (authentication_aaa_request.inside_iff hbody).mpr (h hreaches) region hregion
        · cases hregion
    refine ⟨?_, hinside⟩
    intro held₁ held₂
    have hlength : ∀ held, (received_block held body).length = body.length := fun _ => rfl
    apply outcome_congr rfl rfl (hlength held₁) (hlength held₂)
    · rw [hlen]
      exact load_received_block held₁ hfit
    · intro region hregion
      rw [load_inside held₁ (hinside region hregion) hfit,
        load_inside held₂ (hinside region hregion) hfit]

/-! ### Short requests -/

variable {z stale w i l}

/-- With fewer than three bytes it is what the buffer held. -/
theorem unpack_of_tiny (held : Nat → UInt8) {body : List UInt8} (hlt : body.length < 3) :
    ∃ request, authentication_aaa_request.unpack (received_block held body) 0
        (UInt16.ofNat body.length) = .ok request ∧
      request.link_type = held 4 ∧ request.platform.head? = some (held 5) := by
  have hsize : ONCE_BUFFER_SIZE = 65536 := rfl
  have hlen : (UInt16.ofNat body.length - 8).toNat = 65536 + body.length - 8 := by
    rw [UInt16.toNat_sub, UInt16.toNat_ofNat',
      Nat.mod_eq_of_lt (show body.length < 2 ^ 16 by omega)]
    show (2 ^ 16 - 8 + body.length) % 2 ^ 16 = _
    omega
  have hheld : ∀ a, body.length ≤ a → (received_block held body)._buffer a = held a :=
    fun a ha => write_apply_of_ge held 0 a body (by omega)
  unfold authentication_aaa_request.unpack
  simp only [hlen]
  rw [load_of_le _ (by omega), ok_bind, load_of_le _ (by omega), ok_bind, load_of_le _ (by omega),
    ok_bind, load_of_le _ (by omega), ok_bind, pure_eq_ok]
  refine ⟨_, rfl, ?_, ?_⟩
  · exact hheld 4 (by omega)
  · show (read (received_block held body)._buffer 5 _).head? = _
    rw [List.head?_eq_getElem?, List.getElem?_eq_getElem (by rw [length_read]; omega),
      getElem_read, Nat.add_zero, hheld 5 (by omega)]

/-- The answer leaves the logic that gives it in place. -/
theorem logic_of_echo (z : zlib) (stale : recycled) {w : proxy_manager} {i : session_sptr}
    {l₀ : default_session_logic} (l : default_session_logic) (ec : TransferError)
    (hlogic : (w.sessions i)._logic = .default_session l₀) :
    ∃ w', l.echo_authentication_res z stale (store_logic w i l) i ec = .ok w' ∧
      (w'.sessions i)._logic = .default_session l := by
  have hlogic' : ((w.set_logic i (.default_session l)).sessions i)._logic = .default_session l := by
    rw [sessions_set_logic_self]
    rfl
  rw [store_logic_of_default l hlogic]
  by_cases hstate : ((w.set_logic i (.default_session l)).sessions i)._state = .CONNECTING
  · obtain ⟨b, -, -, -, hecho⟩ := echo_to_default_session z stale l ec hstate hlogic'
    refine ⟨_, hecho, ?_⟩
    rw [sessions_set_session_self, basic_async_session.logic_async_write_some, hlogic']
  · exact ⟨_, echo_to_not_connecting z stale l ec hstate, hlogic'⟩

/-- A request for a link that does not exist is refused, and its platform is kept. -/
theorem verify_authentication_of_no_link (z : zlib) (stale : recycled) (w : proxy_manager)
    (i : session_sptr) (l : default_session_logic) {b : once_buffer} (cmd : UInt16)
    {request : authentication_aaa_request}
    (hrequest : authentication_aaa_request.unpack b (b.buffer 0) (UInt16.ofNat b.length) =
      .ok request) (hlink : request.link_type = 0) :
    ∃ w' l', l.verify_authentication z stale w i b cmd = .ok w' ∧
      (w'.sessions i)._logic = .default_session l' ∧
      l'._server_info.platform_ = request.platform := by
  generalize hl : ({ l.set_server_info request with _authentication := .VERIFY_FAILED } :
    default_session_logic) = refused
  generalize hw : w.set_logic i (.default_session (l.set_server_info request)) = asked
  have hlogic : (asked.sessions i)._logic = .default_session (l.set_server_info request) := by
    rw [← hw, sessions_set_logic_self]
    rfl
  obtain ⟨w', hecho, hlogic'⟩ := logic_of_echo z stale refused .EC_ServerNotFound hlogic
  refine ⟨w', refused, ?_, hlogic', by rw [← hl]; rfl⟩
  -- the proxy says no, if it is asked at all
  have hanswer : ask_proxy stale asked i request = .ok (false, none, asked) := by
    unfold ask_proxy
    rw [hlink]
    exact verify_authentication_other (by decide) (by decide) ..
  rw [verify_authentication, hrequest, ok_bind]
  simp only [hw, hanswer]
  split
  · rw [pure_eq_ok, ok_bind]
    simp only [Option.getD_none, Bool.false_eq_true, if_false, hl]
    exact hecho
  · rw [ok_bind]
    simp only [Option.getD_none, Bool.false_eq_true, if_false, hl]
    exact hecho

/-- With fewer than three bytes the outcome shows what the buffer held. -/
theorem outcome_of_tiny (z : zlib) (stale : recycled) (w : proxy_manager) (i : session_sptr)
    {head : protocol_head} {body : List UInt8} (ret_block : once_buffer)
    (hreaches : l.Authenticates head body) (hlen : head.len.toNat = body.length)
    (hlt : body.length < 3) (held : Nat → UInt8) (hlink : held 4 = 0) :
    ∃ w' l', l.outcome z stale w i head ret_block (received_block held body) = .ok (false, w') ∧
      (w'.sessions i)._logic = .default_session l' ∧
      l'._server_info.platform_.head? = some (held 5) := by
  obtain ⟨hseq, hmask, hauth⟩ := hreaches
  have hsize : ONCE_BUFFER_SIZE = 65536 := rfl
  obtain ⟨request, hrequest, hlink', hplatform⟩ := unpack_of_tiny held hlt
  obtain ⟨w', l', hverify, hlogic, hplatform'⟩ :=
    verify_authentication_of_no_link z stale
      (w.set_logic i (.default_session { l with _seq := l._seq + 1 })) i
      { l with _seq := l._seq + 1 } (b := received_block held body) head.get_cmd hrequest
      (hlink'.trans hlink)
  refine ⟨w', l', ?_, hlogic, by rw [hplatform', hplatform]⟩
  have hload : (received_block held body).load 0 head.len.toNat = .ok body := by
    rw [hlen]
    exact load_received_block held (by omega)
  unfold outcome
  simp only [unwrap_received_data, received_block_buffer, hload, ok_bind, hseq, hmask,
    ne_eq, not_true_eq_false, if_false]
  rw [if_pos hauth, hverify]
  rfl

/-- So it is not the same for all. -/
theorem not_same_outcome_of_tiny {head : protocol_head} {body : List UInt8}
    {ret_block : once_buffer} (hreaches : l.Authenticates head body)
    (hlen : head.len.toNat = body.length) (hlt : body.length < 3) :
    ¬ ∀ held₁ held₂ : Nat → UInt8,
      l.outcome z stale w i head ret_block (received_block held₁ body) =
        l.outcome z stale w i head ret_block (received_block held₂ body) := by
  intro hsame
  obtain ⟨w₁, l₁, houtcome₁, hlogic₁, hplatform₁⟩ := outcome_of_tiny z stale w i
    ret_block hreaches hlen hlt (fun _ => 0) rfl
  obtain ⟨w₂, l₂, houtcome₂, hlogic₂, hplatform₂⟩ := outcome_of_tiny z stale w i
    ret_block hreaches hlen hlt (fun a => if a = 5 then 1 else 0) rfl
  have heq := hsame (fun _ => 0) fun a => if a = 5 then 1 else 0
  rw [houtcome₁, houtcome₂] at heq
  cases heq
  rw [hlogic₁] at hlogic₂
  cases hlogic₂
  rw [hplatform₁] at hplatform₂
  exact absurd hplatform₂ (by decide)

/-- The logic of a session that was just accepted. -/
def just_accepted : default_session_logic := reset rc4_info.of_zero_rand ⟨0, 0, [], 0⟩

/-- The head of its first frame, signed over `body`. -/
def first_head (body : List UInt8) : protocol_head :=
  masked_head (protocol_head.get_a_head FRAME_KEY (UInt16.ofNat body.length) 0
    protocol_cmd.Commands_AuthenticationAAA.val false 1) body

theorem authenticates_first_head {body : List UInt8} (hbody : body.length ≤ 65536) :
    just_accepted.Authenticates (first_head body) body :=
  ⟨rfl, get_mask_masked_head _ _ rfl hbody, rfl⟩

/-- A request with an empty platform. -/
theorem frame_only_eight_bytes :
    just_accepted.FrameOnly zlib.stored (fun _ _ => 0)
      (proxy_manager.initial fun _ => rc4_info.of_zero_rand) 0
      (first_head [0, 1, 0, 2, 9, 0, 0, 0]) [0, 1, 0, 2, 9, 0, 0, 0] (TEMP_BUFFER fun _ => 0) :=
  (frame_only_iff _ _ _ _ _ _ _ _ (by decide) rfl).mpr fun _ => by decide

/-- An empty one is filled up from the buffer. -/
theorem not_always_frame_only :
    ¬ ∀ z stale w i (l : default_session_logic) head (body : List UInt8) ret_block,
      body.length ≤ 65525 → head.len.toNat = body.length →
      l.FrameOnly z stale w i head body ret_block := by
  intro hall
  have hframe := hall zlib.stored (fun _ _ => 0)
    (proxy_manager.initial fun _ => rc4_info.of_zero_rand) 0 just_accepted (first_head []) []
    (TEMP_BUFFER fun _ => 0) (by decide) rfl
  exact not_same_outcome_of_tiny (authenticates_first_head (by decide)) rfl (by decide)
    hframe.same_outcome

end default_session_logic

end AsioNet
