import AsioNet.BroadcastRelay
import AsioNet.Promotion

/-! # What a send shows of its buffer

    A session's frame is made of the content of the buffer it is given: two buffers
    with the same content are sent alike, whatever lies around it. A send runs
    through, ends in an assertion, or leaves an array; it is silent if there is no
    connected session to send to.
-/

namespace AsioNet

open ByteMemory reusabel_buffer proto_mask proxy_manager

/-! ### Buffers with the same content -/

/-- The same content in the same place; whatever lies around it. -/
structure reusabel_buffer.SameContent {SIZE : Nat} (b b' : reusabel_buffer SIZE) : Prop where
  offset : b.offset = b'.offset
  length : b.length = b'.length
  content : b.content = b'.content

/-- Both calls return a buffer that lies inside its array, with the same bytes to write. -/
def SameRegions (x x' : Checked once_buffer) : Prop :=
  ∃ b b', x = .ok b ∧ x' = .ok b' ∧ b.content = b'.content ∧
    b.offset + b.length ≤ ONCE_BUFFER_SIZE ∧ b'.offset + b'.length ≤ ONCE_BUFFER_SIZE

/-- The call runs through, or an assertion ends it. -/
def Determined {α : Type} (x : Checked α) : Prop := ∀ e, x = .error e → e = .assertion_failed

theorem determined_ok {α : Type} (a : α) : Determined (.ok a) := nofun

theorem not_determined_out_of_bounds {α : Type} :
    ¬ Determined (.error .out_of_bounds : Checked α) :=
  fun h => absurd (h _ rfl) (by decide)

theorem determined_assertion_failed {α : Type} :
    Determined (.error .assertion_failed : Checked α) :=
  fun _ h => (Except.error.inj h).symm

theorem determined_map_iff {α β : Type} (x : Checked α) (f : α → β) :
    Determined (x.map f) ↔ Determined x := by
  cases x with
  | ok a => exact iff_of_true (determined_ok _) (determined_ok _)
  | error e =>
    constructor
    · rintro h e' ⟨⟩
      exact h e rfl
    · rintro h e' ⟨⟩
      exact h e rfl

/-- What `deflate` makes of more than 64 bytes fits a buffer. -/
def client_session_logic.DeflateFits (z : zlib) (bytes : List UInt8) : Prop :=
  bytes.length ≤ K_SIZE_COMPRESS ∨ ∀ s, z.deflate bytes = some s → s.length ≤ ONCE_BUFFER_SIZE

/-- Of the same content a logic makes the same bytes for the wire, or an assertion fails, or
    it leaves the buffer. -/
theorem client_session_logic.wrap_of_same (z : zlib) (l : client_session_logic)
    {msg msg' : once_buffer} (h : msg.SameContent msg') (hoff : msg.offset = PROTO_HEAD_SIZE)
    (hfit : PROTO_HEAD_SIZE + msg.length ≤ ONCE_BUFFER_SIZE) (stale stale' : Nat → UInt8) :
    (¬ DeflateFits z msg.content ∧ l.wrap_to_send_data z stale msg = .error .out_of_bounds ∧
        l.wrap_to_send_data z stale' msg' = .error .out_of_bounds) ∨
      (DeflateFits z msg.content ∧ l.wrap_to_send_data z stale msg = .error .assertion_failed ∧
        l.wrap_to_send_data z stale' msg' = .error .assertion_failed) ∨
      (DeflateFits z msg.content ∧
        SameRegions (l.wrap_to_send_data z stale msg) (l.wrap_to_send_data z stale' msg')) := by
  have hcontent_len : msg.content.length = msg.length := length_read ..
  have hoff' : msg'.offset = PROTO_HEAD_SIZE := h.offset.symm.trans hoff
  have hfit' : PROTO_HEAD_SIZE + msg'.length ≤ ONCE_BUFFER_SIZE := by
    rw [← h.length]
    exact hfit
  -- not compressed
  have hplain (hp : compress_to_send z stale msg = .ok (some (msg, false)))
      (hp' : compress_to_send z stale' msg' = .ok (some (msg', false))) :
      SameRegions (l.wrap_to_send_data z stale msg) (l.wrap_to_send_data z stale' msg') := by
    obtain ⟨b, hb, hb_off, hb_len, hb_content⟩ := l.wrap_to_send_data_plain hoff hfit hp
    obtain ⟨b', hb', hb'_off, hb'_len, hb'_content⟩ := l.wrap_to_send_data_plain hoff' hfit' hp'
    refine ⟨b, b', hb, hb', ?_, by omega, by omega⟩
    rw [hb_content, hb'_content, h.content, h.length]
  by_cases hsmall : msg.length ≤ K_SIZE_COMPRESS
  · right; right
    exact ⟨Or.inl (hcontent_len ▸ hsmall), hplain (compress_to_send_small z stale hsmall)
      (compress_to_send_small z stale' (h.length ▸ hsmall))⟩
  · have hlarge : K_SIZE_COMPRESS < msg.length := Nat.not_le.mp hsmall
    have hlarge' : K_SIZE_COMPRESS < msg'.length := h.length ▸ hlarge
    -- an early return hands the buffer on as it is
    have hearly (hn : compress_to_send z stale msg = .ok none)
        (hn' : compress_to_send z stale' msg' = .ok none) :
        SameRegions (l.wrap_to_send_data z stale msg) (l.wrap_to_send_data z stale' msg') :=
      ⟨msg, msg', l.wrap_to_send_data_of_none hn, l.wrap_to_send_data_of_none hn', h.content,
        by omega, by omega⟩
    rcases hs : z.deflate msg.content with _ | s
    · right; right
      refine ⟨Or.inr ?_, hearly (compress_to_send_throws stale hlarge (by omega) hs)
        (compress_to_send_throws stale' hlarge' (by omega) (h.content ▸ hs))⟩
      rw [hs]
      exact nofun
    · have hc := compress_to_send_large stale hlarge (by omega) hs
      have hc' := compress_to_send_large stale' hlarge' (by omega) (h.content ▸ hs)
      rw [← h.length] at hc'
      by_cases hover : ONCE_BUFFER_SIZE < s.length
      · left
        rw [if_pos hover] at hc hc'
        refine ⟨?_, ?_, ?_⟩
        · intro hfits
          rcases hfits with hle | hall
          · omega
          · exact absurd (hall s hs) (Nat.not_le.mpr hover)
        · rw [wrap_to_send_data, hc, error_bind]
        · rw [wrap_to_send_data, hc', error_bind]
      · right
        have hs_fit : s.length ≤ ONCE_BUFFER_SIZE := Nat.not_lt.mp hover
        have hfits : DeflateFits z msg.content := by
          refine Or.inr ?_
          intro s' hs'
          rw [hs] at hs'
          cases hs'
          exact hs_fit
        rw [if_neg hover] at hc hc'
        by_cases hempty : s.length = 0
        · right
          rw [if_pos hempty] at hc hc'
          exact ⟨hfits, hearly hc hc'⟩
        · rw [if_neg hempty] at hc hc'
          by_cases hsmaller : s.length < msg.length
          · left
            rw [if_pos hsmaller] at hc hc'
            exact ⟨hfits, l.wrap_to_send_data_compressed rfl hs_fit hc,
              l.wrap_to_send_data_compressed rfl hs_fit hc'⟩
          · right
            rw [if_neg hsmaller] at hc hc'
            exact ⟨hfits, hplain hc hc'⟩

/-- Only a client's logic compresses. -/
def session_logic.compresses : session_logic → Bool
  | .client_session _ => true
  | _ => false

namespace proxy_manager

theorem async_send_to_client_session_wrapped {z : zlib} {stale : Nat → UInt8} {w : proxy_manager}
    {i : session_sptr} {l : client_session_logic} {msg b : once_buffer}
    (hstate : (w.sessions i)._state = .CONNECTING)
    (hlogic : (w.sessions i)._logic = .client_session l)
    (hwrap : l.wrap_to_send_data z stale msg = .ok b)
    (hfit : b.offset + b.length ≤ ONCE_BUFFER_SIZE) :
    w.async_send z stale i msg =
      .ok (w.set_session i ((w.sessions i).async_write_some b.content)) := by
  have hwrap' : session_logic.wrap_to_send_data z stale (w.sessions i)._logic msg =
      .ok ((w.sessions i)._logic, b) := by
    rw [hlogic]
    simp only [session_logic.wrap_to_send_data, hwrap, ok_bind, pure_eq_ok]
  exact async_send_of_wrap hstate hwrap' hfit

/-- **Sending** depends on the content of the message alone. -/
theorem async_send_of_same (z : zlib) (w : proxy_manager) (i : session_sptr)
    {msg msg' : once_buffer} (h : msg.SameContent msg') (hoff : msg.offset = PROTO_HEAD_SIZE)
    (hfit : PROTO_HEAD_SIZE + msg.length ≤ ONCE_BUFFER_SIZE) (stale stale' : Nat → UInt8) :
    w.async_send z stale i msg = w.async_send z stale' i msg' := by
  have hoff' : msg'.offset = PROTO_HEAD_SIZE := h.offset.symm.trans hoff
  have hfit' : PROTO_HEAD_SIZE + msg'.length ≤ ONCE_BUFFER_SIZE := by
    rw [← h.length]
    exact hfit
  by_cases hstate : (w.sessions i)._state = .CONNECTING
  · rcases hlogic : (w.sessions i)._logic with l | l | l
    · rw [async_send_to_default_session z stale hstate hlogic hoff hfit,
        async_send_to_default_session z stale' hstate hlogic hoff' hfit', h.content, h.length]
    · rcases client_session_logic.wrap_of_same z l h hoff hfit stale stale' with
        ⟨-, he, he'⟩ | ⟨-, he, he'⟩ | ⟨-, b, b', hb, hb', hcontent, hb_fit, hb'_fit⟩
      · rw [async_send_to_client_session_fault hstate hlogic he,
          async_send_to_client_session_fault hstate hlogic he']
      · rw [async_send_to_client_session_fault hstate hlogic he,
          async_send_to_client_session_fault hstate hlogic he']
      · rw [async_send_to_client_session_wrapped hstate hlogic hb hb_fit,
          async_send_to_client_session_wrapped hstate hlogic hb' hb'_fit, hcontent]
    · rw [async_send_to_server_session z stale hstate hlogic hoff hfit,
        async_send_to_server_session z stale' hstate hlogic hoff' hfit', h.content, h.length]
  · rw [async_send_of_not_connecting z stale hstate, async_send_of_not_connecting z stale' hstate]

/-- Sending the bytes to session `i` stays inside the buffers. -/
def SendFits (z : zlib) (w : proxy_manager) (i : session_sptr) (bytes : List UInt8) : Prop :=
  (w.sessions i)._state = .CONNECTING → (w.sessions i)._logic.compresses = true →
    client_session_logic.DeflateFits z bytes

theorem sendFits_set_logic {z : zlib} {w : proxy_manager} {i : session_sptr}
    {logic : session_logic} (h : logic.compresses = (w.sessions i)._logic.compresses)
    (s : session_sptr) (bytes : List UInt8) :
    (w.set_logic i logic).SendFits z s bytes ↔ w.SendFits z s bytes := by
  unfold SendFits
  by_cases hs : s = i
  · subst hs
    rw [sessions_set_logic_self, basic_async_session.state_modify_session_logic,
      basic_async_session.logic_modify_session_logic, h]
  · rw [sessions_set_logic_ne hs]

/-- Sending runs through, or ends in the assertion about compressed data. -/
theorem determined_async_send_iff (z : zlib) (stale : Nat → UInt8) (w : proxy_manager)
    (i : session_sptr) {msg : once_buffer} (hoff : msg.offset = PROTO_HEAD_SIZE)
    (hfit : PROTO_HEAD_SIZE + msg.length ≤ ONCE_BUFFER_SIZE) :
    Determined (w.async_send z stale i msg) ↔ w.SendFits z i msg.content := by
  unfold SendFits
  by_cases hstate : (w.sessions i)._state = .CONNECTING
  · rcases hlogic : (w.sessions i)._logic with l | l | l
    · rw [async_send_to_default_session z stale hstate hlogic hoff hfit]
      exact iff_of_true (determined_ok _) (fun _ h => absurd h nofun)
    · have hself : msg.SameContent msg := ⟨rfl, rfl, rfl⟩
      rcases client_session_logic.wrap_of_same z l hself hoff hfit stale stale with
        ⟨hfits, he, -⟩ | ⟨hfits, he, -⟩ | ⟨hfits, b, -, hb, -, -, hb_fit, -⟩
      · rw [async_send_to_client_session_fault hstate hlogic he]
        exact iff_of_false not_determined_out_of_bounds (fun h => hfits (h hstate rfl))
      · rw [async_send_to_client_session_fault hstate hlogic he]
        exact iff_of_true determined_assertion_failed (fun _ _ => hfits)
      · rw [async_send_to_client_session_wrapped hstate hlogic hb hb_fit]
        exact iff_of_true (determined_ok _) (fun _ _ => hfits)
    · rw [async_send_to_server_session z stale hstate hlogic hoff hfit]
      exact iff_of_true (determined_ok _) (fun _ h => absurd h nofun)
  · rw [async_send_of_not_connecting z stale hstate]
    exact iff_of_true (determined_ok _) (fun h => absurd h hstate)

/-- So does sending to the session that a table binds to a uid. -/
def SendToFits (z : zlib) (w : proxy_manager) (table : SafeHashMap session_uid session_sptr)
    (target : session_uid) (bytes : List UInt8) : Prop :=
  ∀ s, table.try_get target = some s → w.SendFits z s bytes

theorem determined_send_to_iff (table : SafeHashMap session_uid session_sptr) (z : zlib)
    (stale : Nat → UInt8) (w : proxy_manager) (target : session_uid) {msg : once_buffer}
    (hoff : msg.offset = PROTO_HEAD_SIZE)
    (hfit : PROTO_HEAD_SIZE + msg.length ≤ ONCE_BUFFER_SIZE) :
    Determined (send_to table z stale w target msg) ↔
      w.SendToFits z table target msg.content := by
  unfold send_to SendToFits
  cases table.try_get target with
  | none => exact iff_of_true (determined_ok _) (fun _ => nofun)
  | some s =>
    refine (determined_async_send_iff z stale w s hoff hfit).trans ?_
    constructor
    · rintro h s' ⟨⟩
      exact h
    · intro h
      exact h s rfl

theorem sendToFits_set_logic {z : zlib} {w : proxy_manager} {i : session_sptr}
    {logic : session_logic} (h : logic.compresses = (w.sessions i)._logic.compresses)
    (table : SafeHashMap session_uid session_sptr) (target : session_uid) (bytes : List UInt8) :
    (w.set_logic i logic).SendToFits z table target bytes ↔
      w.SendToFits z table target bytes :=
  forall_congr' fun s => imp_congr_right fun _ => sendFits_set_logic h s bytes

/-- No connected session is bound to the uid. -/
def Unconnected (w : proxy_manager) (table : SafeHashMap session_uid session_sptr)
    (uid : session_uid) : Prop :=
  ∀ s, table.try_get uid = some s → (w.sessions s)._state ≠ .CONNECTING

theorem send_to_of_same (table : SafeHashMap session_uid session_sptr) (z : zlib)
    (w : proxy_manager) (target : session_uid) {msg msg' : once_buffer} (h : msg.SameContent msg')
    (hoff : msg.offset = PROTO_HEAD_SIZE)
    (hfit : PROTO_HEAD_SIZE + msg.length ≤ ONCE_BUFFER_SIZE) (stale stale' : Nat → UInt8) :
    send_to table z stale w target msg = send_to table z stale' w target msg' := by
  unfold send_to
  cases table.try_get target with
  | none => rfl
  | some s => exact async_send_of_same z w s h hoff hfit stale stale'

/-- A write of two regions is made if the uid is bound to a connected session. -/
theorem send_to_multi_cases (table : SafeHashMap session_uid session_sptr) (w : proxy_manager)
    (target : session_uid) {head : tiny_buffer} {msg : once_buffer}
    (hhead : head.offset + head.length ≤ TINY_ONCE_BUFFER_SIZE)
    (hmsg : msg.offset + msg.length ≤ ONCE_BUFFER_SIZE) :
    (w.Unconnected table target ∧ send_to_multi table w target head msg = .ok w) ∨
    (¬ w.Unconnected table target ∧ ∃ s region, send_to_multi table w target head msg =
      .ok (w.set_session s ((w.sessions s).async_write_some region))) := by
  unfold Unconnected send_to_multi
  cases table.try_get target with
  | none => exact Or.inl ⟨fun _ => nofun, rfl⟩
  | some s =>
    by_cases hstate : (w.sessions s)._state = .CONNECTING
    · right
      exact ⟨fun h => h s rfl hstate, s, _, async_send_multi_eq hstate hhead hmsg⟩
    · left
      refine ⟨?_, ?_⟩
      · rintro _ ⟨⟩
        exact hstate
      · show w.async_send_multi s (some head) (some msg) = .ok w
        rw [async_send_multi, basic_async_session.async_send_multi_of_not_connecting hstate,
          ok_bind, set_session_self, pure_eq_ok]

end proxy_manager

namespace proxy_manager

/-! ### Nothing written -/

/-- Every socket has been handed what it had been handed before. -/
def Silent (w w' : proxy_manager) : Prop := ∀ j, (w'.sessions j).written = (w.sessions j).written

theorem Silent.refl (w : proxy_manager) : Silent w w := fun _ => rfl

theorem written_set_logic (w : proxy_manager) (i : session_sptr) (logic : session_logic)
    (j : session_sptr) : ((w.set_logic i logic).sessions j).written = (w.sessions j).written := by
  by_cases hj : j = i
  · rw [hj, sessions_set_logic_self, basic_async_session.written_modify_session_logic]
  · rw [sessions_set_logic_ne hj]

theorem not_silent_write (w : proxy_manager) (s : session_sptr) (region : List UInt8) :
    ¬ Silent w (w.set_session s ((w.sessions s).async_write_some region)) := by
  intro h
  have hs := h s
  rw [sessions_set_session_self, basic_async_session.written_async_write_some] at hs
  exact absurd (List.append_right_eq_self.mp hs) (List.cons_ne_nil _ _)

/-- Writes are not taken back. -/
theorem Sends.silent_trans_iff {w w' w'' : proxy_manager} (h : Sends w w') (h' : Sends w' w'') :
    Silent w w'' ↔ Silent w w' ∧ Silent w' w'' := by
  constructor
  · intro hsilent
    have hboth (j : session_sptr) : (w'.sessions j).written = (w.sessions j).written ∧
        (w''.sessions j).written = (w'.sessions j).written := by
      obtain ⟨frames, hj⟩ := h.session j
      obtain ⟨frames', hj'⟩ := h'.session j
      have hnone := hsilent j
      rw [hj', hj] at hnone
      simp only [List.append_assoc, List.append_right_eq_self, List.append_eq_nil_iff] at hnone
      rw [hj', hj, hnone.1, hnone.2]
      simp only [List.append_nil, and_self]
    exact ⟨fun j => (hboth j).1, fun j => (hboth j).2⟩
  · rintro ⟨hfirst, hsecond⟩ j
    exact (hsecond j).trans (hfirst j)

theorem Sends.unconnected_iff {w w' : proxy_manager} (h : Sends w w')
    (table : SafeHashMap session_uid session_sptr) (uid : session_uid) :
    w'.Unconnected table uid ↔ w.Unconnected table uid := by
  refine forall_congr' fun s => imp_congr_right fun _ => ?_
  obtain ⟨frames, hs⟩ := h.session s
  rw [hs]

/-- A write of two regions is silent if the uid is bound to no connected session. -/
theorem silent_send_to_multi_iff (table : SafeHashMap session_uid session_sptr)
    (w : proxy_manager) (target : session_uid) (head : tiny_buffer) (msg : once_buffer)
    (hhead : head.offset + head.length ≤ TINY_ONCE_BUFFER_SIZE)
    (hmsg : msg.offset + msg.length ≤ ONCE_BUFFER_SIZE) :
    ∃ w', send_to_multi table w target head msg = .ok w' ∧
      (Silent w w' ↔ w.Unconnected table target) := by
  rcases send_to_multi_cases table w target hhead hmsg with ⟨hnone, hrun⟩ |
    ⟨hsome, s, region, hrun⟩
  · exact ⟨w, hrun, iff_of_true (Silent.refl w) hnone⟩
  · exact ⟨_, hrun, iff_of_false (not_silent_write w s region) hsome⟩

/-- Data whose length ran below zero is copied out of its buffer. -/
theorem async_send_below_zero (z : zlib) (stale : Nat → UInt8) {w : proxy_manager}
    {s : session_sptr} (hstate : (w.sessions s)._state = .CONNECTING) (msg : once_buffer)
    (hoff : msg.offset = PROTO_HEAD_SIZE) (hlen : 2 ^ 64 - 4 ≤ msg.length)
    (hlt : msg.length < 2 ^ 64) : w.async_send z stale s msg = .error .out_of_bounds := by
  have hsize : ONCE_BUFFER_SIZE = 65536 := rfl
  have hhead : PROTO_HEAD_SIZE = 11 := rfl
  have hpos : msg.buffer 0 = 11 := buffer_zero_of_eq hoff (by decide)
  -- the mask already goes over the end of the array
  have hmask (head : protocol_head) {mask_length : Nat} (hlong : 65532 ≤ mask_length) :
      write_head head mask_length msg = .error .out_of_bounds := by
    rw [write_head, hpos, load_of_lt _ (by omega), error_bind]
  have hfault {e : fault}
      (hwrap : session_logic.wrap_to_send_data z stale (w.sessions s)._logic msg = .error e) :
      w.async_send z stale s msg = .error e := by
    rw [async_send, basic_async_session.async_send_of_wrap_fault hstate hwrap, error_bind]
  rcases hlogic : (w.sessions s)._logic with l | l | l
  · apply hfault
    have hlong : 65532 ≤ (l.head_to_send msg.length).len.toNat := by
      rw [default_session_logic.head_to_send, protocol_head.get_a_head_len, UInt16.toNat_ofNat']
      omega
    rw [hlogic]
    simp only [session_logic.wrap_to_send_data, default_session_logic.wrap_to_send_data,
      hmask _ hlong, error_bind]
  · exact async_send_oversized z stale hstate hlogic (by omega)
  · apply hfault
    have hlong : 65532 ≤ msg.length := by omega
    rw [hlogic]
    simp only [session_logic.wrap_to_send_data, server_session_logic.wrap_to_send_data,
      hmask _ hlong, error_bind]

end proxy_manager

end AsioNet
