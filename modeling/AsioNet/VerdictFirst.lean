import AsioNet.SessionTables
import AsioNet.Strands

/-! # Who speaks to a game server first

    A game server is found by its clients as soon as it is promoted, but its answer
    is written a step later. `verdict_first_iff` says that the game server hears its
    answer first exactly if no client is confirmed to it in between.
-/

namespace AsioNet

open TransitionSystem reusabel_buffer proto_mask proxy_manager

namespace strand_run

/-- The first frame written on a session that is not empty. -/
def first_non_empty (session : basic_async_session session_logic) : Option (List UInt8) :=
  session.written.find? fun frame => decide (PROTO_HEAD_SIZE < frame.length)

/-- **A registered game server hears its verdict first.** -/
def VerdictFirst (s : strand_run) : Prop :=
  ∀ i, Listed s.proxy._server_sessions i →
    ∀ frame, first_non_empty (s.proxy.sessions i) = some frame → s.response i = some frame

/-- Session `t` is connected, and its strand is about to write that the proxy said yes. -/
def Awaits (s : strand_run) (t : session_sptr) : Prop :=
  (s.proxy.sessions t)._state = .CONNECTING ∧
    match s.strand t with
    | .answered _ ec => ec = .EC_Success
    | _ => False

instance (s : strand_run) (t : session_sptr) : Decidable (s.Awaits t) := by
  unfold Awaits
  split <;> infer_instance

/-- No client is confirmed to a game server that awaits its verdict, and whoever is
    promoted has asked for it. -/
def InTurn (s : strand_run) : strand_event → Prop
  | .strand i _ =>
    match s.strand i with
    | .found _ target_server_session => ¬ s.Awaits target_server_session
    | .absent _ =>
      ∀ t ∈ s.proxy._un_managed_sessions._container.lookup (s.proxy.sessions i)._uuid, t = i
    | _ => True
  | _ => True

instance (s : strand_run) (e : strand_event) : Decidable (s.InTurn e) := by
  unfold InTurn
  split
  · split <;> infer_instance
  · infer_instance

/-! ### What is written -/

theorem first_non_empty_write {session : basic_async_session session_logic} (region : List UInt8) :
    first_non_empty (session.async_write_some region) =
      (first_non_empty session).or
        (if PROTO_HEAD_SIZE < region.length then some region else none) := by
  unfold first_non_empty
  rw [basic_async_session.written_async_write_some, List.find?_append]
  by_cases hlen : PROTO_HEAD_SIZE < region.length
  · simp [hlen]
  · simp [hlen]

/-- An empty frame is not the first one that is not empty. -/
theorem first_non_empty_write_empty {session : basic_async_session session_logic}
    {region : List UInt8} (h : region.length ≤ PROTO_HEAD_SIZE) :
    first_non_empty (session.async_write_some region) = first_non_empty session := by
  rw [first_non_empty_write, if_neg (Nat.not_lt.mpr h), Option.or_none]

/-- Nothing changes who has spoken first. -/
theorem first_non_empty_write_of_some {session : basic_async_session session_logic}
    {frame : List UInt8} (h : first_non_empty session = some frame) (region : List UInt8) :
    first_non_empty (session.async_write_some region) = first_non_empty session := by
  rw [first_non_empty_write, h, Option.some_or]

theorem first_non_empty_write_of_none {session : basic_async_session session_logic}
    (h : first_non_empty session = none) {region : List UInt8}
    (hlen : PROTO_HEAD_SIZE < region.length) :
    first_non_empty (session.async_write_some region) = some region := by
  rw [first_non_empty_write, h, if_pos hlen, Option.none_or]

theorem length_frame (head : protocol_head) (body : List UInt8) :
    (head.bytes ++ body).length = PROTO_HEAD_SIZE + body.length := by
  rw [List.length_append, protocol_head.length_bytes]

/-- A keep-alive on a session that is no client's is an empty frame. -/
theorem tick_alive_cases {z : zlib} {stale : recycled} {w w' : proxy_manager} {i : session_sptr}
    (hkind : (w.sessions i)._logic.kind ≠ .client_session)
    (h : w.tick_alive z stale i = .ok w') :
    w' = w ∨ ∃ region : List UInt8, region.length ≤ PROTO_HEAD_SIZE ∧
      w' = w.set_session i ((w.sessions i).async_write_some region) := by
  unfold tick_alive at h
  by_cases hstate : (w.sessions i)._state = .CONNECTING
  · rw [if_neg (not_not_intro hstate)] at h
    right
    have hcontent : ∀ b : once_buffer, b.length = 0 → b.content = [] := by
      intro b hb
      rw [content, hb]
      rfl
    cases hlogic : (w.sessions i)._logic with
    | default_session l =>
      rw [async_send_to_default_session z _ hstate hlogic rfl
        (by show PROTO_HEAD_SIZE + 0 ≤ ONCE_BUFFER_SIZE; decide)] at h
      cases h
      refine ⟨_, ?_, rfl⟩
      rw [length_frame, hcontent _ rfl]
      exact Nat.le_refl _
    | client_session l =>
      rw [hlogic] at hkind
      exact absurd rfl hkind
    | server_session l =>
      rw [async_send_to_server_session z _ hstate hlogic rfl
        (by show PROTO_HEAD_SIZE + 0 ≤ ONCE_BUFFER_SIZE; decide)] at h
      cases h
      refine ⟨_, ?_, rfl⟩
      rw [length_frame, hcontent _ rfl]
      exact Nat.le_refl _
  · rw [if_pos hstate] at h
    cases h
    exact Or.inl rfl

/-- The response to a game server is one frame that is not empty. -/
theorem echo_not_empty {z : zlib} {stale : recycled} {w w' : proxy_manager}
    {i : session_sptr} {l : default_session_logic} {ls : server_session_logic} {ec : TransferError}
    (hstate : (w.sessions i)._state = .CONNECTING)
    (hlogic : (w.sessions i)._logic = .server_session ls)
    (h : l.echo_authentication_res z stale w i ec = .ok w') :
    ∃ region : List UInt8, PROTO_HEAD_SIZE < region.length ∧
      w' = w.set_session i ((w.sessions i).async_write_some region) := by
  obtain ⟨b, -, hcontent, hecho⟩ := echo_to_server_session z stale l ec hstate hlogic
  rw [hecho] at h
  cases h
  refine ⟨_, ?_, rfl⟩
  rw [length_frame, hcontent, List.length_append, l.length_response_fields]
  show PROTO_HEAD_SIZE < PROTO_HEAD_SIZE + 20
  decide

/-- The confirmation of a client is one frame that is not empty. -/
theorem send_confirm_connect_cases {w w' : proxy_manager} {t : session_sptr}
    {l : server_session_logic} {stale : Nat → UInt8} {client_id : session_uid} {ip : UInt32}
    (h : w.send_confirm_connect t l stale client_id ip = .ok w') :
    ((w.sessions t)._state ≠ .CONNECTING ∧ w' = w) ∨
    ((w.sessions t)._state = .CONNECTING ∧ ∃ region : List UInt8, PROTO_HEAD_SIZE < region.length ∧
      w' = w.set_session t ((w.sessions t).async_write_some region)) := by
  obtain ⟨b, hpack, hoff, hlen, hcontent⟩ := l.pack_confirm_connect_spec stale client_id ip
  unfold send_confirm_connect at h
  rw [hpack, ok_bind] at h
  by_cases hstate : (w.sessions t)._state = .CONNECTING
  · rw [async_send_multi_msg_eq hstate (by rw [hoff, hlen]; decide)] at h
    cases h
    refine Or.inr ⟨hstate, _, ?_, rfl⟩
    rw [hcontent, length_frame, List.length_append, length_write_uint32, length_write_uint32]
    decide
  · unfold async_send_multi at h
    rw [basic_async_session.async_send_multi_of_not_connecting hstate, ok_bind] at h
    cases h
    rw [set_session_self]
    exact Or.inl ⟨hstate, rfl⟩

/-! ### The search for a server -/

/-- A loop over a table's entries finds one of them, if every round does. -/
theorem listed_of_foldl {f : Checked find_captured → (Sigma fun _ : session_uid => session_sptr) →
      Checked find_captured} {t : session_sptr} (table : SafeHashMap session_uid session_sptr)
    (hround : ∀ captured pair c, f captured pair = .ok c → c.target_server_session = some t →
      pair.2 = t ∨ captured = .ok c)
    (entries : List (Sigma fun _ : session_uid => session_sptr)) (captured : Checked find_captured)
    (hcaptured : ∀ c, captured = .ok c → c.target_server_session = some t → Listed table t)
    (hentries : ∀ pair ∈ entries, table._container.lookup pair.1 = some pair.2)
    {found : find_captured} (ht : found.target_server_session = some t)
    (h : entries.foldl f captured = .ok found) : Listed table t := by
  induction entries generalizing captured with
  | nil => exact hcaptured found h ht
  | cons pair entries ih =>
    refine ih _ ?_ (fun p hp => hentries p (List.mem_cons_of_mem _ hp)) h
    intro c hc hct
    rcases hround captured pair c hc hct with rfl | hbefore
    · exact ⟨pair.1, hentries pair List.mem_cons_self⟩
    · exact hcaptured c hbefore hct

/-- What `find_method` finds is in the container. -/
theorem listed_of_find_method {w : proxy_manager} {server_id_ : server_id} {found : find_captured}
    {t : session_sptr} (table : SafeHashMap session_uid session_sptr)
    (h : complex_operation_on_stored table (w.find_method server_id_)
      (pure { find := false, target_uid := none, target_server_session := none }) = .ok found)
    (ht : found.target_server_session = some t) : Listed table t := by
  refine listed_of_foldl table ?_ table._container.entries _ ?_ ?_ ht h
  · -- one round: what is found is the session looked at, or was found before
    intro captured pair c hc hct
    obtain ⟨c₀, hc₀, hc⟩ := bind_eq_ok.mp hc
    split at hc
    · split at hc
      · cases hc
        cases hct
        exact Or.inl rfl
      · cases hc
        exact Or.inr hc₀
    · cases hc
  · intro c hc hct
    cases hc
    cases hct
  · intro pair hpair
    exact AList.mem_lookup_iff.mpr hpair

/-! ### One session -/

/-- What a session has to do with its strand and the table of game servers. -/
structure Orderly (s : strand_run) (i : session_sptr) : Prop where
  /-- Nobody has spoken to a session that can still be promoted. -/
  fresh : ∀ l, (s.proxy.sessions i)._logic = .default_session l →
    s.strand i ≠ .idle ∨ l._authentication = .BEFORE_VERIFY →
    first_non_empty (s.proxy.sessions i) = none ∧ s.response i = none
  /-- A logic that has its verdict does not ask again. -/
  told : ∀ l ec l', s.strand i = .answered l ec →
    (s.proxy.sessions i)._logic = .default_session l' → l'._authentication ≠ .BEFORE_VERIFY
  /-- A game server awaits its verdict, or has heard it first. -/
  served : Listed s.proxy._server_sessions i →
    (s.proxy.sessions i)._logic.kind = .server_session ∧
    (((∃ l, s.strand i = .answered l .EC_Success) ∧
        first_non_empty (s.proxy.sessions i) = none ∧ s.response i = none) ∨
      (s.strand i = .idle ∧ first_non_empty (s.proxy.sessions i) = s.response i ∧
        (first_non_empty (s.proxy.sessions i) = none →
          (s.proxy.sessions i)._state ≠ .CONNECTING)))
  found : ∀ l t, s.strand i = .found l t → Listed s.proxy._server_sessions t

/-- A session that is not a game server's is not registered. -/
theorem Orderly.not_listed {s : strand_run} {i : session_sptr} (h : Orderly s i)
    (hkind : (s.proxy.sessions i)._logic.kind ≠ .server_session) :
    ¬ Listed s.proxy._server_sessions i := by
  intro hlisted
  exact hkind (h.served hlisted).1

theorem Orderly.not_listed_of_strand {s : strand_run} {i : session_sptr} (h : Orderly s i)
    (hidle : s.strand i ≠ .idle) (hanswered : ∀ l, s.strand i ≠ .answered l .EC_Success) :
    ¬ Listed s.proxy._server_sessions i := by
  intro hlisted
  rcases (h.served hlisted).2 with ⟨⟨l, hl⟩, -⟩ | ⟨hstrand, -⟩
  · exact hanswered l hl
  · exact hidle hstrand

/-- Logic, strand and response stay, and so does who has spoken first. -/
theorem Orderly.congr {s s' : strand_run} {i : session_sptr} (h : Orderly s i)
    (hlogic : (s'.proxy.sessions i)._logic = (s.proxy.sessions i)._logic)
    (hfirst : first_non_empty (s'.proxy.sessions i) = first_non_empty (s.proxy.sessions i))
    (hstate : (s'.proxy.sessions i)._state = .CONNECTING →
      (s.proxy.sessions i)._state = .CONNECTING)
    (hstrand : s'.strand i = s.strand i) (hresponse : s'.response i = s.response i)
    (hlisted : Listed s'.proxy._server_sessions i → Listed s.proxy._server_sessions i)
    (hgrows : ∀ t, Listed s.proxy._server_sessions t → Listed s'.proxy._server_sessions t) :
    Orderly s' i where
  fresh l hl hstart := by
    rw [hfirst, hresponse]
    rw [hlogic] at hl
    rw [hstrand] at hstart
    exact h.fresh l hl hstart
  told l ec l' hs hl := by
    rw [hstrand] at hs
    rw [hlogic] at hl
    exact h.told l ec l' hs hl
  served hl := by
    rw [hfirst, hresponse, hlogic, hstrand]
    obtain ⟨hkind, hserved⟩ := h.served (hlisted hl)
    refine ⟨hkind, ?_⟩
    rcases hserved with hawaits | ⟨hidle, heq, hheard⟩
    · exact Or.inl hawaits
    · exact Or.inr ⟨hidle, heq, fun hnone hconnecting => hheard hnone (hstate hconnecting)⟩
  found l t hs := by
    rw [hstrand] at hs
    exact hgrows t (h.found l t hs)

/-- A step of the strand of session `i` that touches no other session. -/
theorem orderly_own_step {s s' : strand_run} {i : session_sptr} (h : ∀ j, Orderly s j)
    (hsession : ∀ j, j ≠ i → s'.proxy.sessions j = s.proxy.sessions j)
    (hstrand : ∀ j, j ≠ i → s'.strand j = s.strand j)
    (hresponse : ∀ j, j ≠ i → s'.response j = s.response j)
    (hlisted : ∀ j, j ≠ i → Listed s'.proxy._server_sessions j →
      Listed s.proxy._server_sessions j)
    (hgrows : ∀ t, Listed s.proxy._server_sessions t → Listed s'.proxy._server_sessions t)
    (hi : Orderly s' i) : ∀ j, Orderly s' j := by
  intro j
  by_cases hj : j = i
  · rw [hj]
    exact hi
  · have hsame := hsession j hj
    exact (h j).congr (by rw [hsame]) (by rw [hsame]) (by rw [hsame]; exact id) (hstrand j hj)
      (hresponse j hj) (hlisted j hj) hgrows

/-- The strand of session `i` goes on without touching the tables. -/
theorem orderly_go_on {s : strand_run} {i : session_sptr} {w : proxy_manager}
    {next : session_strand} (h : ∀ j, Orderly s j)
    (hsession : ∀ j, j ≠ i → w.sessions j = s.proxy.sessions j)
    (htable : w._server_sessions = s.proxy._server_sessions)
    (hi : Orderly (s.go_on i w next) i) : ∀ j, Orderly (s.go_on i w next) j := by
  refine orderly_own_step h hsession (fun j hj => Function.update_of_ne hj _ _) (fun _ _ => rfl)
    ?_ ?_ hi
  · intro j _ hlisted
    exact htable ▸ hlisted
  · intro t ht
    exact htable.symm ▸ ht

theorem sessions_store_logic_ne {w : proxy_manager} {i j : session_sptr}
    {l : default_session_logic} (hj : j ≠ i) :
    (default_session_logic.store_logic w i l).sessions j = w.sessions j := by
  unfold default_session_logic.store_logic
  split
  · exact sessions_set_logic_ne hj w _
  · rfl

theorem server_sessions_store_logic {w : proxy_manager} {i : session_sptr}
    {l : default_session_logic} :
    (default_session_logic.store_logic w i l)._server_sessions = w._server_sessions := by
  unfold default_session_logic.store_logic
  split <;> rfl

/-- An answer is in order if the session can still be promoted or just was. -/
theorem orderly_answer {s : strand_run} {i : session_sptr} {w : proxy_manager}
    {l : default_session_logic} {verified : Bool}
    (hfresh : ∀ l', (w.sessions i)._logic = .default_session l' →
      first_non_empty (w.sessions i) = none ∧ s.response i = none)
    (hserved : Listed w._server_sessions i →
      (w.sessions i)._logic.kind = .server_session ∧ verified = true ∧
      first_non_empty (w.sessions i) = none ∧ s.response i = none) :
    Orderly (s.answer i w l verified) i := by
  have hstrand : (s.answer i w l verified).strand i =
      .answered { l with _authentication := (verdict verified).1 } (verdict verified).2 :=
    Function.update_self ..
  by_cases hkind : (w.sessions i)._logic.kind = .default_session
  · obtain ⟨l', hl'⟩ := session_logic.default_of_kind hkind
    have hproxy : (s.answer i w l verified).proxy =
        w.set_logic i (.default_session { l with _authentication := (verdict verified).1 }) := by
      exact store_logic_of_default _ hl'
    refine ⟨?_, ?_, ?_, ?_⟩
    · intro _ _ _
      rw [hproxy, sessions_set_logic_self]
      exact hfresh l' hl'
    · intro _ _ l₁ _ hl₁
      rw [hproxy, sessions_set_logic_self, basic_async_session.logic_modify_session_logic] at hl₁
      cases hl₁
      cases verified <;> exact nofun
    · intro hlisted
      rw [hproxy] at hlisted
      have hserver := (hserved hlisted).1
      rw [hkind] at hserver
      cases hserver
    · intro l₁ t hfound
      rw [hstrand] at hfound
      cases hfound
  · have hproxy : (s.answer i w l verified).proxy = w := by
      exact store_logic_of_ne _ hkind
    refine ⟨?_, ?_, ?_, ?_⟩
    · intro l' hl' _
      rw [hproxy] at hl' ⊢
      exact hfresh l' hl'
    · intro _ _ l' _ hl'
      rw [hproxy] at hl'
      rw [hl'] at hkind
      exact absurd rfl hkind
    · intro hlisted
      rw [hproxy] at hlisted ⊢
      obtain ⟨hserver, rfl, hnone⟩ := hserved hlisted
      exact ⟨hserver, Or.inl ⟨⟨_, hstrand⟩, hnone⟩⟩
    · intro l₁ t hfound
      rw [hstrand] at hfound
      cases hfound

/-! ### The steps of a strand -/

/-- A session whose logic has changed inside goes on. -/
theorem orderly_set_logic {s : strand_run} {i : session_sptr} {l l₂ : default_session_logic}
    {next : session_strand} (h : ∀ j, Orderly s j)
    (hl : (s.proxy.sessions i)._logic = .default_session l)
    (hfresh : next ≠ .idle ∨ l₂._authentication = .BEFORE_VERIFY →
      first_non_empty (s.proxy.sessions i) = none ∧ s.response i = none)
    (hanswered : ∀ l ec, next ≠ .answered l ec)
    (hfound : ∀ l t, next = .found l t → Listed s.proxy._server_sessions t) :
    ∀ j, Orderly (s.go_on i (s.proxy.set_logic i (.default_session l₂)) next) j := by
  refine orderly_go_on h (fun j hj => sessions_set_logic_ne hj _ _) rfl ?_
  have hstrand : (s.go_on i (s.proxy.set_logic i (.default_session l₂)) next).strand i = next :=
    Function.update_self ..
  have hsession : (s.go_on i (s.proxy.set_logic i (.default_session l₂)) next).proxy.sessions i =
      (s.proxy.sessions i).modify_session_logic (.default_session l₂) :=
    sessions_set_logic_self ..
  refine ⟨?_, ?_, ?_, ?_⟩
  · intro l₁ hl₁ hstart
    rw [hsession] at hl₁ ⊢
    rw [hstrand] at hstart
    cases hl₁
    exact hfresh hstart
  · intro l₁ ec _ hs
    rw [hstrand] at hs
    exact absurd hs (hanswered l₁ ec)
  · intro hlisted
    refine absurd hlisted ((h i).not_listed ?_)
    rw [hl]
    exact nofun
  · intro l₁ t hs
    rw [hstrand] at hs
    exact hfound l₁ t hs

/-- A strand that is waiting for the proxy goes on. -/
theorem orderly_next {s : strand_run} {i : session_sptr} {next : session_strand}
    (h : ∀ j, Orderly s j) (hidle : s.strand i ≠ .idle)
    (hwaiting : ∀ l, s.strand i ≠ .answered l .EC_Success)
    (hanswered : ∀ l ec, next ≠ .answered l ec)
    (hfound : ∀ l t, next = .found l t → Listed s.proxy._server_sessions t) :
    ∀ j, Orderly (s.go_on i s.proxy next) j := by
  refine orderly_go_on h (fun _ _ => rfl) rfl ?_
  have hstrand : (s.go_on i s.proxy next).strand i = next := Function.update_self ..
  refine ⟨?_, ?_, ?_, ?_⟩
  · intro l hl _
    exact (h i).fresh l hl (Or.inl hidle)
  · intro l ec _ hs
    rw [hstrand] at hs
    exact absurd hs (hanswered l ec)
  · intro hlisted
    exact absurd hlisted ((h i).not_listed_of_strand hidle hwaiting)
  · intro l t hs
    rw [hstrand] at hs
    exact hfound l t hs

/-- The proxy has answered a session without touching any other. -/
theorem orderly_answered {s : strand_run} {i : session_sptr} {w : proxy_manager}
    {l : default_session_logic} {verified : Bool} (h : ∀ j, Orderly s j)
    (hsession : ∀ j, j ≠ i → w.sessions j = s.proxy.sessions j)
    (hlisted : ∀ j, j ≠ i → Listed w._server_sessions j → Listed s.proxy._server_sessions j)
    (hgrows : ∀ t, Listed s.proxy._server_sessions t → Listed w._server_sessions t)
    (hfresh : ∀ l', (w.sessions i)._logic = .default_session l' →
      first_non_empty (w.sessions i) = none ∧ s.response i = none)
    (hserved : Listed w._server_sessions i →
      (w.sessions i)._logic.kind = .server_session ∧ verified = true ∧
      first_non_empty (w.sessions i) = none ∧ s.response i = none) :
    ∀ j, Orderly (s.answer i w l verified) j := by
  refine orderly_own_step h ?_ (fun j hj => Function.update_of_ne hj _ _) (fun _ _ => rfl) ?_ ?_
    (orderly_answer hfresh hserved)
  · intro j hj
    exact (sessions_store_logic_ne hj).trans (hsession j hj)
  · intro j hj
    show Listed (default_session_logic.store_logic w i _)._server_sessions j → _
    rw [server_sessions_store_logic]
    exact hlisted j hj
  · intro t ht
    show Listed (default_session_logic.store_logic w i _)._server_sessions t
    rw [server_sessions_store_logic]
    exact hgrows t ht

theorem orderly_receive {s s' : strand_run} {i : session_sptr} {l : default_session_logic}
    {buffer : once_buffer} {head : protocol_head} (h : ∀ j, Orderly s j)
    (hl : (s.proxy.sessions i)._logic = .default_session l)
    (hrecv : s.receive i l buffer head = .ok s') : ∀ j, Orderly s' j := by
  -- a frame that is dropped leaves the session where it was
  have hdropped : ∀ j, Orderly (s.go_on i (s.proxy.set_logic i
      (.default_session { l with _seq := l._seq + 1 })) .idle) j := by
    refine orderly_set_logic h hl ?_ nofun nofun
    rintro (hidle | hbefore)
    · exact absurd rfl hidle
    · exact (h i).fresh l hl (Or.inr hbefore)
  unfold receive at hrecv
  simp only at hrecv
  split at hrecv
  · cases hrecv
    exact hdropped
  obtain ⟨body, -, hrecv⟩ := bind_eq_ok.mp hrecv
  split at hrecv
  · cases hrecv
    exact hdropped
  split at hrecv
  · next hbefore =>
    obtain ⟨aaa_request, -, hrecv⟩ := bind_eq_ok.mp hrecv
    have hnone := (h i).fresh l hl (Or.inr hbefore)
    rw [set_logic_set_logic] at hrecv
    split at hrecv
    · cases hrecv
      refine orderly_answered h (fun j hj => sessions_set_logic_ne hj _ _) (fun _ _ => id)
        (fun _ => id) ?_ ?_
      · intro l' _
        rw [sessions_set_logic_self]
        exact hnone
      · intro hlisted
        refine absurd hlisted ((h i).not_listed ?_)
        rw [hl]
        exact nofun
    · cases hrecv
      exact orderly_set_logic h hl (fun _ => hnone) nofun nofun
  · cases hrecv
    exact hdropped

/-- The question to the proxy. -/
theorem orderly_ask {s s' : strand_run} {i : session_sptr} {l₀ l : default_session_logic}
    {aaa_request aaa_request₀ : authentication_aaa_request} (h : ∀ j, Orderly s j)
    (hasking : s.strand i = .asking l₀ aaa_request₀) (hask : s.ask i l aaa_request = .ok s') :
    ∀ j, Orderly s' j := by
  have hidle : s.strand i ≠ .idle := by
    rw [hasking]
    intro hs
    cases hs
  have hwaiting : ∀ l, s.strand i ≠ .answered l .EC_Success := by
    intro l hs
    rw [hasking] at hs
    cases hs
  have hnot := (h i).not_listed_of_strand hidle hwaiting
  have hfound_ne : ∀ l₁ t l ec, session_strand.found l₁ t ≠ .answered l ec := by
    intro l₁ t l ec hs
    cases hs
  have hno : ∀ l, ∀ j, Orderly (s.answer i s.proxy l false) j := by
    intro l
    refine orderly_answered h (fun _ _ => rfl) (fun _ _ => id) (fun _ => id) ?_ ?_
    · intro l' hl'
      exact (h i).fresh l' hl' (Or.inl hidle)
    · intro hlisted
      exact absurd hlisted hnot
  unfold ask at hask
  split at hask
  · obtain ⟨found, hfound, hask⟩ := bind_eq_ok.mp hask
    simp only at hask
    -- the store through `target_uid` stays inside the logic of session `i`
    have hstore : s.proxy.store_target_uid i found.target_uid = s.proxy ∨
        ∃ l₁ l₂, (s.proxy.sessions i)._logic = .default_session l₁ ∧
          s.proxy.store_target_uid i found.target_uid =
            s.proxy.set_logic i (.default_session l₂) := by
      unfold store_target_uid
      split
      · exact Or.inl rfl
      · split
        · next l₁ hl₁ => exact Or.inr ⟨l₁, _, hl₁, rfl⟩
        · exact Or.inl rfl
    split at hask
    · cases hask
      rcases hstore with hsame | ⟨l₁, l₂, hl₁, hset⟩
      · rw [hsame]
        exact hno _
      · rw [hset]
        refine orderly_answered h (fun j hj => sessions_set_logic_ne hj _ _) (fun _ _ => id)
          (fun _ => id) ?_ ?_
        · intro l' _
          rw [sessions_set_logic_self]
          exact (h i).fresh l₁ hl₁ (Or.inl hidle)
        · intro hlisted
          exact absurd hlisted hnot
    · split at hask
      · cases hask
      · next t ht =>
        have hlisted : Listed s.proxy._server_sessions t := listed_of_find_method _ hfound ht
        cases hask
        rcases hstore with hsame | ⟨l₁, l₂, hl₁, hset⟩
        · rw [hsame]
          refine orderly_next h hidle hwaiting (hfound_ne _ _) ?_
          intro l' t' hs
          cases hs
          exact hlisted
        · rw [hset]
          refine orderly_set_logic h hl₁ (fun _ => (h i).fresh l₁ hl₁ (Or.inl hidle))
            (hfound_ne _ _) ?_
          intro l' t' hs
          cases hs
          exact hlisted
  · split at hask
    · split at hask
      · cases hask
        exact hno _
      · cases hask
        refine orderly_next h hidle hwaiting ?_ ?_
        · intro l' ec hs
          cases hs
        · intro l' t hs
          cases hs
    · cases hask
      exact hno _

/-- A frame that is not empty goes to a session that has heard its verdict. -/
theorem orderly_confirm {s : strand_run} {i t : session_sptr} {l l₁ : default_session_logic}
    {w : proxy_manager} {ls : server_session_logic} {stale : Nat → UInt8}
    {client_id : session_uid} {ip : UInt32} (h : ∀ j, Orderly s j)
    (hfound : s.strand i = .found l₁ t) (hguard : ¬ s.Awaits t)
    (hconfirm : s.proxy.send_confirm_connect t ls stale client_id ip = .ok w) :
    ∀ j, Orderly (s.go_on i w (.confirmed l)) j := by
  have hidle : s.strand i ≠ .idle := by
    rw [hfound]
    exact nofun
  have hwaiting : ∀ l, s.strand i ≠ .answered l .EC_Success := by
    rw [hfound]
    exact nofun
  have hsends : ∀ j, Orderly { s with proxy := w } j := by
    rcases send_confirm_connect_cases hconfirm with ⟨-, rfl⟩ | ⟨hstate, region, -, rfl⟩
    · exact h
    · intro j
      by_cases hj : j = t
      · subst hj
        rcases ((h j).served ((h i).found l₁ j hfound)).2 with ⟨⟨l', hl'⟩, -⟩ | ⟨-, -, hheard⟩
        · refine absurd ⟨hstate, ?_⟩ hguard
          rw [hl']
        · -- who is connected and has heard its verdict has been spoken to
          obtain ⟨frame, hframe⟩ := Option.ne_none_iff_exists'.mp
            (fun hnone => hheard hnone hstate)
          refine (h j).congr ?_ ?_ ?_ rfl rfl id (fun _ => id)
          · show ((s.proxy.set_session j _).sessions j)._logic = _
            rw [sessions_set_session_self]
            rfl
          · show first_non_empty ((s.proxy.set_session j _).sessions j) = _
            rw [sessions_set_session_self]
            exact first_non_empty_write_of_some hframe region
          · intro _
            exact hstate
      · have hsame : (s.proxy.set_session t ((s.proxy.sessions t).async_write_some region)).sessions
            j = s.proxy.sessions j := sessions_set_session_ne hj _ _
        refine (h j).congr ?_ ?_ ?_ rfl rfl id (fun _ => id)
        · exact congrArg _ hsame
        · exact congrArg _ hsame
        · intro hconnecting
          rw [← hsame]
          exact hconnecting
  exact orderly_next hsends hidle hwaiting nofun nofun

theorem move_client_available_cases {w w' : proxy_manager} {client_uid : session_uid}
    (h : w.move_client_available client_uid = .ok w') :
    w' = w ∨ ∃ t l, (w.sessions t)._logic = .default_session l ∧
      w' = { w.set_logic t (.client_session l.trans_to_client) with
        _client_sessions := (w._client_sessions.insert client_uid t).1 } := by
  rw [move_client_available, move_available_eq] at h
  split at h
  · exact Or.inl (Except.ok.inj h).symm
  · next t _ =>
    split at h
    · next l hl => exact Or.inr ⟨t, l, hl, (Except.ok.inj h).symm⟩
    · exact Or.inl (Except.ok.inj h).symm
    · split at h
      · exact Or.inl (Except.ok.inj h).symm
      · cases h

/-- Whatever session becomes a client, it is none that is or can become a game server. -/
theorem orderly_move_client {s : strand_run} {i : session_sptr} {l₁ l : default_session_logic}
    {w : proxy_manager} {uid : session_uid} (h : ∀ j, Orderly s j)
    (hconfirmed : s.strand i = .confirmed l₁) (hmove : s.proxy.move_client_available uid = .ok w) :
    ∀ j, Orderly (s.answer i w l true) j := by
  have hidle : s.strand i ≠ .idle := by
    rw [hconfirmed]
    exact nofun
  have hwaiting : ∀ l, s.strand i ≠ .answered l .EC_Success := by
    rw [hconfirmed]
    exact nofun
  have hmoved : ∀ j, Orderly { s with proxy := w } j := by
    rcases move_client_available_cases hmove with rfl | ⟨t, lt, hlt, rfl⟩
    · exact h
    · intro j
      by_cases hj : j = t
      · subst hj
        have hlogic : ((s.proxy.set_logic j (.client_session lt.trans_to_client)).sessions
            j)._logic = .client_session lt.trans_to_client := by
          rw [sessions_set_logic_self, basic_async_session.logic_modify_session_logic]
        refine ⟨?_, ?_, ?_, (h j).found⟩
        · intro l' hl'
          rw [hlogic] at hl'
          cases hl'
        · intro _ _ l' _ hl'
          rw [hlogic] at hl'
          cases hl'
        · intro hlisted
          refine absurd hlisted ((h j).not_listed ?_)
          rw [hlt]
          exact nofun
      · have hsame : (s.proxy.set_logic t (.client_session lt.trans_to_client)).sessions j =
            s.proxy.sessions j := sessions_set_logic_ne hj _ _
        refine (h j).congr (congrArg _ hsame) (congrArg _ hsame) ?_ rfl rfl id (fun _ => id)
        intro hconnecting
        rw [← hsame]
        exact hconnecting
  refine orderly_answered (s := { s with proxy := w }) hmoved (fun _ _ => rfl) (fun _ _ => id)
    (fun _ => id) ?_ ?_
  · intro l' hl'
    exact (hmoved i).fresh l' hl' (Or.inl hidle)
  · intro hlisted
    exact absurd hlisted ((hmoved i).not_listed_of_strand hidle hwaiting)

/-- A session that asked for it becomes a game server, and awaits its verdict. -/
theorem orderly_move_server {s : strand_run} {i : session_sptr} {l₁ l : default_session_logic}
    {w : proxy_manager} {uid : session_uid} (h : ∀ j, Orderly s j)
    (habsent : s.strand i = .absent l₁)
    (hguard : ∀ t, s.proxy._un_managed_sessions._container.lookup uid = some t → t = i)
    (hmove : s.proxy.move_server_available uid = .ok w) :
    ∀ j, Orderly (s.answer i w l true) j := by
  have hidle : s.strand i ≠ .idle := by
    rw [habsent]
    exact nofun
  have hwaiting : ∀ l, s.strand i ≠ .answered l .EC_Success := by
    rw [habsent]
    exact nofun
  rcases move_server_available_cases hmove with rfl | ⟨t, lt, hlookup, hlt, rfl⟩
  · refine orderly_answered h (fun _ _ => rfl) (fun _ _ => id) (fun _ => id) ?_ ?_
    · intro l' hl'
      exact (h i).fresh l' hl' (Or.inl hidle)
    · intro hlisted
      exact absurd hlisted ((h i).not_listed_of_strand hidle hwaiting)
  · obtain rfl := hguard t hlookup
    have hsession : (s.proxy.set_logic t (.server_session lt.trans_to_server)).sessions t =
        (s.proxy.sessions t).modify_session_logic (.server_session lt.trans_to_server) :=
      sessions_set_logic_self ..
    refine orderly_answered h (fun j hj => sessions_set_logic_ne hj _ _) ?_ ?_ ?_ ?_
    · -- the new entry is its own
      rintro j hj ⟨uid', hlookup'⟩
      refine ⟨uid', ?_⟩
      by_cases hmem : uid ∈ s.proxy._server_sessions._container
      · rw [SafeHashMap.insert_of_mem hmem] at hlookup'
        exact hlookup'
      · by_cases huid : uid' = uid
        · rw [huid, SafeHashMap.lookup_insert_self hmem] at hlookup'
          exact absurd (Option.some.inj hlookup').symm hj
        · rw [SafeHashMap.lookup_insert_ne huid] at hlookup'
          exact hlookup'
    · rintro t' ⟨uid', hlookup'⟩
      exact ⟨uid', SafeHashMap.lookup_insert_of_some hlookup'⟩
    · intro l' hl'
      change ((s.proxy.set_logic t _).sessions t)._logic = _ at hl'
      rw [hsession] at hl'
      cases hl'
    · intro _
      show ((s.proxy.set_logic t _).sessions t)._logic.kind = _ ∧ true = true ∧
        first_non_empty ((s.proxy.set_logic t _).sessions t) = none ∧ s.response t = none
      rw [hsession]
      exact ⟨rfl, rfl, (h t).fresh lt hlt (Or.inl hidle)⟩

/-- The response is the first frame that is not empty, or the session is gone. -/
theorem orderly_echo {z : zlib} {stale : recycled} {s : strand_run} {i : session_sptr}
    {l : default_session_logic} {ec : TransferError} {w : proxy_manager}
    (h : ∀ j, Orderly s j) (hanswered : s.strand i = .answered l ec)
    (hecho : l.echo_authentication_res z stale s.proxy i ec = .ok w) :
    ∀ j, Orderly { s.go_on i w .idle with
      response := Function.update s.response i
        ((w.sessions i).written.drop (s.proxy.sessions i).written.length).head? } j := by
  have hsends := sends_of_echo hecho
  have hothers : ∀ j, j ≠ i → w.sessions j = s.proxy.sessions j := by
    rw [default_session_logic.echo_authentication_res] at hecho
    obtain ⟨b, -, hsend⟩ := bind_eq_ok.mp hecho
    intro j hj
    rcases async_send_cases hsend with rfl | ⟨region, rfl⟩
    · rfl
    · exact sessions_set_session_ne hj _ _
  refine orderly_own_step h hothers (fun j hj => Function.update_of_ne hj _ _)
    (fun j hj => Function.update_of_ne hj _ _) ?_ ?_ ?_
  · intro j _ hlisted
    rw [← hsends.server_sessions]
    exact hlisted
  · intro t ht
    show Listed w._server_sessions t
    rw [hsends.server_sessions]
    exact ht
  have hstrand : (s.go_on i w .idle).strand i = .idle := Function.update_self ..
  refine ⟨?_, ?_, ?_, ?_⟩
  · intro l' hl' hstart
    change (w.sessions i)._logic = _ at hl'
    rw [hsends.logic] at hl'
    rcases hstart with hne | hbefore
    · exact absurd hstrand hne
    · exact absurd hbefore ((h i).told l ec l' hanswered hl')
  · intro l' ec' _ hs
    have hs' : (s.go_on i w .idle).strand i = .answered l' ec' := hs
    rw [hstrand] at hs'
    cases hs'
  · intro hlisted
    change Listed w._server_sessions i at hlisted
    rw [hsends.server_sessions] at hlisted
    obtain ⟨hkind, hserved⟩ := (h i).served hlisted
    obtain ⟨hnone, hresponse⟩ : first_non_empty (s.proxy.sessions i) = none ∧
        s.response i = none := by
      rcases hserved with ⟨-, hnone⟩ | ⟨hidle, -⟩
      · exact hnone
      · rw [hanswered] at hidle
        cases hidle
    show (w.sessions i)._logic.kind = _ ∧ _
    rw [hsends.logic]
    refine ⟨hkind, Or.inr ⟨hstrand, ?_⟩⟩
    show first_non_empty (w.sessions i) = Function.update s.response i _ i ∧
      (first_non_empty (w.sessions i) = none → (w.sessions i)._state ≠ .CONNECTING)
    rw [Function.update_self]
    obtain ⟨ls, hls⟩ := session_logic.server_of_kind hkind
    by_cases hstate : (s.proxy.sessions i)._state = .CONNECTING
    · obtain ⟨region, hlen, rfl⟩ := echo_not_empty hstate hls hecho
      rw [sessions_set_session_self, first_non_empty_write_of_none hnone hlen,
        basic_async_session.written_async_write_some, List.drop_left]
      exact ⟨rfl, fun hsome => absurd hsome (Option.some_ne_none region)⟩
    · have hsame : w = s.proxy := by
        rw [echo_to_not_connecting z stale l ec hstate] at hecho
        exact (Except.ok.inj hecho).symm
      rw [hsame, hnone, List.drop_length]
      exact ⟨rfl, fun _ => hstate⟩
  · intro l' t hs
    have hs' : (s.go_on i w .idle).strand i = .found l' t := hs
    rw [hstrand] at hs'
    cases hs'

theorem orderly_step_strand {z : zlib} {stale : recycled} {s s' : strand_run} {i : session_sptr}
    (h : ∀ j, Orderly s j) (hguard : InTurn s (.strand i stale))
    (hstep : s.step_strand z stale i = .ok s') : ∀ j, Orderly s' j := by
  unfold InTurn at hguard
  simp only at hguard
  unfold step_strand at hstep
  split at hstep
  · cases hstep
    exact h
  · next l aaa_request hs => exact orderly_ask h hs hstep
  · next l t hs =>
    split at hstep
    · obtain ⟨w, hconfirm, hstep⟩ := bind_eq_ok.mp hstep
      cases hstep
      rw [hs] at hguard
      exact orderly_confirm h hs hguard hconfirm
    · cases hstep
  · next l hs =>
    obtain ⟨w, hmove, hstep⟩ := bind_eq_ok.mp hstep
    cases hstep
    exact orderly_move_client h hs hmove
  · next l hs =>
    obtain ⟨w, hmove, hstep⟩ := bind_eq_ok.mp hstep
    cases hstep
    rw [hs] at hguard
    exact orderly_move_server h hs hguard hmove
  · next l ec hs =>
    obtain ⟨w, hecho, hstep⟩ := bind_eq_ok.mp hstep
    cases hstep
    exact orderly_echo h hs hecho

theorem orderly_tick {z : zlib} {stale : recycled} {s : strand_run} {i : session_sptr}
    {w : proxy_manager} (h : ∀ j, Orderly s j) (htick : s.proxy.tick_alive z stale i = .ok w) :
    ∀ j, Orderly { s with proxy := w } j := by
  have hsends := sends_of_tick_alive htick
  have hothers : ∀ j, j ≠ i → w.sessions j = s.proxy.sessions j := by
    unfold tick_alive at htick
    split at htick
    · cases htick
      exact fun _ _ => rfl
    · intro j hj
      rcases async_send_cases htick with rfl | ⟨region, rfl⟩
      · rfl
      · exact sessions_set_session_ne hj _ _
  refine orderly_own_step h hothers (fun _ _ => rfl) (fun _ _ => rfl) ?_ ?_ ?_
  · intro j _ hlisted
    rw [← hsends.server_sessions]
    exact hlisted
  · intro t ht
    show Listed w._server_sessions t
    rw [hsends.server_sessions]
    exact ht
  by_cases hkind : (s.proxy.sessions i)._logic.kind = .client_session
  · -- a client may be sent anything
    have hkind' : (w.sessions i)._logic.kind = .client_session := by
      rw [hsends.logic]
      exact hkind
    refine ⟨?_, ?_, ?_, ?_⟩
    · intro l hl
      change (w.sessions i)._logic = _ at hl
      rw [hl] at hkind'
      cases hkind'
    · intro _ _ l _ hl
      change (w.sessions i)._logic = _ at hl
      rw [hl] at hkind'
      cases hkind'
    · intro hlisted
      change Listed w._server_sessions i at hlisted
      rw [hsends.server_sessions] at hlisted
      have hserver := ((h i).served hlisted).1
      rw [hkind] at hserver
      cases hserver
    · intro l t hs
      show Listed w._server_sessions t
      rw [hsends.server_sessions]
      exact (h i).found l t hs
  · rcases tick_alive_cases hkind htick with rfl | ⟨region, hlen, rfl⟩
    · exact h i
    · refine (h i).congr ?_ ?_ ?_ rfl rfl id (fun _ => id)
      · show ((s.proxy.set_session i _).sessions i)._logic = _
        rw [sessions_set_session_self]
        rfl
      · show first_non_empty ((s.proxy.set_session i _).sessions i) = _
        rw [sessions_set_session_self]
        exact first_non_empty_write_empty hlen
      · intro hconnecting
        change ((s.proxy.set_session i _).sessions i)._state = _ at hconnecting
        rw [sessions_set_session_self] at hconnecting
        exact hconnecting

/-- **One step** in turn keeps every session in order. -/
theorem orderly_exec {z : zlib} {s s' : strand_run} {e : strand_event} (h : ∀ j, Orderly s j)
    (hguard : InTurn s e) (hstep : exec z s e = some s') : ∀ j, Orderly s' j := by
  cases e with
  | frame i stale head body =>
    unfold exec at hstep
    simp only at hstep
    split at hstep
    · next hidle hl =>
      cases hrecv : s.receive i _ (received_block (stale 0) body) head with
      | error e =>
        rw [hrecv] at hstep
        cases hstep
      | ok s₁ =>
        rw [hrecv] at hstep
        cases hstep
        exact orderly_receive h hl hrecv
    · cases hstep
  | strand i stale =>
    unfold exec at hstep
    simp only at hstep
    cases hnext : s.step_strand z stale i with
    | error e =>
      rw [hnext] at hstep
      cases hstep
    | ok s₁ =>
      rw [hnext] at hstep
      cases hstep
      exact orderly_step_strand h hguard hnext
  | tick i stale =>
    obtain ⟨w, htick, rfl⟩ := proxy_run.eq_some_of_toOption hstep
    exact orderly_tick h htick
  | socket i state =>
    unfold exec at hstep
    simp only at hstep
    split at hstep
    · cases hstep
    · next hclosed =>
      cases hstep
      refine orderly_own_step h (fun j hj => sessions_set_session_ne hj _ _) (fun _ _ => rfl)
        (fun _ _ => rfl) (fun _ _ => id) (fun _ => id) ?_
      have hsession : (s.proxy.set_session i
          { s.proxy.sessions i with _state := state }).sessions i =
            { s.proxy.sessions i with _state := state } := sessions_set_session_self ..
      refine (h i).congr ?_ ?_ ?_ rfl rfl id (fun _ => id)
      · show ((s.proxy.set_session i _).sessions i)._logic = _
        rw [hsession]
      · show first_non_empty ((s.proxy.set_session i _).sessions i) = _
        rw [hsession]
        rfl
      · intro hconnecting
        change ((s.proxy.set_session i _).sessions i)._state = _ at hconnecting
        rw [hsession] at hconnecting
        exact absurd hconnecting hclosed

/-! ### Runs -/

theorem orderly_of_starts {s : strand_run} (h : Starts s) (i : session_sptr) : Orderly s i where
  fresh _ _ _ := by
    refine ⟨?_, (h.silent i).1⟩
    unfold first_non_empty
    rw [(h.silent i).2]
    rfl
  told l ec _ hs := by
    rw [h.idle] at hs
    cases hs
  served hlisted := by
    rw [h.no_server] at hlisted
    exact absurd hlisted (not_listed_empty i)
  found l t hs := by
    rw [h.idle] at hs
    cases hs

theorem orderly_of_reachable (z : zlib) :
    ∀ s, ((system z).restrict InTurn).Reachable s → ∀ i, Orderly s i := by
  refine System.invariant (fun s hs => orderly_of_starts hs) ?_
  rintro s e s' h ⟨hguard, hstep⟩
  exact orderly_exec h hguard hstep

theorem verdictFirst_of_orderly {s : strand_run} (h : ∀ i, Orderly s i) : VerdictFirst s := by
  intro i hlisted frame hframe
  rcases ((h i).served hlisted).2 with ⟨-, hnone, -⟩ | ⟨-, heq, -⟩
  · rw [hnone] at hframe
    cases hframe
  · rw [← heq]
    exact hframe

/-- A client that is confirmed to a game server which has heard nothing is what it hears
    first. -/
theorem not_verdictFirst_of_unheard {z : zlib} {stale : recycled} {s s' : strand_run}
    {i t : session_sptr} {l : default_session_logic} (hfound : s.strand i = .found l t)
    (hlisted : Listed s.proxy._server_sessions t)
    (hstate : (s.proxy.sessions t)._state = .CONNECTING)
    (hnone : first_non_empty (s.proxy.sessions t) = none) (hresponse : s.response t = none)
    (hstep : exec z s (.strand i stale) = some s') : ¬ VerdictFirst s' := by
  unfold exec step_strand at hstep
  simp only [hfound] at hstep
  split at hstep
  · next ls _ =>
    cases hconfirm : s.proxy.send_confirm_connect t ls (stale 2) (s.proxy.sessions i)._uuid
      (s.proxy.sessions i).remote_ip with
    | error e =>
      rw [hconfirm] at hstep
      cases hstep
    | ok w =>
      rw [hconfirm] at hstep
      cases hstep
      rcases send_confirm_connect_cases hconfirm with ⟨hclosed, -⟩ | ⟨-, region, hlen, rfl⟩
      · exact absurd hstate hclosed
      · intro hfirst
        have hregion := hfirst t hlisted region (by
          show first_non_empty ((s.proxy.set_session t _).sessions t) = _
          rw [sessions_set_session_self]
          exact first_non_empty_write_of_none hnone hlen)
        change s.response t = some region at hregion
        rw [hresponse] at hregion
        cases hregion
  · cases hstep

/-- So it is if the game server awaits its verdict. -/
theorem not_verdictFirst_of_awaits {z : zlib} {stale : recycled} {s s' : strand_run}
    {i t : session_sptr} {l : default_session_logic} (h : ∀ j, Orderly s j)
    (hfound : s.strand i = .found l t) (hawaits : s.Awaits t)
    (hstep : exec z s (.strand i stale) = some s') : ¬ VerdictFirst s' := by
  obtain ⟨hstate, hstrand⟩ := hawaits
  have hlisted := (h i).found l t hfound
  obtain ⟨hnone, hresponse⟩ : first_non_empty (s.proxy.sessions t) = none ∧
      s.response t = none := by
    rcases ((h t).served hlisted).2 with ⟨-, hnone⟩ | ⟨hidle, -⟩
    · exact hnone
    · rw [hidle] at hstrand
      cases hstrand
  exact not_verdictFirst_of_unheard hfound hlisted hstate hnone hresponse hstep

/-- Why whoever is promoted must have asked: a session that has not is a game server that
    has heard nothing and awaits nothing, so that a confirm in turn is what it hears first. -/
theorem unheard_of_promoted {z : zlib} {stale : recycled} {s s' : strand_run}
    {i t : session_sptr} {l lt : default_session_logic} (h : ∀ j, Orderly s j)
    (habsent : s.strand i = .absent l)
    (hlookup : s.proxy._un_managed_sessions._container.lookup (s.proxy.sessions i)._uuid = some t)
    (huid : (s.proxy.sessions i)._uuid ∉ s.proxy._server_sessions._container) (hne : t ≠ i)
    (hidle : s.strand t = .idle) (hlogic : (s.proxy.sessions t)._logic = .default_session lt)
    (hbefore : lt._authentication = .BEFORE_VERIFY)
    (hstep : exec z s (.strand i stale) = some s') :
    Listed s'.proxy._server_sessions t ∧ first_non_empty (s'.proxy.sessions t) = none ∧
      s'.response t = none ∧ ¬ s'.Awaits t := by
  obtain ⟨hnone, hresponse⟩ := (h t).fresh lt hlogic (Or.inr hbefore)
  have hmove : s.proxy.move_server_available (s.proxy.sessions i)._uuid =
      .ok { s.proxy.set_logic t (.server_session lt.trans_to_server) with
        _server_sessions :=
          (s.proxy._server_sessions.insert (s.proxy.sessions i)._uuid t).1 } := by
    rw [move_server_available, move_available_eq, hlookup]
    simp only [hlogic]
    rfl
  unfold exec step_strand at hstep
  simp only [habsent, hmove, ok_bind] at hstep
  cases hstep
  refine ⟨?_, ?_, hresponse, ?_⟩
  · refine ⟨(s.proxy.sessions i)._uuid, ?_⟩
    show (default_session_logic.store_logic _ i _)._server_sessions._container.lookup _ = _
    rw [server_sessions_store_logic]
    exact SafeHashMap.lookup_insert_self huid t
  · show first_non_empty ((default_session_logic.store_logic _ i _).sessions t) = none
    rw [sessions_store_logic_ne hne]
    show first_non_empty ((s.proxy.set_logic t _).sessions t) = none
    rw [sessions_set_logic_self]
    exact hnone
  · rintro ⟨-, hstrand⟩
    change (match Function.update s.strand i _ t with
      | .answered _ ec => ec = TransferError.EC_Success
      | _ => False) at hstrand
    rw [Function.update_of_ne hne, hidle] at hstrand
    exact hstrand

/-- **The verdict first, exactly.** If all steps are in turn, every registered game
    server hears its verdict first. A client that is confirmed to a game server out of
    turn is what it hears first. -/
theorem verdict_first_iff (z : zlib) :
    (∀ s, ((system z).restrict InTurn).Reachable s → VerdictFirst s) ∧
    ∀ s s' i t l stale, ((system z).restrict InTurn).Reachable s → s.strand i = .found l t →
      (system z).step s (.strand i stale) s' → (VerdictFirst s' ↔ ¬ s.Awaits t) := by
  refine ⟨fun s hr => verdictFirst_of_orderly (orderly_of_reachable z s hr), ?_⟩
  intro s s' i t l stale hr hfound hstep
  have h := orderly_of_reachable z s hr
  constructor
  · intro hfirst hawaits
    exact not_verdictFirst_of_awaits h hfound hawaits hstep hfirst
  · intro hnot
    have hturn : InTurn s (.strand i stale) := by
      unfold InTurn
      simp only [hfound]
      exact hnot
    exact verdictFirst_of_orderly (orderly_exec h hturn hstep)

/-- A client's request for the server that `request_body` names. -/
def client_body : List UInt8 := [0, 0, 0, 0, SessionType.CLIENT_PROXY, 0, 0, 0]

def client_head : protocol_head :=
  masked_head (protocol_head.get_a_head FRAME_KEY 8 0
    protocol_cmd.Commands_AuthenticationAAA.val false 1) client_body

/-- Two sessions have been accepted, when the clock read `0` and `1`. -/
def two_accepted : strand_run where
  proxy := proxy_run.one_session.proxy.accept_a_session 1 1 rc4_info.of_zero_rand ⟨0, 0, [], 0⟩ 0
  strand := fun _ => .idle
  response := fun _ => none

theorem starts_two_accepted : Starts two_accepted := by
  refine ⟨fun _ => rfl, ?_, ?_, rfl⟩
  · intro i
    refine ⟨rfl, ?_⟩
    unfold two_accepted accept_a_session
    by_cases h₁ : i = 1
    · rw [h₁, sessions_set_session_self]
    · rw [sessions_set_session_ne h₁]
      show (((proxy_manager.initial _).accept_a_session 0 0 _ _ 0).sessions i).written = []
      unfold accept_a_session
      by_cases h₀ : i = 0
      · rw [h₀, sessions_set_session_self]
      · rw [sessions_set_session_ne h₀]
        rfl
  · intro i
    unfold two_accepted accept_a_session
    by_cases h₁ : i = 1
    · rw [h₁, sessions_set_session_self]
      exact ⟨_, rfl⟩
    · rw [sessions_set_session_ne h₁]
      show ∃ l, (((proxy_manager.initial _).accept_a_session 0 0 _ _ 0).sessions i)._logic = _
      unfold accept_a_session
      by_cases h₀ : i = 0
      · rw [h₀, sessions_set_session_self]
        exact ⟨_, rfl⟩
      · rw [sessions_set_session_ne h₀]
        exact ⟨_, rfl⟩

/-- Session `0` asks to be a game server, and session `1` to be its client once
    session `0` has taken `steps` steps. -/
def server_then_client (steps : Nat) : List strand_event :=
  [.frame 0 (fun _ _ => 0) proxy_run.request_head proxy_run.request_body] ++
  List.replicate steps (.strand 0 fun _ _ => 0) ++
  [.frame 1 (fun _ _ => 0) client_head client_body, .strand 1 fun _ _ => 0, .strand 1 fun _ _ => 0]

/-- After all three steps the game server has its response. -/
theorem verdict_first_after_response :
    ∃ s, (server_then_client 3).foldlM (exec zlib.stored) two_accepted = some s ∧
      (first_non_empty (s.proxy.sessions 0)).isSome ∧
      (s.proxy.sessions 0).written.length = 2 ∧ VerdictFirst s := by
  have hrun : ((server_then_client 3).foldlM (fun s e => if InTurn s e then exec zlib.stored s e
      else none) two_accepted).map (fun s => ((first_non_empty (s.proxy.sessions 0)).isSome,
        (s.proxy.sessions 0).written.length)) = some (true, 2) := by
    decide +kernel
  obtain ⟨s, hs, hwritten⟩ := Option.map_eq_some_iff.mp hrun
  obtain ⟨hsome, htwo⟩ := Prod.mk.inj hwritten
  have hguarded := System.Reachable.of_guarded_foldlM (.init starts_two_accepted) _ hs
  exact ⟨s, hguarded.2, hsome, htwo, (verdict_first_iff zlib.stored).1 s hguarded.1⟩

/-- Before the third step it hears of its client first. -/
theorem not_always_verdict_first :
    ¬ ∀ (z : zlib) (s : strand_run), (system z).Reachable s → VerdictFirst s := by
  intro hall
  have hrun : ((server_then_client 2).foldlM (exec zlib.stored) two_accepted).map (fun s =>
      (s.proxy._server_sessions._container.lookup 0, s.response 0,
        (first_non_empty (s.proxy.sessions 0)).isSome)) = some (some 0, none, true) := by
    decide +kernel
  obtain ⟨s, hs, heq⟩ := Option.map_eq_some_iff.mp hrun
  obtain ⟨hlisted, hrest⟩ := Prod.mk.inj heq
  obtain ⟨hresponse, hsome⟩ := Prod.mk.inj hrest
  obtain ⟨frame, hframe⟩ := Option.isSome_iff_exists.mp hsome
  have hreach : ((system zlib.stored).restrict fun _ _ => True).Reachable s :=
    .of_foldlM (.init starts_two_accepted) _ (fun _ _ _ => trivial) hs
  have hfirst := hall zlib.stored s hreach.of_restrict 0 ⟨0, hlisted⟩ frame hframe
  rw [hresponse] at hfirst
  cases hfirst

end strand_run

end AsioNet
