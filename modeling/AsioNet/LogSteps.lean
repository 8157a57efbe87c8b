import AsioNet.WLog
import Mathlib.Data.List.Basic

/-! # What moves on the log queue

    Where a block can be and which messages are still to be written, and what each
    step does to both. The steps are those outside the queue, those of the call in
    `m_cs` and those of the worker: `exec_cases`.
-/

namespace AsioNet

open TransitionSystem

/-! ### Who holds a block -/

def trace_pc.hand : trace_pc → List Nat
  | .alloc => []
  | .fill ptrContent | .test ptrContent | .push ptrContent => [ptrContent]
  | .leave ptrContent => ptrContent.toList

/-- The block with which the call returns in its next step. -/
def trace_pc.lost : trace_pc → List Nat
  | .leave ptrContent => ptrContent.toList
  | _ => []

/-- The block that the call has filled and not yet pushed. -/
def trace_pc.filled : trace_pc → List Nat
  | .test ptrContent | .push ptrContent => [ptrContent]
  | _ => []

def worker_pc.hand : worker_pc → List Nat
  | .write _ ptrContent | .release _ ptrContent => [ptrContent]
  | _ => []

/-- The block that the worker is about to write. -/
def worker_pc.writing : worker_pc → Option Nat
  | .write _ ptrContent => some ptrContent
  | _ => none

theorem trace_pc.pushes_eq_true {pc : trace_pc} (h : pc.pushes = true) :
    ∃ ptrContent, pc = .push ptrContent := by
  cases pc with
  | push ptrContent => exact ⟨ptrContent, rfl⟩
  | _ => cases h

theorem worker_pc.writing_eq_some {pc : worker_pc} {ptrContent : Nat}
    (h : pc.writing = some ptrContent) : ∃ final, pc = .write final ptrContent := by
  cases pc with
  | write final b =>
    obtain rfl := Option.some.inj h
    exact ⟨final, rfl⟩
  | _ => cases h

/-- The steps that do not touch the queue. -/
def log_event.leaves_queue : log_event → Bool
  | .Trace_step _ _ | .LogWriteHandler _ => false
  | _ => true

namespace log_run

/-- The block in the hands of the call in `m_cs`. -/
def call_hand (m_cs : Option trace_call) : List Nat := m_cs.elim [] fun call => call.pc.hand

/-- In how many places the block is: the free list, the used list and the hands of
    the two calls that can hold one. -/
def places (s : log_run) (b : Nat) : Nat :=
  s.log.m_listFreeContent.count b + s.log.m_listUsedContent.count b +
    (call_hand s.m_cs).count b + s.worker.hand.count b

/-- The blocks that have been pushed and not written. -/
def unwritten (s : log_run) : List Nat := s.worker.writing.toList ++ s.log.m_listUsedContent

/-! ### What a step can do -/

/-- A step that does not touch the queue: the mask or the flag changes, a thread
    waits for `m_cs` or enters it with empty hands, or the stop goes on. -/
structure LeavesQueue (s s' : log_run) : Prop where
  log_eq : s'.log = { s.log with
    m_nLogMask := s'.log.m_nLogMask
    m_bStopWorkThread := s'.log.m_bStopWorkThread }
  worker_eq : s'.worker = s.worker
  pushed_eq : s'.pushed = s.pushed
  written_eq : s'.written = s.written
  hand_eq : call_hand s'.m_cs = call_hand s.m_cs
  waiting : ∀ t bType, s'.waiting t = some bType → s.waiting t = some bType ∨ bType < ELT_Max
  call : ∀ call, s'.m_cs = some call →
    s.m_cs = some call ∨ call.pc = .alloc ∧ s.waiting call.thread = some call.bType
  returned : s'.stop = .returned → s.stop = .returned ∨ s.worker = .ended

theorem leavesQueue_log (s : log_run) (mask : UInt32) :
    LeavesQueue s { s with log := { s.log with m_nLogMask := mask } } where
  log_eq := rfl
  worker_eq := rfl
  pushed_eq := rfl
  written_eq := rfl
  hand_eq := rfl
  waiting _ _ h := Or.inl h
  call _ h := Or.inl h
  returned h := Or.inl h

theorem leavesQueue_Trace (s : log_run) (thread : Nat) (bType : UInt8) (strInfo_null : Bool) :
    LeavesQueue s (s.Trace thread bType strInfo_null) := by
  unfold Trace
  split
  · exact leavesQueue_log s _
  · next hvalid =>
    split
    · exact leavesQueue_log s _
    · refine { leavesQueue_log s s.log.m_nLogMask with waiting := ?_ }
      intro t bType' ht
      have ht : Function.update s.waiting thread (some bType) t = some bType' := ht
      by_cases heq : t = thread
      · rw [heq, Function.update_self] at ht
        obtain rfl := Option.some.inj ht
        exact Or.inr (UInt8.not_le.mp (not_or.mp hvalid).2)
      · rw [Function.update_of_ne heq] at ht
        exact Or.inl ht

theorem leavesQueue_Trace_enter {s : log_run} {thread : Nat} {bType : UInt8}
    (hfree : s.m_cs = none) (hwaits : s.waiting thread = some bType) :
    LeavesQueue s { s with
      waiting := Function.update s.waiting thread none
      m_cs := some { thread := thread, bType := bType, pc := .alloc } } := by
  refine { leavesQueue_log s s.log.m_nLogMask with hand_eq := ?_, waiting := ?_, call := ?_ }
  · rw [hfree]
    rfl
  · intro t bType' ht
    have ht : Function.update s.waiting thread none t = some bType' := ht
    by_cases heq : t = thread
    · rw [heq, Function.update_self] at ht
      cases ht
    · rw [Function.update_of_ne heq] at ht
      exact Or.inl ht
  · intro call hcall
    obtain rfl := Option.some.inj hcall
    exact Or.inr ⟨rfl, hwaits⟩

/-- **The steps**: outside the queue, of the call in `m_cs`, of the worker. -/
theorem exec_cases {s s' : log_run} {e : log_event} (h : s.exec e = some s') :
    LeavesQueue s s' ∧ e.leaves_queue = true ∨
      (∃ now text call, e = .Trace_step now text ∧ s.m_cs = some call ∧
        (call.pc.pushes = true → s.worker.in_used_section = false) ∧
        s' = s.step_Trace call now text) ∨
      ∃ fopens, e = .LogWriteHandler fopens ∧ s.worker ≠ .ended ∧
        s' = s.step_LogWriteHandler fopens := by
  cases e with
  | AppendLogMask bType =>
    obtain rfl := Option.some.inj h
    exact Or.inl ⟨leavesQueue_log s _, rfl⟩
  | RemoveLogMask bType =>
    obtain rfl := Option.some.inj h
    exact Or.inl ⟨leavesQueue_log s _, rfl⟩
  | Trace thread bType strInfo_null =>
    obtain ⟨_, hs'⟩ := Option.ite_none_left_eq_some.mp h
    obtain rfl := Option.some.inj hs'
    exact Or.inl ⟨leavesQueue_Trace s thread bType strInfo_null, rfl⟩
  | Trace_enter thread =>
    obtain ⟨hfree, hs'⟩ := Option.ite_none_left_eq_some.mp h
    obtain ⟨bType, hwaits, rfl⟩ := Option.map_eq_some_iff.mp hs'
    rw [Bool.not_eq_true, Option.isSome_eq_false_iff, Option.isNone_iff_eq_none] at hfree
    exact Or.inl ⟨leavesQueue_Trace_enter hfree hwaits, rfl⟩
  | Trace_step now text =>
    obtain ⟨call, hcall, hstep⟩ := Option.bind_eq_some_iff.mp h
    obtain ⟨hfree, hs'⟩ := Option.ite_none_left_eq_some.mp hstep
    refine Or.inr (Or.inl ⟨now, text, call, rfl, hcall, ?_, (Option.some.inj hs').symm⟩)
    intro hpush
    rw [hpush, Bool.true_and, Bool.not_eq_true] at hfree
    exact hfree
  | LogWriteHandler fopens =>
    obtain ⟨hrunning, hs'⟩ := Option.ite_none_left_eq_some.mp h
    exact Or.inr (Or.inr ⟨fopens, rfl, hrunning, (Option.some.inj hs').symm⟩)
  | StopWorkThead =>
    obtain ⟨_, hs'⟩ := Option.ite_none_right_eq_some.mp h
    obtain rfl := Option.some.inj hs'
    have hstop := leavesQueue_log s s.log.m_nLogMask
    exact Or.inl ⟨{ hstop with log_eq := rfl, returned := fun hreturned => by cases hreturned },
      rfl⟩
  | StopWorkThead_join =>
    obtain ⟨hjoin, hs'⟩ := Option.ite_none_right_eq_some.mp h
    obtain rfl := Option.some.inj hs'
    exact Or.inl ⟨{ leavesQueue_log s s.log.m_nLogMask with returned := fun _ => Or.inr hjoin.2 },
      rfl⟩

namespace LeavesQueue

variable {s s' : log_run}

theorem places_eq (h : LeavesQueue s s') : s'.places = s.places := by
  funext b
  unfold places
  rw [h.log_eq, h.worker_eq, h.hand_eq]

theorem unwritten_eq (h : LeavesQueue s s') : s'.unwritten = s.unwritten := by
  unfold unwritten
  rw [h.log_eq, h.worker_eq]

theorem line_eq (h : LeavesQueue s s') : s'.log.line = s.log.line := by
  rw [h.log_eq]
  rfl

end LeavesQueue

section

variable {s : log_run} {call : trace_call}

/-- A step of the call in `m_cs` moves its block, or loses it. -/
theorem places_step_Trace (hcall : s.m_cs = some call) (now : tm) (text : List Char) (b : Nat) :
    s.places b = (s.step_Trace call now text).places b + call.pc.lost.count b := by
  have hplaces : s.places b = s.log.m_listFreeContent.count b +
      s.log.m_listUsedContent.count b + call.pc.hand.count b + s.worker.hand.count b := by
    unfold places
    rw [hcall]
    rfl
  rw [hplaces]
  cases hpc : call.pc with
  | alloc =>
    cases hfree : s.log.m_listFreeContent with
    | nil =>
      rw [step_alloc_nil hpc hfree]
      simp [places, call_hand, trace_pc.hand, trace_pc.lost, hfree]
    | cons first rest =>
      rw [step_alloc_cons hpc hfree]
      simp [places, call_hand, trace_pc.hand, trace_pc.lost, List.count_cons]
      omega
  | fill ptrContent =>
    rw [step_fill hpc]
    rfl
  | test ptrContent =>
    rw [step_test hpc]
    cases s.log.m_bStopWorkThread with
    | true => rfl
    | false => rfl
  | push ptrContent =>
    rw [step_push hpc]
    simp [places, call_hand, trace_pc.hand, trace_pc.lost, List.count_append]
    omega
  | leave ptrContent =>
    rw [step_leave hpc]
    simp [places, call_hand, trace_pc.hand, trace_pc.lost]
    omega

/-- A step of the worker moves its block. -/
theorem places_step_LogWriteHandler (s : log_run) (fopens : Bool) (b : Nat) :
    (s.step_LogWriteHandler fopens).places b = s.places b := by
  unfold places
  cases hpc : s.worker with
  | test =>
    rw [step_worker_test hpc]
    cases s.log.m_bStopWorkThread with
    | true => rfl
    | false => rfl
  | drain =>
    rw [step_drain hpc]
    rfl
  | take final =>
    cases hused : s.log.m_listUsedContent with
    | nil =>
      rw [step_take_nil hpc hused, hused]
      cases final with
      | true => rfl
      | false => rfl
    | cons first rest =>
      rw [step_take_cons hpc hused]
      simp [worker_pc.hand, List.count_cons]
      omega
  | write final ptrContent =>
    obtain ⟨names, files, overrun, hframe⟩ :=
      s.log.WriteImmediately_frame (s.log.m_astContent ptrContent) fopens
    rw [step_write hpc, hframe]
    rfl
  | release final ptrContent =>
    rw [step_release hpc]
    cases final with
    | true =>
      simp [worker_pc.hand, List.count_append]
      omega
    | false =>
      simp [worker_pc.hand, List.count_append]
      omega
  | ended =>
    unfold step_LogWriteHandler
    rw [hpc]
    simp only [hpc]

/-- Whether or not there is a free block, the call only takes one. -/
theorem step_alloc (hpc : call.pc = .alloc) (now : tm) (text : List Char) :
    ∃ free pc, pc.filled = [] ∧ s.step_Trace call now text = { s with
      log := { s.log with m_listFreeContent := free }
      m_cs := some { call with pc := pc } } := by
  cases hfree : s.log.m_listFreeContent with
  | nil =>
    rw [step_alloc_nil hpc hfree]
    exact ⟨_, _, rfl, rfl⟩
  | cons first rest =>
    rw [step_alloc_cons hpc hfree]
    exact ⟨_, _, rfl, rfl⟩

/-! ### What has been pushed and not written -/

theorem count_unwritten_le (s : log_run) (b : Nat) :
    s.unwritten.count b ≤ s.log.m_listUsedContent.count b + s.worker.hand.count b := by
  have hwriting : s.worker.writing.toList.count b ≤ s.worker.hand.count b := by
    cases s.worker with
    | write final ptrContent => exact Nat.le_refl _
    | _ => exact Nat.zero_le _
  unfold unwritten
  rw [List.count_append]
  omega

theorem unwritten_of_writing {ptrContent : Nat} (h : s.worker.writing = some ptrContent) :
    s.unwritten = ptrContent :: s.log.m_listUsedContent := by
  unfold unwritten
  rw [h]
  rfl

/-- What the call in `m_cs` holds is in no other place. -/
theorem not_unwritten_of_hand {b : Nat} (hplaces : s.places b ≤ 1)
    (hhand : b ∈ call_hand s.m_cs) : b ∉ s.unwritten := by
  intro hmem
  have hunwritten := Nat.le_trans (List.count_pos_iff.mpr hmem) (count_unwritten_le s b)
  have hcall := List.count_pos_iff.mpr hhand
  unfold places at hplaces
  omega

/-- A push puts the block behind the others. -/
theorem unwritten_push (s : log_run) (b : Nat) (m_cs : Option trace_call)
    (pushed : List (List Char × List Char)) :
    unwritten { s with
      log := { s.log with m_listUsedContent := s.log.m_listUsedContent ++ [b] }
      m_cs := m_cs
      pushed := pushed } = s.unwritten ++ [b] :=
  (List.append_assoc ..).symm

/-- The messages that were pushed are the written ones and those to come, in order. -/
def InOrder (s : log_run) : Prop := s.pushed = s.written ++ s.unwritten.map s.log.line

theorem inOrder_step_Trace (hplaces : ∀ b, s.places b ≤ 1) (hcall : s.m_cs = some call)
    (h : s.InOrder) (now : tm) (text : List Char) : (s.step_Trace call now text).InOrder := by
  unfold InOrder at h
  cases hpc : call.pc with
  | alloc =>
    obtain ⟨free, pc, _, hstep⟩ := step_alloc (s := s) hpc now text
    rw [hstep]
    exact h
  | fill ptrContent =>
    have hhand : ptrContent ∈ call_hand s.m_cs := by
      rw [hcall]
      show ptrContent ∈ call.pc.hand
      rw [hpc]
      exact List.mem_singleton_self ptrContent
    have hnot := not_unwritten_of_hand (hplaces ptrContent) hhand
    rw [step_fill hpc]
    show s.pushed = s.written ++ s.unwritten.map _
    rw [h]
    congr 1
    apply List.map_congr_left
    intro b hb
    have hne : b ≠ ptrContent := ne_of_mem_of_not_mem hb hnot
    simp only [WLog.line, Function.update_of_ne hne]
    rfl
  | test ptrContent =>
    rw [step_test hpc]
    exact h
  | push ptrContent =>
    rw [step_push hpc]
    show s.pushed ++ [s.log.line ptrContent] = s.written ++ List.map _ (unwritten _)
    rw [unwritten_push, List.map_append, ← List.append_assoc, h]
    rfl
  | leave ptrContent =>
    rw [step_leave hpc]
    exact h

/-- The worker's other steps only move blocks, and none that is still to be written. -/
theorem step_not_write (hwriting : s.worker.writing = none) (fopens : Bool) :
    (s.step_LogWriteHandler fopens).unwritten = s.unwritten ∧
      ∃ free used worker, s.step_LogWriteHandler fopens = { s with
        log := { s.log with m_listFreeContent := free, m_listUsedContent := used }
        worker := worker } := by
  unfold unwritten
  rw [hwriting]
  cases hpc : s.worker with
  | test =>
    cases hstop : s.log.m_bStopWorkThread with
    | true =>
      rw [step_worker_test hpc, hstop]
      exact ⟨rfl, _, _, _, rfl⟩
    | false =>
      rw [step_worker_test hpc, hstop]
      exact ⟨rfl, _, _, _, rfl⟩
  | drain =>
    rw [step_drain hpc]
    exact ⟨rfl, _, _, _, rfl⟩
  | take final =>
    cases hused : s.log.m_listUsedContent with
    | nil =>
      rw [step_take_nil hpc hused, hused]
      cases final with
      | true => exact ⟨rfl, _, _, _, rfl⟩
      | false => exact ⟨rfl, _, _, _, rfl⟩
    | cons first rest =>
      rw [step_take_cons hpc hused]
      exact ⟨rfl, _, _, _, rfl⟩
  | write final ptrContent =>
    rw [hpc] at hwriting
    cases hwriting
  | release final ptrContent =>
    rw [step_release hpc]
    cases final with
    | true => exact ⟨rfl, _, _, _, rfl⟩
    | false => exact ⟨rfl, _, _, _, rfl⟩
  | ended =>
    unfold step_LogWriteHandler
    rw [hpc]
    exact ⟨by rw [hpc]; rfl, _, _, _, rfl⟩

end

end log_run

end AsioNet
