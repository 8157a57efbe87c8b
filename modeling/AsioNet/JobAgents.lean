import AsioNet.Library.TransitionSystem
import AsioNet.ParallelCore.ObjectPool

/-! # Job agents and their executors (`async_job.h`)

    A session runs on a strand of the executor its job agent was made for; which
    one, the agent's number decides. Agents are pooled: `JOB_AGENT` takes one off
    the calling thread's stack and gives it a new number. The executor that is
    asked for goes to the constructor, so it only counts when the stack is empty:
    a recycled agent keeps the executor it was constructed with.
-/

namespace AsioNet

open TransitionSystem

structure async_job_executor where
  /-- Which object it is. -/
  address : Nat
  _strand_num : Nat
  deriving DecidableEq

/-- A strand: its executor and its index there. -/
structure strand_ref where
  executor : async_job_executor
  index : Nat

/-- `_strands[hash_n(user_id, _strand_num)]`, none for a remainder by zero. -/
def async_job_executor.strand_to_run (e : async_job_executor) (user_id : UInt64) :
    Option strand_ref :=
  if e._strand_num = 0 then none else some ⟨e, user_id.toNat % e._strand_num⟩

structure job_agent where
  _uuid : UInt64
  _owner : async_job_executor

namespace job_agent

/-- The constructor leaves `_uuid` as it is in memory. -/
def constructed (memory : job_agent) (excutor : async_job_executor) : job_agent :=
  { memory with _owner := excutor }

def reset (a : job_agent) (clock : UInt64) (_sc : UInt32) : job_agent :=
  { a with _uuid := clock + (_sc <<< 15 >>> 15).toUInt64 }

def strand_to_run (a : job_agent) : Option strand_ref := a._owner.strand_to_run a._uuid

end job_agent

/-- The pool of agents, and what was asked for. -/
structure job_agents where
  pool : ThreadSafeObjectPool job_agent
  _sc : UInt32
  /-- The executor the agent was last asked for. -/
  asked : Nat → async_job_executor
  /-- The strand it yielded when it was returned. -/
  yielded : Nat → Option strand_ref

inductive job_event where
  | JOB_AGENT (thread : Nat) (clock : UInt64) (excutor : async_job_executor)
  /-- the last `shared_ptr` to the agent is gone -/
  | release (p : Nat)

namespace job_agents

/-- `get_shared(excutor)`, which constructs an agent if the thread's stack is empty. -/
def get_shared (s : job_agents) (thread : Nat) (excutor : async_job_executor) :
    Nat × ThreadSafeObjectPool job_agent :=
  let r := s.pool.get_shared thread
  if s.pool._container thread = [] then
    (r.1, r.2.set r.1 (.constructed (s.pool.objects r.1) excutor))
  else r

/-- The number of the agent, and what is left. -/
def JOB_AGENT (s : job_agents) (thread : Nat) (clock : UInt64) (excutor : async_job_executor) :
    Nat × job_agents :=
  let r := s.get_shared thread excutor
  let agent := (r.2.objects r.1).reset clock s._sc
  (r.1, {
    pool := r.2.set r.1 agent
    _sc := s._sc + 1
    asked := Function.update s.asked r.1 excutor
    yielded := Function.update s.yielded r.1 agent.strand_to_run })

/-- Only an agent that is out is released. -/
def Step (s : job_agents) (e : job_event) (s' : job_agents) : Prop :=
  match e with
  | .JOB_AGENT thread clock excutor => s' = (s.JOB_AGENT thread clock excutor).2
  | .release p => s.pool.Out p ∧ s' = { s with pool := s.pool.release p }

/-- No agent has been constructed yet; `_sc` starts with one. -/
def system : System job_agents job_event where
  init := fun s => (∀ thread, s.pool._container thread = []) ∧ s.pool.count = 0 ∧ s._sc = 1
  step := Step

/-- Every agent that is out runs on a strand of the executor it was asked for, as a
    new agent would, and on the same one since it was returned. -/
structure RunsAsAsked (s : job_agents) : Prop where
  owner : ∀ p, s.pool.Out p → (s.pool.objects p)._owner = s.asked p
  strand : ∀ p, s.pool.Out p → ∃ index, index < (s.asked p)._strand_num ∧
    (s.pool.objects p).strand_to_run = some ⟨s.asked p, index⟩ ∧
    s.yielded p = some ⟨s.asked p, index⟩

/-- The thread that asks has no agent lying about, or one that was made for the same
    executor, and the executor has a strand. -/
def AsksForItsOwn (s : job_agents) : job_event → Prop
  | .JOB_AGENT thread _ excutor =>
    (∀ p _pool, s.pool._container thread = p :: _pool →
      (s.pool.objects p)._owner = excutor) ∧ 0 < excutor._strand_num
  | .release _ => True

/-! ### What a request does -/

/-- What `JOB_AGENT` returns: an agent that was not out, with the executor of the
    request only if there was none to recycle. -/
structure Returned (s : job_agents) (thread : Nat) (excutor : async_job_executor) (p : Nat)
    (s' : job_agents) : Prop where
  not_out : ¬ s.pool.Out p
  wellFormed : s'.pool.WellFormed
  out : ∀ q, s'.pool.Out q ↔ s.pool.Out q ∨ q = p
  others : ∀ q, q ≠ p → s'.pool.objects q = s.pool.objects q ∧ s'.asked q = s.asked q ∧
    s'.yielded q = s.yielded q
  asked : s'.asked p = excutor
  yielded : s'.yielded p = (s'.pool.objects p).strand_to_run
  new : s.pool._container thread = [] → (s'.pool.objects p)._owner = excutor
  recycled : ∀ q _pool, s.pool._container thread = q :: _pool →
    p = q ∧ (s'.pool.objects p)._owner = (s.pool.objects q)._owner

theorem get_shared_fst (s : job_agents) (thread : Nat) (excutor : async_job_executor) :
    (s.get_shared thread excutor).1 = (s.pool.get_shared thread).1 := by
  unfold get_shared
  split <;> rfl

/-- Constructing an agent does not change who has which. -/
theorem get_shared_pool (s : job_agents) (hwf : s.pool.WellFormed) (thread : Nat)
    (excutor : async_job_executor) :
    (s.get_shared thread excutor).2.WellFormed ∧
      (∀ q, (s.get_shared thread excutor).2.Out q ↔
        s.pool.Out q ∨ q = (s.pool.get_shared thread).1) ∧
      ∀ q, q ≠ (s.pool.get_shared thread).1 →
        (s.get_shared thread excutor).2.objects q = s.pool.objects q := by
  obtain ⟨hwf', _, hout⟩ := hwf.get_shared thread
  unfold get_shared
  split
  · refine ⟨hwf'.set _ _, hout, ?_⟩
    intro q hq
    rw [ThreadSafeObjectPool.objects_set_ne hq, ThreadSafeObjectPool.objects_get_shared]
  · refine ⟨hwf', hout, ?_⟩
    intro q _
    rw [ThreadSafeObjectPool.objects_get_shared]

theorem get_shared_owner (s : job_agents) (thread : Nat) (excutor : async_job_executor) :
    ((s.get_shared thread excutor).2.objects (s.pool.get_shared thread).1)._owner =
      if s.pool._container thread = [] then excutor
      else (s.pool.objects (s.pool.get_shared thread).1)._owner := by
  unfold get_shared
  split
  · rw [ThreadSafeObjectPool.objects_set_self]
    rfl
  · rw [ThreadSafeObjectPool.objects_get_shared]

theorem JOB_AGENT_returned (s : job_agents) (hwf : s.pool.WellFormed) (thread : Nat)
    (clock : UInt64) (excutor : async_job_executor) :
    Returned s thread excutor (s.pool.get_shared thread).1
      (s.JOB_AGENT thread clock excutor).2 := by
  obtain ⟨hwf', hout, hothers⟩ := get_shared_pool s hwf thread excutor
  have howner := get_shared_owner s thread excutor
  have hfst := get_shared_fst s thread excutor
  unfold JOB_AGENT
  simp only [hfst]
  refine ⟨(hwf.get_shared thread).2.1, hwf'.set _ _, hout, ?_, ?_, ?_, ?_, ?_⟩
  · intro q hq
    refine ⟨?_, ?_, ?_⟩
    · rw [ThreadSafeObjectPool.objects_set_ne hq, hothers q hq]
    · exact Function.update_of_ne hq _ _
    · exact Function.update_of_ne hq _ _
  · exact Function.update_self _ _ _
  · rw [ThreadSafeObjectPool.objects_set_self]
    exact Function.update_self _ _ _
  · intro hnil
    rw [ThreadSafeObjectPool.objects_set_self]
    rw [if_pos hnil] at howner
    exact howner
  · intro q _pool hpool
    -- the number is no part of the owner
    have hq : (s.pool.get_shared thread).1 = q := by
      unfold ThreadSafeObjectPool.get_shared
      rw [hpool]
    rw [ThreadSafeObjectPool.objects_set_self, ← hq]
    rw [if_neg (by rw [hpool]; exact List.cons_ne_nil _ _)] at howner
    exact ⟨rfl, howner⟩

/-! ### Runs -/

theorem wellFormed_of_reachable : ∀ s, system.Reachable s → s.pool.WellFormed := by
  refine System.invariant ?_ ?_
  · intro s ⟨hempty, hcount, _⟩
    refine ⟨?_, ?_, ?_⟩
    · intro thread
      rw [hempty thread]
      exact List.nodup_nil
    · intro p thread thread' hp
      rw [hempty thread] at hp
      cases hp
    · intro p ⟨thread, hp⟩
      rw [hempty thread] at hp
      cases hp
  · intro s e s' hwf hstep
    cases e with
    | JOB_AGENT thread clock excutor =>
      rw [show s' = (s.JOB_AGENT thread clock excutor).2 from hstep]
      exact (JOB_AGENT_returned s hwf thread clock excutor).wellFormed
    | release p =>
      obtain ⟨hout, hs'⟩ := hstep
      rw [hs']
      exact hwf.release hout

/-- An agent whose owner has a strand yields one of its owner's. -/
theorem strand_to_run_of_owner {a : job_agent} {e : async_job_executor} (howner : a._owner = e) :
    (∃ index, index < e._strand_num ∧ a.strand_to_run = some ⟨e, index⟩) ↔
      0 < e._strand_num := by
  unfold job_agent.strand_to_run async_job_executor.strand_to_run
  rw [howner]
  constructor
  · intro ⟨index, hlt, _⟩
    omega
  · intro hpos
    refine ⟨a._uuid.toNat % e._strand_num, Nat.mod_lt _ hpos, ?_⟩
    rw [if_neg (Nat.pos_iff_ne_zero.mp hpos)]

/-- **One step** keeps all agents on the executors they were asked for if and only if
    no agent is recycled for another executor. -/
theorem runs_as_asked_step {s s' : job_agents} {e : job_event} (hwf : s.pool.WellFormed)
    (h : RunsAsAsked s) (hstep : Step s e s') : RunsAsAsked s' ↔ AsksForItsOwn s e := by
  cases e with
  | JOB_AGENT thread clock excutor =>
    have hr := JOB_AGENT_returned s hwf thread clock excutor
    rw [← show s' = (s.JOB_AGENT thread clock excutor).2 from hstep] at hr
    have hp : s'.pool.Out (s.pool.get_shared thread).1 := (hr.out _).mpr (Or.inr rfl)
    constructor
    · intro h'
      have howner := (h'.owner _ hp).trans hr.asked
      refine ⟨?_, ?_⟩
      · intro q _pool hpool
        rw [← (hr.recycled q _pool hpool).2, howner]
      · obtain ⟨index, hlt, _⟩ := h'.strand _ hp
        rw [hr.asked] at hlt
        omega
    · intro ⟨hown, hpos⟩
      have howner : (s'.pool.objects (s.pool.get_shared thread).1)._owner = excutor := by
        cases hpool : s.pool._container thread with
        | nil => exact hr.new hpool
        | cons q _pool => rw [(hr.recycled q _pool hpool).2, hown q _pool hpool]
      refine ⟨?_, ?_⟩
      · intro q hq
        by_cases hqp : q = (s.pool.get_shared thread).1
        · rw [hqp, howner, hr.asked]
        · obtain ⟨hobject, hasked, _⟩ := hr.others q hqp
          rw [hobject, hasked]
          exact h.owner q (((hr.out q).mp hq).resolve_right hqp)
      · intro q hq
        by_cases hqp : q = (s.pool.get_shared thread).1
        · obtain ⟨index, hlt, hstrand⟩ := (strand_to_run_of_owner howner).mpr hpos
          rw [hqp, hr.asked, hr.yielded]
          exact ⟨index, hlt, hstrand, hstrand⟩
        · obtain ⟨hobject, hasked, hyielded⟩ := hr.others q hqp
          rw [hobject, hasked, hyielded]
          exact h.strand q (((hr.out q).mp hq).resolve_right hqp)
  | release p =>
    obtain ⟨hout, rfl⟩ := hstep
    refine iff_of_true ⟨?_, ?_⟩ trivial
    · intro q hq
      exact h.owner q ((ThreadSafeObjectPool.out_release s.pool p q).mp hq).1
    · intro q hq
      exact h.strand q ((ThreadSafeObjectPool.out_release s.pool p q).mp hq).1

/-- **Agents run as asked**, exactly: in the runs in which no thread recycles an agent
    for another executor, and in a run in which all agents run as asked the next
    request keeps it so if and only if it does not either. -/
theorem agents_run_as_asked (s : job_agents) :
    ((system.restrict AsksForItsOwn).Reachable s → RunsAsAsked s) ∧
    ∀ e s', system.Reachable s → RunsAsAsked s → system.step s e s' →
      (RunsAsAsked s' ↔ AsksForItsOwn s e) := by
  have hstep : ∀ s e s', system.Reachable s → RunsAsAsked s → system.step s e s' →
      (RunsAsAsked s' ↔ AsksForItsOwn s e) := by
    intro s e s' hs h hexec
    exact runs_as_asked_step (wellFormed_of_reachable s hs) h hexec
  refine ⟨System.invariant_restrict ?_ hstep s, hstep s⟩
  -- no agent is out
  intro s ⟨_, hcount, _⟩
  refine ⟨?_, ?_⟩
  · intro p ⟨hlt, _⟩
    omega
  · intro p ⟨hlt, _⟩
    omega

/-- The pool of a process that has just started. -/
def start : job_agents where
  pool := ⟨fun _ => [], 0, fun _ => 0, fun _ => ⟨0, ⟨0, 0⟩⟩⟩
  _sc := 1
  asked := fun _ => ⟨0, 0⟩
  yielded := fun _ => none

theorem start_init : system.init start := ⟨fun _ => rfl, rfl, rfl⟩

/-- A thread asks for an agent and releases it. -/
def released (excutor : async_job_executor) : job_agents :=
  let s := (start.JOB_AGENT 0 7 excutor).2
  { s with pool := s.pool.release 0 }

/-- Its agent lies on the thread's stack. -/
theorem released_container (excutor : async_job_executor) :
    (released excutor).pool._container 0 = [0] ∧
      ((released excutor).pool.objects 0)._owner = excutor :=
  ⟨rfl, rfl⟩

theorem reachable_released {excutor : async_job_executor} (h : 0 < excutor._strand_num) :
    (system.restrict AsksForItsOwn).Reachable (released excutor) := by
  have hfirst : (system.restrict AsksForItsOwn).Reachable (start.JOB_AGENT 0 7 excutor).2 :=
    .step (.JOB_AGENT 0 7 excutor) (.init start_init)
      ⟨⟨fun p _pool hpool => absurd hpool.symm (List.cons_ne_nil p _pool), h⟩, rfl⟩
  have hout : (start.JOB_AGENT 0 7 excutor).2.pool.Out 0 :=
    ⟨Nat.one_pos, fun ⟨thread, hp⟩ => List.not_mem_nil hp⟩
  exact .step (.release 0) hfirst ⟨trivial, hout, rfl⟩

/-- The thread asks for an agent of the same executor again, gets the one it released,
    and this runs as asked. -/
theorem run_as_asked_recycled :
    ((released ⟨1, 2⟩).JOB_AGENT 0 8 ⟨1, 2⟩).1 = 0 ∧
      ((released ⟨1, 2⟩).JOB_AGENT 0 8 ⟨1, 2⟩).2.pool.Out 0 ∧
      RunsAsAsked ((released ⟨1, 2⟩).JOB_AGENT 0 8 ⟨1, 2⟩).2 := by
  have hreleased := @reachable_released ⟨1, 2⟩ (by decide)
  have hagain := JOB_AGENT_returned _ (wellFormed_of_reachable _ hreleased.of_restrict) 0 8 ⟨1, 2⟩
  refine ⟨rfl, (hagain.out 0).mpr (Or.inr rfl), (agents_run_as_asked _).1
    (.step (.JOB_AGENT 0 8 ⟨1, 2⟩) hreleased ⟨⟨?_, by decide⟩, rfl⟩)⟩
  intro p _pool hpool
  rw [(released_container ⟨1, 2⟩).1] at hpool
  cases hpool
  exact (released_container ⟨1, 2⟩).2

/-- An agent made for one executor is recycled for another. -/
theorem not_always_as_asked : ¬ ∀ s, system.Reachable s → RunsAsAsked s := by
  intro h
  have hreleased : system.Reachable (released ⟨1, 1⟩) :=
    (@reachable_released ⟨1, 1⟩ (by decide)).of_restrict
  have hagain := JOB_AGENT_returned _ (wellFormed_of_reachable _ hreleased) 0 8 ⟨2, 1⟩
  have howner := (h _ (.step (.JOB_AGENT 0 8 ⟨2, 1⟩) hreleased rfl)).owner 0
    ((hagain.out 0).mpr (Or.inr rfl))
  exact absurd howner (by decide)

end job_agents

end AsioNet
