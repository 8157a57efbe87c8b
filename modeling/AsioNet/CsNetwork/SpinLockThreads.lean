import AsioNet.Library.CriticalSections
import AsioNet.Library.Executions
import Mathlib.Logic.Function.Basic

/-! # The client's spin lock and its threads (`SpinLock.cs`)

    `SafeAction` waits while `_flag` is 1, sets it with an `Interlocked.Exchange`
    of its own, runs the action inside `lock (_mut)` and clears the flag. Between
    the wait and the exchange any other thread may pass the wait too, so the flag
    keeps nobody out, and it may be clear while an action runs. What excludes is
    the monitor inside. The flag does no harm either: it is not left set when
    nobody is between the two exchanges.

    An action that throws is an action with that result, since the exception is
    caught inside the monitor. An action that calls `SafeAction` itself is left
    out.
-/

namespace AsioNet.CsNetwork

open TransitionSystem CriticalSections

/-- Where a thread is in `SafeAction`. -/
inductive safe_action_pc (Arg Local Result : Type) where
  | idle
  /-- before the next read of `_flag` -/
  | wait (a : Arg)
  /-- before `Exchange(ref _flag, 1)` -/
  | set (a : Arg)
  /-- before `lock (_mut)` -/
  | enter (a : Arg)
  /-- in the action -/
  | act (a : Arg) (k : Local)
  /-- at the end of the block -/
  | exit (a : Arg) (r : Result)
  /-- before `Exchange(ref _flag, 0)` -/
  | clear

structure safe_actions (Thread Shared Arg Local Result : Type) where
  _flag : Int32
  /-- The owner of the monitor of `_mut`. -/
  _mut : Option Thread
  _data : Shared
  pc : Thread → safe_action_pc Arg Local Result
  /-- The actions that have made their last access. -/
  log : List (Thread × Arg × Result)

inductive safe_action_step (Thread Arg : Type) where
  | call (t : Thread) (a : Arg)
  | step (t : Thread)

variable {Thread Shared Arg Local Result : Type} [DecidableEq Thread]

namespace safe_actions

def goto (s : safe_actions Thread Shared Arg Local Result) (t : Thread)
    (pc : safe_action_pc Arg Local Result) : safe_actions Thread Shared Arg Local Result :=
  { s with pc := Function.update s.pc t pc }

/-- The next access of the action. -/
def access (m : Method Shared Arg Local Result)
    (s : safe_actions Thread Shared Arg Local Result) (t : Thread) (a : Arg) (k : Local) :
    safe_actions Thread Shared Arg Local Result :=
  match (m.access s._data k).2 with
  | .inl k' => { s.goto t (.act a k') with _data := (m.access s._data k).1 }
  | .inr r =>
    { s.goto t (.exit a r) with
      _data := (m.access s._data k).1
      log := s.log ++ [(t, a, r)] }

/-- The next access of thread `t`; the monitor makes it wait while another one has it. -/
def next (m : Method Shared Arg Local Result) (s : safe_actions Thread Shared Arg Local Result)
    (t : Thread) : safe_actions Thread Shared Arg Local Result :=
  match s.pc t with
  | .idle => s
  | .wait a => if s._flag = 1 then s else s.goto t (.set a)
  | .set a => { s.goto t (.enter a) with _flag := 1 }
  | .enter a =>
    match s._mut with
    | none => { s.goto t (.act a (m.start a)) with _mut := some t }
    | some _ => s
  | .act a k => s.access m t a k
  | .exit _ _ => { s.goto t .clear with _mut := none }
  | .clear => { s.goto t .idle with _flag := 0 }

def exec (m : Method Shared Arg Local Result) (s : safe_actions Thread Shared Arg Local Result) :
    safe_action_step Thread Arg → Option (safe_actions Thread Shared Arg Local Result)
  | .call t a =>
    match s.pc t with
    | .idle => some (s.goto t (.wait a))
    | _ => none
  | .step t => some (s.next m t)

def new (_data : Shared) : safe_actions Thread Shared Arg Local Result where
  _flag := 0
  _mut := none
  _data := _data
  pc _ := .idle
  log := []

variable (Thread) in
def system (m : Method Shared Arg Local Result) (_data : Shared) :
    System (safe_actions Thread Shared Arg Local Result) (safe_action_step Thread Arg) :=
  System.ofExec (fun s => s = new _data) (exec m)

end safe_actions

namespace safe_action_pc

/-- The call of a thread inside the monitor. -/
def holding : safe_action_pc Arg Local Result → Option (Arg × (Local ⊕ Result))
  | .act a k => some (a, .inl k)
  | .exit a r => some (a, .inr r)
  | _ => none

/-- The thread has set the flag and has not cleared it. -/
def Between : safe_action_pc Arg Local Result → Prop
  | .enter _ | .act _ _ | .exit _ _ | .clear => True
  | _ => False

end safe_action_pc

namespace safe_actions

/-- The threads of the lock and the threads of the critical sections. -/
structure Follows (m : Method Shared Arg Local Result)
    (s : safe_actions Thread Shared Arg Local Result)
    (a : Sections Thread Shared Arg Local Result) : Prop where
  shared : a.shared = s._data
  log : a.log = s.log
  /-- The monitor is that of the thread inside. -/
  _mut : s._mut = a.inside.map Prod.fst
  holding : ∀ t c, (s.pc t).holding = some c ↔ a.inside = some (t, c)
  /-- A set flag is going to be cleared. -/
  _flag : s._flag = 0 ∨ ∃ t, (s.pc t).Between

variable {m : Method Shared Arg Local Result} {s : safe_actions Thread Shared Arg Local Result}
  {a : Sections Thread Shared Arg Local Result}

omit [DecidableEq Thread] in
theorem some_eq_some_iff (t : Thread) (c c' : Arg × (Local ⊕ Result)) :
    some c = some c' ↔ some (t, c) = some (t, c') := by
  simp

/-- The call inside when thread `t` moves on to `pc`. -/
theorem Follows.holding_update (h : Follows m s a) {t : Thread}
    {pc : safe_action_pc Arg Local Result}
    {inside : Option (Thread × Arg × (Local ⊕ Result))}
    (ht : ∀ c, pc.holding = some c ↔ inside = some (t, c))
    (hothers : ∀ u c, u ≠ t → (inside = some (u, c) ↔ a.inside = some (u, c))) :
    ∀ u c, (Function.update s.pc t pc u).holding = some c ↔ inside = some (u, c) := by
  intro u c
  by_cases hu : u = t
  · rw [hu, Function.update_self]
    exact ht c
  · rw [Function.update_of_ne hu, h.holding u c]
    exact (hothers u c hu).symm

/-- A set flag is still going to be cleared when thread `t` moves on to `pc`. -/
theorem Follows._flag_update (h : Follows m s a) {t : Thread}
    {pc : safe_action_pc Arg Local Result} (hpc : (s.pc t).Between → pc.Between) :
    s._flag = 0 ∨ ∃ u, (Function.update s.pc t pc u).Between := by
  rcases h._flag with hzero | ⟨u, hu⟩
  · exact .inl hzero
  · refine .inr ⟨u, ?_⟩
    by_cases hut : u = t
    · rw [hut, Function.update_self]
      exact hpc (hut ▸ hu)
    · rw [Function.update_of_ne hut]
      exact hu

/-- A thread that goes on outside the monitor. -/
theorem Follows.goto (h : Follows m s a) {t : Thread} {pc : safe_action_pc Arg Local Result}
    (ht : (s.pc t).holding = none) (hpc : pc.holding = none)
    (hbetween : (s.pc t).Between → pc.Between) : Follows m (s.goto t pc) a where
  shared := h.shared
  log := h.log
  _mut := h._mut
  holding := by
    refine h.holding_update ?_ fun _ _ _ => Iff.rfl
    intro c
    rw [← h.holding t c, ht, hpc]
  _flag := h._flag_update hbetween

/-- `lock (_mut)` enters the critical section. -/
theorem Follows.enter (h : Follows m s a) {t : Thread} {x : Arg} (hfree : s._mut = none) :
    a.inside = none ∧
    Follows m { s.goto t (.act x (m.start x)) with _mut := some t }
      { a with inside := some (t, x, .inl (m.start x)) } := by
  have hin : a.inside = none := Option.map_eq_none_iff.mp (h._mut.symm.trans hfree)
  refine ⟨hin, h.shared, h.log, rfl, h.holding_update ?_ ?_, h._flag_update fun _ => trivial⟩
  · exact some_eq_some_iff t _
  · intro u c hu
    rw [hin]
    refine iff_of_false ?_ nofun
    intro heq
    exact hu (congrArg Prod.fst (Option.some.inj heq)).symm

/-- An access of the action is one of the critical section. -/
theorem Follows.act (h : Follows m s a) {t : Thread} {x : Arg} {k : Local}
    (hpc : s.pc t = .act x k) :
    a.inside = some (t, x, .inl k) ∧ Follows m (s.access m t x k) (a.doAccess m t x k) := by
  have hin : a.inside = some (t, x, .inl k) := (h.holding t _).mp (by rw [hpc]; rfl)
  have hmut : s._mut = some t := by
    rw [h._mut, hin]
    rfl
  have hothers : ∀ (c : Local ⊕ Result) u c', u ≠ t →
      ((some (t, x, c) : Option _) = some (u, c') ↔ a.inside = some (u, c')) := by
    intro c u c' hu
    rw [hin]
    refine iff_of_false ?_ ?_ <;>
    · intro heq
      exact hu (congrArg Prod.fst (Option.some.inj heq)).symm
  refine ⟨hin, ?_⟩
  unfold safe_actions.access Sections.doAccess
  rw [h.shared, h.log]
  cases (m.access s._data k).2 with
  | inl k' =>
    exact ⟨rfl, rfl, hmut, h.holding_update (some_eq_some_iff t _) (hothers _),
      h._flag_update fun _ => trivial⟩
  | inr r =>
    exact ⟨rfl, rfl, hmut, h.holding_update (some_eq_some_iff t _) (hothers _),
      h._flag_update fun _ => trivial⟩

/-- The end of the block leaves the critical section. -/
theorem Follows.exit (h : Follows m s a) {t : Thread} {x : Arg} {r : Result}
    (hpc : s.pc t = .exit x r) :
    a.inside = some (t, x, .inr r) ∧
    Follows m { s.goto t .clear with _mut := none } { a with inside := none } := by
  have hin : a.inside = some (t, x, .inr r) := (h.holding t _).mp (by rw [hpc]; rfl)
  refine ⟨hin, h.shared, h.log, rfl, h.holding_update ?_ ?_, h._flag_update fun _ => trivial⟩
  · exact fun c => iff_of_false nofun nofun
  · intro u c hu
    rw [hin]
    refine iff_of_false nofun ?_
    intro heq
    exact hu (congrArg Prod.fst (Option.some.inj heq)).symm

/-- A step of a thread is a step of the critical sections, or none. -/
theorem Follows.next (h : Follows m s a) (t : Thread) :
    Follows m (s.next m t) a ∨ ∃ l a', a.exec m l = some a' ∧ Follows m (s.next m t) a' := by
  unfold safe_actions.next
  cases hpc : s.pc t with
  | idle => exact .inl h
  | wait x =>
    dsimp only
    split
    · exact .inl h
    · exact .inl (h.goto (by rw [hpc]; rfl) rfl (by rw [hpc]; exact False.elim))
  | set x =>
    have hgoto : Follows m (s.goto t (.enter x)) a :=
      h.goto (by rw [hpc]; rfl) rfl fun _ => trivial
    refine .inl { hgoto with _flag := .inr ⟨t, ?_⟩ }
    show (Function.update s.pc t (.enter x) t).Between
    rw [Function.update_self]
    trivial
  | enter x =>
    dsimp only
    split
    · next hfree =>
      obtain ⟨hin, hnext⟩ := h.enter (t := t) (x := x) hfree
      refine .inr ⟨.enter t x, _, ?_, hnext⟩
      unfold Sections.exec
      rw [hin]
    · exact .inl h
  | act x k =>
    obtain ⟨hin, hnext⟩ := h.act hpc
    refine .inr ⟨.access, _, ?_, hnext⟩
    unfold Sections.exec
    rw [hin]
  | exit x r =>
    obtain ⟨hin, hnext⟩ := h.exit hpc
    refine .inr ⟨.leave, _, ?_, hnext⟩
    unfold Sections.exec
    rw [hin]
  | clear =>
    -- whoever else is between the exchanges finds the flag clear
    refine .inl ⟨h.shared, h.log, h._mut, h.holding_update ?_ (fun _ _ _ => Iff.rfl), .inl rfl⟩
    intro c
    rw [← h.holding t c, hpc]
    exact Iff.rfl

/-- **`SafeAction` provides critical sections.** -/
theorem simulates_sections (m : Method Shared Arg Local Result) (_data : Shared) :
    Simulation (system Thread m _data) (Sections.system m _data) (Follows m) where
  init := by
    intro s hs
    cases hs
    refine ⟨Sections.new _data, rfl, rfl, rfl, rfl, ?_, .inl rfl⟩
    exact fun t c => iff_of_false nofun nofun
  step := by
    intro s l s' a h hstep
    cases l with
    | call t x =>
      simp only [system, System.ofExec, exec] at hstep
      split at hstep
      · next hpc =>
        cases hstep
        exact .inl (h.goto (by rw [hpc]; rfl) rfl (by rw [hpc]; exact False.elim))
      · cases hstep
    | step t =>
      cases hstep
      exact h.next t

/-- **Actions are serial and the flag is let go**: in every interleaving of any threads the
    actions that have made their last access, one after the other, each alone, give the
    data whenever nobody is inside the monitor, at most one thread is inside, and `_flag`
    is clear unless a thread is between its two exchanges. -/
theorem actions_serial_of_reachable (m : Method Shared Arg Local Result) (_data : Shared)
    (s : safe_actions Thread Shared Arg Local Result) (hr : (system Thread m _data).Reachable s) :
    (∃ data, m.Replays _data s.log data ∧
      ((∀ t, (s.pc t).holding = none) → data = s._data)) ∧
    (∀ t u, (s.pc t).holding ≠ none → (s.pc u).holding ≠ none → t = u) ∧
    (s._flag = 0 ∨ ∃ t, (s.pc t).Between) := by
  obtain ⟨a, ha, h⟩ := (simulates_sections m _data).exists_reachable hr
  obtain ⟨data, hlog, hfree⟩ := (Sections.serial_of_reachable m _data a ha).exists_replays
  refine ⟨?_, ?_, h._flag⟩
  · rw [← h.log]
    refine ⟨data, hlog, ?_⟩
    intro hnone
    refine (hfree ?_).trans h.shared
    by_contra hin
    obtain ⟨⟨t, c⟩, hc⟩ := Option.ne_none_iff_exists'.mp hin
    have ht := (h.holding t c).mpr hc
    rw [hnone] at ht
    cases ht
  · intro t u ht hu
    obtain ⟨c, hc⟩ := Option.ne_none_iff_exists'.mp ht
    obtain ⟨c', hc'⟩ := Option.ne_none_iff_exists'.mp hu
    have heq := ((h.holding t c).mp hc).symm.trans ((h.holding u c').mp hc')
    exact congrArg Prod.fst (Option.some.inj heq)

/-- Push a number. -/
def push : Method (List Nat) Nat Nat Unit where
  start := id
  access data x := (x :: data, .inr ())

/-- Both threads pass the wait before one of them sets the flag. -/
def both_pass : List (safe_action_step Nat Nat) :=
  [.call 0 5, .call 1 6, .step 0, .step 1, .step 0, .step 1] ++ List.replicate 4 (.step 0) ++
    List.replicate 2 (.step 1)

theorem serial_both_pass : ∃ s : safe_actions Nat (List Nat) Nat Nat Unit,
    s.log = [(0, 5, ()), (1, 6, ())] ∧ s._flag = 0 ∧
    (∃ data, push.Replays [] s.log data ∧
      ((∀ t, (s.pc t).holding = none) → data = s._data)) ∧
    (∀ t u, (s.pc t).holding ≠ none → (s.pc u).holding ≠ none → t = u) ∧
    (s._flag = 0 ∨ ∃ t, (s.pc t).Between) := by
  obtain ⟨s, hs, hlog, hflag⟩ : ∃ s : safe_actions Nat (List Nat) Nat Nat Unit,
      both_pass.foldlM (exec push) (new []) = some s ∧ s.log = [(0, 5, ()), (1, 6, ())] ∧
        s._flag = 0 := ⟨_, rfl, rfl, rfl⟩
  have hstart : ((system Nat push []).restrict fun _ _ => True).Reachable (new []) :=
    .init rfl
  have hreach := hstart.of_foldlM both_pass (fun _ _ _ => trivial) hs
  exact ⟨s, hlog, hflag, actions_serial_of_reachable push [] s hreach.of_restrict⟩

/-! ### Nobody waits in vain -/

/-- Thread `t` enters the monitor with this step. -/
def Enters (t : Thread) (s : safe_actions Thread Shared Arg Local Result)
    (l : safe_action_step Thread Arg) : Prop :=
  l = .step t ∧ s._mut = none ∧ ∃ a, s.pc t = .enter a

/-- A thread moves only with its own steps. -/
theorem pc_of_ne {s s' : safe_actions Thread Shared Arg Local Result}
    {l : safe_action_step Thread Arg} (h : s.exec m l = some s') {u : Thread} (hu : l ≠ .step u)
    (hidle : s.pc u ≠ .idle) : s'.pc u = s.pc u := by
  cases l with
  | call t x =>
    simp only [exec] at h
    split at h
    · next hpc =>
      cases h
      exact Function.update_of_ne (by rintro rfl; exact hidle hpc) _ _
    · cases h
  | step t =>
    cases h
    have hne : u ≠ t := by
      rintro rfl
      exact hu rfl
    unfold next access goto
    split
    · rfl
    · split
      · rfl
      · exact Function.update_of_ne hne _ _
    · exact Function.update_of_ne hne _ _
    · split
      · exact Function.update_of_ne hne _ _
      · rfl
    · split <;> exact Function.update_of_ne hne _ _
    · exact Function.update_of_ne hne _ _
    · exact Function.update_of_ne hne _ _

/-- A free monitor stays free until a thread enters. -/
theorem _mut_of_exec {s s' : safe_actions Thread Shared Arg Local Result}
    {l : safe_action_step Thread Arg} (h : s.exec m l = some s') (hfree : s._mut = none)
    (hnot : ∀ t, ¬ Enters t s l) : s'._mut = none := by
  cases l with
  | call t x =>
    simp only [exec] at h
    split at h
    · cases h
      exact hfree
    · cases h
  | step t =>
    cases h
    unfold next access goto
    split
    · exact hfree
    · split <;> exact hfree
    · exact hfree
    · next x hpc => exact absurd ⟨rfl, hfree, x, hpc⟩ (hnot t)
    · split <;> exact hfree
    · rfl
    · exact hfree

/-- A clear flag stays clear while no thread is about to set it. -/
theorem _flag_of_exec {s s' : safe_actions Thread Shared Arg Local Result}
    {l : safe_action_step Thread Arg} (h : s.exec m l = some s') (hclear : s._flag = 0)
    (hnot : ∀ t x, s.pc t ≠ .set x) : s'._flag = 0 := by
  cases l with
  | call t x =>
    simp only [exec] at h
    split at h
    · cases h
      exact hclear
    · cases h
  | step t =>
    cases h
    unfold next access goto
    split
    · exact hclear
    · split <;> exact hclear
    · next x hpc => exact absurd hpc (hnot t x)
    · split <;> exact hclear
    · split <;> exact hclear
    · exact hclear
    · rfl

/-- While a thread is in its action nobody else changes the data. -/
theorem Follows._data_of_ne (h : Follows m s a)
    {s' : safe_actions Thread Shared Arg Local Result} {l : safe_action_step Thread Arg}
    (hexec : s.exec m l = some s') {t : Thread} {x : Arg} {k : Local} (ht : s.pc t = .act x k)
    (hl : l ≠ .step t) : s'._data = s._data := by
  cases l with
  | call u y =>
    simp only [exec] at hexec
    split at hexec
    · cases hexec
      rfl
    · cases hexec
  | step u =>
    cases hexec
    have hne : u ≠ t := fun hut => hl (by rw [hut])
    unfold safe_actions.next safe_actions.access safe_actions.goto
    split
    · rfl
    · split <;> rfl
    · rfl
    · split <;> rfl
    · next y k' hpc =>
      -- two threads would be in their actions
      have hin := (h.holding t (x, .inl k)).mp (by rw [ht]; rfl)
      have hin' := (h.holding u (y, .inl k')).mp (by rw [hpc]; rfl)
      rw [hin, Option.some.injEq, Prod.mk.injEq] at hin'
      exact absurd hin'.1.symm hne
    · rfl
    · rfl

section Progress

variable {_data : Shared} (e : Execution (system Thread m _data))

/-- A thread in a call makes its next step from where it is. -/
theorem own_step (hfair : ∀ t, e.Repeats (· = .step t)) {n : Nat} {t : Thread}
    (ht : (e.state n).pc t ≠ .idle) :
    ∃ k, n ≤ k ∧ (e.state k).pc t = (e.state n).pc t ∧ e.label k = .step t := by
  obtain ⟨k, hk, hQ⟩ := e.eventually_of_rank (hfair t) (n := n)
    (P := fun s => s.pc t = (e.state n).pc t)
    (Q := fun s l => s.pc t = (e.state n).pc t ∧ l = .step t) (fun _ => 0) rfl
    (by
      intro k _ hP hnot
      have hl : e.label k ≠ .step t := fun hl => hnot ⟨hP, hl⟩
      exact ⟨(pc_of_ne (e.step k) hl (by rw [hP]; exact ht)).trans hP, Nat.le_refl _⟩)
    (by
      intro k _ hP hnot hl
      exact absurd ⟨hP, hl⟩ hnot)
  exact ⟨k, hk, hQ⟩

theorem exists_follows (hinit : e.state 0 = new _data) (k : Nat) :
    ∃ a, Follows m (e.state k) a := by
  obtain ⟨a, -, h⟩ := (simulates_sections m _data).exists_reachable (e.reachable hinit k)
  exact ⟨a, h⟩

/-- The state after a step of thread `t`. -/
theorem state_succ {k : Nat} {t : Thread} (hl : e.label k = .step t) :
    e.state (k + 1) = (e.state k).next m t := by
  have hstep := e.step k
  rw [hl] at hstep
  exact (Option.some.inj hstep).symm

/-- A thread in its action makes its next access to the data as it finds them: nobody else
    changes them meanwhile. -/
theorem own_access (hinit : e.state 0 = new _data) (hfair : ∀ t, e.Repeats (· = .step t))
    {n : Nat} {t : Thread} {x : Arg} {k : Local} (hpc : (e.state n).pc t = .act x k) :
    ∃ j, n ≤ j ∧ (e.state j).pc t = .act x k ∧ (e.state j)._data = (e.state n)._data ∧
      e.label j = .step t := by
  obtain ⟨j, hj, ⟨hsame, hdata⟩, hl⟩ := e.eventually_of_rank (hfair t) (n := n)
    (P := fun s => s.pc t = .act x k ∧ s._data = (e.state n)._data)
    (Q := fun s l => (s.pc t = .act x k ∧ s._data = (e.state n)._data) ∧ l = .step t)
    (fun _ => 0) ⟨hpc, rfl⟩
    (by
      intro j _ hP hnot
      have hl : e.label j ≠ .step t := fun hl => hnot ⟨hP, hl⟩
      obtain ⟨a, h⟩ := exists_follows e hinit j
      refine ⟨⟨?_, (h._data_of_ne (e.step j) hP.1 hl).trans hP.2⟩, Nat.le_refl _⟩
      rw [pc_of_ne (e.step j) hl (by rw [hP.1]; exact nofun)]
      exact hP.1)
    (by
      intro j _ hP hnot hl
      exact absurd ⟨hP, hl⟩ hnot)
  exact ⟨j, hj, hsame, hdata, hl⟩

/-- An action that has started ends. -/
theorem exits_of_act (hinit : e.state 0 = new _data) (hfair : ∀ t, e.Repeats (· = .step t))
    (size : Shared → Local → Nat)
    (hsize : ∀ s k k', (m.access s k).2 = .inl k' → size (m.access s k).1 k' < size s k)
    {t : Thread} {x : Arg} :
    ∀ (bound n : Nat) (k : Local), (e.state n).pc t = .act x k →
      size (e.state n)._data k < bound → ∃ j, n ≤ j ∧ ∃ r, (e.state j).pc t = .exit x r := by
  intro bound
  induction bound with
  | zero => exact fun _ _ _ hlt => absurd hlt (Nat.not_lt_zero _)
  | succ bound ih =>
    intro n k hpc hlt
    obtain ⟨j, hj, hsame, hdata, hl⟩ := own_access e hinit hfair hpc
    have hnext := state_succ e hl
    unfold next access at hnext
    rw [hsame] at hnext
    dsimp only at hnext
    split at hnext
    · next k' hacc =>
      have hpc' : (e.state (j + 1)).pc t = .act x k' := by
        rw [hnext]
        exact Function.update_self ..
      have hdata' : (e.state (j + 1))._data = (m.access (e.state j)._data k).1 := by
        rw [hnext]
      have hlt' := hsize _ _ _ hacc
      rw [← hdata] at hlt
      obtain ⟨i, hi, hexit⟩ := ih (j + 1) k' hpc' (by rw [hdata']; omega)
      exact ⟨i, by omega, hexit⟩
    · next r hacc =>
      refine ⟨j + 1, by omega, r, ?_⟩
      rw [hnext]
      exact Function.update_self ..

/-- The monitor is let go. -/
theorem exists_free (hinit : e.state 0 = new _data) (hfair : ∀ t, e.Repeats (· = .step t))
    (size : Shared → Local → Nat)
    (hsize : ∀ s k k', (m.access s k).2 = .inl k' → size (m.access s k).1 k' < size s k)
    (n : Nat) : ∃ k, n ≤ k ∧ (e.state k)._mut = none := by
  obtain ⟨a, h⟩ := exists_follows e hinit n
  cases hin : a.inside with
  | none =>
    refine ⟨n, Nat.le_refl n, ?_⟩
    rw [h._mut, hin]
    rfl
  | some c =>
    have hhold := (h.holding c.1 c.2).mpr hin
    obtain ⟨j, hj, x, r, hexit⟩ : ∃ j, n ≤ j ∧ ∃ x r, (e.state j).pc c.1 = .exit x r := by
      cases hpc : (e.state n).pc c.1 with
      | act x k =>
        obtain ⟨j, hj, r, hexit⟩ := exits_of_act e hinit hfair size hsize
          (size (e.state n)._data k + 1) n k hpc (Nat.lt_succ_self _)
        exact ⟨j, hj, x, r, hexit⟩
      | exit x r => exact ⟨n, Nat.le_refl n, x, r, hpc⟩
      | idle | wait x | set x | enter x | clear =>
        rw [hpc] at hhold
        cases hhold
    obtain ⟨i, hi, hsame, hl⟩ := own_step e hfair (t := c.1) (n := j)
      (by rw [hexit]; exact nofun)
    refine ⟨i + 1, by omega, ?_⟩
    rw [state_succ e hl]
    unfold next
    rw [hsame, hexit]

section Never

/-! What would be if no thread entered from step `n` on, with the monitor free. -/

variable {n : Nat}

theorem free_of_never (hnot : ∀ k, n ≤ k → ∀ t, ¬ Enters t (e.state k) (e.label k))
    (hfree : (e.state n)._mut = none) (k : Nat) (hk : n ≤ k) : (e.state k)._mut = none := by
  induction hk with
  | refl => exact hfree
  | step hk ih => exact _mut_of_exec (e.step _) ih (hnot _ hk)

/-- No thread is about to enter. -/
theorem not_enter_of_never (hfair : ∀ t, e.Repeats (· = .step t))
    (hnot : ∀ k, n ≤ k → ∀ t, ¬ Enters t (e.state k) (e.label k))
    (hfree : (e.state n)._mut = none) (k : Nat) (hk : n ≤ k) (t : Thread) (y : Arg) :
    (e.state k).pc t ≠ .enter y := by
  intro hpc
  obtain ⟨j, hj, hsame, hl⟩ := own_step e hfair (by rw [hpc]; exact nofun)
  exact hnot j (by omega) t
    ⟨hl, free_of_never e hnot hfree j (by omega), y, hsame.trans hpc⟩

/-- So no thread is about to set the flag either. -/
theorem not_set_of_never (hfair : ∀ t, e.Repeats (· = .step t))
    (hnot : ∀ k, n ≤ k → ∀ t, ¬ Enters t (e.state k) (e.label k))
    (hfree : (e.state n)._mut = none) (k : Nat) (hk : n ≤ k) (t : Thread) (y : Arg) :
    (e.state k).pc t ≠ .set y := by
  intro hpc
  obtain ⟨j, hj, hsame, hl⟩ := own_step e hfair (by rw [hpc]; exact nofun)
  refine not_enter_of_never e hfair hnot hfree (j + 1) (by omega) t y ?_
  rw [state_succ e hl]
  unfold next
  rw [hsame, hpc]
  exact Function.update_self ..

/-- The flag is cleared and stays clear. -/
theorem clear_of_never (hinit : e.state 0 = new _data) (hfair : ∀ t, e.Repeats (· = .step t))
    (hnot : ∀ k, n ≤ k → ∀ t, ¬ Enters t (e.state k) (e.label k))
    (hfree : (e.state n)._mut = none) :
    ∃ k, n ≤ k ∧ ∀ j, k ≤ j → (e.state j)._flag = 0 := by
  obtain ⟨k, hk, hclear⟩ : ∃ k, n ≤ k ∧ (e.state k)._flag = 0 := by
    obtain ⟨a, h⟩ := exists_follows e hinit n
    have hin : a.inside = none := Option.map_eq_none_iff.mp (h._mut.symm.trans hfree)
    rcases h._flag with hclear | ⟨t, ht⟩
    · exact ⟨n, Nat.le_refl n, hclear⟩
    · cases hpc : (e.state n).pc t with
      | clear =>
        -- it is about to be cleared
        obtain ⟨k, hk, hsame, hl⟩ := own_step e hfair (by rw [hpc]; exact nofun)
        refine ⟨k + 1, by omega, ?_⟩
        rw [state_succ e hl]
        unfold next
        rw [hsame, hpc]
      | enter y => exact absurd hpc (not_enter_of_never e hfair hnot hfree n (Nat.le_refl n) t y)
      | act y k =>
        have hin' := (h.holding t (y, .inl k)).mp (by rw [hpc]; rfl)
        rw [hin] at hin'
        cases hin'
      | exit y r =>
        have hin' := (h.holding t (y, .inr r)).mp (by rw [hpc]; rfl)
        rw [hin] at hin'
        cases hin'
      | idle | wait y | set y =>
        rw [hpc] at ht
        exact ht.elim
  refine ⟨k, hk, ?_⟩
  intro j hj
  induction hj with
  | refl => exact hclear
  | step hj ih =>
    exact _flag_of_exec (e.step _) ih (not_set_of_never e hfair hnot hfree _ (Nat.le_trans hk hj))

end Never

end Progress

end safe_actions

/-- The thread is in `SafeAction` and in front of the monitor. -/
def safe_action_pc.InFront : safe_action_pc Arg Local Result → Prop
  | .wait _ | .set _ | .enter _ => True
  | _ => False

namespace safe_actions

/-- It stays there until it enters. -/
theorem in_front_of_exec {s s' : safe_actions Thread Shared Arg Local Result}
    {l : safe_action_step Thread Arg} (h : s.exec m l = some s') {w : Thread}
    (hw : (s.pc w).InFront) (hnot : ¬ Enters w s l) : (s'.pc w).InFront := by
  by_cases hl : l = .step w
  · subst hl
    cases h
    unfold next goto
    cases hpc : s.pc w with
    | wait y =>
      dsimp only
      split
      · rw [hpc]
        trivial
      · show (Function.update s.pc w (.set y) w).InFront
        rw [Function.update_self]
        trivial
    | set y =>
      dsimp only
      rw [Function.update_self]
      trivial
    | enter y =>
      dsimp only
      split
      · next hfree => exact absurd ⟨rfl, hfree, y, hpc⟩ hnot
      · rw [hpc]
        trivial
    | idle | act y k | exit y r | clear =>
      rw [hpc] at hw
      exact hw.elim
  · have hidle : s.pc w ≠ .idle := by
      intro hpc
      rw [hpc] at hw
      exact hw
    rw [pc_of_ne h hl hidle]
    exact hw

/-- **No deadlock**: if every thread is scheduled again and again and every action ends,
    whatever data it starts on, a thread in front of the monitor does not wait in vain:
    it, or another one, enters later on. -/
theorem eventually_enters {_data : Shared} (e : Execution (system Thread m _data))
    (hinit : e.state 0 = new _data) (hfair : ∀ t, e.Repeats (· = .step t))
    (size : Shared → Local → Nat)
    (hsize : ∀ s k k', (m.access s k).2 = .inl k' → size (m.access s k).1 k' < size s k)
    {n : Nat} {w : Thread} (hw : ((e.state n).pc w).InFront) :
    ∃ k, n ≤ k ∧ ∃ t, Enters t (e.state k) (e.label k) := by
  by_contra hnever
  have hnot : ∀ k, n ≤ k → ∀ t, ¬ Enters t (e.state k) (e.label k) :=
    fun k hk t ht => hnever ⟨k, hk, t, ht⟩
  have hfront : ∀ k, n ≤ k → ((e.state k).pc w).InFront := by
    intro k hk
    induction hk with
    | refl => exact hw
    | step hk ih => exact in_front_of_exec (e.step _) ih (hnot _ hk w)
  -- some time after `n` the monitor is free and the flag clear, for ever
  obtain ⟨k₀, hk₀, hfree⟩ := exists_free e hinit hfair size hsize n
  have hnot₀ : ∀ k, k₀ ≤ k → ∀ t, ¬ Enters t (e.state k) (e.label k) :=
    fun k hk => hnot k (Nat.le_trans hk₀ hk)
  obtain ⟨k₁, hk₁, hclear⟩ := clear_of_never e hinit hfair hnot₀ hfree
  have hk : n ≤ k₁ := Nat.le_trans hk₀ hk₁
  -- the thread passes the wait, so it is about to set the flag: but nobody is
  cases hpc : (e.state k₁).pc w with
  | wait y =>
    obtain ⟨j, hj, hsame, hl⟩ := own_step e hfair (by rw [hpc]; exact nofun)
    refine not_set_of_never e hfair hnot₀ hfree (j + 1) (by omega) w y ?_
    rw [state_succ e hl]
    unfold next
    rw [hsame, hpc]
    dsimp only
    rw [hclear j hj, if_neg (by decide)]
    exact Function.update_self ..
  | set y => exact not_set_of_never e hfair hnot₀ hfree k₁ hk₁ w y hpc
  | enter y => exact not_enter_of_never e hfair hnot₀ hfree k₁ hk₁ w y hpc
  | idle | act y k | exit y r | clear =>
    have hw₁ := hfront k₁ hk
    rw [hpc] at hw₁
    exact hw₁

/-- Two threads call and then take turns for ever. -/
def round_robin : Nat → safe_action_step Bool Nat
  | 0 => .call false 5
  | 1 => .call true 6
  | n + 2 => .step (n % 2 == 1)

def taking_turns : Nat → safe_actions Bool (List Nat) Nat Nat Unit
  | 0 => new []
  | n + 1 => ((taking_turns n).exec push (round_robin n)).getD (taking_turns n)

def turns : Execution (system Bool push []) where
  state := taking_turns
  label := round_robin
  step
    | 0 => rfl
    | 1 => rfl
    | _ + 2 => rfl

theorem eventually_enters_turns : ∃ k, 2 ≤ k ∧ ∃ t, Enters t (turns.state k) (turns.label k) := by
  refine eventually_enters turns rfl ?_ (fun _ => id) nofun (n := 2) (w := true) trivial
  intro t n
  refine ⟨2 * n + t.toNat + 2, by omega, ?_⟩
  show safe_action_step.step ((2 * n + t.toNat) % 2 == 1) = .step t
  cases t <;> simp [Nat.add_mod]

end safe_actions

end AsioNet.CsNetwork
