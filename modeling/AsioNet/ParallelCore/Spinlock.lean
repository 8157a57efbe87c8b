import AsioNet.Library.CriticalSections
import AsioNet.Library.Executions
import Mathlib.Logic.Function.Basic

/-! # The spin lock (`parallel_core/Spinlock.hpp`)

    `lock` takes `lock_variable` with a compare-exchange and then stores the
    thread in `owner`; `unlock` loads both before it clears the first. Each of
    these is a step of its own, and the steps of any threads interleave. What a
    thread does between the two is a `Method`: a `SpinlockHolder` locks, the
    accesses of its scope follow, and its destructor unlocks.

    `owner` keeps the last owner while the lock is free, and until the next one
    has stored itself. A thread without the lock may call `unlock` at any time
    unless it is this last owner: then it can take the lock away from a thread
    that has just got it (`not_exclusive_stale`).
-/

namespace AsioNet

open TransitionSystem CriticalSections

structure Spinlock (Thread : Type) where
  lock_variable : Bool
  /-- "valid only when lock_cond is true"; none is the thread id that no thread has. -/
  owner : Option Thread
  deriving DecidableEq

/-- Where a thread is. In `unlock`, `c` is the call whose scope ends with its result, and
    none when the thread has not called `lock`. -/
inductive spin_pc (Arg Local Result : Type) where
  | idle
  /-- before `compare_exchange_strong` -/
  | compare_exchange (a : Arg)
  /-- before `owner.store` -/
  | store_owner (a : Arg)
  /-- `lock` has returned -/
  | inside (a : Arg) (k : Local)
  /-- before `lock_variable.load` -/
  | load_variable (c : Option (Arg × Result))
  /-- before `owner.load` -/
  | load_owner (c : Option (Arg × Result))
  /-- before `lock_variable.store(false)` -/
  | store_variable (c : Option (Arg × Result))

/-- The threads, the lock and what it guards. -/
structure spin_threads (Thread Shared Arg Local Result : Type) where
  lock : Spinlock Thread
  shared : Shared
  pc : Thread → spin_pc Arg Local Result
  /-- The calls that have made their last access. -/
  log : List (Thread × Arg × Result)
  /-- For each call of `unlock` whether its thread had called `lock`, and what it returned. -/
  unlocks : List (Bool × Bool)

inductive spin_step (Thread Arg : Type) where
  /-- a call that makes a `SpinlockHolder` -/
  | call (t : Thread) (a : Arg)
  /-- `unlock` without `lock` -/
  | unlock (t : Thread)
  /-- the next access of a thread -/
  | step (t : Thread)
  deriving DecidableEq

variable {Thread Shared Arg Local Result : Type} [DecidableEq Thread]

namespace spin_threads

def goto (s : spin_threads Thread Shared Arg Local Result) (t : Thread)
    (pc : spin_pc Arg Local Result) : spin_threads Thread Shared Arg Local Result :=
  { s with pc := Function.update s.pc t pc }

/-- `unlock` returns `b`. -/
def return_unlock (s : spin_threads Thread Shared Arg Local Result) (t : Thread)
    (c : Option (Arg × Result)) (b : Bool) : spin_threads Thread Shared Arg Local Result :=
  { s.goto t .idle with unlocks := s.unlocks ++ [(c.isSome, b)] }

/-- The next access of the call inside. After the last one the destructor calls `unlock`. -/
def access (m : Method Shared Arg Local Result)
    (s : spin_threads Thread Shared Arg Local Result) (t : Thread) (a : Arg) (k : Local) :
    spin_threads Thread Shared Arg Local Result :=
  match (m.access s.shared k).2 with
  | .inl k' => { s.goto t (.inside a k') with shared := (m.access s.shared k).1 }
  | .inr r =>
    { s.goto t (.load_variable (some (a, r))) with
      shared := (m.access s.shared k).1
      log := s.log ++ [(t, a, r)] }

/-- The next access of thread `t`. -/
def next (m : Method Shared Arg Local Result) (s : spin_threads Thread Shared Arg Local Result)
    (t : Thread) : spin_threads Thread Shared Arg Local Result :=
  match s.pc t with
  | .idle => s
  | .compare_exchange a =>
    if s.lock.lock_variable then s
    else { s.goto t (.store_owner a) with lock := { s.lock with lock_variable := true } }
  | .store_owner a =>
    { s.goto t (.inside a (m.start a)) with lock := { s.lock with owner := some t } }
  | .inside a k => s.access m t a k
  | .load_variable c =>
    if s.lock.lock_variable then s.goto t (.load_owner c) else s.return_unlock t c false
  | .load_owner c =>
    if s.lock.owner = some t then s.goto t (.store_variable c) else s.return_unlock t c false
  | .store_variable c =>
    { s.return_unlock t c true with lock := { s.lock with lock_variable := false } }

def exec (m : Method Shared Arg Local Result) (s : spin_threads Thread Shared Arg Local Result) :
    spin_step Thread Arg → Option (spin_threads Thread Shared Arg Local Result)
  | .call t a =>
    match s.pc t with
    | .idle => some (s.goto t (.compare_exchange a))
    | _ => none
  | .unlock t =>
    match s.pc t with
    | .idle => some (s.goto t (.load_variable none))
    | _ => none
  | .step t => some (s.next m t)

def new (shared : Shared) : spin_threads Thread Shared Arg Local Result where
  lock := ⟨false, none⟩
  shared := shared
  pc _ := .idle
  log := []
  unlocks := []

variable (Thread) in
def system (m : Method Shared Arg Local Result) (shared : Shared) :
    System (spin_threads Thread Shared Arg Local Result) (spin_step Thread Arg) :=
  System.ofExec (fun s => s = new shared) (exec m)

/-- What a step can do: a thread that is not in the code of the lock enters it, or a thread
    goes on. -/
theorem exec_cases {m : Method Shared Arg Local Result}
    {s s' : spin_threads Thread Shared Arg Local Result} {l : spin_step Thread Arg}
    (h : s.exec m l = some s') :
    (∃ t a, l = .call t a ∧ s.pc t = .idle ∧ s' = s.goto t (.compare_exchange a)) ∨
    (∃ t, l = .unlock t ∧ s.pc t = .idle ∧ s' = s.goto t (.load_variable none)) ∨
    ∃ t, l = .step t ∧ s' = s.next m t := by
  cases l with
  | call t a =>
    simp only [exec] at h
    split at h
    · next hpc => exact .inl ⟨t, a, rfl, hpc, (Option.some.inj h).symm⟩
    · cases h
  | unlock t =>
    simp only [exec] at h
    split at h
    · next hpc => exact .inr (.inl ⟨t, rfl, hpc, (Option.some.inj h).symm⟩)
    · cases h
  | step t => exact .inr (.inr ⟨t, rfl, (Option.some.inj h).symm⟩)

/-- A thread that has not called `lock` does not call `unlock` while it is the last owner. -/
def NotStale (s : spin_threads Thread Shared Arg Local Result) : spin_step Thread Arg → Prop
  | .unlock t => s.lock.owner ≠ some t
  | _ => True

instance instDecidableNotStale (s : spin_threads Thread Shared Arg Local Result)
    (l : spin_step Thread Arg) : Decidable (s.NotStale l) :=
  match l with
  | .call _ _ => isTrue trivial
  | .unlock t => inferInstanceAs (Decidable (s.lock.owner ≠ some t))
  | .step _ => isTrue trivial

end spin_threads

/-! ### The lock excludes -/

namespace spin_pc

/-- The call of a thread between its compare-exchange and the store that undoes it, with
    its next access or its result. -/
def holding (m : Method Shared Arg Local Result) :
    spin_pc Arg Local Result → Option (Arg × (Local ⊕ Result))
  | .store_owner a => some (a, .inl (m.start a))
  | .inside a k => some (a, .inl k)
  | .load_variable c | .load_owner c | .store_variable c => c.map fun c => (c.1, .inr c.2)
  | .idle | .compare_exchange _ => none

/-- The call of a thread that has not made its last access. -/
def pending : spin_pc Arg Local Result → Option Arg
  | .compare_exchange a | .store_owner a | .inside a _ => some a
  | _ => none

/-- The thread holds the lock and has stored itself. -/
def Owns : spin_pc Arg Local Result → Prop
  | .inside _ _ => True
  | .load_variable c | .load_owner c | .store_variable c => c.isSome
  | _ => False

/-- The thread is in `unlock` without the lock. -/
def Strays : spin_pc Arg Local Result → Prop
  | .load_variable c | .load_owner c | .store_variable c => c = none
  | _ => False

theorem Owns.holding_ne_none {m : Method Shared Arg Local Result}
    {pc : spin_pc Arg Local Result} (h : pc.Owns) : pc.holding m ≠ none := by
  cases pc with
  | inside x k => exact Option.some_ne_none _
  | load_variable c | load_owner c | store_variable c =>
    obtain ⟨c, rfl⟩ := Option.isSome_iff_exists.mp h
    exact Option.some_ne_none _
  | idle | compare_exchange x | store_owner x => exact h.elim

end spin_pc

/-- The call inside, if it is one of `t`. -/
def inside_of (inside : Option (Thread × Arg × (Local ⊕ Result))) (t : Thread) :
    Option (Arg × (Local ⊕ Result)) :=
  inside.bind fun c => if c.1 = t then some c.2 else none

omit [DecidableEq Thread] in
@[simp] theorem inside_of_none [DecidableEq Thread] (t : Thread) :
    inside_of (none : Option (Thread × Arg × (Local ⊕ Result))) t = none := rfl

@[simp] theorem inside_of_self (t : Thread) (c : Arg × (Local ⊕ Result)) :
    inside_of (some (t, c)) t = some c := by
  simp [inside_of]

theorem inside_of_ne {t u : Thread} (h : t ≠ u) (c : Arg × (Local ⊕ Result)) :
    inside_of (some (t, c)) u = none := by
  simp [inside_of, h]

/-- The call inside is that of the only thread `inside_of` finds. -/
theorem eq_of_inside_of {inside : Option (Thread × Arg × (Local ⊕ Result))} {t : Thread}
    {c : Arg × (Local ⊕ Result)} (h : inside_of inside t = some c) : inside = some (t, c) := by
  unfold inside_of at h
  obtain ⟨⟨u, c'⟩, rfl, hc⟩ := Option.bind_eq_some_iff.mp h
  split at hc
  · next heq =>
    cases heq
    cases hc
    rfl
  · cases hc

/-- What is true of a thread when `inside` is the call inside. -/
structure spin_pc.Follows (m : Method Shared Arg Local Result) (lock : Spinlock Thread)
    (inside : Option (Thread × Arg × (Local ⊕ Result))) (t : Thread)
    (pc : spin_pc Arg Local Result) : Prop where
  holding : pc.holding m = inside_of inside t
  owner : pc.Owns → lock.owner = some t
  stray : pc.Strays → lock.owner ≠ some t ∧ pc ≠ .store_variable none

namespace spin_threads

/-- The threads of the spin lock and the threads of the critical sections. -/
structure Follows (m : Method Shared Arg Local Result)
    (s : spin_threads Thread Shared Arg Local Result)
    (a : Sections Thread Shared Arg Local Result) : Prop where
  shared : a.shared = s.shared
  log : a.log = s.log
  lock_variable : s.lock.lock_variable = a.inside.isSome
  thread : ∀ t, (s.pc t).Follows m s.lock a.inside t
  unlocks : ∀ u ∈ s.unlocks, u.2 = u.1

variable {m : Method Shared Arg Local Result} {s : spin_threads Thread Shared Arg Local Result}
  {a : Sections Thread Shared Arg Local Result}

/-- One thread moves on; for the others nothing changes that they rely on. -/
theorem Follows.thread_update (h : Follows m s a) {lock : Spinlock Thread}
    {inside : Option (Thread × Arg × (Local ⊕ Result))} {t : Thread}
    {pc : spin_pc Arg Local Result} (hpc : pc.Follows m lock inside t)
    (hinside : ∀ u, u ≠ t → inside_of inside u = inside_of a.inside u)
    (hown : ∀ u, u ≠ t → (s.pc u).Owns → s.lock.owner = some u → lock.owner = some u)
    (hstray : ∀ u, u ≠ t → lock.owner = some u → s.lock.owner = some u) :
    ∀ u, (Function.update s.pc t pc u).Follows m lock inside u := by
  intro u
  by_cases hu : u = t
  · rw [hu, Function.update_self]
    exact hpc
  · rw [Function.update_of_ne hu]
    have hold := h.thread u
    refine ⟨hold.holding.trans (hinside u hu).symm, ?_, ?_⟩
    · intro howns
      exact hown u hu howns (hold.owner howns)
    · intro hs
      exact ⟨fun heq => (hold.stray hs).1 (hstray u hu heq), (hold.stray hs).2⟩

/-- A thread that goes on in its call, without the lock changing. -/
theorem Follows.goto (h : Follows m s a) {t : Thread} {pc : spin_pc Arg Local Result}
    (hpc : pc.Follows m s.lock a.inside t) : Follows m (s.goto t pc) a where
  shared := h.shared
  log := h.log
  lock_variable := h.lock_variable
  thread := h.thread_update hpc (fun _ _ => rfl) (fun _ _ _ hu => hu) (fun _ _ hu => hu)
  unlocks := h.unlocks

/-- The call inside is that of the thread that holds. -/
theorem Follows.inside_eq (h : Follows m s a) {t : Thread} {c : Arg × (Local ⊕ Result)}
    (hc : (s.pc t).holding m = some c) : a.inside = some (t, c) :=
  eq_of_inside_of ((h.thread t).holding.symm.trans hc)

/-- The lock is free for nobody else while a thread holds it. -/
theorem Follows.holding_unique (h : Follows m s a) {t u : Thread}
    (ht : (s.pc t).holding m ≠ none) (hu : (s.pc u).holding m ≠ none) : t = u := by
  obtain ⟨c, hc⟩ := Option.ne_none_iff_exists'.mp ht
  obtain ⟨c', hc'⟩ := Option.ne_none_iff_exists'.mp hu
  have heq := (h.inside_eq hc).symm.trans (h.inside_eq hc')
  exact congrArg Prod.fst (Option.some.inj heq)

/-- The compare-exchange of a thread enters the critical section. -/
theorem Follows.compare_exchange (h : Follows m s a) {t : Thread} {x : Arg}
    (hfree : s.lock.lock_variable = false) :
    Follows m { s.goto t (.store_owner x) with lock := { s.lock with lock_variable := true } }
      { a with inside := some (t, x, .inl (m.start x)) } := by
  have hnone : a.inside = none := by
    have hvar := h.lock_variable
    rw [hfree] at hvar
    exact Option.isNone_iff_eq_none.mp (by simpa using hvar.symm)
  refine ⟨h.shared, h.log, rfl, h.thread_update ?_ ?_ ?_ ?_, h.unlocks⟩
  · exact ⟨(inside_of_self _ _).symm, fun hown => hown.elim, fun hs => hs.elim⟩
  · intro u hu
    rw [inside_of_ne (Ne.symm hu), hnone, inside_of_none]
  · exact fun _ _ _ hu => hu
  · exact fun _ _ hu => hu

/-- The thread that holds the lock stores itself. -/
theorem Follows.store_owner (h : Follows m s a) {t : Thread} {x : Arg}
    (hpc : s.pc t = .store_owner x) :
    Follows m { s.goto t (.inside x (m.start x)) with lock := { s.lock with owner := some t } }
      a := by
  have hc : (s.pc t).holding m = some (x, .inl (m.start x)) := by rw [hpc]; rfl
  refine ⟨h.shared, h.log, h.lock_variable, h.thread_update ?_ ?_ ?_ ?_, h.unlocks⟩
  · refine ⟨?_, fun _ => rfl, fun hs => hs.elim⟩
    rw [h.inside_eq hc, inside_of_self]
    rfl
  · exact fun _ _ => rfl
  · -- nobody else holds it, so nobody else relies on the old owner
    intro u hu howns _
    have ht : (s.pc t).holding m ≠ none := by
      rw [hc]
      exact Option.some_ne_none _
    exact absurd (h.holding_unique howns.holding_ne_none ht) hu
  · intro u hu heq
    exact absurd (Option.some.inj heq).symm hu

/-- An access of the thread inside is one of the critical section. -/
theorem Follows.access (h : Follows m s a) {t : Thread} {x : Arg} {k : Local}
    (hpc : s.pc t = .inside x k) :
    a.inside = some (t, x, .inl k) ∧ Follows m (s.access m t x k) (a.doAccess m t x k) := by
  have hin : a.inside = some (t, x, .inl k) := h.inside_eq (by rw [hpc]; rfl)
  have howner : s.lock.owner = some t := (h.thread t).owner (by rw [hpc]; trivial)
  refine ⟨hin, ?_⟩
  unfold spin_threads.access Sections.doAccess
  rw [h.shared, h.log]
  have hothers : ∀ c : Local ⊕ Result, ∀ u, u ≠ t →
      inside_of (some (t, x, c)) u = inside_of a.inside u := by
    intro c u hu
    rw [hin, inside_of_ne (Ne.symm hu), inside_of_ne (Ne.symm hu)]
  -- the thread stays inside, or has made its last access
  cases hacc : (m.access s.shared k).2 with
  | inl k' =>
    refine ⟨rfl, rfl, ?_, h.thread_update ?_ (hothers _) ?_ ?_, h.unlocks⟩
    · exact h.lock_variable.trans (by rw [hin]; rfl)
    · exact ⟨(inside_of_self _ _).symm, fun _ => howner, fun hs => hs.elim⟩
    · exact fun _ _ _ hu => hu
    · exact fun _ _ hu => hu
  | inr r =>
    refine ⟨rfl, rfl, ?_, h.thread_update ?_ (hothers _) ?_ ?_, h.unlocks⟩
    · exact h.lock_variable.trans (by rw [hin]; rfl)
    · exact ⟨(inside_of_self _ _).symm, fun _ => howner, fun hs => nomatch hs⟩
    · exact fun _ _ _ hu => hu
    · exact fun _ _ hu => hu

/-- `unlock` without the lock returns `false`, before it stores anything. -/
theorem Follows.return_false (h : Follows m s a) {t : Thread}
    (hnone : (s.pc t).holding m = none) : Follows m (s.return_unlock t none false) a where
  shared := h.shared
  log := h.log
  lock_variable := h.lock_variable
  thread := by
    refine h.thread_update ?_ (fun _ _ => rfl) (fun _ _ _ hu => hu) (fun _ _ hu => hu)
    exact ⟨hnone.symm.trans (h.thread t).holding, fun hown => hown.elim, fun hs => hs.elim⟩
  unlocks := by
    intro u hu
    rcases List.mem_append.mp hu with hold | hnew
    · exact h.unlocks u hold
    · cases List.mem_singleton.mp hnew
      rfl

/-- The store of the holder ends the critical section. -/
theorem Follows.store_variable (h : Follows m s a) {t : Thread} {c : Arg × Result}
    (hpc : s.pc t = .store_variable (some c)) :
    a.inside = some (t, c.1, .inr c.2) ∧
    Follows m
      { s.return_unlock t (some c) true with lock := { s.lock with lock_variable := false } }
      { a with inside := none } := by
  have hin : a.inside = some (t, c.1, .inr c.2) := h.inside_eq (by rw [hpc]; rfl)
  refine ⟨hin, h.shared, h.log, rfl, h.thread_update ?_ ?_ ?_ ?_, ?_⟩
  · exact ⟨rfl, fun hown => hown.elim, fun hs => hs.elim⟩
  · intro u hu
    rw [hin, inside_of_ne (Ne.symm hu), inside_of_none]
  · exact fun _ _ _ hu => hu
  · exact fun _ _ hu => hu
  · intro u hu
    rcases List.mem_append.mp hu with hold | hnew
    · exact h.unlocks u hold
    · cases List.mem_singleton.mp hnew
      rfl

/-- A step of a thread is a step of the critical sections, or none. -/
theorem Follows.next (h : Follows m s a) (t : Thread) :
    Follows m (s.next m t) a ∨ ∃ l a', a.exec m l = some a' ∧ Follows m (s.next m t) a' := by
  unfold spin_threads.next
  have ht := h.thread t
  cases hpc : s.pc t with
  | idle => exact .inl h
  | compare_exchange x =>
    cases hfree : s.lock.lock_variable with
    | true =>
      -- the exchange fails and the thread spins
      exact .inl h
    | false =>
      refine .inr ⟨.enter t x, _, ?_, h.compare_exchange hfree⟩
      have hvar := h.lock_variable
      rw [hfree] at hvar
      unfold Sections.exec
      rw [Option.isSome_eq_false_iff.mp hvar.symm |> Option.isNone_iff_eq_none.mp]
  | store_owner x => exact .inl (h.store_owner hpc)
  | inside x k =>
    obtain ⟨hin, hnext⟩ := h.access hpc
    refine .inr ⟨.access, _, ?_, hnext⟩
    unfold Sections.exec
    rw [hin]
  | load_variable c =>
    rw [hpc] at ht
    cases c with
    | none =>
      -- a thread that has not called `lock` may read the variable of another one's lock
      dsimp only
      split
      · refine .inl (h.goto ⟨ht.holding, fun hown => (nomatch hown), ?_⟩)
        exact fun _ => ⟨(ht.stray rfl).1, nofun⟩
      · exact .inl (h.return_false (by rw [hpc]; rfl))
    | some c =>
      dsimp only
      -- the holder finds the lock taken
      have hin : a.inside = some (t, c.1, .inr c.2) := h.inside_eq (by rw [hpc]; rfl)
      rw [if_pos (by rw [h.lock_variable, hin]; rfl)]
      exact .inl (h.goto ⟨ht.holding, fun _ => ht.owner rfl, fun hs => nomatch hs⟩)
  | load_owner c =>
    rw [hpc] at ht
    cases c with
    | none =>
      -- but it is not the owner, whoever took the lock in the meantime
      dsimp only
      rw [if_neg (ht.stray rfl).1]
      exact .inl (h.return_false (by rw [hpc]; rfl))
    | some c =>
      dsimp only
      rw [if_pos (ht.owner rfl)]
      exact .inl (h.goto ⟨ht.holding, fun _ => ht.owner rfl, fun hs => nomatch hs⟩)
  | store_variable c =>
    rw [hpc] at ht
    cases c with
    | none => exact absurd rfl (ht.stray rfl).2
    | some c =>
      obtain ⟨hin, hnext⟩ := h.store_variable hpc
      refine .inr ⟨.leave, _, ?_, hnext⟩
      unfold Sections.exec
      rw [hin]

/-- **The spin lock provides critical sections.** -/
theorem simulates_sections (m : Method Shared Arg Local Result) (shared : Shared) :
    Simulation ((system Thread m shared).restrict NotStale)
      (Sections.system m shared) (Follows m) where
  init := by
    intro s hs
    cases hs
    refine ⟨Sections.new shared, rfl, rfl, rfl, rfl, ?_, ?_⟩
    · intro t
      exact ⟨rfl, fun hown => hown.elim, fun hs => hs.elim⟩
    · intro u hu
      cases hu
  step := by
    intro s l s' a h ⟨hguard, hstep⟩
    rcases exec_cases hstep with ⟨t, x, rfl, hpc, rfl⟩ | ⟨t, rfl, hpc, rfl⟩ | ⟨t, rfl, rfl⟩
    · have ht := h.thread t
      rw [hpc] at ht
      exact .inl (h.goto ⟨ht.holding, fun hown => hown.elim, fun hs => hs.elim⟩)
    · have ht := h.thread t
      rw [hpc] at ht
      exact .inl (h.goto ⟨ht.holding, fun hown => (nomatch hown), fun _ => ⟨hguard, nofun⟩⟩)
    · exact h.next t

/-- What a step keeps of the relation. -/
theorem Follows.exec (h : Follows m s a) {s' : spin_threads Thread Shared Arg Local Result}
    {l : spin_step Thread Arg} (hguard : s.NotStale l) (hexec : s.exec m l = some s') :
    ∃ a', Follows m s' a' := by
  rcases (simulates_sections m s.shared).step s l s' a h ⟨hguard, hexec⟩ with
    h' | ⟨_, a', _, h'⟩
  · exact ⟨a, h'⟩
  · exact ⟨a', h'⟩

/-- At most one thread is between its compare-exchange and the store that undoes it, and
    `unlock` returns `true` exactly when its thread has called `lock`. -/
theorem exclusive_of_reachable (m : Method Shared Arg Local Result) (shared : Shared) :
    ∀ s : spin_threads Thread Shared Arg Local Result,
      ((system Thread m shared).restrict NotStale).Reachable s →
      (∀ t u, (s.pc t).holding m ≠ none → (s.pc u).holding m ≠ none → t = u) ∧
      ∀ u ∈ s.unlocks, u.2 = u.1 := by
  intro s hr
  obtain ⟨a, -, h⟩ := (simulates_sections m shared).exists_reachable hr
  exact ⟨fun t u ht hu => h.holding_unique ht hu, h.unlocks⟩

/-- The calls that have made their last access, each alone, return what they returned and
    leave the guarded state as it is whenever nobody holds the lock. -/
theorem serial_of_reachable (m : Method Shared Arg Local Result) (shared : Shared) :
    ∀ s : spin_threads Thread Shared Arg Local Result,
      ((system Thread m shared).restrict NotStale).Reachable s →
      ∃ s₀, m.Replays shared s.log s₀ ∧
        ((∀ t, (s.pc t).holding m = none) → s₀ = s.shared) := by
  intro s hr
  obtain ⟨a, ha, h⟩ := (simulates_sections m shared).exists_reachable hr
  obtain ⟨s₀, hlog, hfree⟩ := (Sections.serial_of_reachable m shared a ha).exists_replays
  rw [← h.log]
  refine ⟨s₀, hlog, ?_⟩
  intro hnone
  refine (hfree ?_).trans h.shared
  -- the call inside would be one of a thread that holds the lock
  by_contra hin
  obtain ⟨⟨t, c⟩, hc⟩ := Option.ne_none_iff_exists'.mp hin
  have ht := (h.thread t).holding
  rw [hnone, hc, inside_of_self] at ht
  cases ht

/-- **The lock guards what its holders access**: in every interleaving of any number of
    threads, as long as no last owner calls `unlock` without `lock`, at most one thread
    holds the lock, `unlock` returns `true` exactly when its thread has called `lock`, and
    the calls have the effect and the results of calls that run alone, one after the other
    in the order of their last accesses. -/
theorem lock_guards_of_reachable (m : Method Shared Arg Local Result) (shared : Shared)
    (s : spin_threads Thread Shared Arg Local Result)
    (hr : ((system Thread m shared).restrict NotStale).Reachable s) :
    (∀ t u, (s.pc t).holding m ≠ none → (s.pc u).holding m ≠ none → t = u) ∧
    (∀ u ∈ s.unlocks, u.2 = u.1) ∧
    ∃ s₀, m.Replays shared s.log s₀ ∧ ((∀ t, (s.pc t).holding m = none) → s₀ = s.shared) := by
  obtain ⟨hunique, hunlocks⟩ := exclusive_of_reachable m shared s hr
  exact ⟨hunique, hunlocks, serial_of_reachable m shared s hr⟩

/-- Load a number, and store it plus one. -/
def fetch_add : Method Nat Unit (Option Nat) Nat where
  start _ := none
  access
    | n, none => (n, .inl (some n))
    | _, some n => (n + 1, .inr n)

/-- Thread 1 waits for thread 0, and thread 2 unlocks in vain. -/
def two_calls : List (spin_step Nat Unit) :=
  [.call 0 (), .step 0, .call 1 (), .step 1, .unlock 2, .step 2, .step 0, .step 2] ++
    List.replicate 5 (.step 0) ++ List.replicate 7 (.step 1)

theorem exists_two_calls : ∃ s : spin_threads Nat Nat Unit (Option Nat) Nat,
    ((system Nat fetch_add 7).restrict NotStale).Reachable s ∧
    s.log = [(0, (), 7), (1, (), 8)] ∧
    s.unlocks = [(false, false), (true, true), (true, true)] := by
  have hstart : ((system Nat fetch_add 7).restrict NotStale).Reachable (new 7) :=
    .init rfl
  obtain ⟨s, hs, hlists⟩ : ∃ s, two_calls.foldlM
      (fun s l => if NotStale s l then exec fetch_add s l else none) (new 7) = some s ∧
        s.log = [(0, (), 7), (1, (), 8)] ∧
        s.unlocks = [(false, false), (true, true), (true, true)] := ⟨_, rfl, rfl, rfl⟩
  obtain ⟨hreach, -⟩ := System.Reachable.of_guarded_foldlM hstart _ hs
  exact ⟨s, hreach, hlists⟩

theorem guards_two_calls : ∃ s : spin_threads Nat Nat Unit (Option Nat) Nat,
    s.log = [(0, (), 7), (1, (), 8)] ∧
    s.unlocks = [(false, false), (true, true), (true, true)] ∧
    (∀ t u, (s.pc t).holding fetch_add ≠ none → (s.pc u).holding fetch_add ≠ none → t = u) ∧
    (∀ u ∈ s.unlocks, u.2 = u.1) ∧
    ∃ s₀, fetch_add.Replays 7 s.log s₀ ∧
      ((∀ t, (s.pc t).holding fetch_add = none) → s₀ = s.shared) := by
  obtain ⟨s, hreach, hlog, hunlocks⟩ := exists_two_calls
  exact ⟨s, hlog, hunlocks, lock_guards_of_reachable fetch_add 7 s hreach⟩

/-- Thread 1 has taken the lock and not yet stored itself when thread 0, its last owner,
    unlocks once more. -/
def stale_unlock : List (spin_step Nat Unit) :=
  .call 0 () :: List.replicate 7 (.step 0) ++ [.call 1 (), .step 1] ++
    .unlock 0 :: List.replicate 3 (.step 0) ++ [.call 2 (), .step 2]

theorem not_exclusive_stale : ∃ s : spin_threads Nat Nat Unit (Option Nat) Nat,
    (system Nat fetch_add 7).Reachable s ∧
    (s.pc 1).holding fetch_add ≠ none ∧ (s.pc 2).holding fetch_add ≠ none := by
  obtain ⟨s, hs, hboth⟩ : ∃ s, stale_unlock.foldlM (exec fetch_add) (new 7) = some s ∧
      ((s.pc 1).holding fetch_add).isSome ∧ ((s.pc 2).holding fetch_add).isSome :=
    ⟨_, rfl, rfl, rfl⟩
  have hreach : ((system Nat fetch_add 7).restrict fun _ _ => True).Reachable s :=
    .of_foldlM (.init rfl) _ (fun _ _ _ => trivial) hs
  exact ⟨s, hreach.of_restrict, Option.isSome_iff_ne_none.mp hboth.1,
    Option.isSome_iff_ne_none.mp hboth.2⟩

/-! ### Somebody gets the lock -/

/-- Thread `t` takes the lock with this step. -/
def Takes (t : Thread) (s : spin_threads Thread Shared Arg Local Result)
    (l : spin_step Thread Arg) : Prop :=
  l = .step t ∧ s.lock.lock_variable = false ∧ ∃ a, s.pc t = .compare_exchange a

/-- Thread `t` releases the lock with this step. -/
def Releases (t : Thread) (s : spin_threads Thread Shared Arg Local Result)
    (l : spin_step Thread Arg) : Prop :=
  l = .step t ∧ ∃ c, s.pc t = .store_variable (some c)

/-- The accesses that a thread with the lock has before it, at most; `size` bounds those
    of a call, which depend on what the lock guards. -/
def rank (m : Method Shared Arg Local Result) (size : Shared → Local → Nat) (shared : Shared) :
    spin_pc Arg Local Result → Nat
  | .idle | .compare_exchange _ => 0
  | .store_owner a => size shared (m.start a) + 5
  | .inside _ k => size shared k + 4
  | .load_variable _ => 3
  | .load_owner _ => 2
  | .store_variable _ => 1

/-- A thread moves only with its own steps. -/
theorem pc_of_ne {s s' : spin_threads Thread Shared Arg Local Result}
    {l : spin_step Thread Arg} (h : s.exec m l = some s') {u : Thread} (hu : l ≠ .step u)
    (hidle : s.pc u ≠ .idle) : s'.pc u = s.pc u := by
  rcases exec_cases h with ⟨t, x, rfl, hpc, rfl⟩ | ⟨t, rfl, hpc, rfl⟩ | ⟨t, rfl, rfl⟩
  · have hne : u ≠ t := fun hut => hidle (by rw [hut, hpc])
    exact Function.update_of_ne hne _ _
  · have hne : u ≠ t := fun hut => hidle (by rw [hut, hpc])
    exact Function.update_of_ne hne _ _
  · have hne : u ≠ t := fun hut => hu (hut ▸ rfl)
    unfold next access return_unlock goto
    split
    · rfl
    · split
      · rfl
      · exact Function.update_of_ne hne _ _
    · exact Function.update_of_ne hne _ _
    · split <;> exact Function.update_of_ne hne _ _
    · split <;> exact Function.update_of_ne hne _ _
    · split <;> exact Function.update_of_ne hne _ _
    · exact Function.update_of_ne hne _ _

/-- Outside its scope a thread leaves what the lock guards alone, and its call is the same
    until it is inside for the first time. -/
theorem next_outside {t : Thread} (h : ∀ a k, s.pc t ≠ .inside a k) :
    (s.next m t).shared = s.shared ∧ (s.next m t).log = s.log ∧
    (∀ u, ((s.next m t).pc u).pending = (s.pc u).pending) ∧
    ∀ u a k, (s.next m t).pc u = .inside a k → s.pc u = .inside a k ∨ k = m.start a := by
  -- the thread goes to a place where the same call is pending
  have hgoto : ∀ pc : spin_pc Arg Local Result, pc.pending = (s.pc t).pending →
      (∀ a k, pc = .inside a k → k = m.start a) →
      (∀ u, (Function.update s.pc t pc u).pending = (s.pc u).pending) ∧
      ∀ u a k, Function.update s.pc t pc u = .inside a k →
        s.pc u = .inside a k ∨ k = m.start a := by
    intro pc hpending hstart
    constructor
    · intro u
      by_cases hu : u = t
      · rw [hu, Function.update_self, hpending]
      · rw [Function.update_of_ne hu]
    · intro u a k hpc
      by_cases hu : u = t
      · rw [hu, Function.update_self] at hpc
        exact .inr (hstart a k hpc)
      · rw [Function.update_of_ne hu] at hpc
        exact .inl hpc
  unfold next
  cases hpc : s.pc t with
  | idle => exact ⟨rfl, rfl, fun _ => rfl, fun _ _ _ hin => .inl hin⟩
  | compare_exchange a =>
    dsimp only
    split
    · exact ⟨rfl, rfl, fun _ => rfl, fun _ _ _ hin => .inl hin⟩
    · exact ⟨rfl, rfl, hgoto _ (by rw [hpc]; rfl) nofun⟩
  | store_owner a =>
    refine ⟨rfl, rfl, hgoto _ (by rw [hpc]; rfl) ?_⟩
    intro a' k hin
    cases hin
    rfl
  | inside a k => exact absurd hpc (h a k)
  | load_variable c =>
    dsimp only
    split <;> exact ⟨rfl, rfl, hgoto _ (by rw [hpc]; rfl) nofun⟩
  | load_owner c =>
    dsimp only
    split <;> exact ⟨rfl, rfl, hgoto _ (by rw [hpc]; rfl) nofun⟩
  | store_variable c => exact ⟨rfl, rfl, hgoto _ (by rw [hpc]; rfl) nofun⟩

/-- A step logs at most the call of the thread that makes it. -/
theorem log_next (s : spin_threads Thread Shared Arg Local Result) (t : Thread) :
    (s.next m t).log = s.log ∨
      ∃ a r, (s.pc t).pending = some a ∧ (s.next m t).log = s.log ++ [(t, a, r)] := by
  -- only the last access of a thread inside is logged
  by_cases hpc : ∀ a k, s.pc t ≠ .inside a k
  · exact .inl (next_outside hpc).2.1
  · obtain ⟨a, k, hpc⟩ : ∃ a k, s.pc t = .inside a k := by
      by_contra hnone
      exact hpc fun a k heq => hnone ⟨a, k, heq⟩
    unfold next access
    rw [hpc]
    dsimp only
    split
    · exact .inl rfl
    · next r hr => exact .inr ⟨a, r, rfl, rfl⟩

/-- A free lock stays free until a thread takes it. -/
theorem free_of_exec {s s' : spin_threads Thread Shared Arg Local Result}
    {l : spin_step Thread Arg} (h : s.exec m l = some s')
    (hfree : s.lock.lock_variable = false) (hnot : ∀ t, ¬ Takes t s l) :
    s'.lock.lock_variable = false := by
  rcases exec_cases h with ⟨t, x, rfl, -, rfl⟩ | ⟨t, rfl, -, rfl⟩ | ⟨t, rfl, rfl⟩
  · exact hfree
  · exact hfree
  · unfold next access return_unlock goto
    split
    · exact hfree
    · next x hpc => exact absurd ⟨rfl, hfree, x, hpc⟩ (hnot t)
    · exact hfree
    · split <;> exact hfree
    · split <;> exact hfree
    · split <;> exact hfree
    · rfl

/-- The thread with the lock gets nearer to its last access, or makes it. -/
theorem Follows.rank_lt (h : Follows m s a) {size : Shared → Local → Nat}
    (hsize : ∀ s k k', (m.access s k).2 = .inl k' → size (m.access s k).1 k' < size s k)
    {t : Thread} (ht : (s.pc t).holding m ≠ none) :
    (∃ c, s.pc t = .store_variable (some c)) ∨
    (((s.next m t).pc t).holding m ≠ none ∧
      rank m size (s.next m t).shared ((s.next m t).pc t) < rank m size s.shared (s.pc t)) := by
  have hown := (h.thread t).owner
  have htaken : s.lock.lock_variable = true := by
    obtain ⟨c, hc⟩ := Option.ne_none_iff_exists'.mp ht
    rw [h.lock_variable, h.inside_eq hc]
    rfl
  unfold spin_threads.next
  cases hpc : s.pc t with
  | idle | compare_exchange x =>
    rw [hpc] at ht
    exact absurd rfl ht
  | store_owner x =>
    refine .inr ?_
    dsimp only [spin_threads.goto]
    rw [Function.update_self]
    exact ⟨Option.some_ne_none _, Nat.lt_succ_self _⟩
  | inside x k =>
    refine .inr ?_
    dsimp only [spin_threads.access]
    cases hacc : (m.access s.shared k).2 with
    | inl k' =>
      dsimp only [spin_threads.goto]
      rw [Function.update_self]
      exact ⟨Option.some_ne_none _, Nat.add_lt_add_right (hsize _ _ _ hacc) 4⟩
    | inr r =>
      dsimp only [spin_threads.goto]
      rw [Function.update_self]
      exact ⟨Option.some_ne_none _, Nat.lt_of_lt_of_le (Nat.lt_succ_self 3) (Nat.le_add_left 4 _)⟩
  | load_variable c =>
    rw [hpc] at ht
    refine .inr ?_
    dsimp only
    rw [if_pos htaken]
    dsimp only [spin_threads.goto]
    rw [Function.update_self]
    exact ⟨ht, Nat.lt_succ_self _⟩
  | load_owner c =>
    rw [hpc] at ht hown
    have hc : c.isSome := Option.isSome_iff_ne_none.mpr fun hnone => ht (by rw [hnone]; rfl)
    refine .inr ?_
    dsimp only
    rw [if_pos (hown hc)]
    dsimp only [spin_threads.goto]
    rw [Function.update_self]
    exact ⟨ht, Nat.lt_succ_self _⟩
  | store_variable c =>
    rw [hpc] at ht
    cases c with
    | none => exact absurd rfl ht
    | some c => exact .inl ⟨c, rfl⟩

/-- While a thread holds the lock nobody else changes what it guards. -/
theorem Follows.shared_of_ne (h : Follows m s a)
    {s' : spin_threads Thread Shared Arg Local Result} {l : spin_step Thread Arg}
    (hexec : s.exec m l = some s') {t : Thread} (ht : (s.pc t).holding m ≠ none)
    (hl : l ≠ .step t) : s'.shared = s.shared := by
  rcases exec_cases hexec with ⟨u, x, rfl, -, rfl⟩ | ⟨u, rfl, -, rfl⟩ | ⟨u, rfl, rfl⟩
  · rfl
  · rfl
  · refine (next_outside ?_).1
    intro x k hpc
    have hu : (s.pc u).holding m ≠ none := by
      rw [hpc]
      exact Option.some_ne_none _
    exact hl (by rw [h.holding_unique ht hu])

/-- A thread keeps the lock until it releases it, which it gets nearer to with its steps. -/
theorem Follows.holding_of_exec (h : Follows m s a) {size : Shared → Local → Nat}
    (hsize : ∀ s k k', (m.access s k).2 = .inl k' → size (m.access s k).1 k' < size s k)
    {s' : spin_threads Thread Shared Arg Local Result} {l : spin_step Thread Arg}
    (hexec : s.exec m l = some s') {t : Thread} (ht : (s.pc t).holding m ≠ none)
    (hnot : ¬ Releases t s l) :
    (s'.pc t).holding m ≠ none ∧
      rank m size s'.shared (s'.pc t) ≤ rank m size s.shared (s.pc t) ∧
      (l = .step t → rank m size s'.shared (s'.pc t) < rank m size s.shared (s.pc t)) := by
  by_cases hl : l = .step t
  · subst hl
    cases hexec
    rcases h.rank_lt hsize ht with ⟨c, hc⟩ | ⟨hhold, hlt⟩
    · exact absurd ⟨rfl, c, hc⟩ hnot
    · exact ⟨hhold, Nat.le_of_lt hlt, fun _ => hlt⟩
  · have hidle : s.pc t ≠ .idle := by
      intro hpc
      rw [hpc] at ht
      exact ht rfl
    rw [pc_of_ne hexec hl hidle, h.shared_of_ne hexec ht hl]
    exact ⟨ht, Nat.le_refl _, fun hstep => absurd hstep hl⟩

theorem free_of_releases {s s' : spin_threads Thread Shared Arg Local Result}
    {l : spin_step Thread Arg} (h : s.exec m l = some s') {t : Thread} (hr : Releases t s l) :
    s'.lock.lock_variable = false := by
  obtain ⟨rfl, c, hpc⟩ := hr
  cases h
  unfold next
  rw [hpc]

/-- While a thread holds the lock nobody takes it. -/
theorem Follows.not_takes (h : Follows m s a) {t : Thread} (ht : (s.pc t).holding m ≠ none)
    (u : Thread) (l : spin_step Thread Arg) : ¬ Takes u s l := by
  intro hu
  obtain ⟨c, hc⟩ := Option.ne_none_iff_exists'.mp ht
  have hvar := h.lock_variable
  rw [h.inside_eq hc, hu.2.1] at hvar
  cases hvar

/-- A waiting thread goes on waiting until it takes the lock. -/
theorem waits_of_exec {s s' : spin_threads Thread Shared Arg Local Result}
    {l : spin_step Thread Arg} (h : s.exec m l = some s') {w : Thread} {x : Arg}
    (hw : s.pc w = .compare_exchange x) (hnot : ¬ Takes w s l) :
    s'.pc w = .compare_exchange x := by
  by_cases hl : l = .step w
  · subst hl
    cases h
    -- a free lock it would have taken
    have htaken : s.lock.lock_variable = true := by
      by_contra hfree
      exact hnot ⟨rfl, Bool.eq_false_iff.mpr hfree, x, hw⟩
    unfold next
    rw [hw]
    dsimp only
    rw [if_pos htaken]
    exact hw
  · rw [pc_of_ne h hl (by rw [hw]; exact nofun)]
    exact hw

section Progress

variable {shared : Shared} (e : Execution ((system Thread m shared).restrict NotStale))

/-- If a thread waits for a free lock, some thread takes it. -/
theorem taken_of_free (hfair : ∀ t, e.Repeats (· = .step t)) {n : Nat} {w : Thread} {x : Arg}
    (hw : (e.state n).pc w = .compare_exchange x)
    (hfree : (e.state n).lock.lock_variable = false) :
    ∃ k, n ≤ k ∧ ∃ t, Takes t (e.state k) (e.label k) := by
  refine e.eventually_of_rank (hfair w)
    (P := fun s => s.lock.lock_variable = false ∧ s.pc w = .compare_exchange x)
    (Q := fun s l => ∃ t, Takes t s l) (fun _ => 0) ⟨hfree, hw⟩ ?_ ?_
  · intro k _ hP hnot
    have hnone : ∀ t, ¬ Takes t (e.state k) (e.label k) := fun t ht => hnot ⟨t, ht⟩
    have hexec := (e.step k).2
    exact ⟨⟨free_of_exec hexec hP.1 hnone, waits_of_exec hexec hP.2 (hnone w)⟩, Nat.le_refl _⟩
  · -- a step of the waiting thread itself takes it
    intro k _ hP hnot hstep
    exact absurd ⟨w, hstep, hP.1, x, hP.2⟩ hnot

theorem exists_follows (hinit : e.state 0 = new shared) (k : Nat) :
    ∃ a, Follows m (e.state k) a := by
  obtain ⟨a, -, h⟩ := (simulates_sections m shared).exists_reachable (e.reachable hinit k)
  exact ⟨a, h⟩

/-- A thread with the lock releases it, and a thread that waits does so until then. -/
theorem free_of_holding (hinit : e.state 0 = new shared)
    (hfair : ∀ t, e.Repeats (· = .step t)) {size : Shared → Local → Nat}
    (hsize : ∀ s k k', (m.access s k).2 = .inl k' → size (m.access s k).1 k' < size s k)
    {n : Nat} {t w : Thread} {x : Arg} (ht : ((e.state n).pc t).holding m ≠ none)
    (hw : (e.state n).pc w = .compare_exchange x) :
    ∃ k, n ≤ k ∧ (e.state k).lock.lock_variable = false ∧
      (e.state k).pc w = .compare_exchange x := by
  obtain ⟨k, hk, ⟨hP, hwk⟩, hrel⟩ := e.eventually_of_rank (hfair t)
    (P := fun s => (s.pc t).holding m ≠ none ∧ s.pc w = .compare_exchange x)
    (Q := fun s l => ((s.pc t).holding m ≠ none ∧ s.pc w = .compare_exchange x) ∧ Releases t s l)
    (fun s => rank m size s.shared (s.pc t)) ⟨ht, hw⟩
    (by
      intro k _ hP hnot
      obtain ⟨a, h⟩ := exists_follows e hinit k
      have hexec := (e.step k).2
      -- nobody else can take the lock meanwhile, so the other thread still waits
      have hold := h.holding_of_exec hsize hexec hP.1 fun hrel => hnot ⟨hP, hrel⟩
      exact ⟨⟨hold.1, waits_of_exec hexec hP.2 (h.not_takes hP.1 w _)⟩, hold.2.1⟩)
    (by
      intro k _ hP hnot hstep
      obtain ⟨a, h⟩ := exists_follows e hinit k
      exact (h.holding_of_exec hsize (e.step k).2 hP.1 fun hrel => hnot ⟨hP, hrel⟩).2.2 hstep)
  obtain ⟨a, h⟩ := exists_follows e hinit k
  have hexec := (e.step k).2
  exact ⟨k + 1, Nat.le_succ_of_le hk, free_of_releases hexec hrel,
    waits_of_exec hexec hwk (h.not_takes hP w _)⟩

/-- **No deadlock**: if no unlock is stale, every thread is scheduled again and again and
    every call ends after finitely many accesses, whatever data it starts on, a thread
    waiting for the lock does not wait in vain: it, or another one, takes the lock later
    on. -/
theorem eventually_taken (hinit : e.state 0 = new shared)
    (hfair : ∀ t, e.Repeats (· = .step t)) (size : Shared → Local → Nat)
    (hsize : ∀ s k k', (m.access s k).2 = .inl k' → size (m.access s k).1 k' < size s k)
    {n : Nat} {w : Thread} {x : Arg} (hw : (e.state n).pc w = .compare_exchange x) :
    ∃ k, n ≤ k ∧ ∃ t, Takes t (e.state k) (e.label k) := by
  cases hlock : (e.state n).lock.lock_variable with
  | false => exact taken_of_free e hfair hw hlock
  | true =>
    -- the thread inside gives the lock back first
    obtain ⟨a, h⟩ := exists_follows e hinit n
    have hsome := h.lock_variable.symm.trans hlock
    obtain ⟨⟨t, c⟩, hin⟩ := Option.isSome_iff_exists.mp hsome
    have ht : ((e.state n).pc t).holding m ≠ none := by
      rw [(h.thread t).holding, hin, inside_of_self]
      exact Option.some_ne_none _
    obtain ⟨k, hk, hfree, hwk⟩ := free_of_holding e hinit hfair hsize ht hw
    obtain ⟨k', hk', htakes⟩ := taken_of_free e hfair hwk hfree
    exact ⟨k', Nat.le_trans hk hk', htakes⟩

end Progress

/-- Two threads call and then take turns for ever. -/
def round_robin : Nat → spin_step Bool Unit
  | 0 => .call false ()
  | 1 => .call true ()
  | n + 2 => .step (n % 2 == 1)

def taking_turns : Nat → spin_threads Bool Nat Unit (Option Nat) Nat
  | 0 => new 7
  | n + 1 => ((taking_turns n).exec fetch_add (round_robin n)).getD (taking_turns n)

def turns : Execution ((system Bool fetch_add 7).restrict NotStale) where
  state := taking_turns
  label := round_robin
  step
    | 0 => ⟨trivial, rfl⟩
    | 1 => ⟨trivial, rfl⟩
    | _ + 2 => ⟨trivial, rfl⟩

/-- The second thread waits from its call on. -/
theorem eventually_taken_turns :
    ∃ k, 2 ≤ k ∧ ∃ t, Takes t (turns.state k) (turns.label k) := by
  refine eventually_taken turns rfl ?_ (fun _ k => if k = none then 1 else 0) ?_ (n := 2)
    (w := true) (x := ()) rfl
  · intro t n
    refine ⟨2 * n + t.toNat + 2, by omega, ?_⟩
    show spin_step.step ((2 * n + t.toNat) % 2 == 1) = .step t
    cases t <;> simp [Nat.add_mod]
  · intro s k k' hk
    cases k with
    | none =>
      cases hk
      simp
    | some k => cases hk

end spin_threads
end AsioNet
