import AsioNet.ParallelCore.ObjectPoolThreads

/-! # The pools of the threads (`parallel_core/ThreadSafeObjectPool.h`)

    Every thread has an `ObjectPool` of its own. `get` takes an object from the pool of
    the calling thread; `release`, with the thread id that `get` returned, and the
    deleter of `get_shared` give it back to that pool, from whatever thread the last
    owner is in.

    So each pool has one thread that gets, and nothing need be assumed about the
    threads any more: the parts of the state are the single pools with their one
    getter (`reachable_container`). No thread ends here, and the threads' ids differ, as
    `GetCurrentThreadId()` gives them; on Linux the key of the caches is `getpid()`, so
    that all threads share one pool, and this says nothing.
-/

namespace AsioNet

open TransitionSystem CriticalSections

structure thread_pools (Thread : Type) where
  _container : Thread → pool_threads Thread
  /-- The pool in whose code a thread is. -/
  within : Thread → Option Thread

inductive thread_pool_step (Thread : Type) where
  | get (t : Thread) (allocated : Bool)
  /-- an object of the pool of `pid` is released by `t` -/
  | release (t pid : Thread) (element : Nat)
  /-- the next access of a thread -/
  | step (t : Thread)

variable {Thread : Type} [DecidableEq Thread]

omit [DecidableEq Thread] in
/-- The thread is in no call of the pool. -/
def pool_threads.idle (s : pool_threads Thread) (t : Thread) : Bool :=
  match s.create t, s.spin.pc t with
  | .none, .idle => true
  | _, _ => false

namespace thread_pools

/-- The thread has made a step in a pool. -/
def go_on (s : thread_pools Thread) (t pid : Thread) (p : pool_threads Thread) :
    thread_pools Thread where
  _container := Function.update s._container pid p
  within := Function.update s.within t (if p.idle t then none else some pid)

/-- A thread is in one call at a time. -/
def exec (s : thread_pools Thread) : thread_pool_step Thread → Option (thread_pools Thread)
  | .get t allocated =>
    if s.within t = none then
      ((s._container t).exec (.get t allocated)).map (s.go_on t t)
    else none
  | .release t pid element =>
    if s.within t = none then
      ((s._container pid).exec (.release t element)).map (s.go_on t pid)
    else none
  | .step t =>
    match s.within t with
    | some pid => ((s._container pid).exec (.step t)).map (s.go_on t pid)
    | none => none

def new : thread_pools Thread where
  _container _ := .new
  within _ := none

def system : System (thread_pools Thread) (thread_pool_step Thread) :=
  System.ofExec (fun s => s = new) exec

/-- Every object that is counted is created, and leaves the number of objects of its pool
    an `int`. -/
def Counted (s : thread_pools Thread) : thread_pool_step Thread → Prop
  | .get t allocated => (s._container t).Counted t (.get t allocated)
  | _ => True

instance instDecidableCounted (s : thread_pools Thread) (l : thread_pool_step Thread) :
    Decidable (s.Counted l) :=
  match l with
  | .get t allocated => pool_threads.instDecidableCounted t (s._container t) (.get t allocated)
  | .release _ _ _ => isTrue trivial
  | .step _ => isTrue trivial

/-! ### One pool among the others -/

variable {s s' : thread_pools Thread} {l : thread_pool_step Thread}

/-- A step is one of a single pool, and if it gets, it is made by the thread of the pool. -/
theorem exec_cases (h : s.exec l = some s') : ∃ t pid p l',
    (s._container pid).exec l' = some p ∧ s' = s.go_on t pid p ∧
      (s._container pid).OneGetter pid l' ∧ (s.Counted l → (s._container pid).Counted pid l') := by
  cases l with
  | get t allocated =>
    unfold exec at h
    obtain ⟨-, hmap⟩ := Option.ite_none_right_eq_some.mp h
    obtain ⟨p, hp, hs'⟩ := Option.map_eq_some_iff.mp hmap
    exact ⟨t, t, p, .get t allocated, hp, hs'.symm, rfl, fun hcounted => hcounted⟩
  | release t pid element =>
    unfold exec at h
    obtain ⟨-, hmap⟩ := Option.ite_none_right_eq_some.mp h
    obtain ⟨p, hp, hs'⟩ := Option.map_eq_some_iff.mp hmap
    exact ⟨t, pid, p, .release t element, hp, hs'.symm, trivial, fun _ => trivial⟩
  | step t =>
    simp only [exec] at h
    split at h
    · next pid hpid =>
      obtain ⟨p, hp, hs'⟩ := Option.map_eq_some_iff.mp h
      exact ⟨t, pid, p, .step t, hp, hs'.symm, trivial, fun _ => trivial⟩
    · cases h

/-- The other pools stay as they are. -/
theorem container_go_on (s : thread_pools Thread) (t pid : Thread) (p : pool_threads Thread)
    {q : Thread} (hq : q ≠ pid) : (s.go_on t pid p)._container q = s._container q := by
  show Function.update s._container pid p q = s._container q
  exact Function.update_of_ne hq p s._container

theorem container_go_on_self (s : thread_pools Thread) (t pid : Thread)
    (p : pool_threads Thread) : (s.go_on t pid p)._container pid = p := by
  show Function.update s._container pid p pid = p
  exact Function.update_self pid p s._container

/-- **The pool of a thread has one getter**: what becomes of it among the others can become
    of it alone, with only its thread getting. -/
theorem reachable_container (h : system.Reachable s) (pid : Thread) :
    (pool_threads.system.restrict (pool_threads.OneGetter pid)).Reachable (s._container pid) := by
  refine h.part (fun s => s._container pid) ?_ ?_
  · intro s hs
    cases hs
    exact rfl
  · intro s l s' hl
    obtain ⟨t, q, p, l', hexec, rfl, hone, -⟩ := exec_cases hl
    by_cases hq : pid = q
    · subst hq
      refine .inr ⟨l', hone, ?_⟩
      rw [container_go_on_self]
      exact hexec
    · exact .inl (container_go_on s t q p hq)

theorem reachable_counted (h : (system.restrict Counted).Reachable s) (pid : Thread) :
    (pool_threads.system.restrict (pool_threads.Counted pid)).Reachable (s._container pid) := by
  refine h.part (fun s => s._container pid) ?_ ?_
  · intro s hs
    cases hs
    exact rfl
  · intro s l s' ⟨hguard, hl⟩
    obtain ⟨t, q, p, l', hexec, rfl, -, hcounted⟩ := exec_cases hl
    by_cases hq : pid = q
    · subst hq
      refine .inr ⟨l', hcounted hguard, ?_⟩
      rw [container_go_on_self]
      exact hexec
    · exact .inl (container_go_on s t q p hq)

/-! ### All of them -/

/-- **The pools own their objects whatever the interleaving**, with any threads getting and
    releasing. No thread takes the top of an empty stack; every object created for a thread
    lies on the stack of its pool or is handed out, never both and never twice; and
    whoever releases it, it is handed out again to that thread only. -/
theorem pools_owned_of_reachable (s : thread_pools Thread) (h : system.Reachable s)
    (pid : Thread) :
    (∀ x ∈ (s._container pid).spin.log, x.2.2 ≠ .undefined) ∧
    (∀ x ∈ (s._container pid).spin.log, x.2.1 = .pop → x.1 = pid) ∧
    (s._container pid).spin.shared.Nodup ∧ (s._container pid).out.Nodup ∧
    (∀ p ∈ (s._container pid).spin.shared, p ∉ (s._container pid).out) ∧
    (s._container pid).created =
      (s._container pid).spin.shared.length + (s._container pid).out.length := by
  have hpool := reachable_container h pid
  obtain ⟨hdefined, hstack, hout, hdisjoint, htotal⟩ :=
    pool_threads.objects_owned_of_reachable pid _ hpool
  exact ⟨hdefined, pool_threads.popped_by_getter hpool, hstack, hout, hdisjoint, htotal⟩

/-- **The counters are right whatever the interleaving**, if every object counted is created. -/
theorem pool_counts_of_reachable (s : thread_pools Thread)
    (h : (system.restrict Counted).Reachable s) (pid : Thread)
    (hnone : (s._container pid).create pid = .none) :
    (s._container pid)._count.toInt =
      (s._container pid).spin.shared.length + (s._container pid).out.length :=
  pool_threads.counts_of_reachable pid _ (reachable_counted h pid) hnone

/-- Threads 0 and 1 create objects at the same time; 1 releases the one of 0 while 0
    creates another one; then 0 gets the first one again. -/
def released_by_other : List (thread_pool_step Nat) :=
  [.get 0 true, .get 1 true, .step 0, .step 1, .step 1, .step 0, .get 0 true, .release 1 0 0] ++
    List.replicate 6 (.step 1) ++ List.replicate 2 (.step 0) ++ .get 0 true ::
    List.replicate 7 (.step 0)

theorem pools_owned_released_by_other : ∃ s : thread_pools Nat,
    (s._container 0).out = [0, 1] ∧ (s._container 1).out = [0] ∧ ∀ pid,
    (∀ x ∈ (s._container pid).spin.log, x.2.2 ≠ .undefined) ∧
    (∀ x ∈ (s._container pid).spin.log, x.2.1 = .pop → x.1 = pid) ∧
    (s._container pid).spin.shared.Nodup ∧ (s._container pid).out.Nodup ∧
    (∀ p ∈ (s._container pid).spin.shared, p ∉ (s._container pid).out) ∧
    (s._container pid).created =
      (s._container pid).spin.shared.length + (s._container pid).out.length := by
  have hstart : (system.restrict fun _ _ => True).Reachable (new : thread_pools Nat) := .init rfl
  obtain ⟨s, hs, hout⟩ : ∃ s, released_by_other.foldlM exec (new : thread_pools Nat) = some s ∧
      (s._container 0).out = [0, 1] ∧ (s._container 1).out = [0] := ⟨_, rfl, rfl, rfl⟩
  have hreach := (hstart.of_foldlM _ (fun _ _ _ => trivial) hs).of_restrict
  exact ⟨s, hout.1, hout.2, pools_owned_of_reachable s hreach⟩

theorem pool_counts_released_by_other : ∃ s : thread_pools Nat,
    (s._container 0).out = [0, 1] ∧ (s._container 0)._count.toInt =
      (s._container 0).spin.shared.length + (s._container 0).out.length := by
  have hstart : (system.restrict Counted).Reachable (new : thread_pools Nat) := .init rfl
  obtain ⟨s, hs, hout, hnone⟩ : ∃ s, released_by_other.foldlM
      (fun s l => if Counted s l then exec s l else none) (new : thread_pools Nat) = some s ∧
        (s._container 0).out = [0, 1] ∧ (s._container 0).create 0 = .none := ⟨_, rfl, rfl, rfl⟩
  obtain ⟨hreach, -⟩ := System.Reachable.of_guarded_foldlM hstart _ hs
  exact ⟨s, hout, pool_counts_of_reachable s hreach 0 hnone⟩

end thread_pools

end AsioNet
