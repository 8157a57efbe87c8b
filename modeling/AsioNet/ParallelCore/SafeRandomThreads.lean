import AsioNet.ParallelCore.SafeRandom
import AsioNet.ParallelCore.Spinlock

/-! # The random source and its threads

    `next` loads the state of the generator and stores the new one behind a
    `SpinlockHolder`. Sessions on all strands draw from the one source, so what
    one thread gets depends on the others; what all of them together get does
    not.
-/

namespace AsioNet

open TransitionSystem CriticalSections

namespace SafeRandom

/-- `xorshift64(_rand_state)` behind the lock: the load of `state->a` and the store. -/
def locked_next : Method SafeRandom Unit (Option UInt64) UInt64 where
  start _ := none
  access
    | r, none => (r, .inl (some r._rand_state))
    | _, some a => (⟨xorshift64 a⟩, .inr (xorshift64 a))

/-- Alone, the two accesses are a call of `next`. -/
theorem next_of_returns {r r' : SafeRandom} {x : UInt64}
    (h : locked_next.Returns r () r' x) : r.next = (x, r') := by
  obtain ⟨rfl, rfl⟩ := h.head.head.of_result
  rfl

/-- The draws of a log are the values of the source in this order. -/
theorem values_of_replays {Thread : Type} {r r' : SafeRandom}
    {log : List (Thread × Unit × UInt64)} (h : locked_next.Replays r log r') :
    log.map (·.2.2) = (List.range log.length).map r.value ∧ r' = r.after log.length := by
  refine h.invariant (P := fun log r' =>
    log.map (·.2.2) = (List.range log.length).map r.value ∧ r' = r.after log.length)
    ⟨rfl, rfl⟩ ?_
  intro log r₁ r₂ t a x ih hret
  obtain ⟨hvalues, hafter⟩ := ih
  have hnext : r₁.next = (x, r₂) := next_of_returns hret
  rw [hafter] at hnext
  have hx : x = r.value log.length := (congrArg Prod.fst hnext).symm
  have hr₂ : r₂ = r.after (log.length + 1) := (congrArg Prod.snd hnext).symm
  rw [List.length_append, List.length_singleton, List.range_succ, List.map_append,
    List.map_append, hvalues, hx]
  exact ⟨rfl, hr₂⟩

/-- **Threads share one sequence**: in every interleaving the numbers drawn, in the order
    of the stores and whichever threads drew them, are the first values of the source,
    each drawn once; and when nobody holds the lock the source is where as many calls of
    one thread would have left it. -/
theorem draws_of_reachable {Thread : Type} [DecidableEq Thread] (r : SafeRandom) :
    ∀ s : spin_threads Thread SafeRandom Unit (Option UInt64) UInt64,
      ((spin_threads.system Thread locked_next r).restrict spin_threads.NotStale).Reachable s →
      s.log.map (·.2.2) = (List.range s.log.length).map r.value ∧
      ((∀ t, (s.pc t).holding locked_next = none) → s.shared = r.after s.log.length) := by
  intro s hr
  obtain ⟨r', hlog, hfree⟩ := spin_threads.serial_of_reachable locked_next r s hr
  obtain ⟨hvalues, hafter⟩ := values_of_replays hlog
  exact ⟨hvalues, fun hnone => (hfree hnone).symm.trans hafter⟩

/-- Thread 1 draws while thread 0 is on its way to the lock. -/
def two_draws : List (spin_step Nat Unit) :=
  [.call 0 (), .call 1 (), .step 1, .step 0] ++ List.replicate 6 (.step 1) ++
    List.replicate 7 (.step 0)

theorem draws_two_draws : ∃ s : spin_threads Nat SafeRandom Unit (Option UInt64) UInt64,
    s.log.map (·.1) = [1, 0] ∧
    s.log.map (·.2.2) = (List.range s.log.length).map (seed 7).value ∧
    ((∀ t, (s.pc t).holding locked_next = none) → s.shared = (seed 7).after s.log.length) := by
  have hstart : ((spin_threads.system Nat locked_next (seed 7)).restrict
      spin_threads.NotStale).Reachable (spin_threads.new (seed 7)) := .init rfl
  obtain ⟨s, hs, hthreads⟩ : ∃ s, two_draws.foldlM (fun s l =>
      if spin_threads.NotStale s l then spin_threads.exec locked_next s l else none)
        (spin_threads.new (seed 7)) = some s ∧ s.log.map (·.1) = [1, 0] := ⟨_, rfl, rfl⟩
  obtain ⟨hreach, -⟩ := System.Reachable.of_guarded_foldlM hstart _ hs
  exact ⟨s, hthreads, draws_of_reachable (seed 7) s hreach⟩

end SafeRandom

end AsioNet
