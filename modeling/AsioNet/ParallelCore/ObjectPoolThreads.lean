import AsioNet.ParallelCore.PoolCounts
import AsioNet.ParallelCore.Spinlock

/-! # The object pool and its threads

    `get` looks at the size of the stack before it takes the lock, and
    `release` comes from any thread: the deleter of `get_shared` gives an object
    back to the pool of the thread that asked for it. So each pool has one thread
    that gets and any number that release. The stack is reached behind the spin
    lock only, one access at a time; `_count` and the test of `get` are not.

    With one getting thread the test cannot go stale, since all others only add
    to the stack, and every interleaving does what calls of the pool one after
    the other do (`simulates_pool_run`). A second getting thread may find the
    stack empty after its test.
-/

namespace AsioNet

open TransitionSystem CriticalSections

/-- What is done to the stack behind the lock. -/
inductive pool_call where
  | pop
  | push (element : Nat)
  deriving DecidableEq

/-- The next access to the stack. -/
inductive pool_local where
  | top
  | pop (ret : Nat)
  | push (element : Nat)

inductive pool_result where
  | popped (ret : Nat)
  | pushed (element : Nat)
  /-- `top` of an empty stack -/
  | undefined
  deriving DecidableEq

/-- The scopes of the two `SpinlockHolder`s, in `get` and in `release`. -/
def locked_pool : Method (List Nat) pool_call pool_local pool_result where
  start
    | .pop => .top
    | .push element => .push element
  access _pool k :=
    match k with
    | .top =>
      match _pool with
      | [] => (_pool, .inr .undefined)
      | ret :: _ => (_pool, .inl (.pop ret))
    | .pop ret => (_pool.tail, .inr (.popped ret))
    | .push element => (element :: _pool, .inr (.pushed element))

/-- Where a thread is in the branch of `get` that creates an object; `allocated` tells
    whether the allocation to come finds memory. -/
inductive create_pc where
  | none
  | count (allocated : Bool)
  | new (allocated : Bool)
  deriving DecidableEq

namespace create_pc

/-- The test has been made and `_count++` has not. -/
def uncounted : create_pc → Int32
  | .count _ => 1
  | _ => 0

/-- An object is about to be created. -/
def making : create_pc → Bool
  | .none => false
  | .count allocated | .new allocated => allocated

/-- It, when `created` objects have been. -/
def coming (pc : create_pc) (created : Nat) : List Nat := if pc.making then [created] else []

end create_pc

structure pool_threads (Thread : Type) where
  /-- The stack, its lock and the threads at it. -/
  spin : spin_threads Thread (List Nat) pool_call pool_local pool_result
  _count : Int32
  create : Thread → create_pc
  /-- The objects created. -/
  created : Nat
  /-- Handed out and not yet on the stack again. -/
  out : List Nat
  /-- Those of them that a `release` is on its way with. -/
  releasing : List Nat

inductive pool_step (Thread : Type) where
  /-- `get` tests the size -/
  | get (t : Thread) (allocated : Bool)
  | release (t : Thread) (element : Nat)
  /-- the next access of a thread -/
  | step (t : Thread)

variable {Thread : Type} [DecidableEq Thread]

namespace pool_threads

/-- What becomes of the object when the stack has been changed. -/
def handed (s : pool_threads Thread) : pool_result → pool_threads Thread
  | .popped ret => { s with out := ret :: s.out }
  | .pushed element =>
    { s with out := s.out.erase element, releasing := s.releasing.erase element }
  | .undefined => s

/-- The next access of a thread at the stack. -/
def step_spin (s : pool_threads Thread) (t : Thread) : pool_threads Thread :=
  let s' := { s with spin := s.spin.next locked_pool t }
  match s.spin.pc t with
  | .inside _ k =>
    match (locked_pool.access s.spin.shared k).2 with
    | .inl _ => s'
    | .inr r => s'.handed r
  | _ => s'

/-- The next access of a thread. -/
def step (s : pool_threads Thread) (t : Thread) : pool_threads Thread :=
  match s.create t with
  | .none => s.step_spin t
  | .count allocated =>
    { s with _count := s._count + 1, create := Function.update s.create t (.new allocated) }
  | .new true =>
    { s with
      created := s.created + 1
      out := s.created :: s.out
      create := Function.update s.create t .none }
  | .new false => { s with create := Function.update s.create t .none }

/-- A call of the stack starts, unless the thread is in a call already. -/
def call (s : pool_threads Thread) (t : Thread) (c : pool_call) : Option (pool_threads Thread) :=
  if s.create t = .none then
    (s.spin.exec locked_pool (.call t c)).map fun spin => { s with spin := spin }
  else none

/-- An object is released once. -/
def exec (s : pool_threads Thread) : pool_step Thread → Option (pool_threads Thread)
  | .get t allocated =>
    if s.spin.shared.length = 0 then
      match s.spin.pc t with
      | .idle =>
        if s.create t = .none then
          some { s with create := Function.update s.create t (.count allocated) }
        else none
      | _ => none
    else s.call t .pop
  | .release t element =>
    if element ∈ s.out ∧ element ∉ s.releasing then
      (s.call t (.push element)).map fun s => { s with releasing := element :: s.releasing }
    else none
  | .step t => some (s.step t)

def new : pool_threads Thread where
  spin := spin_threads.new []
  _count := 0
  create _ := .none
  created := 0
  out := []
  releasing := []

def system : System (pool_threads Thread) (pool_step Thread) :=
  System.ofExec (fun s => s = new) exec

/-- Only one thread gets objects. -/
def OneGetter (me : Thread) (_ : pool_threads Thread) : pool_step Thread → Prop
  | .get t _ => t = me
  | _ => True

/-! ### Where the threads are -/

/-- How far a call has come with the stack it works on. -/
def At (_pool : List Nat) : pool_call → pool_local → Prop
  | .pop, .top => True
  | .pop, .pop ret => _pool.head? = some ret
  | .push element, .push element' => element = element'
  | _, _ => False

/-- The calls of the stack that have not made their last access. -/
structure Calls (me : Thread) (s : pool_threads Thread) : Prop where
  getting : ∀ t, (s.spin.pc t).pending = some .pop →
    t = me ∧ s.spin.shared ≠ [] ∧ s.create me = .none
  pushing : ∀ t p, (s.spin.pc t).pending = some (.push p) → p ∈ s.releasing
  once : ∀ t u p, (s.spin.pc t).pending = some (.push p) →
    (s.spin.pc u).pending = some (.push p) → t = u
  inside : ∀ t c k, s.spin.pc t = .inside c k → At s.spin.shared c k

variable {me : Thread} {s : pool_threads Thread}

omit [DecidableEq Thread] in
/-- A step that changes neither the stack nor a call. -/
theorem Calls.of_eq (h : Calls me s) {s' : pool_threads Thread}
    (hshared : s'.spin.shared = s.spin.shared)
    (hpending : ∀ t, (s'.spin.pc t).pending = (s.spin.pc t).pending)
    (hcreate : (s.spin.pc me).pending = some .pop → s'.create me = s.create me)
    (hreleasing : s'.releasing = s.releasing)
    (hinside : ∀ t c k, s'.spin.pc t = .inside c k → At s.spin.shared c k) : Calls me s' where
  getting t ht := by
    rw [hpending] at ht
    obtain ⟨rfl, hne, hnone⟩ := h.getting t ht
    rw [hshared]
    exact ⟨rfl, hne, (hcreate ht).trans hnone⟩
  pushing t p ht := by
    rw [hpending] at ht
    rw [hreleasing]
    exact h.pushing t p ht
  once t u p ht hu := by
    rw [hpending] at ht hu
    exact h.once t u p ht hu
  inside t c k hpc := by
    rw [hshared]
    exact hinside t c k hpc

theorem at_start (_pool : List Nat) (c : pool_call) : At _pool c (locked_pool.start c) := by
  cases c with
  | pop => trivial
  | push p => exact rfl

/-- The threads and the calls one after the other: a `get` takes place with its test or
    its pop, a `release` with its push. -/
structure Follows (me : Thread) (s : pool_threads Thread) (a : pool_run) : Prop where
  stack : a.pool._pool = s.spin.shared
  count : a.pool._count = s._count + (s.create me).uncounted
  created : a.created = s.created + (s.create me).making.toNat
  out : a.out = (s.create me).coming s.created ++ s.out
  deleted : a.deleted = []
  owned : a.Owned
  others : ∀ t, t ≠ me → s.create t = .none
  lock : ∃ sec, spin_threads.Follows locked_pool s.spin sec
  calls : Calls me s
  releasing : ∀ p ∈ s.releasing, p ∈ s.out
  releasing_nodup : s.releasing.Nodup
  defined : ∀ x ∈ s.spin.log, x.2.2 ≠ .undefined

variable {a : pool_run}

/-- The thread that gets is not creating while a call of the stack pops. -/
theorem Follows.not_creating (h : Follows me s a) {t : Thread}
    (ht : (s.spin.pc t).pending = some .pop) :
    a.pool._count = s._count ∧ a.created = s.created ∧ a.out = s.out := by
  have hcount := h.count
  have hcreated := h.created
  have hout := h.out
  rw [(h.calls.getting t ht).2.2] at hcount hcreated hout
  exact ⟨hcount.trans (Int32.add_zero _), hcreated, hout⟩

/-- A step of a thread outside its scope. -/
theorem Follows.step_outside (h : Follows me s a) {t : Thread}
    (hpc : ∀ c k, s.spin.pc t ≠ .inside c k) : Follows me (s.step_spin t) a := by
  have heq : s.step_spin t = { s with spin := s.spin.next locked_pool t } := by
    unfold step_spin
    split
    · next c k hin => exact absurd hin (hpc c k)
    · rfl
  obtain ⟨hshared, hlog, hpending, hinside⟩ := spin_threads.next_outside (m := locked_pool) hpc
  obtain ⟨sec, hsec⟩ := h.lock
  rw [heq]
  refine ⟨h.stack.trans hshared.symm, h.count, h.created, h.out, h.deleted, h.owned, h.others,
    hsec.exec (l := .step t) trivial rfl, ?_, h.releasing, h.releasing_nodup, ?_⟩
  · refine h.calls.of_eq hshared hpending (fun _ => rfl) rfl ?_
    intro u c k hin
    rcases hinside u c k hin with hold | rfl
    · exact h.calls.inside u c k hold
    · exact at_start _ c
  · rw [hlog]
    exact h.defined

/-- Nobody else is inside. -/
theorem Follows.inside_unique (h : Follows me s a) {t u : Thread} {c c' : pool_call}
    {k k' : pool_local} (ht : s.spin.pc t = .inside c k) (hu : s.spin.pc u = .inside c' k') :
    t = u := by
  obtain ⟨sec, hsec⟩ := h.lock
  refine hsec.holding_unique ?_ ?_
  · rw [ht]
    exact Option.some_ne_none _
  · rw [hu]
    exact Option.some_ne_none _

theorem next_inside {t : Thread} {c : pool_call} {k : pool_local}
    (hpc : s.spin.pc t = .inside c k) :
    s.spin.next locked_pool t = s.spin.access locked_pool t c k := by
  unfold spin_threads.next
  rw [hpc]

/-- What a step inside does to the stack. -/
theorem step_inside {t : Thread} {c : pool_call} {k : pool_local}
    (hpc : s.spin.pc t = .inside c k) : s.step_spin t =
      match (locked_pool.access s.spin.shared k).2 with
      | .inl _ => { s with spin := s.spin.access locked_pool t c k }
      | .inr r => { s with spin := s.spin.access locked_pool t c k }.handed r := by
  unfold step_spin
  rw [hpc, next_inside hpc]

/-- The thread has made its last access, after which `_pool` is the stack. -/
theorem Follows.calls_return (h : Follows me s a) {t : Thread} {c : pool_call} {k : pool_local}
    (hpc : s.spin.pc t = .inside c k) (_pool : List Nat)
    (hpool : ∀ u, u ≠ t → (s.spin.pc u).pending = some .pop → _pool ≠ [])
    {x : Option (pool_call × pool_result)} {s' : pool_threads Thread}
    (hshared : s'.spin.shared = _pool)
    (hs' : s'.spin.pc = Function.update s.spin.pc t (.load_variable x))
    (hcreate : s'.create = s.create)
    (hreleasing : ∀ u p, u ≠ t → (s.spin.pc u).pending = some (.push p) →
      p ∈ s.releasing → p ∈ s'.releasing) : Calls me s' := by
  have hother : ∀ u c, (s'.spin.pc u).pending = some c →
      u ≠ t ∧ (s.spin.pc u).pending = some c := by
    intro u c hu
    rw [hs'] at hu
    by_cases hut : u = t
    · rw [hut, Function.update_self] at hu
      cases hu
    · rw [Function.update_of_ne hut] at hu
      exact ⟨hut, hu⟩
  refine ⟨?_, ?_, ?_, ?_⟩
  · intro u hu
    obtain ⟨hut, hu'⟩ := hother u _ hu
    obtain ⟨rfl, -, hnone⟩ := h.calls.getting u hu'
    rw [hshared, hcreate]
    exact ⟨rfl, hpool u hut hu', hnone⟩
  · intro u p hu
    obtain ⟨hut, hu'⟩ := hother u _ hu
    exact hreleasing u p hut hu' (h.calls.pushing u p hu')
  · intro u v p hu hv
    exact h.calls.once u v p (hother u _ hu).2 (hother v _ hv).2
  · -- nobody is inside any more
    intro u c' k' hu
    rw [hs'] at hu
    by_cases hut : u = t
    · rw [hut, Function.update_self] at hu
      cases hu
    · rw [Function.update_of_ne hut] at hu
      exact absurd (h.inside_unique hu hpc) hut

/-- `top` finds the object that `pop` takes. -/
theorem Follows.step_top (h : Follows me s a) {t : Thread}
    (hpc : s.spin.pc t = .inside .pop .top) : Follows me (s.step_spin t) a := by
  have hpending : (s.spin.pc t).pending = some .pop := by
    rw [hpc]
    rfl
  obtain ⟨ret, _pool, hshared⟩ := List.exists_cons_of_ne_nil (h.calls.getting t hpending).2.1
  have hspin : s.spin.access locked_pool t .pop .top =
      { s.spin.goto t (.inside .pop (.pop ret)) with shared := s.spin.shared } := by
    unfold spin_threads.access
    rw [hshared]
    rfl
  have hstep : s.step_spin t = { s with spin := s.spin.access locked_pool t .pop .top } := by
    rw [step_inside hpc, hshared]
    rfl
  obtain ⟨sec, hsec⟩ := h.lock
  have hlock := hsec.exec (l := .step t) trivial (congrArg some (next_inside hpc))
  rw [hspin] at hlock hstep
  rw [hstep]
  refine ⟨h.stack, h.count, h.created, h.out, h.deleted, h.owned, h.others, hlock, ?_,
    h.releasing, h.releasing_nodup, h.defined⟩
  refine h.calls.of_eq rfl ?_ (fun _ => rfl) rfl ?_
  · intro u
    by_cases hu : u = t
    · rw [hu, hpending]
      exact congrArg spin_pc.pending (Function.update_self t _ s.spin.pc)
    · exact congrArg spin_pc.pending (Function.update_of_ne hu _ s.spin.pc)
  · intro u c k hu
    by_cases hut : u = t
    · rw [hut] at hu
      have hself := (Function.update_self t _ s.spin.pc).symm.trans hu
      cases hself
      show s.spin.shared.head? = some ret
      rw [hshared]
      rfl
    · have hold := (Function.update_of_ne hut _ s.spin.pc).symm.trans hu
      exact h.calls.inside u c k hold

/-- The pop takes the object that the call before it in the run would take. -/
theorem Follows.step_pop (h : Follows me s a) {t : Thread} {ret : Nat}
    (hpc : s.spin.pc t = .inside .pop (.pop ret)) :
    Follows me (s.step_spin t) (a.exec_get true) := by
  have hpending : (s.spin.pc t).pending = some .pop := by
    rw [hpc]
    rfl
  obtain ⟨ht, -, hnone⟩ := h.calls.getting t hpending
  obtain ⟨hcount, hcreated, hout⟩ := h.not_creating hpending
  have hhead : s.spin.shared.head? = some ret := h.calls.inside t _ _ hpc
  obtain ⟨_pool, hshared⟩ := List.head?_eq_some_iff.mp hhead
  have hget : a.exec_get true =
      { a with pool := ⟨s._count, _pool⟩, out := ret :: s.out } := by
    unfold pool_run.exec_get ObjectPool.get
    rw [h.stack, hshared, hcount, hout]
    rfl
  have hspin : s.spin.access locked_pool t .pop (.pop ret) =
      { s.spin.goto t (.load_variable (some (.pop, .popped ret))) with
        shared := _pool
        log := s.spin.log ++ [(t, .pop, .popped ret)] } := by
    unfold spin_threads.access
    rw [hshared]
    rfl
  have hstep : s.step_spin t =
      { s with spin := s.spin.access locked_pool t .pop (.pop ret), out := ret :: s.out } := by
    rw [step_inside hpc, hshared]
    rfl
  obtain ⟨sec, hsec⟩ := h.lock
  have hlock := hsec.exec (l := .step t) trivial (congrArg some (next_inside hpc))
  have howned := pool_run.owned_get h.owned true
  rw [hget] at howned ⊢
  rw [hspin] at hlock hstep
  rw [hstep]
  refine ⟨rfl, ?_, ?_, ?_, h.deleted, howned, h.others, hlock, ?_, ?_, h.releasing_nodup, ?_⟩
  · rw [hnone]
    exact (Int32.add_zero _).symm
  · rw [hnone]
    exact hcreated
  · rw [hnone]
    rfl
  · refine h.calls_return hpc _pool ?_ rfl rfl rfl (fun _ _ _ _ hp => hp)
    -- only the thread itself pops
    intro u hu hpop
    exact absurd ((h.calls.getting u hpop).1.trans ht.symm) hu
  · intro p hp
    exact List.mem_cons_of_mem ret (h.releasing p hp)
  · intro x hx
    rcases List.mem_append.mp hx with hold | hnew
    · exact h.defined x hold
    · cases List.mem_singleton.mp hnew
      exact nofun

/-- The push releases the object. -/
theorem Follows.step_push (h : Follows me s a) {t : Thread} {p : Nat}
    (hpc : s.spin.pc t = .inside (.push p) (.push p)) :
    ∃ a', a.exec (.release p) = some a' ∧ Follows me (s.step_spin t) a' := by
  have hpending : (s.spin.pc t).pending = some (.push p) := by
    rw [hpc]
    rfl
  have hreleasing := h.calls.pushing t p hpending
  have hmem := h.releasing p hreleasing
  have hmem' : p ∈ a.out := by
    rw [h.out]
    exact List.mem_append_right _ hmem
  have hexec : a.exec (.release p) =
      some { a with pool := a.pool.release p, out := a.out.erase p } := if_pos hmem'
  have hspin : s.spin.access locked_pool t (.push p) (.push p) =
      { s.spin.goto t (.load_variable (some (.push p, .pushed p))) with
        shared := p :: s.spin.shared
        log := s.spin.log ++ [(t, .push p, .pushed p)] } := rfl
  have hstep : s.step_spin t =
      { s with
        spin := s.spin.access locked_pool t (.push p) (.push p)
        out := s.out.erase p
        releasing := s.releasing.erase p } := by
    rw [step_inside hpc]
    rfl
  obtain ⟨sec, hsec⟩ := h.lock
  have hlock := hsec.exec (l := .step t) trivial (congrArg some (next_inside hpc))
  have hnodup := h.owned.out
  rw [h.out] at hnodup
  have hdisjoint := (List.nodup_append.mp hnodup).2.2
  refine ⟨_, hexec, ?_⟩
  rw [hspin] at hlock hstep
  rw [hstep]
  refine ⟨?_, h.count, h.created, ?_, h.deleted, pool_run.owned_release h.owned hmem', h.others,
    hlock, ?_, ?_, h.releasing_nodup.erase p, ?_⟩
  · exact congrArg (p :: ·) h.stack
  · show a.out.erase p = _ ++ s.out.erase p
    rw [h.out]
    -- the object to be created is another one
    exact List.erase_append_right _ fun hmaking => hdisjoint p hmaking p hmem rfl
  · refine h.calls_return hpc (p :: s.spin.shared) (fun _ _ _ => nofun) rfl rfl rfl ?_
    intro u q hu hq hmemq
    have hne : q ≠ p := by
      rintro rfl
      exact hu (h.calls.once u t q hq hpending)
    exact (List.mem_erase_of_ne hne).mpr hmemq
  · intro q hq
    have hne : q ≠ p := by
      rintro rfl
      exact h.releasing_nodup.not_mem_erase hq
    exact (List.mem_erase_of_ne hne).mpr (h.releasing q (List.mem_of_mem_erase hq))
  · intro x hx
    rcases List.mem_append.mp hx with hold | hnew
    · exact h.defined x hold
    · cases List.mem_singleton.mp hnew
      exact nofun

/-- A step at the stack is a call of the pool, or none. It creates nothing. -/
theorem Follows.step_spin (h : Follows me s a) (t : Thread) :
    Follows me (s.step_spin t) a ∨
      ∃ e a', a.exec e = some a' ∧ Follows me (s.step_spin t) a' ∧ a.KeepsCount e := by
  by_cases hpc : ∀ c k, s.spin.pc t ≠ .inside c k
  · exact .inl (h.step_outside hpc)
  · obtain ⟨c, k, hpc⟩ : ∃ c k, s.spin.pc t = .inside c k := by
      by_contra hnone
      exact hpc fun c k heq => hnone ⟨c, k, heq⟩
    have hat := h.calls.inside t c k hpc
    cases c with
    | pop =>
      cases k with
      | top => exact .inl (h.step_top hpc)
      | pop ret =>
        refine .inr ⟨.get true, _, rfl, h.step_pop hpc, ?_⟩
        intro hempty
        rw [h.stack] at hempty
        rw [hempty] at hat
        cases (show none = some ret from hat)
      | push p => exact hat.elim
    | push p =>
      cases k with
      | top | pop ret => exact hat.elim
      | push p' =>
        cases (show p = p' from hat)
        obtain ⟨a', hexec, hfollows⟩ := h.step_push hpc
        exact .inr ⟨.release p, a', hexec, hfollows, trivial⟩

/-- The getter is at `pc` in the creating branch, and `a'` says so. -/
theorem Follows.create_update (h : Follows me s a) {pc : create_pc} {count : Int32}
    {created : Nat} {out : List Nat} {a' : pool_run}
    (hpop : (s.spin.pc me).pending ≠ some .pop) (hstack : a'.pool._pool = s.spin.shared)
    (hcount : a'.pool._count = count + pc.uncounted)
    (hcreated : a'.created = created + pc.making.toNat) (hout : a'.out = pc.coming created ++ out)
    (hdeleted : a'.deleted = []) (howned : a'.Owned) (hreleasing : ∀ p ∈ s.out, p ∈ out) :
    Follows me
      { s with
        _count := count
        create := Function.update s.create me pc
        created := created
        out := out } a' := by
  have hself : Function.update s.create me pc me = pc := Function.update_self me pc s.create
  refine ⟨hstack, ?_, ?_, ?_, hdeleted, howned, ?_, h.lock, ?_,
    fun p hp => hreleasing p (h.releasing p hp), h.releasing_nodup, h.defined⟩
  · dsimp only
    rw [hself]
    exact hcount
  · dsimp only
    rw [hself]
    exact hcreated
  · dsimp only
    rw [hself]
    exact hout
  · intro u hu
    exact (Function.update_of_ne hu pc s.create).trans (h.others u hu)
  · exact h.calls.of_eq rfl (fun _ => rfl) (fun hp => absurd hp hpop) rfl h.calls.inside

/-- The getter goes on creating: `_count` catches up, or the object is there. -/
theorem Follows.step_create (h : Follows me s a) {t : Thread} (ht : s.create t ≠ .none) :
    Follows me (s.step t) a := by
  have hme : t = me := by
    by_contra hne
    exact ht (h.others t hne)
  subst hme
  have hpop : (s.spin.pc t).pending ≠ some .pop := fun hp => ht (h.calls.getting t hp).2.2
  have hcount := h.count
  have hcreated := h.created
  have hout := h.out
  unfold pool_threads.step
  cases hpc : s.create t with
  | none => exact absurd hpc ht
  | count allocated =>
    rw [hpc] at hcount hcreated hout
    exact h.create_update hpop h.stack (hcount.trans (Int32.add_zero _).symm) hcreated hout
      h.deleted h.owned fun _ hp => hp
  | new allocated =>
    rw [hpc] at hcount hcreated hout
    cases allocated with
    | true =>
      exact h.create_update hpop h.stack hcount hcreated hout h.deleted h.owned
        fun _ hp => List.mem_cons_of_mem _ hp
    | false =>
      exact h.create_update hpop h.stack hcount hcreated hout h.deleted h.owned fun _ hp => hp

theorem releasing_of_call {t : Thread} {c : pool_call} {s' : pool_threads Thread}
    (h : s.call t c = some s') : s'.releasing = s.releasing := by
  unfold pool_threads.call at h
  obtain ⟨-, hspin⟩ := Option.ite_none_right_eq_some.mp h
  obtain ⟨spin, -, rfl⟩ := Option.map_eq_some_iff.mp hspin
  rfl

/-- A call of the stack starts. -/
theorem Follows.call (h : Follows me s a) {t : Thread} {c : pool_call}
    {s' : pool_threads Thread} (hcall : s.call t c = some s') (releasing : List Nat)
    (hpop : c = .pop → t = me ∧ s.spin.shared ≠ [])
    (hreleasing : releasing = s.releasing ∨ ∃ p, c = .push p ∧ p ∈ s.out ∧ p ∉ s.releasing ∧
      releasing = p :: s.releasing)
    (hpush : ∀ p, c = .push p → p ∈ releasing ∧ p ∉ s.releasing) :
    Follows me { s' with releasing := releasing } a := by
  unfold pool_threads.call at hcall
  obtain ⟨hnone, hspin⟩ := Option.ite_none_right_eq_some.mp hcall
  obtain ⟨spin, hexec, rfl⟩ := Option.map_eq_some_iff.mp hspin
  obtain ⟨sec, hsec⟩ := h.lock
  have hlock := hsec.exec (l := .call t c) trivial hexec
  have hgoto : spin = s.spin.goto t (.compare_exchange c) := by
    rcases spin_threads.exec_cases hexec with ⟨u, x, hl, -, hspin⟩ | ⟨u, hl, -⟩ | ⟨u, hl, -⟩
    · cases hl
      exact hspin
    · cases hl
    · cases hl
  subst hgoto
  have hmono : ∀ p ∈ s.releasing, p ∈ releasing := by
    intro p hp
    rcases hreleasing with rfl | ⟨q, -, -, -, rfl⟩
    · exact hp
    · exact List.mem_cons_of_mem q hp
  have hpending : ∀ u c', ((s.spin.goto t (.compare_exchange c)).pc u).pending = some c' →
      (u = t ∧ c' = c) ∨ (u ≠ t ∧ (s.spin.pc u).pending = some c') := by
    intro u c' hu
    by_cases hut : u = t
    · rw [hut] at hu
      have hself := (congrArg spin_pc.pending (Function.update_self t _ s.spin.pc)).symm.trans hu
      exact .inl ⟨hut, (Option.some.inj hself).symm⟩
    · have hold := (congrArg spin_pc.pending
        (Function.update_of_ne hut _ s.spin.pc)).symm.trans hu
      exact .inr ⟨hut, hold⟩
  refine ⟨h.stack, h.count, h.created, h.out, h.deleted, h.owned, h.others, hlock, ⟨?_, ?_, ?_, ?_⟩,
    ?_, ?_, h.defined⟩
  · intro u hu
    rcases hpending u _ hu with ⟨rfl, rfl⟩ | ⟨-, hold⟩
    · obtain ⟨rfl, hne⟩ := hpop rfl
      exact ⟨rfl, hne, hnone⟩
    · exact h.calls.getting u hold
  · intro u p hu
    rcases hpending u _ hu with ⟨-, rfl⟩ | ⟨-, hold⟩
    · exact (hpush p rfl).1
    · exact hmono p (h.calls.pushing u p hold)
  · -- an object is on its way with one thread only
    intro u v p hu hv
    rcases hpending u _ hu with ⟨rfl, rfl⟩ | ⟨-, hold⟩
    · rcases hpending v _ hv with ⟨rfl, -⟩ | ⟨-, hold'⟩
      · rfl
      · exact absurd (h.calls.pushing v p hold') (hpush p rfl).2
    · rcases hpending v _ hv with ⟨rfl, rfl⟩ | ⟨-, hold'⟩
      · exact absurd (h.calls.pushing u p hold) (hpush p rfl).2
      · exact h.calls.once u v p hold hold'
  · intro u c' k hu
    by_cases hut : u = t
    · rw [hut] at hu
      exact nomatch (Function.update_self t _ s.spin.pc).symm.trans hu
    · exact h.calls.inside u c' k ((Function.update_of_ne hut _ s.spin.pc).symm.trans hu)
  · intro p hp
    rcases hreleasing with rfl | ⟨q, -, hq, -, rfl⟩
    · exact h.releasing p hp
    · rcases List.mem_cons.mp hp with rfl | hp
      · exact hq
      · exact h.releasing p hp
  · rcases hreleasing with rfl | ⟨q, -, -, hq, rfl⟩
    · exact h.releasing_nodup
    · exact List.nodup_cons.mpr ⟨hq, h.releasing_nodup⟩

/-- The test of `get` finds the stack empty. -/
theorem Follows.get_empty (h : Follows me s a) (allocated : Bool)
    (hempty : s.spin.shared = []) (hnone : s.create me = .none) :
    Follows me { s with create := Function.update s.create me (.count allocated) }
      (a.exec_get allocated) := by
  have hpop : (s.spin.pc me).pending ≠ some .pop := fun hp => (h.calls.getting me hp).2.1 hempty
  have hcount := h.count
  have hcreated := h.created
  have hout := h.out
  rw [hnone] at hcount hcreated hout
  have howned := pool_run.owned_get h.owned allocated
  have hnil : a.pool._pool = [] := h.stack.trans hempty
  have hcount' : a.pool._count + 1 = s._count + 1 := by
    rw [hcount]
    exact congrArg (· + 1) (Int32.add_zero _)
  rcases pool_run.exec_get_cases a allocated with ⟨-, rfl, heq⟩ | ⟨-, rfl, heq⟩ |
    ⟨ret, _pool, hpool, -⟩
  · rw [heq] at howned ⊢
    exact h.create_update hpop hempty.symm hcount' hcreated hout h.deleted howned
      fun _ hp => hp
  · rw [heq] at howned ⊢
    refine h.create_update hpop hempty.symm hcount' (congrArg (· + 1) hcreated) ?_ h.deleted howned
      fun _ hp => hp
    show a.created :: a.out = s.created :: s.out
    rw [hcreated, hout]
    rfl
  · rw [hnil] at hpool
    cases hpool

instance instDecidableOneGetter (me : Thread) (s : pool_threads Thread) (l : pool_step Thread) :
    Decidable (s.OneGetter me l) :=
  match l with
  | .get t _ => inferInstanceAs (Decidable (t = me))
  | .release _ _ => isTrue trivial
  | .step _ => isTrue trivial

/-- Only `me` gets, and every object that it counts is created and leaves their number an
    `int`. -/
def Counted (me : Thread) (s : pool_threads Thread) : pool_step Thread → Prop
  | .get t allocated => t = me ∧ (s.spin.shared = [] → allocated = true ∧ s.created + 1 < 2 ^ 31)
  | _ => True

instance instDecidableCounted (me : Thread) (s : pool_threads Thread) (l : pool_step Thread) :
    Decidable (s.Counted me l) :=
  match l with
  | .get t allocated => inferInstanceAs (Decidable
      (t = me ∧ (s.spin.shared = [] → allocated = true ∧ s.created + 1 < 2 ^ 31)))
  | .release _ _ => isTrue trivial
  | .step _ => isTrue trivial

/-- A step of the threads is one call of the pool, or none. What is counted right here is
    counted right there. -/
theorem Follows.exec (h : Follows me s a) {l : pool_step Thread} {s' : pool_threads Thread}
    (hone : s.OneGetter me l) (hexec : s.exec l = some s') :
    Follows me s' a ∨ ∃ e a', a.exec e = some a' ∧ Follows me s' a' ∧
      (s.Counted me l → a.KeepsCount e) := by
  cases l with
  | get t allocated =>
    cases (show t = me from hone)
    simp only [pool_threads.exec] at hexec
    split at hexec
    · next hlen =>
      split at hexec
      · obtain ⟨hnone, hs'⟩ := Option.ite_none_right_eq_some.mp hexec
        cases hs'
        have hempty := List.length_eq_zero_iff.mp hlen
        refine .inr ⟨.get allocated, _, rfl, h.get_empty allocated hempty hnone, ?_⟩
        intro hcounted _
        have hcreated := h.created
        rw [hnone] at hcreated
        obtain ⟨hallocated, hlt⟩ := hcounted.2 hempty
        rw [hcreated, h.deleted]
        exact ⟨hallocated, hlt⟩
      · cases hexec
    · next hlen =>
      have hne : s.spin.shared ≠ [] := fun hempty => hlen (by rw [hempty]; rfl)
      exact .inl (h.call hexec s'.releasing (fun _ => ⟨rfl, hne⟩)
        (.inl (releasing_of_call hexec)) nofun)
  | release t p =>
    simp only [pool_threads.exec] at hexec
    obtain ⟨hp, hmap⟩ := Option.ite_none_right_eq_some.mp hexec
    obtain ⟨s', hcall, rfl⟩ := Option.map_eq_some_iff.mp hmap
    rw [releasing_of_call hcall]
    refine .inl (h.call hcall (p :: s.releasing) nofun (.inr ⟨p, rfl, hp.1, hp.2, rfl⟩) ?_)
    intro q hq
    cases hq
    exact ⟨List.mem_cons_self, hp.2⟩
  | step t =>
    cases hexec
    by_cases ht : s.create t = .none
    · have heq : s.step t = s.step_spin t := by
        unfold pool_threads.step
        rw [ht]
      rw [heq]
      rcases h.step_spin t with hsame | ⟨e, a', hexec, hfollows, hkeeps⟩
      · exact .inl hsame
      · exact .inr ⟨e, a', hexec, hfollows, fun _ => hkeeps⟩
    · exact .inl (h.step_create ht)

theorem follows_new : Follows me new pool_run.new where
  stack := rfl
  count := rfl
  created := rfl
  out := rfl
  deleted := rfl
  owned := pool_run.owned_new
  others := fun _ _ => rfl
  lock := by
    obtain ⟨sec, -, h⟩ := (spin_threads.simulates_sections locked_pool []).init
      (spin_threads.new [] : spin_threads Thread _ _ _ _) rfl
    exact ⟨sec, h⟩
  calls := ⟨nofun, nofun, nofun, nofun⟩
  releasing := nofun
  releasing_nodup := List.nodup_nil
  defined := nofun

/-- **The threads do what calls of the pool one after the other do.** -/
theorem simulates_pool_run (me : Thread) :
    Simulation (system.restrict (OneGetter me)) pool_run.system (Follows me) where
  init := by
    intro s hs
    cases hs
    exact ⟨pool_run.new, rfl, follows_new⟩
  step := by
    intro s l s' a h ⟨hguard, hexec⟩
    rcases h.exec hguard hexec with hsame | ⟨e, a', ha', h', -⟩
    · exact .inl hsame
    · exact .inr ⟨e, a', ha', h'⟩

/-- **The pool owns its objects whatever the interleaving**: with one thread that gets and
    any that release, no thread takes the top of an empty stack; every object created lies
    on the stack or is handed out, never both and never twice. -/
theorem objects_owned_of_reachable (me : Thread) (s : pool_threads Thread)
    (h : (system.restrict (OneGetter me)).Reachable s) :
    (∀ x ∈ s.spin.log, x.2.2 ≠ .undefined) ∧ s.spin.shared.Nodup ∧ s.out.Nodup ∧
      (∀ p ∈ s.spin.shared, p ∉ s.out) ∧ s.created = s.spin.shared.length + s.out.length := by
  obtain ⟨a, -, hf⟩ := (simulates_pool_run me).exists_reachable h
  have howned := hf.owned
  have hout := howned.out
  have htotal := howned.total
  rw [hf.out] at hout
  rw [hf.created, hf.deleted, hf.out, hf.stack] at htotal
  refine ⟨hf.defined, ?_, (List.nodup_append.mp hout).2.1, ?_, ?_⟩
  · rw [← hf.stack]
    exact howned.free
  · intro p hp hmem
    rw [← hf.stack] at hp
    refine howned.disjoint p hp ?_
    rw [hf.out]
    exact List.mem_append_right _ hmem
  · have hcoming : ((s.create me).coming s.created).length = (s.create me).making.toNat := by
      unfold create_pc.coming
      cases (s.create me).making <;> rfl
    rw [List.length_append, hcoming, List.length_nil] at htotal
    omega

/-- **The counter is right whatever the interleaving**: if moreover every object counted is
    created, `_count` is the number of objects whenever the getter is not creating one. -/
theorem counts_of_reachable (me : Thread) (s : pool_threads Thread)
    (h : (system.restrict (Counted me)).Reachable s) (hnone : s.create me = .none) :
    s._count.toInt = s.spin.shared.length + s.out.length := by
  have hsim : Simulation (system.restrict (Counted me)) pool_run.system
      (fun s a => Follows me s a ∧ a.CountsRight) := by
    refine ⟨?_, ?_⟩
    · intro s hs
      cases hs
      exact ⟨pool_run.new, rfl, follows_new,
        (pool_run.counts_right_iff pool_run.owned_new).mpr rfl⟩
    · intro s l s' a ⟨hf, hright⟩ ⟨hguard, hexec⟩
      have hone : s.OneGetter me l := by
        cases l with
        | get t allocated => exact hguard.1
        | release t p => trivial
        | step t => trivial
      rcases hf.exec hone hexec with hsame | ⟨e, a', ha', hf', hkeeps⟩
      · exact .inl ⟨hsame, hright⟩
      · exact .inr ⟨e, a', ha', hf',
          (pool_run.counts_right_exec hf.owned hright ha').mpr (hkeeps hguard)⟩
  obtain ⟨a, -, hf, hright⟩ := hsim.exists_reachable h
  have hcount := (pool_run.counts_right_iff hf.owned).mp hright
  have ha := hf.count
  have hout := hf.out
  rw [hnone] at ha hout
  rw [ha, show create_pc.none.uncounted = 0 from rfl, Int32.add_zero] at hcount
  rw [hcount]
  unfold pool_run.existing
  rw [hf.stack, hout]
  rfl

/-! ### Who pops -/

theorem spin_step_spin (s : pool_threads Thread) (t : Thread) :
    (s.step_spin t).spin = s.spin.next locked_pool t := by
  unfold step_spin
  split
  · split
    · rfl
    · next r hr => cases r <;> rfl
  · rfl

theorem log_call {t : Thread} {c : pool_call} {s' : pool_threads Thread}
    (h : s.call t c = some s') : s'.spin.log = s.spin.log := by
  unfold pool_threads.call at h
  obtain ⟨-, hspin⟩ := Option.ite_none_right_eq_some.mp h
  obtain ⟨spin, hexec, rfl⟩ := Option.map_eq_some_iff.mp hspin
  rcases spin_threads.exec_cases hexec with ⟨u, x, -, -, rfl⟩ | ⟨u, hl, -⟩ | ⟨u, hl, -⟩
  · rfl
  · cases hl
  · cases hl

/-- A step logs at most the call of the thread that makes it. -/
theorem log_exec {l : pool_step Thread} {s' : pool_threads Thread} (h : s.exec l = some s') :
    s'.spin.log = s.spin.log ∨ ∃ t c r, (s.spin.pc t).pending = some c ∧
      s'.spin.log = s.spin.log ++ [(t, c, r)] := by
  cases l with
  | get t allocated =>
    simp only [pool_threads.exec] at h
    split at h
    · split at h
      · obtain ⟨-, hs'⟩ := Option.ite_none_right_eq_some.mp h
        cases hs'
        exact .inl rfl
      · cases h
    · exact .inl (log_call h)
  | release t p =>
    simp only [pool_threads.exec] at h
    obtain ⟨-, hmap⟩ := Option.ite_none_right_eq_some.mp h
    obtain ⟨s₁, hcall, rfl⟩ := Option.map_eq_some_iff.mp hmap
    have hlog := log_call hcall
    exact .inl hlog
  | step t =>
    cases h
    unfold pool_threads.step
    split
    · rw [spin_step_spin]
      rcases s.spin.log_next t with hsame | ⟨c, r, hpending, hlog⟩
      · exact .inl hsame
      · exact .inr ⟨t, c, r, hpending, hlog⟩
    · exact .inl rfl
    · exact .inl rfl
    · exact .inl rfl

/-- What lies on the stack goes to the getter only. -/
theorem popped_by_getter (h : (system.restrict (OneGetter me)).Reachable s) :
    ∀ x ∈ s.spin.log, x.2.1 = .pop → x.1 = me := by
  induction h with
  | init hs =>
    cases hs
    nofun
  | step l hr hstep ih =>
    obtain ⟨a, -, hf⟩ := (simulates_pool_run me).exists_reachable hr
    rcases log_exec hstep.2 with hsame | ⟨t, c, r, hpending, hlog⟩
    · rw [hsame]
      exact ih
    · rw [hlog]
      intro x hx hpop
      rcases List.mem_append.mp hx with hx | hx
      · exact ih x hx hpop
      · cases List.mem_singleton.mp hx
        cases (show c = .pop from hpop)
        exact (hf.calls.getting t hpending).1

/-- One object is on the stack when two threads make the test of `get`. -/
def two_getters : List (pool_step Nat) :=
  .get 0 true :: List.replicate 2 (.step 0) ++ .release 0 0 :: List.replicate 6 (.step 0) ++
    [.get 0 true, .get 1 true] ++ List.replicate 7 (.step 0) ++ List.replicate 3 (.step 1)

theorem not_always_defined : ∃ s : pool_threads Nat, system.Reachable s ∧
    ∃ x ∈ s.spin.log, x.2.2 = .undefined := by
  obtain ⟨s, hs, hlog⟩ : ∃ s, two_getters.foldlM exec (new : pool_threads Nat) = some s ∧
      s.spin.log = [(0, .push 0, .pushed 0), (0, .pop, .popped 0), (1, .pop, .undefined)] :=
    ⟨_, rfl, rfl⟩
  have hstart : (system.restrict fun _ _ => True).Reachable (new : pool_threads Nat) := .init rfl
  refine ⟨s, (hstart.of_foldlM two_getters (fun _ _ _ => trivial) hs).of_restrict, ?_⟩
  rw [hlog]
  exact ⟨(1, .pop, .undefined), by simp, rfl⟩

end pool_threads

end AsioNet
