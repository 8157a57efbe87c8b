import AsioNet.Library.TransitionSystem
import AsioNet.ParallelCore.SafeHashMap

/-! # Caches of threads (`parallel_core/ThreadCacheContainer.h`, `parallel_core/ThreadWrapper.cpp`)

    A container has one cache for every thread that asks. With the cache it
    registers a listener at the `ThreadWrapper`, which tells it when the thread
    ends; the container then deletes the cache, and asserts that there is one.

    `clearUnusedThreadCache` deletes all caches of a container but leaves their
    listeners. Each of them is one too many: `listeners` counts them, and a
    thread ends as it should exactly when none of its caches was deleted so
    (`cleared_once`).
-/

namespace AsioNet

open TransitionSystem

/-- The containers and the `ThreadWrapper`. Containers, threads and caches are known
    by numbers. -/
structure thread_caches where
  /-- The cache each container holds for a thread. -/
  _threadIdMap : Nat → unordered_map Nat Nat
  /-- The containers whose listeners are registered for the thread; no entry is an
      empty list. -/
  _pidListenerMap : Nat → List Nat
  /-- The number of caches created so far. -/
  created : Nat
  /-- The thread each cache was created for. -/
  made_for : Nat → Nat
  deleted : List Nat
  /-- How many caches of the container and the thread `clearUnusedThreadCache` has
      deleted since the thread last ended. -/
  cleared : Nat → Nat → Nat
  /-- The thread has ended, and no cache was created for it since. -/
  ended : Nat → Bool
  /-- An assertion has failed. -/
  aborted : Bool

inductive cache_event where
  /-- A cache that has to be created may find no memory. -/
  | getThreadCache (c pid : Nat) (allocated : Bool)
  | clearUnusedThreadCache (c : Nat)
  | beforeDestroyThread (pid : Nat)

namespace thread_caches

def registerListener (s : thread_caches) (pid c : Nat) : thread_caches :=
  { s with _pidListenerMap :=
      Function.update s._pidListenerMap pid (s._pidListenerMap pid ++ [c]) }

/-- Also returns the cache. -/
def getThreadCache (s : thread_caches) (c pid : Nat) (allocated : Bool) :
    thread_caches × Option Nat :=
  if pid ∈ s._threadIdMap c then (s, (s._threadIdMap c).lookup pid)
  else if allocated = false then (s, none)
  else
    let s' := { s with
      _threadIdMap :=
        Function.update s._threadIdMap c ((s._threadIdMap c).insert pid s.created).1
      created := s.created + 1
      made_for := Function.update s.made_for s.created pid
      ended := Function.update s.ended pid false }
    (s'.registerListener pid c, some s.created)

def clearUnusedThreadCache (s : thread_caches) (c : Nat) : thread_caches :=
  { s with
    _threadIdMap := Function.update s._threadIdMap c ∅
    deleted := (s._threadIdMap c).entries.map Sigma.snd ++ s.deleted
    cleared := Function.update s.cleared c fun pid =>
      s.cleared c pid + if pid ∈ s._threadIdMap c then 1 else 0 }

/-- None if the assertion fails. -/
def onThreadClear (s : thread_caches) (c pid : Nat) : Option thread_caches :=
  match (s._threadIdMap c).lookup pid with
  | some one => some { s with
      _threadIdMap := Function.update s._threadIdMap c ((s._threadIdMap c).erase pid).1
      deleted := one :: s.deleted }
  | none => none

/-- The loop over the listeners. -/
def clear_listeners (s : thread_caches) (pid : Nat) (listeners : List Nat) :
    Option thread_caches :=
  listeners.foldlM (fun s c => s.onThreadClear c pid) s

def beforeDestroyThread (s : thread_caches) (pid : Nat) : Option thread_caches :=
  (s.clear_listeners pid (s._pidListenerMap pid)).map fun s' => { s' with
    _pidListenerMap := Function.update s'._pidListenerMap pid []
    cleared := fun c => Function.update (s'.cleared c) pid 0
    ended := Function.update s'.ended pid true }

/-- After a failed assertion nothing happens any more. -/
def exec (s : thread_caches) (e : cache_event) : Option thread_caches :=
  if s.aborted then none
  else match e with
    | .getThreadCache c pid allocated => some (s.getThreadCache c pid allocated).1
    | .clearUnusedThreadCache c => some (s.clearUnusedThreadCache c)
    | .beforeDestroyThread pid =>
      some ((s.beforeDestroyThread pid).getD { s with aborted := true })

/-- No cache has been created yet. -/
def start : thread_caches where
  _threadIdMap := fun _ => ∅
  _pidListenerMap := fun _ => []
  created := 0
  made_for := fun _ => 0
  deleted := []
  cleared := fun _ _ => 0
  ended := fun _ => false
  aborted := false

def system : System thread_caches cache_event := System.ofExec (fun s => s = start) exec

/-- Caches are deleted once, when their threads have ended at the latest. -/
structure ClearedOnce (s : thread_caches) : Prop where
  /-- `onThreadClear` was called only on containers with a cache for the thread. -/
  no_assertion : s.aborted = false
  at_most_once : s.deleted.Nodup
  all_deleted : ∀ pid, s.ended pid = true → ∀ q, q < s.created → s.made_for q = pid →
    s.deleted.count q = 1
  no_cache : ∀ pid, s.ended pid = true → ∀ c, pid ∉ s._threadIdMap c
  no_listener : ∀ pid, s.ended pid = true → s._pidListenerMap pid = []

/-- A thread ends only if `clearUnusedThreadCache` has deleted none of the caches
    created for it since it last ended. -/
def EndsUncleared (s : thread_caches) : cache_event → Prop
  | .beforeDestroyThread pid => ∀ c, s.cleared c pid = 0
  | _ => True

/-! ### The caches -/

/-- The container holds the cache for the thread. -/
def Holds (s : thread_caches) (c pid q : Nat) : Prop := (s._threadIdMap c).lookup pid = some q

theorem mem_of_holds {s : thread_caches} {c pid q : Nat} (h : s.Holds c pid q) :
    pid ∈ s._threadIdMap c :=
  AList.lookup_isSome.mp (by rw [show (s._threadIdMap c).lookup pid = some q from h]; rfl)

theorem exists_holds {s : thread_caches} {c pid : Nat} (h : pid ∈ s._threadIdMap c) :
    ∃ q, s.Holds c pid q := Option.isSome_iff_exists.mp (AList.lookup_isSome.mpr h)

/-- Every cache that was created is held for its thread by one container, or deleted. -/
structure Kept (s : thread_caches) : Prop where
  deleted : s.deleted.Nodup
  created : ∀ q ∈ s.deleted, q < s.created
  held : ∀ c pid q, s.Holds c pid q → q < s.created ∧ s.made_for q = pid ∧ q ∉ s.deleted
  one_container : ∀ c c' pid q, s.Holds c pid q → s.Holds c' pid q → c = c'
  held_or_deleted : ∀ q, q < s.created → q ∈ s.deleted ∨ ∃ c, s.Holds c (s.made_for q) q

/-- Deleting some of the caches held. -/
theorem Kept.delete {s s' : thread_caches} (h : Kept s) (gone : List Nat)
    (hcreated : s'.created = s.created) (hmade : s'.made_for = s.made_for)
    (hdeleted : s'.deleted = gone ++ s.deleted) (hnodup : gone.Nodup)
    (hsub : ∀ c pid q, s'.Holds c pid q → s.Holds c pid q)
    (hgone : ∀ q, q ∈ gone ↔ ∃ c pid, s.Holds c pid q ∧ ¬ s'.Holds c pid q) : Kept s' := by
  refine ⟨?_, ?_, ?_, ?_, ?_⟩
  · rw [hdeleted, List.nodup_append']
    refine ⟨hnodup, h.deleted, ?_⟩
    intro q hq hold
    obtain ⟨c, pid, hheld, _⟩ := (hgone q).mp hq
    exact (h.held c pid q hheld).2.2 hold
  · intro q hq
    rw [hdeleted] at hq
    rw [hcreated]
    rcases List.mem_append.mp hq with hq | hq
    · obtain ⟨c, pid, hheld, _⟩ := (hgone q).mp hq
      exact (h.held c pid q hheld).1
    · exact h.created q hq
  · intro c pid q hheld
    obtain ⟨hlt, hpid, hnot⟩ := h.held c pid q (hsub c pid q hheld)
    rw [hcreated, hmade, hdeleted]
    refine ⟨hlt, hpid, ?_⟩
    intro hq
    rcases List.mem_append.mp hq with hq | hq
    · -- it is held in one place only, and there it still is
      obtain ⟨c', pid', hheld', hlost⟩ := (hgone q).mp hq
      obtain ⟨_, hpid', _⟩ := h.held c' pid' q hheld'
      rw [← hpid', hpid] at hheld' hlost
      rw [h.one_container c' c pid q hheld' (hsub c pid q hheld)] at hlost
      exact hlost hheld
    · exact hnot hq
  · intro c c' pid q hheld hheld'
    exact h.one_container c c' pid q (hsub c pid q hheld) (hsub c' pid q hheld')
  · intro q hq
    rw [hcreated] at hq
    rw [hmade, hdeleted]
    rcases h.held_or_deleted q hq with hdel | ⟨c, hheld⟩
    · exact Or.inl (List.mem_append_right gone hdel)
    · by_cases hstill : s'.Holds c (s.made_for q) q
      · exact Or.inr ⟨c, hstill⟩
      · exact Or.inl (List.mem_append_left _ ((hgone q).mpr ⟨c, _, hheld, hstill⟩))

/-! ### What the operations do -/

/-- What `onThreadClear` does on a container that holds a cache. -/
structure Deletes (s : thread_caches) (c pid q : Nat) (s' : thread_caches) : Prop where
  held : s.Holds c pid q
  holds : ∀ c' pid' q', s'.Holds c' pid' q' ↔
    s.Holds c' pid' q' ∧ ¬ (c' = c ∧ pid' = pid)
  deleted : s'.deleted = q :: s.deleted
  created : s'.created = s.created
  made_for : s'.made_for = s.made_for
  listeners : s'._pidListenerMap = s._pidListenerMap
  cleared : s'.cleared = s.cleared
  ended : s'.ended = s.ended
  aborted : s'.aborted = s.aborted

theorem onThreadClear_some {s s' : thread_caches} {c pid : Nat}
    (h : s.onThreadClear c pid = some s') : ∃ q, Deletes s c pid q s' := by
  unfold onThreadClear at h
  cases hq : (s._threadIdMap c).lookup pid with
  | none =>
    rw [hq] at h
    cases h
  | some q =>
    rw [hq] at h
    have hmem : pid ∈ s._threadIdMap c := mem_of_holds (s := s) hq
    rw [← Option.some.inj h]
    refine ⟨q, hq, ?_, rfl, rfl, rfl, rfl, rfl, rfl, rfl⟩
    intro c' pid' q'
    unfold Holds unordered_map.erase
    rw [if_pos hmem]
    by_cases hc : c' = c
    · subst hc
      simp only [Function.update_self]
      by_cases hpid : pid' = pid
      · subst hpid
        rw [AList.lookup_erase]
        simp
      · rw [AList.lookup_erase_ne hpid]
        simp [hpid]
    · simp [hc]

theorem onThreadClear_isSome (s : thread_caches) (c pid : Nat) :
    (s.onThreadClear c pid).isSome = true ↔ pid ∈ s._threadIdMap c := by
  rw [← AList.lookup_isSome]
  unfold onThreadClear
  cases (s._threadIdMap c).lookup pid <;> simp

theorem Deletes.mem_iff {s s' : thread_caches} {c pid q : Nat} (h : Deletes s c pid q s')
    (c' pid' : Nat) :
    pid' ∈ s'._threadIdMap c' ↔ pid' ∈ s._threadIdMap c' ∧ ¬ (c' = c ∧ pid' = pid) := by
  constructor
  · intro hmem
    obtain ⟨q', hq'⟩ := exists_holds hmem
    obtain ⟨hheld, hne⟩ := (h.holds c' pid' q').mp hq'
    exact ⟨mem_of_holds hheld, hne⟩
  · intro ⟨hmem, hne⟩
    obtain ⟨q', hq'⟩ := exists_holds hmem
    exact mem_of_holds ((h.holds c' pid' q').mpr ⟨hq', hne⟩)

theorem Deletes.kept {s s' : thread_caches} {c pid q : Nat} (h : Deletes s c pid q s')
    (hkept : Kept s) : Kept s' := by
  refine hkept.delete [q] h.created h.made_for h.deleted (List.nodup_singleton q) ?_ ?_
  · intro c' pid' q' hheld
    exact ((h.holds c' pid' q').mp hheld).1
  · intro q'
    rw [List.mem_singleton]
    constructor
    · intro hq
      rw [hq]
      exact ⟨c, pid, h.held, fun hstill => ((h.holds c pid q).mp hstill).2 ⟨rfl, rfl⟩⟩
    · intro ⟨c', pid', hheld, hlost⟩
      have hplace : c' = c ∧ pid' = pid := by
        by_contra hne
        exact hlost ((h.holds c' pid' q').mpr ⟨hheld, hne⟩)
      rw [hplace.1, hplace.2] at hheld
      exact Option.some.inj (hheld.symm.trans h.held)

/-! ### The end of a thread -/

/-- The loop over the listeners has deleted the thread's caches in `listeners`. -/
structure ListenersCleared (s : thread_caches) (pid : Nat) (listeners : List Nat)
    (s' : thread_caches) : Prop where
  mem : ∀ c' pid', pid' ∈ s'._threadIdMap c' ↔
    pid' ∈ s._threadIdMap c' ∧ ¬ (c' ∈ listeners ∧ pid' = pid)
  kept : Kept s → Kept s'
  created : s'.created = s.created
  made_for : s'.made_for = s.made_for
  pidListenerMap : s'._pidListenerMap = s._pidListenerMap
  cleared : s'.cleared = s.cleared
  ended : s'.ended = s.ended
  aborted : s'.aborted = s.aborted

theorem clear_listeners_cons (s : thread_caches) (pid c : Nat) (listeners : List Nat) :
    s.clear_listeners pid (c :: listeners) =
      (s.onThreadClear c pid).bind fun s' => s'.clear_listeners pid listeners := rfl

theorem clear_listeners_some {s s' : thread_caches} {pid : Nat} {listeners : List Nat}
    (h : s.clear_listeners pid listeners = some s') : ListenersCleared s pid listeners s' := by
  induction listeners generalizing s with
  | nil =>
    cases h
    refine ⟨?_, id, rfl, rfl, rfl, rfl, rfl, rfl⟩
    intro c' pid'
    simp
  | cons c listeners ih =>
    rw [clear_listeners_cons] at h
    obtain ⟨s₁, hfirst, hrest⟩ := Option.bind_eq_some_iff.mp h
    obtain ⟨q, hdel⟩ := onThreadClear_some hfirst
    have hcleared := ih hrest
    refine ⟨?_, fun hkept => hcleared.kept (hdel.kept hkept), hcleared.created.trans hdel.created,
      hcleared.made_for.trans hdel.made_for, hcleared.pidListenerMap.trans hdel.listeners,
      hcleared.cleared.trans hdel.cleared, hcleared.ended.trans hdel.ended,
      hcleared.aborted.trans hdel.aborted⟩
    intro c' pid'
    rw [hcleared.mem, hdel.mem_iff, List.mem_cons]
    tauto

/-- The loop gets through if and only if there is one listener for each cache it deletes. -/
theorem clear_listeners_isSome (s : thread_caches) (pid : Nat) (listeners : List Nat) :
    (s.clear_listeners pid listeners).isSome = true ↔
      listeners.Nodup ∧ ∀ c ∈ listeners, pid ∈ s._threadIdMap c := by
  induction listeners generalizing s with
  | nil => simp [clear_listeners]
  | cons c listeners ih =>
    rw [clear_listeners_cons, List.nodup_cons]
    cases hfirst : s.onThreadClear c pid with
    | none =>
      have hnone : pid ∉ s._threadIdMap c := by
        rw [← onThreadClear_isSome, hfirst]
        exact Bool.false_ne_true
      refine iff_of_false Bool.false_ne_true ?_
      intro ⟨_, hall⟩
      exact hnone (hall c List.mem_cons_self)
    | some s₁ =>
      obtain ⟨q, hdel⟩ := onThreadClear_some hfirst
      rw [Option.bind_some, ih]
      constructor
      · intro ⟨hnodup, hall⟩
        refine ⟨⟨?_, hnodup⟩, ?_⟩
        · -- its cache is gone, so the container has no second listener
          intro hmem
          exact ((hdel.mem_iff c pid).mp (hall c hmem)).2 ⟨rfl, rfl⟩
        · intro c' hc'
          rcases List.mem_cons.mp hc' with rfl | hc'
          · exact mem_of_holds hdel.held
          · exact ((hdel.mem_iff c' pid).mp (hall c' hc')).1
      · intro ⟨⟨hnot, hnodup⟩, hall⟩
        refine ⟨hnodup, ?_⟩
        intro c' hc'
        refine (hdel.mem_iff c' pid).mpr ⟨hall c' (List.mem_cons_of_mem c hc'), ?_⟩
        intro ⟨hsame, _⟩
        exact hnot (hsame ▸ hc')

/-! ### Listeners and caches -/

/-- Every cache has its listener, and every one cleared has left one behind. -/
structure Registered (s : thread_caches) : Prop where
  listeners : ∀ c pid, (s._pidListenerMap pid).count c =
    (if pid ∈ s._threadIdMap c then 1 else 0) + s.cleared c pid
  ended : ∀ pid, s.ended pid = true → s._pidListenerMap pid = []

theorem Registered.not_mem {s : thread_caches} (h : Registered s) {pid : Nat}
    (hnil : s._pidListenerMap pid = []) (c : Nat) : pid ∉ s._threadIdMap c := by
  intro hmem
  have hcount := h.listeners c pid
  rw [hnil, List.count_nil, if_pos hmem] at hcount
  omega

/-- A thread's listeners fit its caches unless some of its caches were cleared. -/
theorem Registered.fit_iff {s : thread_caches} (h : Registered s) (pid : Nat) :
    ((s._pidListenerMap pid).Nodup ∧ ∀ c ∈ s._pidListenerMap pid, pid ∈ s._threadIdMap c) ↔
      ∀ c, s.cleared c pid = 0 := by
  constructor
  · intro ⟨hnodup, hall⟩ c
    have hcount := h.listeners c pid
    have hle := List.nodup_iff_count_le_one.mp hnodup c
    by_cases hmem : pid ∈ s._threadIdMap c
    · rw [if_pos hmem] at hcount
      omega
    · rw [if_neg hmem] at hcount
      have hnot : c ∉ s._pidListenerMap pid := fun hc => hmem (hall c hc)
      rw [List.count_eq_zero_of_not_mem hnot] at hcount
      omega
  · intro hzero
    refine ⟨List.nodup_iff_count_le_one.mpr ?_, ?_⟩
    · intro c
      rw [h.listeners, hzero c]
      split <;> omega
    · intro c hc
      have hpos := List.count_pos_iff.mpr hc
      rw [h.listeners, hzero c] at hpos
      by_contra hmem
      rw [if_neg hmem] at hpos
      omega

/-! ### Steps -/

/-- What `getThreadCache` does when it creates a cache. -/
structure Inserts (s : thread_caches) (c pid : Nat) (s' : thread_caches) : Prop where
  not_mem : pid ∉ s._threadIdMap c
  holds : ∀ c' pid' q', s'.Holds c' pid' q' ↔
    s.Holds c' pid' q' ∨ (c' = c ∧ pid' = pid ∧ q' = s.created)
  deleted : s'.deleted = s.deleted
  created : s'.created = s.created + 1
  made_for : s'.made_for = Function.update s.made_for s.created pid
  listeners : s'._pidListenerMap =
    Function.update s._pidListenerMap pid (s._pidListenerMap pid ++ [c])
  cleared : s'.cleared = s.cleared
  ended : s'.ended = Function.update s.ended pid false
  aborted : s'.aborted = s.aborted

theorem getThreadCache_cases (s : thread_caches) (c pid : Nat) (allocated : Bool) :
    (s.getThreadCache c pid allocated).1 = s ∨
      Inserts s c pid (s.getThreadCache c pid allocated).1 := by
  unfold getThreadCache
  split
  · exact Or.inl rfl
  next hmem =>
  split
  · exact Or.inl rfl
  refine Or.inr ⟨hmem, ?_, rfl, rfl, rfl, rfl, rfl, rfl, rfl⟩
  intro c' pid' q'
  unfold Holds unordered_map.insert
  rw [if_neg hmem]
  show (Function.update s._threadIdMap c (AList.insert pid s.created (s._threadIdMap c))
    c').lookup pid' = some q' ↔ _
  by_cases hc : c' = c
  · subst hc
    rw [Function.update_self]
    by_cases hpid : pid' = pid
    · subst hpid
      rw [AList.lookup_insert, AList.lookup_eq_none.mpr hmem]
      simp [eq_comm]
    · rw [AList.lookup_insert_ne hpid]
      simp [hpid]
  · rw [Function.update_of_ne hc]
    simp [hc]

theorem Inserts.mem_iff {s s' : thread_caches} {c pid : Nat} (h : Inserts s c pid s')
    (c' pid' : Nat) :
    pid' ∈ s'._threadIdMap c' ↔ pid' ∈ s._threadIdMap c' ∨ (c' = c ∧ pid' = pid) := by
  constructor
  · intro hmem
    obtain ⟨q, hq⟩ := exists_holds hmem
    rcases (h.holds c' pid' q).mp hq with hold | ⟨hc, hpid, _⟩
    · exact Or.inl (mem_of_holds hold)
    · exact Or.inr ⟨hc, hpid⟩
  · intro hmem
    rcases hmem with hmem | ⟨hc, hpid⟩
    · obtain ⟨q, hq⟩ := exists_holds hmem
      exact mem_of_holds ((h.holds c' pid' q).mpr (Or.inl hq))
    · exact mem_of_holds ((h.holds c' pid' s.created).mpr (Or.inr ⟨hc, hpid, rfl⟩))

theorem Inserts.kept {s s' : thread_caches} {c pid : Nat} (h : Inserts s c pid s')
    (hkept : Kept s) : Kept s' := by
  have hcreated := h.created
  have hmade : ∀ q, q < s.created → s'.made_for q = s.made_for q := by
    intro q hq
    rw [h.made_for]
    exact Function.update_of_ne (Nat.ne_of_lt hq) _ _
  have hnew : s'.made_for s.created = pid := by
    rw [h.made_for]
    exact Function.update_self _ _ _
  refine ⟨?_, ?_, ?_, ?_, ?_⟩
  · rw [h.deleted]
    exact hkept.deleted
  · intro q hq
    rw [h.deleted] at hq
    have hlt := hkept.created q hq
    omega
  · intro c' pid' q hq
    rw [h.deleted]
    rcases (h.holds c' pid' q).mp hq with hold | ⟨_, hpid, hq⟩
    · obtain ⟨hlt, hfor, hnot⟩ := hkept.held c' pid' q hold
      exact ⟨by omega, (hmade q hlt).trans hfor, hnot⟩
    · rw [hq, hpid]
      exact ⟨by omega, hnew, fun hdel => Nat.lt_irrefl _ (hkept.created _ hdel)⟩
  · intro c₁ c₂ pid' q h₁ h₂
    rcases (h.holds c₁ pid' q).mp h₁ with h₁ | ⟨hc₁, _, hq₁⟩ <;>
      rcases (h.holds c₂ pid' q).mp h₂ with h₂ | ⟨hc₂, _, hq₂⟩
    · exact hkept.one_container c₁ c₂ pid' q h₁ h₂
    · -- the new cache is held nowhere else
      exact absurd (hkept.held c₁ pid' q h₁).1 (by omega)
    · exact absurd (hkept.held c₂ pid' q h₂).1 (by omega)
    · rw [hc₁, hc₂]
  · intro q hq
    rw [h.deleted]
    by_cases hqn : q = s.created
    · rw [hqn, hnew]
      exact Or.inr ⟨c, (h.holds c pid s.created).mpr (Or.inr ⟨rfl, rfl, rfl⟩)⟩
    · have hlt : q < s.created := by omega
      rw [hmade q hlt]
      rcases hkept.held_or_deleted q hlt with hdel | ⟨c', hheld⟩
      · exact Or.inl hdel
      · exact Or.inr ⟨c', (h.holds c' _ q).mpr (Or.inl hheld)⟩

theorem Inserts.registered {s s' : thread_caches} {c pid : Nat} (h : Inserts s c pid s')
    (hreg : Registered s) : Registered s' := by
  refine ⟨?_, ?_⟩
  · intro c' pid'
    have hcount := hreg.listeners c' pid'
    have hmem := h.mem_iff c' pid'
    rw [h.cleared, h.listeners, Function.update_apply]
    by_cases hpid : pid' = pid
    · rw [if_pos hpid, List.count_append, ← hpid, hcount]
      by_cases hc : c' = c
      · -- the new cache and its listener
        have hold : pid' ∉ s._threadIdMap c' := by
          rw [hpid, hc]
          exact h.not_mem
        rw [if_neg hold, if_pos (hmem.mpr (Or.inr ⟨hc, hpid⟩)), hc, List.count_singleton_self]
        omega
      · have hsame : pid' ∈ s'._threadIdMap c' ↔ pid' ∈ s._threadIdMap c' := by
          rw [hmem]
          exact or_iff_left fun hnew => hc hnew.1
        have hzero : List.count c' [c] = 0 :=
          List.count_eq_zero_of_not_mem fun hin => hc (List.mem_singleton.mp hin)
        rw [hzero]
        simp only [hsame, Nat.add_zero]
    · have hsame : pid' ∈ s'._threadIdMap c' ↔ pid' ∈ s._threadIdMap c' := by
        rw [hmem]
        exact or_iff_left fun hnew => hpid hnew.2
      rw [if_neg hpid, hcount]
      simp only [hsame]
  · intro pid' hended
    rw [h.ended] at hended
    rw [h.listeners]
    by_cases hpid : pid' = pid
    · rw [hpid, Function.update_self] at hended
      cases hended
    · rw [Function.update_of_ne hpid] at hended ⊢
      exact hreg.ended pid' hended

theorem clearUnused_holds (s : thread_caches) (c c' pid q : Nat) :
    (s.clearUnusedThreadCache c).Holds c' pid q ↔ s.Holds c' pid q ∧ c' ≠ c := by
  unfold clearUnusedThreadCache Holds
  by_cases hc : c' = c
  · subst hc
    simp
  · simp [hc]

theorem clearUnused_kept {s : thread_caches} (hkept : Kept s) (c : Nat) :
    Kept (s.clearUnusedThreadCache c) := by
  have hentry : ∀ pid q, Sigma.mk pid q ∈ (s._threadIdMap c).entries ↔ s.Holds c pid q :=
    fun pid q => AList.mem_lookup_iff.symm
  refine hkept.delete ((s._threadIdMap c).entries.map Sigma.snd) rfl rfl rfl ?_ ?_ ?_
  · -- every cache was created for one thread
    refine (s._threadIdMap c).nodupKeys.nodup.map_on ?_
    intro ⟨pid, q⟩ hq ⟨pid', q'⟩ hq' heq
    have hpid := (hkept.held c pid q ((hentry pid q).mp hq)).2.1
    have hpid' := (hkept.held c pid' q' ((hentry pid' q').mp hq')).2.1
    rw [show q = q' from heq] at hpid ⊢
    rw [← hpid, ← hpid']
  · intro c' pid q hheld
    exact ((clearUnused_holds s c c' pid q).mp hheld).1
  · intro q
    rw [List.mem_map]
    constructor
    · intro ⟨⟨pid, q'⟩, hmem, hq⟩
      rw [show q' = q from hq] at hmem
      refine ⟨c, pid, (hentry pid q).mp hmem, ?_⟩
      intro hstill
      exact ((clearUnused_holds s c c pid q).mp hstill).2 rfl
    · intro ⟨c', pid, hheld, hlost⟩
      have hc : c' = c := by
        by_contra hne
        exact hlost ((clearUnused_holds s c c' pid q).mpr ⟨hheld, hne⟩)
      rw [hc] at hheld
      exact ⟨⟨pid, q⟩, (hentry pid q).mpr hheld, rfl⟩

theorem clearUnused_registered {s : thread_caches} (hreg : Registered s) (c : Nat) :
    Registered (s.clearUnusedThreadCache c) := by
  refine ⟨?_, hreg.ended⟩
  intro c' pid
  have hcount := hreg.listeners c' pid
  unfold clearUnusedThreadCache
  by_cases hc : c' = c
  · subst hc
    simp only [Function.update_self, AList.notMem_empty, if_false]
    omega
  · simp only [Function.update_of_ne hc]
    exact hcount

/-- What the end of a thread does, if no assertion fails. -/
theorem beforeDestroy_some {s s' : thread_caches} {pid : Nat}
    (h : s.beforeDestroyThread pid = some s') (hkept : Kept s) (hreg : Registered s) :
    Kept s' ∧ Registered s' ∧ s'.aborted = s.aborted := by
  unfold beforeDestroyThread at h
  obtain ⟨t, ht, rfl⟩ := Option.map_eq_some_iff.mp h
  have hclear := clear_listeners_some ht
  have hkept' := hclear.kept hkept
  refine ⟨⟨hkept'.deleted, hkept'.created, hkept'.held, hkept'.one_container,
    hkept'.held_or_deleted⟩, ⟨?_, ?_⟩, hclear.aborted⟩
  · intro c' pid'
    have hcount := hreg.listeners c' pid'
    have hmem := hclear.mem c' pid'
    by_cases hpid : pid' = pid
    · subst hpid
      have hgone : pid' ∉ t._threadIdMap c' := by
        intro hin
        obtain ⟨hold, hnot⟩ := hmem.mp hin
        rw [if_pos hold] at hcount
        exact hnot ⟨List.count_pos_iff.mp (by omega), rfl⟩
      simp only [Function.update_self, List.count_nil, if_neg hgone]
    · simp only [Function.update_of_ne hpid]
      have hsame : pid' ∈ t._threadIdMap c' ↔ pid' ∈ s._threadIdMap c' := by
        rw [hmem]
        exact and_iff_left fun hboth => hpid hboth.2
      rw [hclear.pidListenerMap, hclear.cleared, hcount]
      simp only [hsame]
  · intro pid' hended
    by_cases hpid : pid' = pid
    · rw [hpid]
      exact Function.update_self _ _ _
    · simp only [Function.update_of_ne hpid] at hended ⊢
      rw [hclear.pidListenerMap]
      exact hreg.ended pid' (by rwa [hclear.ended] at hended)

theorem beforeDestroy_isSome {s : thread_caches} (hreg : Registered s) (pid : Nat) :
    (s.beforeDestroyThread pid).isSome = true ↔ ∀ c, s.cleared c pid = 0 := by
  unfold beforeDestroyThread
  rw [Option.isSome_map, clear_listeners_isSome]
  exact hreg.fit_iff pid

/-! ### Runs -/

/-- **One step** keeps caches and listeners together; it runs into the assertion exactly
    at the end of a thread of whose caches some were cleared. -/
theorem exec_keeps {s s' : thread_caches} {e : cache_event} (hkept : Kept s)
    (hreg : Registered s) (hexec : s.exec e = some s') :
    Kept s' ∧ Registered s' ∧ (s'.aborted = false ↔ EndsUncleared s e) := by
  obtain ⟨habort, h⟩ := Option.ite_none_left_eq_some.mp hexec
  have hrunning : s.aborted = false := Bool.eq_false_of_not_eq_true habort
  cases e with
  | getThreadCache c pid allocated =>
    cases h
    rcases getThreadCache_cases s c pid allocated with hsame | hins
    · rw [hsame]
      exact ⟨hkept, hreg, iff_of_true hrunning trivial⟩
    · exact ⟨hins.kept hkept, hins.registered hreg,
        iff_of_true (hins.aborted.trans hrunning) trivial⟩
  | clearUnusedThreadCache c =>
    cases h
    exact ⟨clearUnused_kept hkept c, clearUnused_registered hreg c, iff_of_true hrunning trivial⟩
  | beforeDestroyThread pid =>
    have hs' : (s.beforeDestroyThread pid).getD { s with aborted := true } = s' :=
      Option.some.inj h
    have hisSome := beforeDestroy_isSome hreg pid
    cases hdestroy : s.beforeDestroyThread pid with
    | none =>
      rw [hdestroy] at hs' hisSome
      rw [← hs']
      refine ⟨⟨hkept.deleted, hkept.created, hkept.held, hkept.one_container,
        hkept.held_or_deleted⟩, ⟨hreg.listeners, hreg.ended⟩, ?_⟩
      refine iff_of_false (fun hfalse => Bool.noConfusion hfalse) ?_
      intro hzero
      exact Bool.false_ne_true (hisSome.mpr hzero)
    | some t =>
      rw [hdestroy] at hs' hisSome
      rw [← hs']
      obtain ⟨hkept', hreg', haborted⟩ := beforeDestroy_some hdestroy hkept hreg
      exact ⟨hkept', hreg', iff_of_true (haborted.trans hrunning) (hisSome.mp rfl)⟩

theorem kept_start : Kept start := by
  refine ⟨List.nodup_nil, ?_, ?_, ?_, ?_⟩
  · intro q hq
    exact absurd hq List.not_mem_nil
  · intro c pid q hheld
    exact absurd (mem_of_holds hheld) (AList.notMem_empty pid)
  · intro c c' pid q hheld
    exact absurd (mem_of_holds hheld) (AList.notMem_empty pid)
  · intro q hq
    exact absurd hq (Nat.not_lt_zero q)

theorem registered_start : Registered start := by
  refine ⟨?_, fun _ _ => rfl⟩
  intro c pid
  show List.count c [] = (if pid ∈ (∅ : unordered_map Nat Nat) then 1 else 0) + 0
  rw [if_neg (AList.notMem_empty pid), List.count_nil]

theorem registered_of_reachable :
    ∀ s, system.Reachable s → Kept s ∧ Registered s := by
  refine System.invariant ?_ ?_
  · intro s hs
    rw [show s = start from hs]
    exact ⟨kept_start, registered_start⟩
  · intro s e s' ⟨hkept, hreg⟩ hexec
    obtain ⟨hkept', hreg', _⟩ := exec_keeps hkept hreg hexec
    exact ⟨hkept', hreg'⟩

/-- Without a failed assertion everything is deleted once and in time. -/
theorem cleared_once_iff {s : thread_caches} (hkept : Kept s) (hreg : Registered s) :
    ClearedOnce s ↔ s.aborted = false := by
  constructor
  · intro h
    exact h.no_assertion
  · intro hrunning
    have hgone : ∀ pid, s.ended pid = true → ∀ c, pid ∉ s._threadIdMap c :=
      fun pid hended => hreg.not_mem (hreg.ended pid hended)
    refine ⟨hrunning, hkept.deleted, ?_, hgone, hreg.ended⟩
    intro pid hended q hq hfor
    rcases hkept.held_or_deleted q hq with hdel | ⟨c, hheld⟩
    · exact List.count_eq_one_of_mem hkept.deleted hdel
    · rw [hfor] at hheld
      exact absurd (mem_of_holds hheld) (hgone pid hended c)

/-- **Thread caches are cleared exactly once**, exactly: in the runs in which no thread
    ends of whose caches some were cleared, and in a run that has kept to this the next
    step does so if and only if it does not end such a thread. -/
theorem cleared_once (s : thread_caches) :
    ((system.restrict EndsUncleared).Reachable s → ClearedOnce s) ∧
    ∀ e s', system.Reachable s → system.step s e s' →
      (ClearedOnce s' ↔ EndsUncleared s e) := by
  have hstep : ∀ s e s', system.Reachable s → system.step s e s' →
      (ClearedOnce s' ↔ EndsUncleared s e) := by
    intro s e s' hs hexec
    obtain ⟨hkept, hreg⟩ := registered_of_reachable s hs
    obtain ⟨hkept', hreg', hiff⟩ := exec_keeps hkept hreg hexec
    exact (cleared_once_iff hkept' hreg').trans hiff
  refine ⟨System.invariant_restrict ?_ (fun s e s' hs _ => hstep s e s' hs) s, hstep s⟩
  intro s hs
  rw [show s = start from hs]
  exact (cleared_once_iff kept_start registered_start).mpr rfl

/-- A container with a cache for one thread. -/
def one_cache : thread_caches := (start.getThreadCache 0 7 true).1

/-- The thread ends. -/
theorem cleared_once_one_cache :
    ∃ s, one_cache.exec (.beforeDestroyThread 7) = some s ∧ s.deleted = [0] ∧ ClearedOnce s := by
  have hcached : (system.restrict EndsUncleared).Reachable one_cache :=
    .step (.getThreadCache 0 7 true) (.init rfl) ⟨trivial, rfl⟩
  obtain ⟨s, hs, hdeleted⟩ : ∃ s, one_cache.exec (.beforeDestroyThread 7) = some s ∧
      s.deleted = [0] := ⟨_, rfl, rfl⟩
  exact ⟨s, hs, hdeleted, (cleared_once s).1
    (.step (.beforeDestroyThread 7) hcached ⟨fun _ => rfl, hs⟩)⟩

/-- The container deletes its caches while the thread is running, and the thread ends. -/
theorem not_always_cleared_once : ¬ ∀ s, system.Reachable s → ClearedOnce s := by
  intro h
  have hcached : system.Reachable one_cache :=
    .step (.getThreadCache 0 7 true) (.init rfl) rfl
  have hcleared : system.Reachable (one_cache.clearUnusedThreadCache 0) :=
    .step (.clearUnusedThreadCache 0) hcached rfl
  obtain ⟨s, hs, haborted⟩ : ∃ s, (one_cache.clearUnusedThreadCache 0).exec
      (.beforeDestroyThread 7) = some s ∧ s.aborted = true := ⟨_, rfl, rfl⟩
  have hfalse := (h s (.step (.beforeDestroyThread 7) hcleared hs)).no_assertion
  rw [haborted] at hfalse
  cases hfalse

end thread_caches

end AsioNet
