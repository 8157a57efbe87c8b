import AsioNet.Library.Traced
import AsioNet.Rc4
import Mathlib.Data.List.Nodup
import Mathlib.Data.List.Perm.Basic
import Mathlib.Logic.Equiv.Basic

/-! # The cells of the cipher box (`rc4.hpp`)

    `rc4_sbox` and `rc4_crypt` once more, with a log of the indices they use. The
    box is `unsigned char box[255]` as the call finds it: a cell has no value
    until it is written, and reading such a cell is a fault, as is an index
    outside the array and an `int` that leaves its range.

    Without these faults the functions are those of the cipher's own module, and
    the cells below `mod` always hold the values `0, …, mod - 1` in some order.
    The one fault there is comes from the counter of `rc4_crypt`: `int i` runs up
    to a `size_t`.
-/

namespace AsioNet

namespace rc4

open Traced

/-! ### The box is a permutation -/

/-- The first `mod` cells hold `0, …, mod - 1`, each once. -/
def IsPermutation (mod : Nat) (box : Nat → UInt8) : Prop :=
  ((List.range mod).map box).Perm ((List.range mod).map UInt8.ofNat)

theorem swap_eq_comp (box : Nat → UInt8) (a b : Nat) : swap box a b = box ∘ Equiv.swap b a :=
  (Equiv.comp_swap_eq_update b a box).symm

/-- Exchanging two numbers below `mod` permutes the numbers below `mod`. -/
theorem map_swap_range {mod a b : Nat} (ha : a < mod) (hb : b < mod) :
    ((List.range mod).map (Equiv.swap b a)).Perm (List.range mod) := by
  have hnodup := List.nodup_range.map (Equiv.swap b a).injective (l := List.range mod)
  apply (List.perm_ext_iff_of_nodup hnodup List.nodup_range).mpr
  intro i
  rw [List.mem_map, List.mem_range]
  constructor
  · intro h
    obtain ⟨k, hk, rfl⟩ := h
    rw [List.mem_range] at hk
    rw [Equiv.swap_apply_def]
    split_ifs <;> assumption
  · intro hi
    refine ⟨Equiv.swap b a i, ?_, Equiv.swap_apply_self b a i⟩
    rw [List.mem_range, Equiv.swap_apply_def]
    split_ifs <;> assumption

theorem IsPermutation.swap {mod : Nat} {box : Nat → UInt8} (h : IsPermutation mod box)
    {a b : Nat} (ha : a < mod) (hb : b < mod) : IsPermutation mod (swap box a b) := by
  unfold IsPermutation
  rw [swap_eq_comp, ← List.map_map]
  exact ((map_swap_range ha hb).map box).trans h

theorem foldl_sbox_step_perm {mod : Nat} (hmod : 0 < mod) (key : List UInt8) {is : List Nat}
    (his : ∀ i ∈ is, i < mod) {box : Nat → UInt8} (h : IsPermutation mod box) (j : Nat) :
    IsPermutation mod (is.foldl (sbox_step mod key) (box, j)).1 := by
  induction is generalizing box j with
  | nil => exact h
  | cons i is ih =>
    rw [List.foldl_cons]
    apply ih
    · intro k hk
      exact his k (List.mem_cons_of_mem i hk)
    · exact h.swap (his i List.mem_cons_self) (Nat.mod_lt _ hmod)

/-- The box as `rc4_sbox` leaves it. -/
theorem rc4_sbox_perm {mod : Nat} (hmod : 0 < mod) {key : List UInt8} (hkey : key ≠ [])
    (box : Nat → UInt8) : IsPermutation mod (rc4_sbox mod box key) := by
  unfold rc4_sbox
  rw [if_neg hkey]
  apply foldl_sbox_step_perm hmod key
  · intro i hi
    exact List.mem_range.mp hi
  · -- what the first loop writes
    apply List.Perm.of_eq
    apply List.map_congr_left
    intro i hi
    exact if_pos (List.mem_range.mp hi)

/-- One round of `rc4_crypt`. -/
theorem crypt_step_perm {mod : Nat} (hmod : 0 < mod) {s : crypt_state}
    (h : IsPermutation mod s.box) : IsPermutation mod (crypt_step mod s).2.box :=
  h.swap (Nat.mod_lt _ hmod) (Nat.mod_lt _ hmod)

/-! ### The indices used -/

inductive rc4_fault where
  /-- An index outside the array. -/
  | out_of_bounds
  /-- A cell is read that has not been written. -/
  | uninitialised
  /-- An `int` leaves its range. -/
  | overflow
  deriving DecidableEq, Repr

inductive rc4_index where
  /-- `box[i]` is read or written. -/
  | box (i : Nat)
  /-- `key[i]` is read. -/
  | key (i : Nat)
  /-- `data[i]` is read and written. -/
  | data (i : Nat)
  deriving DecidableEq, Repr

/-- The number of cells of `box`. -/
def BOX_SIZE : Nat := 255

/-- The cells of `box`, those without a value included. -/
abbrev cells : Type := Nat → Option UInt8

namespace cells

/-- `unsigned char box[255];` -/
def uninitialised : cells := fun _ => none

def load (box : cells) (i : Nat) : Traced rc4_index rc4_fault UInt8 :=
  act (.box i) (if i < BOX_SIZE then (box i).elim (.error .uninitialised) .ok
    else .error .out_of_bounds)

def store (box : cells) (i : Nat) (b : UInt8) : Traced rc4_index rc4_fault cells :=
  act (.box i) (if i < BOX_SIZE then .ok (Function.update box i (some b))
    else .error .out_of_bounds)

end cells

def load_key (key : List UInt8) (i : Nat) : Traced rc4_index rc4_fault UInt8 :=
  act (.key i) (key[i]?.elim (.error .out_of_bounds) .ok)

/-- `data[i] = f(data[i])` -/
def modify_data (data : List UInt8) (i : Nat) (f : UInt8 → UInt8) :
    Traced rc4_index rc4_fault (List UInt8) :=
  act (.data i) (data[i]?.elim (.error .out_of_bounds) fun d => .ok (data.set i (f d)))

/-- A value that has to fit into an `int`. -/
def int (v : Nat) : Traced rc4_index rc4_fault Nat :=
  lift (if v ≤ INT_MAX then .ok v else .error .overflow)

/-- One round of the second loop of `rc4_sbox`, on the box and `j`. -/
def traced_sbox_step (mod : Nat) (key : List UInt8) (s : cells × Nat) (i : Nat) :
    Traced rc4_index rc4_fault (cells × Nat) := do
  let box_i ← s.1.load i
  let key_i ← load_key key (i % key.length)
  let sum ← int (s.2 + box_i.toNat + key_i.toNat)
  let j := sum % mod
  -- the exchange
  let b ← s.1.load i
  let box_j ← s.1.load j
  let box ← s.1.store i box_j
  let box ← box.store j b
  pure (box, j)

def traced_rc4_sbox (mod : Nat) (box : cells) (key : List UInt8) :
    Traced rc4_index rc4_fault cells :=
  if key = [] then pure box
  else do
    -- `i < mod` in both loops, whose counters stay small
    let box ← (List.range mod).foldlM (fun box i => box.store i (UInt8.ofNat i)) box
    let s ← (List.range mod).foldlM (traced_sbox_step mod key) (box, 0)
    pure s.1

/-- The variables of the loop of `rc4_crypt`, and the data as far as it is done. -/
structure traced_crypt_state where
  i : Nat
  low : Nat
  high : Nat
  box : cells
  data : List UInt8

/-- The body of the loop. -/
def traced_crypt_body (mod : Nat) (x : UInt8) (E : Bool) (s : traced_crypt_state) :
    Traced rc4_index rc4_fault traced_crypt_state := do
  let low := s.low % mod
  let box_i ← s.box.load (s.i % mod)
  let sum ← int (s.high + box_i.toNat)
  let high := sum % mod
  -- the exchange; what follows reads the cells exchanged
  let b ← s.box.load low
  let box_high ← s.box.load high
  let box ← s.box.store low box_high
  let box ← box.store high b
  let box_low ← box.load low
  let box_high ← box.load high
  let sum ← int (box_low.toNat + box_high.toNat)
  let mid := sum % mod
  let box_mid ← box.load mid
  let data ← modify_data s.data s.i (crypt_byte E x box_mid)
  pure { s with low := low, high := high, box := box, data := data }

/-- One round of the loop: its body and `i++`. -/
def traced_crypt_step (mod : Nat) (x : UInt8) (E : Bool) (s : traced_crypt_state) :
    Traced rc4_index rc4_fault traced_crypt_state := do
  let s ← traced_crypt_body mod x E s
  let i ← int (s.i + 1)
  pure { s with i := i }

/-- `rc4_crypt` up to the end of round `n` of its loop. -/
def traced_crypt_rounds (mod : Nat) (key data : List UInt8) (subtract : Int) (E : Bool)
    (n : Nat) : Traced rc4_index rc4_fault traced_crypt_state := do
  let box ← traced_rc4_sbox mod cells.uninitialised key
  let x := UInt8.ofInt (if E then subtract else -subtract)
  (List.range n).foldlM (fun s _ => traced_crypt_step mod x E s)
    { i := 0, low := 0, high := 0, box := box, data := data }

def traced_rc4_crypt (mod : Nat) (key data : List UInt8) (subtract : Int) (E : Bool) :
    Traced rc4_index rc4_fault (List UInt8) :=
  if key = [] ∨ data = [] then pure data
  else do
    -- the loop ends when `i` is the length of the data
    let s ← traced_crypt_rounds mod key data subtract E data.length
    pure s.data

/-- The indices that are right for the arguments of a call. -/
def Inside (mod : Nat) (key data : List UInt8) : rc4_index → Prop
  | .box i => i < mod
  | .key i => i < key.length
  | .data i => i < data.length

/-! ### The functions on cells follow those on bytes -/

/-- The cells below `mod` have the values of `box`. -/
def Holds (mod : Nat) (c : cells) (box : Nat → UInt8) : Prop := ∀ i, i < mod → c i = some (box i)

theorem Holds.update {mod : Nat} {c : cells} {box : Nat → UInt8} (h : Holds mod c box) (i : Nat)
    (b : UInt8) : Holds mod (Function.update c i (some b)) (Function.update box i b) := by
  intro k hk
  by_cases hki : k = i
  · rw [hki, Function.update_self, Function.update_self]
  · rw [Function.update_of_ne hki, Function.update_of_ne hki]
    exact h k hk

section

variable {mod : Nat} {key data : List UInt8} {c : cells} {box : Nat → UInt8}

theorem load_meets (hmod : mod ≤ BOX_SIZE) (h : Holds mod c box) {i : Nat} (hi : i < mod) :
    Meets (Inside mod key data) (c.load i) (· = box i) := by
  refine meets_act hi ?_ rfl
  rw [if_pos (Nat.lt_of_lt_of_le hi hmod), h i hi]
  rfl

theorem store_meets (hmod : mod ≤ BOX_SIZE) {i : Nat} (hi : i < mod) (b : UInt8) :
    Meets (Inside mod key data) (c.store i b) (· = Function.update c i (some b)) :=
  meets_act hi (if_pos (Nat.lt_of_lt_of_le hi hmod)) rfl

theorem load_key_meets {i : Nat} (hi : i < key.length) :
    Meets (Inside mod key data) (load_key key i) (· = key.getD i 0) := by
  refine meets_act hi ?_ rfl
  rw [List.getD_eq_getElem?_getD, List.getElem?_eq_getElem hi]
  rfl

theorem int_meets {P : rc4_index → Prop} {v : Nat} (hv : v ≤ INT_MAX) :
    Meets P (int v) (· = v) :=
  meets_lift (if_pos hv) rfl

/-- Sums of a few bytes fit into an `int`. -/
theorem le_INT_MAX {v : Nat} (hv : v ≤ 3 * 255) : v ≤ INT_MAX := by
  unfold INT_MAX
  omega

theorem toNat_le (b : UInt8) : b.toNat ≤ 255 := Nat.le_of_lt_succ b.toNat_lt

/-- The second loop of `rc4_sbox` on cells and on bytes, in step. -/
structure SboxFollows (mod : Nat) (s : cells × Nat) (t : (Nat → UInt8) × Nat) : Prop where
  holds : Holds mod s.1 t.1
  j_eq : s.2 = t.2
  j_lt : t.2 < mod

theorem traced_sbox_step_meets (hmod : mod ≤ BOX_SIZE) (hkey : key ≠ []) {s : cells × Nat}
    {t : (Nat → UInt8) × Nat} (h : SboxFollows mod s t) {i : Nat} (hi : i < mod) :
    Meets (Inside mod key data) (traced_sbox_step mod key s i)
      (SboxFollows mod · (sbox_step mod key t i)) := by
  have hi_key := Nat.mod_lt i (List.length_pos_iff.mpr hkey)
  have hsum : s.2 + (t.1 i).toNat + (key.getD (i % key.length) 0).toNat ≤ 3 * 255 := by
    have := toNat_le (t.1 i)
    have := toNat_le (key.getD (i % key.length) 0)
    have := h.j_lt
    have := h.j_eq
    have : mod ≤ 255 := hmod
    omega
  have hj : (s.2 + (t.1 i).toNat + (key.getD (i % key.length) 0).toNat) % mod < mod :=
    Nat.mod_lt _ (Nat.zero_lt_of_lt hi)
  unfold traced_sbox_step
  apply (load_meets hmod h.holds hi).bind_eq
  apply (load_key_meets hi_key).bind_eq
  apply (int_meets (le_INT_MAX hsum)).bind_eq
  apply (load_meets hmod h.holds hi).bind_eq
  apply (load_meets hmod h.holds hj).bind_eq
  apply (store_meets hmod hi _).bind_eq
  apply (store_meets hmod hj _).bind_eq
  apply meets_pure
  rw [h.j_eq] at hj ⊢
  exact { holds := (h.holds.update i _).update _ _, j_eq := rfl, j_lt := hj }

/-- The first loop of `rc4_sbox` leaves no cell below `mod` without a value. -/
theorem fill_meets (hmod : mod ≤ BOX_SIZE) (c : cells) :
    Meets (Inside mod key data)
      ((List.range mod).foldlM (fun box i => cells.store box i (UInt8.ofNat i)) c)
      fun c => ∀ i, i < mod → c i = some (UInt8.ofNat i) := by
  apply meets_foldlM_range (I := fun n (c : cells) => ∀ i, i < n → c i = some (UInt8.ofNat i))
  · intro i hi
    exact absurd hi (Nat.not_lt_zero i)
  · intro n hn c hc
    apply (store_meets hmod hn _).imp
    intro c' hc' i hi
    rw [hc']
    by_cases hin : i = n
    · rw [hin, Function.update_self]
    · rw [Function.update_of_ne hin]
      exact hc i (by omega)

theorem traced_rc4_sbox_meets (hpos : 0 < mod) (hmod : mod ≤ BOX_SIZE) (hkey : key ≠ [])
    (c : cells) (box : Nat → UInt8) :
    Meets (Inside mod key data) (traced_rc4_sbox mod c key)
      (Holds mod · (rc4_sbox mod box key)) := by
  unfold traced_rc4_sbox rc4_sbox
  rw [if_neg hkey, if_neg hkey]
  apply (fill_meets hmod c).bind
  intro c hc
  have hstart : SboxFollows mod (c, 0) (fun i => if i < mod then UInt8.ofNat i else box i, 0) := by
    refine { holds := ?_, j_eq := rfl, j_lt := hpos }
    intro i hi
    exact (hc i hi).trans (congrArg some (if_pos hi).symm)
  have hmix := meets_foldlM_foldl (P := Inside mod key data) (f := traced_sbox_step mod key) hstart
    fun i hi s t h => traced_sbox_step_meets hmod hkey h (List.mem_range.mp hi)
  apply hmix.bind
  intro s hs
  exact meets_pure hs.holds

/-! ### The loop of `rc4_crypt` -/

/-- A state of the loop on cells and one of the loop on bytes, in step. -/
structure CryptFollows (mod : Nat) (s : traced_crypt_state) (t : crypt_state) : Prop where
  i_eq : s.i = t.i
  low_eq : s.low = t.low
  high_eq : s.high = t.high
  high_lt : t.high < mod
  holds : Holds mod s.box t.box

theorem modify_data_meets {i : Nat} (hi : i < data.length) {d : List UInt8} {b : UInt8}
    (hb : d[i]? = some b) (f : UInt8 → UInt8) :
    Meets (Inside mod key data) (modify_data d i f) (· = d.set i (f b)) := by
  refine meets_act hi ?_ rfl
  rw [hb]
  rfl

/-- The body exchanges the same cells and encrypts the byte with the same cell. -/
theorem traced_crypt_body_meets (hmod : mod ≤ BOX_SIZE) (x : UInt8) (E : Bool)
    {s : traced_crypt_state} {t : crypt_state} (h : CryptFollows mod s t)
    (hi : s.i < data.length) {b : UInt8} (hb : s.data[s.i]? = some b) :
    Meets (Inside mod key data) (traced_crypt_body mod x E s) fun s' =>
      s'.i = s.i ∧ CryptFollows mod { s' with i := s.i + 1 } (crypt_step mod t).2 ∧
        s'.data = s.data.set s.i (crypt_byte E x (crypt_step mod t).1 b) := by
  have hpos : 0 < mod := Nat.zero_lt_of_lt h.high_lt
  have hlt : ∀ k, k % mod < mod := fun k => Nat.mod_lt k hpos
  obtain ⟨i, low, high, c, d⟩ := s
  obtain ⟨i', low', high', box⟩ := t
  obtain ⟨rfl, rfl, rfl, hhigh, hc⟩ := h
  have hsum : high + (box (i % mod)).toNat ≤ 3 * 255 := by
    have := toNat_le (box (i % mod))
    have : high < 255 := Nat.lt_of_lt_of_le hhigh hmod
    show high + (box (i % mod)).toNat ≤ 3 * 255
    omega
  have hsum' : ∀ a b : UInt8, a.toNat + b.toNat ≤ 3 * 255 := by
    intro a b
    have := toNat_le a
    have := toNat_le b
    omega
  unfold traced_crypt_body
  apply (load_meets hmod hc (hlt i)).bind_eq
  apply (int_meets (le_INT_MAX hsum)).bind_eq
  apply (load_meets hmod hc (hlt low)).bind_eq
  apply (load_meets hmod hc (hlt (high + (box (i % mod)).toNat))).bind_eq
  apply (store_meets hmod (hlt low) _).bind_eq
  apply (store_meets hmod (hlt (high + (box (i % mod)).toNat)) _).bind_eq
  -- from here on the exchanged cells are read
  have hc' : Holds mod _ (swap box (low % mod) ((high + (box (i % mod)).toNat) % mod)) :=
    (hc.update (low % mod) _).update _ _
  apply (load_meets hmod hc' (hlt low)).bind_eq
  apply (load_meets hmod hc' (hlt (high + (box (i % mod)).toNat))).bind_eq
  apply (int_meets (le_INT_MAX (hsum' _ _))).bind_eq
  apply (load_meets hmod hc' (hlt _)).bind_eq
  apply (modify_data_meets hi hb _).bind_eq
  exact meets_pure ⟨rfl, ⟨rfl, rfl, rfl, hlt _, hc'⟩, rfl⟩

/-- The state of the loop on bytes after `n` rounds. -/
def crypt_after (mod : Nat) (t : crypt_state) (n : Nat) : crypt_state :=
  (fun t => (crypt_step mod t).2)^[n] t

theorem crypt_after_succ (mod : Nat) (t : crypt_state) (n : Nat) :
    crypt_after mod t (n + 1) = (crypt_step mod (crypt_after mod t n)).2 :=
  Function.iterate_succ_apply' ..

/-- Byte `n` of the result is made in round `n`. -/
theorem getElem?_crypt_loop (mod : Nat) (x : UInt8) (E : Bool) (t : crypt_state)
    (data : List UInt8) (n : Nat) :
    (crypt_loop mod x E t data)[n]? =
      data[n]?.map (crypt_byte E x (crypt_step mod (crypt_after mod t n)).1) := by
  induction data generalizing t n with
  | nil => rfl
  | cons d data ih =>
    cases n with
    | zero => rfl
    | succ n => exact ih (crypt_step mod t).2 n

/-- After `n` rounds: the first `n` bytes are those of the result, the others
    still those of the data. -/
structure RoundsFollow (mod : Nat) (x : UInt8) (E : Bool) (t : crypt_state) (data : List UInt8)
    (n : Nat) (s : traced_crypt_state) : Prop where
  i_eq : s.i = n
  follows : CryptFollows mod s (crypt_after mod t n)
  data_eq : ∀ k, s.data[k]? = if k < n then (crypt_loop mod x E t data)[k]? else data[k]?

theorem traced_crypt_body_follows (hmod : mod ≤ BOX_SIZE) {x : UInt8} {E : Bool}
    {s : traced_crypt_state} {t : crypt_state} {n : Nat} (h : RoundsFollow mod x E t data n s)
    (hn : n < data.length) :
    Meets (Inside mod key data) (traced_crypt_body mod x E s) fun s' =>
      s'.i = n ∧ RoundsFollow mod x E t data (n + 1) { s' with i := n + 1 } := by
  obtain ⟨rfl, hfollows, hdata⟩ := h
  have hb : s.data[s.i]? = some data[s.i] := by
    rw [hdata s.i, if_neg (Nat.lt_irrefl s.i), List.getElem?_eq_getElem hn]
  apply (traced_crypt_body_meets hmod x E hfollows hn hb).imp
  intro s' hs'
  obtain ⟨hi, hnext, hset⟩ := hs'
  refine ⟨hi, { i_eq := rfl, follows := ?_, data_eq := ?_ }⟩
  · rw [crypt_after_succ]
    exact hnext
  · intro k
    show s'.data[k]? = _
    have hlen : s.i < s.data.length := (List.getElem?_eq_some_iff.mp hb).1
    rw [hset, List.getElem?_set]
    by_cases hk : s.i = k
    · subst hk
      rw [if_pos rfl, if_pos hlen, if_pos (Nat.lt_succ_self _), getElem?_crypt_loop,
        List.getElem?_eq_getElem hn]
      rfl
    · rw [if_neg hk, hdata k]
      -- round `s.i` leaves byte `k` as it is
      by_cases hlt : k < s.i
      · rw [if_pos hlt, if_pos (Nat.lt_succ_of_lt hlt)]
      · rw [if_neg hlt, if_neg (by omega)]

/-- The state in which `rc4_crypt` enters its loop. -/
def crypt_start (mod : Nat) (key : List UInt8) : crypt_state where
  i := 0
  low := 0
  high := 0
  box := rc4_sbox mod (fun _ => 0) key

/-- `x` -/
def crypt_offset (subtract : Int) (E : Bool) : UInt8 :=
  UInt8.ofInt (if E then subtract else -subtract)

theorem traced_crypt_rounds_succ (mod : Nat) (key data : List UInt8) (subtract : Int) (E : Bool)
    (n : Nat) :
    traced_crypt_rounds mod key data subtract E (n + 1) =
      traced_crypt_rounds mod key data subtract E n >>=
        traced_crypt_step mod (crypt_offset subtract E) E := by
  unfold traced_crypt_rounds
  simp only [List.range_succ, List.foldlM_append, List.foldlM_cons, List.foldlM_nil, bind_pure,
    bind_assoc]
  rfl

/-- The rounds that the counter can count. -/
theorem traced_crypt_rounds_meets (hpos : 0 < mod) (hmod : mod ≤ BOX_SIZE) (hkey : key ≠ [])
    (subtract : Int) (E : Bool) {n : Nat} (hn : n ≤ data.length) (hmax : n ≤ INT_MAX) :
    Meets (Inside mod key data) (traced_crypt_rounds mod key data subtract E n)
      (RoundsFollow mod (crypt_offset subtract E) E (crypt_start mod key) data n) := by
  induction n with
  | zero =>
    apply (traced_rc4_sbox_meets hpos hmod hkey cells.uninitialised fun _ => 0).bind
    intro c hc
    refine meets_pure { i_eq := rfl, follows := ⟨rfl, rfl, rfl, hpos, hc⟩, data_eq := ?_ }
    intro k
    rw [if_neg (Nat.not_lt_zero k)]
  | succ n ih =>
    rw [traced_crypt_rounds_succ]
    apply (ih (Nat.le_of_succ_le hn) (Nat.le_of_succ_le hmax)).bind
    intro s hs
    apply (traced_crypt_body_follows hmod hs hn).bind
    intro s' hs'
    obtain ⟨rfl, hfollows⟩ := hs'
    apply (int_meets hmax).bind_eq
    exact meets_pure hfollows

/-- The round that begins with `i = INT_MAX` cannot increment `i`. -/
theorem traced_crypt_rounds_overflow (hpos : 0 < mod) (hmod : mod ≤ BOX_SIZE) (hkey : key ≠ [])
    (subtract : Int) (E : Bool) (hlong : INT_MAX < data.length) :
    (traced_crypt_rounds mod key data subtract E (INT_MAX + 1)).result = .error .overflow := by
  obtain ⟨_, s, hs, hfollows⟩ :=
    traced_crypt_rounds_meets hpos hmod hkey subtract E (Nat.le_of_lt hlong) (Nat.le_refl INT_MAX)
  have hbody : Meets (Inside mod key data) _ _ := traced_crypt_body_follows hmod hfollows hlong
  obtain ⟨_, s', hs', hi, _⟩ := hbody
  have hint : (int (s'.i + 1)).result = .error .overflow := by
    unfold int
    rw [hi, if_neg (Nat.not_succ_le_self INT_MAX)]
    rfl
  rw [traced_crypt_rounds_succ, result_bind, hs]
  show (traced_crypt_step mod (crypt_offset subtract E) E s).result = .error .overflow
  rw [traced_crypt_step, result_bind, hs']
  show (int (s'.i + 1) >>= _).result = .error .overflow
  rw [result_bind, hint]
  rfl

theorem crypt_after_perm (hpos : 0 < mod) (hkey : key ≠ []) (n : Nat) :
    IsPermutation mod (crypt_after mod (crypt_start mod key) n).box := by
  induction n with
  | zero => exact rc4_sbox_perm hpos hkey _
  | succ n ih =>
    rw [crypt_after_succ]
    exact crypt_step_perm hpos ih

/-- The first `mod` cells have values, and these are `0, …, mod - 1`, each once. -/
def cells.IsPermutation (mod : Nat) (c : cells) : Prop :=
  ((List.range mod).map c).Perm ((List.range mod).map fun i => some (UInt8.ofNat i))

theorem Holds.perm (h : Holds mod c box) (hbox : IsPermutation mod box) :
    cells.IsPermutation mod c := by
  have hcells : (List.range mod).map c = ((List.range mod).map box).map some := by
    rw [List.map_map]
    apply List.map_congr_left
    intro i hi
    exact h i (List.mem_range.mp hi)
  have hvalues : ((List.range mod).map fun i => some (UInt8.ofNat i)) =
      ((List.range mod).map UInt8.ofNat).map some := List.map_map.symm
  unfold cells.IsPermutation
  rw [hcells, hvalues]
  exact List.Perm.map some hbox

theorem rc4_crypt_eq_crypt_loop (hkey : key ≠ []) (subtract : Int) (E : Bool) :
    rc4_crypt mod key data subtract E =
      crypt_loop mod (crypt_offset subtract E) E (crypt_start mod key) data := by
  by_cases hdata : data = []
  · subst hdata
    exact if_pos (Or.inr rfl)
  · exact rc4_crypt_of_ne_nil hkey hdata mod subtract E

theorem traced_rc4_crypt_meets (hpos : 0 < mod) (hmod : mod ≤ BOX_SIZE) (hkey : key ≠ [])
    (subtract : Int) (E : Bool) (hmax : data.length ≤ INT_MAX) :
    Meets (Inside mod key data) (traced_rc4_crypt mod key data subtract E)
      (· = rc4_crypt mod key data subtract E) := by
  by_cases hdata : data = []
  · subst hdata
    unfold traced_rc4_crypt rc4_crypt
    rw [if_pos (Or.inr rfl), if_pos (Or.inr rfl)]
    exact meets_pure rfl
  · unfold traced_rc4_crypt
    rw [if_neg (not_or.mpr ⟨hkey, hdata⟩), rc4_crypt_eq_crypt_loop hkey]
    apply (traced_crypt_rounds_meets hpos hmod hkey subtract E (Nat.le_refl _) hmax).bind
    intro s hs
    apply meets_pure
    apply List.ext_getElem?
    intro k
    rw [hs.data_eq k]
    split
    · rfl
    · next hk =>
      rw [List.getElem?_eq_none (Nat.le_of_not_lt hk), List.getElem?_eq_none]
      rw [length_crypt_loop]
      exact Nat.le_of_not_lt hk

end

/-! ### All of a call -/

/-- What should hold of the box in a call of `rc4_crypt`, after `rc4_sbox` and
    after each round of the loop. -/
structure BoxSound (mod : Nat) (key data : List UInt8) (subtract : Int) (E : Bool) : Prop where
  after_sbox : Meets (Inside mod key data) (traced_rc4_sbox mod cells.uninitialised key)
    (cells.IsPermutation mod)
  after_round : ∀ n, n ≤ data.length →
    Meets (Inside mod key data) (traced_crypt_rounds mod key data subtract E n)
      fun s => s.box.IsPermutation mod
  returns : Meets (Inside mod key data) (traced_rc4_crypt mod key data subtract E)
    (· = rc4_crypt mod key data subtract E)

theorem BoxSound.length_le {mod : Nat} (hpos : 0 < mod) (hmod : mod ≤ BOX_SIZE)
    {key data : List UInt8} (hkey : key ≠ []) {subtract : Int} {E : Bool}
    (h : BoxSound mod key data subtract E) : data.length ≤ INT_MAX := by
  apply Nat.le_of_not_lt
  intro hlong
  obtain ⟨_, s, hs, _⟩ := h.after_round (INT_MAX + 1) hlong
  rw [traced_crypt_rounds_overflow hpos hmod hkey subtract E hlong] at hs
  cases hs

/-- **The box stays a permutation and all indices stay inside it**, as long as the
    counter can count the data. -/
theorem box_sound_iff {mod : Nat} (hmod : 1 ≤ mod ∧ mod ≤ 255) {key : List UInt8}
    (hkey : key ≠ []) (data : List UInt8) (subtract : Int) (E : Bool) :
    BoxSound mod key data subtract E ↔ data.length ≤ INT_MAX := by
  obtain ⟨hpos, hle⟩ := hmod
  constructor
  · exact BoxSound.length_le hpos hle hkey
  · intro hmax
    refine { after_sbox := ?_, after_round := ?_, returns := ?_ }
    · apply (traced_rc4_sbox_meets hpos hle hkey cells.uninitialised fun _ => 0).imp
      intro c hc
      exact hc.perm (rc4_sbox_perm hpos hkey _)
    · intro n hn
      have hrounds := traced_crypt_rounds_meets hpos hle hkey subtract E hn (Nat.le_trans hn hmax)
      apply hrounds.imp
      intro s hs
      exact hs.follows.holds.perm (crypt_after_perm hpos hkey n)
    · exact traced_rc4_crypt_meets hpos hle hkey subtract E hmax

theorem box_sound_ab : BoxSound 3 [1, 2] [0x61, 0x62] 5 true :=
  (box_sound_iff (by decide) (by decide) [0x61, 0x62] 5 true).mpr (by decide)

/-- With `2 ^ 31` bytes the counter overflows. -/
theorem not_always_box_sound :
    ¬ ∀ (mod : Nat) (key data : List UInt8) (subtract : Int) (E : Bool),
      1 ≤ mod ∧ mod ≤ 255 → key ≠ [] → BoxSound mod key data subtract E := by
  intro h
  have hsound := h 3 [1, 2] (List.replicate (INT_MAX + 1) 0x61) 5 true (by decide) (by decide)
  have hle := hsound.length_le (by decide) (by decide) (by decide)
  rw [List.length_replicate] at hle
  exact Nat.not_succ_le_self INT_MAX hle

end rc4

end AsioNet
