import Mathlib.Logic.Function.Basic
import AsioNet.NetUtils

/-! # The stream cipher (`rc4.hpp`)

    `rc4_crypt` walks over the data with a box of `mod` bytes that it permutes
    as it goes. Which box byte meets which data byte does not depend on the
    data, so encryption and decryption started from the same parameters see the
    same bytes and undo each other.
-/

namespace AsioNet

namespace rc4

/-- Exchange cells `a` and `b` of the box. -/
def swap (box : Nat → UInt8) (a b : Nat) : Nat → UInt8 :=
  Function.update (Function.update box a (box b)) b (box a)

/-- One round of the second loop of `rc4_sbox`, on the box and `j`. -/
def sbox_step (mod : Nat) (key : List UInt8) (s : (Nat → UInt8) × Nat) (i : Nat) :
    (Nat → UInt8) × Nat :=
  let j := (s.2 + (s.1 i).toNat + (key.getD (i % key.length) 0).toNat) % mod
  (swap s.1 i j, j)

def rc4_sbox (mod : Nat) (box : Nat → UInt8) (key : List UInt8) : Nat → UInt8 :=
  if key = [] then box
  else
    let box := fun i => if i < mod then UInt8.ofNat i else box i
    ((List.range mod).foldl (sbox_step mod key) (box, 0)).1

/-- The variables of the loop of `rc4_crypt`. -/
structure crypt_state where
  i : Nat
  low : Nat
  high : Nat
  box : Nat → UInt8

/-- One round of the loop: the box byte `box[mid]` and the next state. -/
def crypt_step (mod : Nat) (s : crypt_state) : UInt8 × crypt_state :=
  let low := s.low % mod
  let high := (s.high + (s.box (s.i % mod)).toNat) % mod
  let box := swap s.box low high
  let mid := ((box low).toNat + (box high).toNat) % mod
  (box mid, { i := s.i + 1, low := low, high := high, box := box })

/-- What the round makes of a data byte. -/
def crypt_byte (E : Bool) (x b d : UInt8) : UInt8 :=
  if E then (d ^^^ b) - x else (d - x) ^^^ b

def crypt_loop (mod : Nat) (x : UInt8) (E : Bool) : crypt_state → List UInt8 → List UInt8
  | _, [] => []
  | s, d :: data => crypt_byte E x (crypt_step mod s).1 d :: crypt_loop mod x E (crypt_step mod s).2 data

def rc4_crypt (mod : Nat) (key data : List UInt8) (subtract : Int) (E : Bool) : List UInt8 :=
  if key = [] ∨ data = [] then data
  else
    -- `unsigned char box[255]` starts uninitialised
    let box := rc4_sbox mod (fun _ => 0) key
    let x := UInt8.ofInt (if E then subtract else -subtract)
    crypt_loop mod x E { i := 0, low := 0, high := 0, box := box } data

/-! ### The cipher keeps lengths and undoes itself -/

@[simp] theorem length_crypt_loop (mod : Nat) (x : UInt8) (E : Bool) (s : crypt_state)
    (data : List UInt8) : (crypt_loop mod x E s data).length = data.length := by
  induction data generalizing s with
  | nil => rfl
  | cons d data ih => simp [crypt_loop, ih]

@[simp] theorem length_rc4_crypt (mod : Nat) (key data : List UInt8) (subtract : Int) (E : Bool) :
    (rc4_crypt mod key data subtract E).length = data.length := by
  unfold rc4_crypt
  split
  · rfl
  · exact length_crypt_loop ..

/-- A byte encrypted with `x` and decrypted with `-x`, or the other way round,
    is the byte. -/
theorem crypt_byte_cancel (E : Bool) (x b d : UInt8) :
    crypt_byte (!E) (-x) b (crypt_byte E x b d) = d := by
  have hxor : ∀ a : UInt8, a ^^^ b ^^^ b = a := fun a => by
    rw [UInt8.xor_assoc, UInt8.xor_self, UInt8.xor_zero]
  cases E with
  | false => simp [crypt_byte, hxor]
  | true => simp [crypt_byte, hxor]

theorem crypt_loop_cancel (mod : Nat) (x : UInt8) (E : Bool) (s : crypt_state)
    (data : List UInt8) :
    crypt_loop mod (-x) (!E) s (crypt_loop mod x E s data) = data := by
  -- both runs go through the same states: `crypt_step` does not read the data
  induction data generalizing s with
  | nil => rfl
  | cons d data ih => simp only [crypt_loop, crypt_byte_cancel, ih]

theorem rc4_crypt_of_ne_nil {key data : List UInt8} (hkey : key ≠ []) (hdata : data ≠ [])
    (mod : Nat) (subtract : Int) (E : Bool) :
    rc4_crypt mod key data subtract E =
      crypt_loop mod (UInt8.ofInt (if E then subtract else -subtract)) E
        { i := 0, low := 0, high := 0, box := rc4_sbox mod (fun _ => 0) key } data := by
  rw [rc4_crypt, if_neg]
  exact fun h => h.elim hkey hdata

/-- **Decryption undoes encryption**, and the other way round. -/
theorem rc4_crypt_cancel (mod : Nat) (key data : List UInt8) (subtract : Int) (E : Bool) :
    rc4_crypt mod key (rc4_crypt mod key data subtract E) subtract (!E) = data := by
  by_cases hkey : key = []
  · simp [rc4_crypt, hkey]
  by_cases hdata : data = []
  · simp [rc4_crypt, hdata]
  have hlen := length_rc4_crypt mod key data subtract E
  have hne : rc4_crypt mod key data subtract E ≠ [] := by
    intro hnil
    rw [hnil] at hlen
    exact hdata (List.length_eq_zero_iff.mp hlen.symm)
  -- decryption subtracts what encryption added
  have hx : UInt8.ofInt (if (!E) = true then subtract else -subtract) =
      -UInt8.ofInt (if E = true then subtract else -subtract) := by
    cases E <;> simp
  rw [rc4_crypt_of_ne_nil hkey hne, rc4_crypt_of_ne_nil hkey hdata, hx, crypt_loop_cancel]

/-! ### The box's first content does not matter

    `unsigned char box[255]` is not initialised. `rc4_sbox` fills the cells below
    `mod`, and everything after it stays below `mod`. -/

/-- `rc4_crypt` when the local array `box` first holds what it holds. -/
def rc4_crypt_in (box : Nat → UInt8) (mod : Nat) (key data : List UInt8) (subtract : Int)
    (E : Bool) : List UInt8 :=
  if key = [] ∨ data = [] then data
  else
    let x := UInt8.ofInt (if E then subtract else -subtract)
    crypt_loop mod x E { i := 0, low := 0, high := 0, box := rc4_sbox mod box key } data

theorem rc4_crypt_eq (mod : Nat) (key data : List UInt8) (subtract : Int) (E : Bool) :
    rc4_crypt mod key data subtract E = rc4_crypt_in (fun _ => 0) mod key data subtract E := rfl

/-- The boxes hold the same bytes below `mod`. -/
def AgreeBelow (mod : Nat) (box box' : Nat → UInt8) : Prop := ∀ i, i < mod → box i = box' i

theorem AgreeBelow.update {mod : Nat} {box box' : Nat → UInt8} (h : AgreeBelow mod box box')
    (a : Nat) (b : UInt8) :
    AgreeBelow mod (Function.update box a b) (Function.update box' a b) := by
  intro i hi
  by_cases hia : i = a
  · rw [hia, Function.update_self, Function.update_self]
  · rw [Function.update_of_ne hia, Function.update_of_ne hia, h i hi]

theorem AgreeBelow.swap {mod : Nat} {box box' : Nat → UInt8} (h : AgreeBelow mod box box')
    {a b : Nat} (ha : a < mod) (hb : b < mod) : AgreeBelow mod (swap box a b) (swap box' a b) := by
  show AgreeBelow mod (Function.update (Function.update box a (box b)) b (box a))
    (Function.update (Function.update box' a (box' b)) b (box' a))
  rw [h a ha, h b hb]
  exact (h.update a _).update b _

/-- The second loop of `rc4_sbox` keeps two boxes in agreement and in step. -/
theorem foldl_sbox_step_agree {mod : Nat} (hmod : 0 < mod) (key : List UInt8) {is : List Nat}
    (his : ∀ i ∈ is, i < mod) {box box' : Nat → UInt8} (h : AgreeBelow mod box box') (j : Nat) :
    AgreeBelow mod (is.foldl (sbox_step mod key) (box, j)).1
      (is.foldl (sbox_step mod key) (box', j)).1 := by
  induction is generalizing box box' j with
  | nil => exact h
  | cons i is ih =>
    have hi := his i List.mem_cons_self
    rw [List.foldl_cons, List.foldl_cons]
    simp only [sbox_step, h i hi]
    apply ih
    · intro k hk
      exact his k (List.mem_cons_of_mem i hk)
    · exact h.swap hi (Nat.mod_lt _ hmod)

theorem rc4_sbox_agree {mod : Nat} (hmod : 0 < mod) {key : List UInt8} (hkey : key ≠ [])
    (box box' : Nat → UInt8) : AgreeBelow mod (rc4_sbox mod box key) (rc4_sbox mod box' key) := by
  unfold rc4_sbox
  rw [if_neg hkey, if_neg hkey]
  -- the first loop has overwritten whatever was there below `mod`
  apply foldl_sbox_step_agree hmod
  · intro i hi
    exact List.mem_range.mp hi
  · intro i hi
    simp only [if_pos hi]

/-- Two runs of the loop on boxes in agreement write the same bytes. -/
theorem crypt_loop_agree {mod : Nat} (hmod : 0 < mod) (x : UInt8) (E : Bool) {i low high : Nat}
    {box box' : Nat → UInt8} (h : AgreeBelow mod box box') (data : List UInt8) :
    crypt_loop mod x E ⟨i, low, high, box⟩ data = crypt_loop mod x E ⟨i, low, high, box'⟩ data := by
  induction data generalizing i low high box box' with
  | nil => rfl
  | cons d data ih =>
    have hlow : low % mod < mod := Nat.mod_lt _ hmod
    have hnext := h (i % mod) (Nat.mod_lt _ hmod)
    have hhigh : (high + (box' (i % mod)).toNat) % mod < mod := Nat.mod_lt _ hmod
    -- all three indices of a round are below `mod`
    have hswap := h.swap hlow hhigh
    simp only [crypt_loop, crypt_step, hnext]
    rw [hswap _ hlow, hswap _ hhigh, hswap _ (Nat.mod_lt _ hmod), ih hswap]

theorem rc4_crypt_in_eq {mod : Nat} (hmod : 0 < mod) {key : List UInt8} (hkey : key ≠ [])
    (box : Nat → UInt8) (data : List UInt8) (subtract : Int) (E : Bool) :
    rc4_crypt_in box mod key data subtract E = rc4_crypt mod key data subtract E := by
  rw [rc4_crypt_eq]
  unfold rc4_crypt_in
  split
  · rfl
  · exact crypt_loop_agree hmod _ E (rc4_sbox_agree hmod hkey _ _) data

/-- **The cipher round trip**, in both orders, whatever the two calls find in
    their local boxes. -/
theorem rc4_round_trip {mod : Nat} (hmod : 1 ≤ mod ∧ mod ≤ 255) {key : List UInt8}
    (hkey : key ≠ []) (data : List UInt8) (subtract : Int) (box box' : Nat → UInt8) :
    rc4_crypt_in box' mod key (rc4_crypt_in box mod key data subtract true) subtract false = data ∧
      rc4_crypt_in box' mod key (rc4_crypt_in box mod key data subtract false) subtract true =
        data := by
  have hpos : 0 < mod := hmod.1
  simp only [rc4_crypt_in_eq hpos hkey]
  exact ⟨rc4_crypt_cancel mod key data subtract true, rc4_crypt_cancel mod key data subtract false⟩

theorem rc4_round_trip_a :
    rc4_crypt_in (fun _ => 7) 3 [1] (rc4_crypt_in (fun _ => 0) 3 [1] [0x61] 5 true) 5 false =
      [0x61] :=
  (rc4_round_trip (by decide) (by decide) [0x61] 5 (fun _ => 0) fun _ => 7).1

end rc4

end AsioNet
