import AsioNet.SessionLogic
import Mathlib.Data.List.TakeWhile

/-! # Ids of servers (`session_logic.h`, `cal_server_uid`)

    An id packs the area, the server and a hash of the platform into one word.
    The fields never overlap, so area and server can be read back whatever the
    platform. The hash is meant to fold over the characters of the platform;
    the loop adds the first one at every step, so it sees no other character.
-/

namespace AsioNet

/-- The hash the id is meant to carry: `31 * h + c` folded over the characters. -/
def poly_hash (platform : List UInt8) : UInt32 :=
  platform.foldl (fun hash c => hash * 31 + promote_char c) 0

/-- The hash the loop computes. -/
def str_hash (platform : List UInt8) : UInt32 :=
  (platform.takeWhile fun c => c != 0).foldl
    (fun hash _ => hash * 31 + promote_char (platform.getD 0 0)) 0

def NulFree (platform : List UInt8) : Prop := ∀ c ∈ platform, c ≠ 0

/-- The two platforms differ in exactly one character. -/
def DifferInOne (platform other : List UInt8) : Prop :=
  ∃ front c c' back, c ≠ c' ∧ platform = front ++ c :: back ∧ other = front ++ c' :: back

/-! ### The fields -/

theorem cal_server_uid_toNat (area_id server_id_ : UInt16) (platform : List UInt8) :
    (cal_server_uid area_id server_id_ platform).toNat =
      area_id.toNat * 2 ^ 48 + server_id_.toNat * 2 ^ 32 + (str_hash platform).toNat := by
  have harea := area_id.toNat_lt
  have hserver := server_id_.toNat_lt
  have hhash := (str_hash platform).toNat_lt
  show ((area_id.toUInt64 <<< 48) + (server_id_.toUInt64 <<< 32) +
    (str_hash platform).toUInt64).toNat = _
  rw [UInt64.toNat_add, UInt64.toNat_add, UInt64.toNat_shiftLeft, UInt64.toNat_shiftLeft]
  have h48 : (48 : UInt64).toNat % 64 = 48 := rfl
  have h32 : (32 : UInt64).toNat % 64 = 32 := rfl
  simp only [UInt16.toNat_toUInt64, UInt32.toNat_toUInt64, Nat.shiftLeft_eq, h48, h32]
  omega

/-- Area and server stand in their own bits, whatever the platform. -/
theorem area_of_server_uid (area_id server_id_ : UInt16) (platform : List UInt8) :
    (cal_server_uid area_id server_id_ platform >>> 48).toUInt16 = area_id := by
  have harea := area_id.toNat_lt
  have hserver := server_id_.toNat_lt
  have hhash := (str_hash platform).toNat_lt
  apply UInt16.toNat_inj.mp
  simp [UInt64.toNat_shiftRight, cal_server_uid_toNat, Nat.shiftRight_eq_div_pow]
  omega

theorem server_of_server_uid (area_id server_id_ : UInt16) (platform : List UInt8) :
    (cal_server_uid area_id server_id_ platform >>> 32).toUInt16 = server_id_ := by
  have hserver := server_id_.toNat_lt
  have hhash := (str_hash platform).toNat_lt
  apply UInt16.toNat_inj.mp
  simp [UInt64.toNat_shiftRight, cal_server_uid_toNat, Nat.shiftRight_eq_div_pow]
  omega

theorem hash_of_server_uid (area_id server_id_ : UInt16) (platform : List UInt8) :
    (cal_server_uid area_id server_id_ platform).toUInt32 = str_hash platform := by
  have hhash := (str_hash platform).toNat_lt
  apply UInt32.toNat_inj.mp
  simp [cal_server_uid_toNat]
  omega

/-- Ids of different areas or servers differ, whatever the platforms. -/
theorem cal_server_uid_injective {area_id area_id' server_id_ server_id_' : UInt16}
    {platform other : List UInt8}
    (h : cal_server_uid area_id server_id_ platform = cal_server_uid area_id' server_id_' other) :
    area_id = area_id' ∧ server_id_ = server_id_' := by
  constructor
  · rw [← area_of_server_uid area_id server_id_ platform, h, area_of_server_uid]
  · rw [← server_of_server_uid area_id server_id_ platform, h, server_of_server_uid]

/-! ### The hash -/

theorem takeWhile_nul_free {platform : List UInt8} (hnul : NulFree platform) :
    (platform.takeWhile fun c => c != 0) = platform := by
  rw [List.takeWhile_eq_self_iff]
  intro c hc
  simpa using hnul c hc

theorem str_hash_nul_free {platform : List UInt8} (hnul : NulFree platform) :
    str_hash platform =
      platform.foldl (fun hash _ => hash * 31 + promote_char (platform.getD 0 0)) 0 := by
  unfold str_hash
  rw [takeWhile_nul_free hnul]

/-- The loop counts characters and looks at the first one only. -/
theorem str_hash_cons_congr {c : UInt8} {back back' : List UInt8} (hnul : NulFree (c :: back))
    (hnul' : NulFree (c :: back')) (hlen : back.length = back'.length) :
    str_hash (c :: back) = str_hash (c :: back') := by
  have hcount : ∀ (l l' : List UInt8) (h : UInt32), l.length = l'.length →
      l.foldl (fun hash _ => hash * 31 + promote_char c) h =
        l'.foldl (fun hash _ => hash * 31 + promote_char c) h := by
    intro l
    induction l with
    | nil =>
      intro l' h hl
      rw [List.length_eq_zero_iff.mp hl.symm]
    | cons x l ih =>
      intro l' h hl
      obtain ⟨y, l', rfl⟩ := List.exists_cons_of_length_eq_add_one hl.symm
      exact ih l' _ (Nat.succ.inj hl)
  rw [str_hash_nul_free hnul, str_hash_nul_free hnul']
  exact hcount (c :: back) (c :: back') 0 (congrArg Nat.succ hlen)

/-- A NUL at the end of the string ends the loop where the string ended. -/
theorem str_hash_trailing_nul {platform : List UInt8} (hnul : NulFree platform) :
    str_hash (platform ++ [0]) = str_hash platform := by
  have hread : ((platform ++ [0]).takeWhile fun c => c != 0) = platform := by
    rw [List.takeWhile_append_of_pos]
    · simp
    · intro c hc
      simpa using hnul c hc
  rw [str_hash_nul_free hnul]
  unfold str_hash
  rw [hread]
  cases platform with
  | nil => rfl
  | cons c back => rfl

theorem str_hash_short {platform : List UInt8} (hnul : NulFree platform)
    (hlen : platform.length ≤ 1) : str_hash platform = poly_hash platform := by
  rw [str_hash_nul_free hnul]
  unfold poly_hash
  rcases platform with _ | ⟨c, _ | ⟨d, back⟩⟩
  · simp only [List.foldl_nil]
  · simp only [List.foldl_cons, List.foldl_nil, List.getD_cons_zero]
  · simp at hlen

theorem promote_char_injective {c c' : UInt8} (h : promote_char c = promote_char c') :
    c = c' := by
  have hc := c.toNat_lt
  have hc' := c'.toNat_lt
  have hn := congrArg UInt32.toNat h
  unfold promote_char at hn
  apply UInt8.toNat_inj.mp
  split at hn <;> split at hn <;> rename_i hlt hlt' <;>
    simp [UInt8.lt_iff_toNat_lt] at hn hlt hlt' <;> omega

theorem poly_hash_one (c : UInt8) : poly_hash [c] = promote_char c := by
  unfold poly_hash
  simp

/-! ### When ids tell servers apart -/

/-- What an id says about a server: its fields, read back, and that no other
    server has it. -/
structure Distinguishes (area_id server_id_ : UInt16) (platform : List UInt8) : Prop where
  area_field : (cal_server_uid area_id server_id_ platform >>> 48).toUInt16 = area_id
  server_field : (cal_server_uid area_id server_id_ platform >>> 32).toUInt16 = server_id_
  hash_field : (cal_server_uid area_id server_id_ platform).toUInt32 = poly_hash platform
  injective : ∀ area_id' server_id_',
    cal_server_uid area_id' server_id_' platform = cal_server_uid area_id server_id_ platform →
      area_id' = area_id ∧ server_id_' = server_id_
  trailing_nul : cal_server_uid area_id server_id_ (platform ++ [0]) =
    cal_server_uid area_id server_id_ platform
  one_character : ∀ other, NulFree other → DifferInOne platform other →
    cal_server_uid area_id server_id_ other ≠ cal_server_uid area_id server_id_ platform

theorem cal_server_uid_congr {platform other : List UInt8} (h : str_hash platform = str_hash other)
    (area_id server_id_ : UInt16) :
    cal_server_uid area_id server_id_ platform = cal_server_uid area_id server_id_ other := by
  apply UInt64.toNat_inj.mp
  rw [cal_server_uid_toNat, cal_server_uid_toNat, h]

/-- From the second character on nothing is read: the last one can be replaced. -/
theorem exists_same_uid {platform : List UInt8} (hnul : NulFree platform)
    (hlen : 2 ≤ platform.length) :
    ∃ other, NulFree other ∧ DifferInOne platform other ∧
      ∀ area_id server_id_, cal_server_uid area_id server_id_ other =
        cal_server_uid area_id server_id_ platform := by
  obtain ⟨c, d, back, rfl⟩ : ∃ c d back, platform = c :: d :: back := by
    rcases platform with _ | ⟨c, _ | ⟨d, back⟩⟩
    · simp at hlen
    · simp at hlen
    · exact ⟨c, d, back, rfl⟩
  obtain ⟨d', hd0, hd⟩ : ∃ d' : UInt8, d' ≠ 0 ∧ d ≠ d' := by
    by_cases h1 : d = 1
    · exact ⟨2, by decide, by rw [h1]; decide⟩
    · exact ⟨1, by decide, h1⟩
  have hother : NulFree (c :: d' :: back) := by
    intro x hx
    rcases List.mem_cons.mp hx with rfl | hx
    · exact hnul _ List.mem_cons_self
    · rcases List.mem_cons.mp hx with rfl | hx
      · exact hd0
      · exact hnul _ (List.mem_cons_of_mem _ (List.mem_cons_of_mem _ hx))
  refine ⟨c :: d' :: back, hother, ⟨[c], d, d', back, hd, rfl, rfl⟩, ?_⟩
  intro area_id server_id_
  exact cal_server_uid_congr (str_hash_cons_congr hother hnul rfl) area_id server_id_

/-- The ids of a platform tell servers apart exactly if it has at most one
    character: from the second one on the hash does not depend on it. -/
theorem cal_server_uid_distinguishes_iff (area_id server_id_ : UInt16) (platform : List UInt8)
    (hnul : NulFree platform) :
    Distinguishes area_id server_id_ platform ↔ platform.length ≤ 1 := by
  constructor
  · intro h
    by_contra hlen
    obtain ⟨other, hother, hdiffer, hsame⟩ := exists_same_uid hnul (by omega)
    exact h.one_character other hother hdiffer (hsame area_id server_id_)
  · intro hlen
    refine ⟨area_of_server_uid .., server_of_server_uid .., ?_, ?_, ?_, ?_⟩
    · rw [hash_of_server_uid, str_hash_short hnul hlen]
    · intro area_id' server_id_' h
      exact cal_server_uid_injective h
    · exact cal_server_uid_congr (str_hash_trailing_nul hnul) area_id server_id_
    · rintro other hother ⟨front, c, c', back, hne, rfl, rfl⟩ hsame
      -- one character only: it is the one that differs
      obtain ⟨rfl, rfl⟩ : front = [] ∧ back = [] := by
        simp at hlen
        exact ⟨List.length_eq_zero_iff.mp (by omega), List.length_eq_zero_iff.mp (by omega)⟩
      have hhash := congrArg UInt64.toUInt32 hsame
      rw [hash_of_server_uid, hash_of_server_uid, str_hash_short hother (by simp),
        str_hash_short hnul (by simp)] at hhash
      simp only [List.nil_append, poly_hash_one] at hhash
      exact hne (promote_char_injective hhash).symm

theorem cal_server_uid_distinguishes_one : Distinguishes 1 2 [0x61] :=
  (cal_server_uid_distinguishes_iff 1 2 [0x61] (by simp [NulFree])).mpr (by decide)

/-- The platforms "ab" and "ac" of one area and server share an id. -/
theorem cal_server_uid_collision : ¬ ∀ area_id server_id_ platform, NulFree platform →
    Distinguishes area_id server_id_ platform := by
  intro h
  have hd := h 1 2 [0x61, 0x62] (by simp [NulFree])
  refine hd.one_character [0x61, 0x63] (by simp [NulFree])
    ⟨[0x61], 0x62, 0x63, [], by decide, rfl, rfl⟩ ?_
  decide

end AsioNet
