import AsioNet.Rc4Box
import AsioNet.SessionLogic

/-! # The client's stream cipher (`RC4Compress.cs`)

    The client's byte-pointer `rc4_crypt` is the proxy's with `255` written where
    the proxy has its modulus. Both draw one box byte for each data byte, and the
    bytes drawn depend on the key, the modulus and the length only: the *key
    stream*. A byte drawn modulo `mod` is below `mod`, and there is a key for which
    the client's first byte is `254`: under every modulus but `255` that key tells
    the two sides apart at the first byte.
-/

namespace AsioNet

/-! ### Key streams -/

namespace rc4

/-- The first `n` box bytes the loop of `rc4_crypt` draws. -/
def key_stream (mod : Nat) : crypt_state → Nat → List UInt8
  | _, 0 => []
  | s, n + 1 => (crypt_step mod s).1 :: key_stream mod (crypt_step mod s).2 n

/-- The key stream `rc4_crypt` draws from a key. -/
def stream_of_key (mod : Nat) (key : List UInt8) (n : Nat) : List UInt8 :=
  key_stream mod { i := 0, low := 0, high := 0, box := rc4_sbox mod (fun _ => 0) key } n

@[simp] theorem length_key_stream (mod : Nat) (s : crypt_state) (n : Nat) :
    (key_stream mod s n).length = n := by
  induction n generalizing s with
  | zero => rfl
  | succ n ih => simp [key_stream, ih]

@[simp] theorem length_stream_of_key (mod : Nat) (key : List UInt8) (n : Nat) :
    (stream_of_key mod key n).length = n :=
  length_key_stream ..

/-- The loop meets the data with the key stream, byte by byte. -/
theorem crypt_loop_eq_zipWith (mod : Nat) (x : UInt8) (E : Bool) (s : crypt_state)
    (data : List UInt8) :
    crypt_loop mod x E s data =
      List.zipWith (crypt_byte E x) (key_stream mod s data.length) data := by
  induction data generalizing s with
  | nil => rfl
  | cons d data ih => simp [crypt_loop, key_stream, ih]

/-- `x` as `rc4_crypt` computes it. -/
def subtrahend (subtract : Int) (E : Bool) : UInt8 := UInt8.ofInt (if E then subtract else -subtract)

theorem subtrahend_not (subtract : Int) (E : Bool) :
    subtrahend subtract (!E) = -subtrahend subtract E := by
  unfold subtrahend
  cases E <;> simp

theorem rc4_crypt_eq_zipWith {key : List UInt8} (hkey : key ≠ []) (mod : Nat) (data : List UInt8)
    (subtract : Int) (E : Bool) :
    rc4_crypt mod key data subtract E =
      List.zipWith (crypt_byte E (subtrahend subtract E)) (stream_of_key mod key data.length)
        data := by
  by_cases hdata : data = []
  · rw [hdata, List.zipWith_nil_right, rc4_crypt, if_pos (Or.inr rfl)]
  · rw [rc4_crypt_of_ne_nil hkey hdata, crypt_loop_eq_zipWith]
    rfl

/-- The first box byte drawn from a key. -/
def first_draw (mod : Nat) (key : List UInt8) : UInt8 :=
  (crypt_step mod { i := 0, low := 0, high := 0, box := rc4_sbox mod (fun _ => 0) key }).1

theorem head?_stream_of_key (mod : Nat) (key : List UInt8) (n : Nat) :
    (stream_of_key mod key (n + 1)).head? = some (first_draw mod key) := rfl

/-- A box byte drawn modulo `mod` is below `mod`. -/
theorem crypt_step_lt {mod : Nat} (hmod : 1 ≤ mod) (hle : mod ≤ 255) {s : crypt_state}
    (h : IsPermutation mod s.box) : (crypt_step mod s).1.toNat < mod := by
  -- it lies in the box after the exchange
  have hcell : (crypt_step mod s).1 ∈ (List.range mod).map (crypt_step mod s).2.box :=
    List.mem_map.mpr ⟨_, List.mem_range.mpr (Nat.mod_lt _ hmod), rfl⟩
  obtain ⟨k, hk, hbyte⟩ := List.mem_map.mp ((crypt_step_perm hmod h).mem_iff.mp hcell)
  have hk : k < mod := List.mem_range.mp hk
  rw [← hbyte, UInt8.toNat_ofNat']
  omega

theorem first_draw_lt {mod : Nat} (hmod : 1 ≤ mod) (hle : mod ≤ 255) {key : List UInt8}
    (hkey : key ≠ []) : (first_draw mod key).toNat < mod :=
  crypt_step_lt hmod hle (rc4_sbox_perm hmod hkey _)

theorem xor_xor_eq_self_iff (a b b' : UInt8) : a ^^^ b ^^^ b' = a ↔ b' = b := by
  constructor
  · intro h
    have hzero : a ^^^ (b ^^^ b') = a ^^^ 0 := by rw [← UInt8.xor_assoc, h, UInt8.xor_zero]
    have hb : b ^^^ b' = 0 := (UInt8.xor_right_inj a).mp hzero
    exact (UInt8.xor_eq_zero_iff.mp hb).symm
  · intro h
    rw [h, UInt8.xor_assoc, UInt8.xor_self, UInt8.xor_zero]

/-- A byte comes back exactly when both sides met it with the same box byte. -/
theorem crypt_byte_cancel_iff (E : Bool) (x b b' d : UInt8) :
    crypt_byte (!E) (-x) b' (crypt_byte E x b d) = d ↔ b' = b := by
  cases E with
  | false =>
    have hd : (d - x ^^^ b ^^^ b') - -x = d ↔ d - x ^^^ b ^^^ b' = d - x := by
      rw [sub_neg_eq_add, ← eq_sub_iff_add_eq]
    exact hd.trans (xor_xor_eq_self_iff (d - x) b b')
  | true =>
    have hd : (d ^^^ b) - x - -x = d ^^^ b := by rw [sub_neg_eq_add, sub_add_cancel]
    show ((d ^^^ b) - x - -x) ^^^ b' = d ↔ b' = b
    rw [hd]
    exact xor_xor_eq_self_iff d b b'

/-- Two walks over the data undo each other exactly when they met it with the
    same key stream. -/
theorem zipWith_crypt_byte_cancel_iff (E : Bool) (x : UInt8) {ks ks' data : List UInt8}
    (hks : ks.length = data.length) (hks' : ks'.length = data.length) :
    List.zipWith (crypt_byte (!E) (-x)) ks' (List.zipWith (crypt_byte E x) ks data) = data ↔
      ks' = ks := by
  induction data generalizing ks ks' with
  | nil =>
    rw [List.length_eq_zero_iff.mp hks, List.length_eq_zero_iff.mp hks']
    simp
  | cons d data ih =>
    rcases ks with _ | ⟨b, ks⟩
    · simp at hks
    rcases ks' with _ | ⟨b', ks'⟩
    · simp at hks'
    have htail := ih (by simpa using hks) (by simpa using hks')
    simp only [List.zipWith_cons_cons, List.cons.injEq, crypt_byte_cancel_iff, htail]

/-- What was encrypted modulo `mod` and decrypted modulo `mod'` comes back, or the
    other way round, exactly when the two key streams agree over its length. -/
theorem rc4_crypt_cancel_iff {key : List UInt8} (hkey : key ≠ []) (mod mod' : Nat)
    (data : List UInt8) (subtract : Int) (E : Bool) :
    rc4_crypt mod' key (rc4_crypt mod key data subtract E) subtract (!E) = data ↔
      stream_of_key mod' key data.length = stream_of_key mod key data.length := by
  rw [rc4_crypt_eq_zipWith hkey mod', length_rc4_crypt, rc4_crypt_eq_zipWith hkey mod,
    subtrahend_not]
  apply zipWith_crypt_byte_cancel_iff
  · simp
  · simp

end rc4

/-! ### The client's cipher -/

namespace CsNetwork.RC4Compress

/-- `rc4_sbox` of the byte-pointer overload, on the box `stackalloc` gave. -/
def rc4_sbox (box : Nat → UInt8) (key : List UInt8) : Nat → UInt8 :=
  if key = [] then box
  else
    let box := fun i => if i < 255 then UInt8.ofNat i else box i
    ((List.range 255).foldl (rc4.sbox_step 255 key) (box, 0)).1

/-- `rc4_crypt` of the byte-pointer overload. The rounds are those of the proxy's
    loop at `255`. -/
def rc4_crypt (box : Nat → UInt8) (key data : List UInt8) (subtract : Int) (E : Bool) :
    List UInt8 :=
  if key = [] ∨ data = [] then data
  else
    let box := rc4_sbox box key
    let x := UInt8.ofInt (if E then subtract else -subtract)
    rc4.crypt_loop 255 x E { i := 0, low := 0, high := 0, box := box } data

/-- The client's cipher is the proxy's with the modulus fixed at `255`. -/
theorem rc4_crypt_eq (box : Nat → UInt8) {key : List UInt8} (hkey : key ≠ []) (data : List UInt8)
    (subtract : Int) (E : Bool) :
    rc4_crypt box key data subtract E = rc4.rc4_crypt 255 key data subtract E :=
  rc4.rc4_crypt_in_eq (by decide) hkey box data subtract E

/-- Each side decrypts what the other encrypted, whatever the two calls find in
    their local boxes. -/
def Interoperates (info : rc4_info) (data : List UInt8) : Prop :=
  ∀ box box' : Nat → UInt8,
    rc4_crypt box' info.rc4_key_
        (rc4.rc4_crypt_in box info.rc4_modvt_ info.rc4_key_ data info.rc4_subtract_ true)
        info.rc4_subtract_ false = data ∧
      rc4.rc4_crypt_in box info.rc4_modvt_ info.rc4_key_
        (rc4_crypt box' info.rc4_key_ data info.rc4_subtract_ true)
        info.rc4_subtract_ false = data

/-- The two ciphers undo each other exactly when their key streams agree over the
    length of the data. -/
theorem interoperates_iff_streams (info : rc4_info) (data : List UInt8) :
    Interoperates info data ↔
      rc4.stream_of_key 255 info.rc4_key_ data.length =
        rc4.stream_of_key info.rc4_modvt_ info.rc4_key_ data.length := by
  have hkey : info.rc4_key_ ≠ [] := by
    apply List.ne_nil_of_length_pos
    rw [info.length_key]
    decide
  have hpos : 0 < info.rc4_modvt_ := info.modvt_pos
  have hto := rc4.rc4_crypt_cancel_iff hkey info.rc4_modvt_ 255 data info.rc4_subtract_ true
  have hfrom := rc4.rc4_crypt_cancel_iff hkey 255 info.rc4_modvt_ data info.rc4_subtract_ true
  rw [Bool.not_true] at hto hfrom
  unfold Interoperates
  constructor
  · intro h
    have h := (h (fun _ => 0) fun _ => 0).1
    rw [rc4_crypt_eq _ hkey, rc4.rc4_crypt_in_eq hpos hkey] at h
    exact hto.mp h
  · intro h box box'
    rw [rc4_crypt_eq box' hkey, rc4_crypt_eq box' hkey, rc4.rc4_crypt_in_eq hpos hkey,
      rc4.rc4_crypt_in_eq hpos hkey]
    exact ⟨hto.mpr h, hfrom.mpr h.symm⟩

/-- The same modulus and subtract value under another key. -/
def with_key (info : rc4_info) (key : List UInt8) (hkey : key.length = RC4_KEY_LEN) : rc4_info :=
  { info with rc4_key_ := key, length_key := hkey }

/-- A key the proxy can draw for which the client's first box byte is `254`. -/
def telling_key : List UInt8 := List.replicate RC4_KEY_LEN 250

theorem first_draw_of_telling_key :
    rc4.first_draw 255 telling_key = 254 := by
  decide +kernel

theorem length_telling_key : telling_key.length = RC4_KEY_LEN := List.length_replicate

/-- Under a modulus below `255` the proxy's first byte is another. -/
theorem telling_key_not_understood {info : rc4_info} (hmod : info.rc4_modvt_ ≠ 255)
    {data : List UInt8} (hdata : data ≠ []) :
    ¬ Interoperates (with_key info telling_key length_telling_key) data := by
  intro h
  obtain ⟨n, hn⟩ := Nat.exists_eq_succ_of_ne_zero (mt List.length_eq_zero_iff.mp hdata)
  have hstreams : rc4.stream_of_key 255 telling_key (n + 1) =
      rc4.stream_of_key info.rc4_modvt_ telling_key (n + 1) := by
    have h := (interoperates_iff_streams _ _).mp h
    rwa [hn] at h
  have hfirst : some (rc4.first_draw 255 telling_key) =
      some (rc4.first_draw info.rc4_modvt_ telling_key) := by
    rw [← rc4.head?_stream_of_key 255 _ n, ← rc4.head?_stream_of_key info.rc4_modvt_ _ n, hstreams]
  have hkey : telling_key ≠ [] := by decide
  have hlt := rc4.first_draw_lt info.modvt_pos info.modvt_le hkey
  rw [← Option.some.inj hfirst, first_draw_of_telling_key] at hlt
  have hlt : 254 < info.rc4_modvt_ := hlt
  have hle := info.modvt_le
  omega

/-- **The two ciphers undo each other under every key exactly for the modulus `255`**,
    as far as there is data. -/
theorem interoperates_iff (info : rc4_info) (data : List UInt8) :
    (∀ key (hkey : key.length = RC4_KEY_LEN), Interoperates (with_key info key hkey) data) ↔
      info.rc4_modvt_ = 255 ∨ data = [] := by
  constructor
  · intro h
    by_contra hne
    obtain ⟨hmod, hdata⟩ := not_or.mp hne
    exact telling_key_not_understood hmod hdata (h telling_key length_telling_key)
  · intro h key hkey
    rw [interoperates_iff_streams]
    cases h with
    | inl hmod =>
      have hmod : (with_key info key hkey).rc4_modvt_ = 255 := hmod
      rw [hmod]
    | inr hdata =>
      rw [hdata]
      rfl

theorem zero_rand_not_understood :
    rc4_crypt (fun _ => 0) rc4_info.of_zero_rand.rc4_key_
        (rc4.rc4_crypt_in (fun _ => 0) rc4_info.of_zero_rand.rc4_modvt_
          rc4_info.of_zero_rand.rc4_key_ [0x61, 0x62] rc4_info.of_zero_rand.rc4_subtract_ true)
        rc4_info.of_zero_rand.rc4_subtract_ false ≠ [0x61, 0x62] := by
  decide +kernel

end CsNetwork.RC4Compress

end AsioNet
