import Mathlib.Data.List.Basic

/-! # Length-prefixed frames on a byte stream

    A `Format` fixes the size of a frame's head and how the head announces the
    size of the body. `cut` splits a stream into its complete frames and the
    rest. The main rules:

    - `cut_append`: cutting can be resumed from the rest when more cells arrive,
      so the frames do not depend on how the stream was delivered;
    - `cut_serialize`: a run of well-formed frames is cut back into itself;
    - `serialize_cut`: the frames and the rest are the stream;
    - `eq_of_flatten_eq_serialize`: a stream written in pieces no longer than its
      frames was written frame by frame;
    - `cutWaiting_cases`: a reader that waits for something behind every head is late
      by one frame exactly when the stream ends with a head.
-/

namespace LengthPrefixed

/-- How frames are announced on the stream. -/
structure Format (β : Type) where
  /-- Size of every frame's head. -/
  headSize : Nat
  headSize_pos : 0 < headSize
  /-- Size of the body a head announces. -/
  bodySize : List β → Nat

/-- A frame: its head and its body. -/
abbrev Frame (β : Type) := List β × List β

namespace Format

variable {β : Type} (F : Format β)

/-- Size of the frame that starts `bs`. -/
def frameSize (bs : List β) : Nat := F.headSize + F.bodySize (bs.take F.headSize)

/-- `bs` starts with a complete frame. -/
def Complete (bs : List β) : Prop := F.headSize ≤ bs.length ∧ F.frameSize bs ≤ bs.length

instance (bs : List β) : Decidable (F.Complete bs) := inferInstanceAs (Decidable (_ ∧ _))

/-- The frame that starts `bs`. -/
def firstFrame (bs : List β) : Frame β :=
  (bs.take F.headSize, (bs.drop F.headSize).take (F.bodySize (bs.take F.headSize)))

/-- The complete frames of a stream, in order, and what is left. -/
def cut (bs : List β) : List (Frame β) × List β :=
  if _h : F.Complete bs then
    let next := cut (bs.drop (F.frameSize bs))
    (F.firstFrame bs :: next.1, next.2)
  else
    ([], bs)
termination_by bs.length
decreasing_by
  -- a frame has at least a head, and a head is not empty
  have hpos := F.headSize_pos
  have hsize : F.headSize ≤ F.frameSize bs := Nat.le_add_right ..
  have hlen := _h.1
  simp only [List.length_drop]
  omega

/-- A frame whose head has the right size and announces its body. -/
def WellFormed (f : Frame β) : Prop := f.1.length = F.headSize ∧ F.bodySize f.1 = f.2.length

/-- The cells of a run of frames. -/
def serialize (frames : List (Frame β)) : List β := frames.flatMap fun f => f.1 ++ f.2

variable {F}

theorem serialize_append (frames frames' : List (Frame β)) :
    serialize (frames ++ frames') = serialize frames ++ serialize frames' := List.flatMap_append

/-! ### One frame -/

theorem cut_of_complete {bs : List β} (h : F.Complete bs) :
    F.cut bs = (F.firstFrame bs :: (F.cut (bs.drop (F.frameSize bs))).1,
      (F.cut (bs.drop (F.frameSize bs))).2) := by
  rw [cut]
  simp [h]

theorem cut_of_not_complete {bs : List β} (h : ¬ F.Complete bs) : F.cut bs = ([], bs) := by
  rw [cut]
  simp [h]

theorem Complete.take_append {bs : List β} (h : F.headSize ≤ bs.length) (cs : List β) :
    (bs ++ cs).take F.headSize = bs.take F.headSize :=
  List.take_append_of_le_length h

theorem frameSize_append {bs : List β} (h : F.headSize ≤ bs.length) (cs : List β) :
    F.frameSize (bs ++ cs) = F.frameSize bs := by
  simp only [frameSize, Complete.take_append h cs]

theorem Complete.append {bs : List β} (h : F.Complete bs) (cs : List β) :
    F.Complete (bs ++ cs) := by
  obtain ⟨hhead, hframe⟩ := h
  refine ⟨?_, ?_⟩
  · rw [List.length_append]; omega
  · rw [frameSize_append hhead, List.length_append]; omega

theorem firstFrame_append {bs : List β} (h : F.Complete bs) (cs : List β) :
    F.firstFrame (bs ++ cs) = F.firstFrame bs := by
  have hbody : F.bodySize (bs.take F.headSize) ≤ (bs.drop F.headSize).length := by
    have := h.2
    simp only [frameSize] at this
    rw [List.length_drop]
    omega
  simp only [firstFrame, Complete.take_append h.1 cs]
  rw [List.drop_append_of_le_length h.1, List.take_append_of_le_length hbody]

theorem wellFormed_firstFrame {bs : List β} (h : F.Complete bs) :
    F.WellFormed (F.firstFrame bs) := by
  obtain ⟨hhead, hframe⟩ := h
  simp only [frameSize] at hframe
  refine ⟨?_, ?_⟩ <;> simp only [firstFrame, List.length_take, List.length_drop] <;> omega

theorem firstFrame_append_drop {bs : List β} :
    (F.firstFrame bs).1 ++ (F.firstFrame bs).2 ++ bs.drop (F.frameSize bs) = bs := by
  simp only [firstFrame, frameSize]
  rw [List.append_assoc, ← List.drop_drop, List.take_append_drop, List.take_append_drop]

/-! ### Whole streams -/

/-- What is left after cutting starts no complete frame. -/
theorem not_complete_cut (bs : List β) : ¬ F.Complete (F.cut bs).2 := by
  fun_induction F.cut bs with
  | case1 bs h next ih => exact ih
  | case2 bs h => exact h

/-- Every frame cut off is well formed. -/
theorem wellFormed_of_mem_cut (bs : List β) : ∀ f ∈ (F.cut bs).1, F.WellFormed f := by
  fun_induction F.cut bs with
  | case1 bs h next ih =>
    intro f hf
    rcases List.mem_cons.mp hf with rfl | hf
    · exact wellFormed_firstFrame h
    · exact ih f hf
  | case2 bs h =>
    intro f hf
    cases hf

/-- The frames and the rest are the stream. -/
theorem serialize_cut (bs : List β) : serialize (F.cut bs).1 ++ (F.cut bs).2 = bs := by
  fun_induction F.cut bs with
  | case1 bs h next ih =>
    simp only [serialize, List.flatMap_cons] at ih ⊢
    rw [List.append_assoc, ih]
    exact firstFrame_append_drop
  | case2 bs h => rfl

/-- **Resumption.** Cutting a longer stream continues from the rest of the
    shorter one. -/
theorem cut_append (bs cs : List β) :
    F.cut (bs ++ cs) = ((F.cut bs).1 ++ (F.cut ((F.cut bs).2 ++ cs)).1,
      (F.cut ((F.cut bs).2 ++ cs)).2) := by
  fun_induction F.cut bs with
  | case1 bs h next ih =>
    -- the first frame is complete in the longer stream too
    rw [cut_of_complete (h.append cs), firstFrame_append h, frameSize_append h.1,
      List.drop_append_of_le_length h.2, ih]
    simp [next]
  | case2 bs h => simp

/-- A well-formed frame in front is cut off first. -/
theorem cut_cons {f : Frame β} (hf : F.WellFormed f) (bs : List β) :
    F.cut (f.1 ++ f.2 ++ bs) = (f :: (F.cut bs).1, (F.cut bs).2) := by
  obtain ⟨hhead, hbody⟩ := hf
  -- The head alone decides where the frame ends.
  have htake : (f.1 ++ f.2 ++ bs).take F.headSize = f.1 := by
    rw [List.append_assoc, List.take_left' hhead]
  have hsize : F.frameSize (f.1 ++ f.2 ++ bs) = (f.1 ++ f.2).length := by
    simp only [frameSize, htake, List.length_append]
    omega
  have hcomplete : F.Complete (f.1 ++ f.2 ++ bs) := by
    refine ⟨?_, ?_⟩
    · simp only [List.length_append]; omega
    · rw [hsize]; simp only [List.length_append]; omega
  have hfirst : F.firstFrame (f.1 ++ f.2 ++ bs) = f := by
    simp only [firstFrame, htake]
    rw [List.append_assoc, List.drop_left' hhead, List.take_left' hbody.symm]
  rw [cut_of_complete hcomplete, hfirst, hsize, List.drop_left]

/-- **Round trip.** A run of well-formed frames is cut back into itself. -/
theorem cut_serialize {frames : List (Frame β)} (hf : ∀ f ∈ frames, F.WellFormed f)
    (bs : List β) :
    F.cut (serialize frames ++ bs) = (frames ++ (F.cut bs).1, (F.cut bs).2) := by
  induction frames with
  | nil => simp [serialize]
  | cons f frames ih =>
    have ih' := ih fun g hg => hf g (List.mem_cons_of_mem f hg)
    simp only [serialize, List.flatMap_cons] at ih' ⊢
    rw [List.append_assoc, cut_cons (hf f List.mem_cons_self), ih']
    simp

@[simp] theorem cut_nil : F.cut [] = ([], []) := by
  have h : ¬ F.Complete [] := by
    intro h
    have := h.1
    have := F.headSize_pos
    simp at *
    omega
  exact cut_of_not_complete h

/-- What is cut off the start of a run of frames are the first of them. -/
theorem cut_prefix {frames : List (Frame β)} (hf : ∀ f ∈ frames, F.WellFormed f) {bs : List β}
    (h : bs <+: serialize frames) : (F.cut bs).1 <+: frames := by
  obtain ⟨cs, hcs⟩ := h
  have hcut := cut_serialize hf []
  rw [List.append_nil, ← hcs, cut_append, cut_nil, List.append_nil] at hcut
  exact ⟨_, congrArg Prod.fst hcut⟩

/-! ### Streams written in pieces -/

theorem length_flatten_le {frames : List (Frame β)} {pieces : List (List β)}
    (h : List.Forall₂ (fun p f => p.length ≤ (f.1 ++ f.2).length) pieces frames) :
    pieces.flatten.length ≤ (serialize frames).length := by
  induction h with
  | nil => exact Nat.le_refl 0
  | cons hle _ ih =>
    simp only [serialize, List.flatMap_cons, List.flatten_cons, List.length_append] at hle ih ⊢
    omega

/-- Pieces that make up a run of frames, none longer than its frame, are the
    frames. -/
theorem eq_of_flatten_eq_serialize {frames : List (Frame β)} {pieces : List (List β)}
    (hle : List.Forall₂ (fun p f => p.length ≤ (f.1 ++ f.2).length) pieces frames)
    (h : pieces.flatten = serialize frames) :
    List.Forall₂ (fun p f => p = f.1 ++ f.2) pieces frames := by
  induction hle with
  | nil => exact .nil
  | @cons p f pieces frames hp hrest ih =>
    -- if `p` were shorter than its frame, the rest would be too long
    have hrest_le := length_flatten_le hrest
    simp only [serialize, List.flatMap_cons, List.flatten_cons] at h hrest_le ih
    have hlen := congrArg List.length h
    simp only [List.length_append] at hlen hp
    obtain ⟨hpiece, hrest_eq⟩ := List.append_inj h (by rw [List.length_append]; omega)
    exact .cons hpiece (ih hrest_eq)

/-! ### Streams whose heads announce bounded bodies -/

/-- No head on the stream, the one of the unfinished frame included, announces
    more than `n` cells. -/
def Bounded (F : Format β) (n : Nat) (bs : List β) : Prop :=
  (∀ f ∈ (F.cut bs).1, F.bodySize f.1 ≤ n) ∧
    (F.headSize ≤ (F.cut bs).2.length → F.bodySize ((F.cut bs).2.take F.headSize) ≤ n)

/-- A rest that could not be cut is smaller than the frame it starts. -/
theorem Bounded.length_rest {n : Nat} {bs : List β} (h : F.Bounded n bs) :
    (F.cut bs).2.length < F.headSize + n := by
  have hnot := not_complete_cut (F := F) bs
  by_cases hhead : F.headSize ≤ (F.cut bs).2.length
  · have hn := h.2 hhead
    have hlt : (F.cut bs).2.length < F.frameSize (F.cut bs).2 := by
      by_contra hge
      exact hnot ⟨hhead, Nat.not_lt.mp hge⟩
    simp only [frameSize] at hlt
    omega
  · omega

/-- The start of a run of frames announces what the frames do. -/
theorem bounded_of_prefix {frames : List (Frame β)} (hf : ∀ f ∈ frames, F.WellFormed f) {n : Nat}
    (hn : ∀ f ∈ frames, f.2.length ≤ n) {bs : List β} (h : bs <+: serialize frames) :
    F.Bounded n bs := by
  have hbody : ∀ f ∈ frames, F.bodySize f.1 ≤ n := by
    intro f hmem
    rw [(hf f hmem).2]
    exact hn f hmem
  refine ⟨fun f hmem => hbody f (List.IsPrefix.subset ( cut_prefix hf h) hmem), ?_⟩
  intro hhead
  obtain ⟨cs, hcs⟩ := h
  have hcut := cut_serialize hf []
  rw [List.append_nil, ← hcs, cut_append, cut_nil, List.append_nil, Prod.mk.injEq] at hcut
  obtain ⟨hframes, hrest⟩ := hcut
  -- the rest starts the next of the frames
  have hstream := serialize_cut (F := F) ((F.cut bs).2 ++ cs)
  rw [hrest, List.append_nil] at hstream
  cases hnext : (F.cut ((F.cut bs).2 ++ cs)).1 with
  | nil =>
    rw [hnext] at hstream
    have hempty := congrArg List.length hstream
    have hpos := F.headSize_pos
    simp only [serialize, List.flatMap_nil, List.length_nil, List.length_append] at hempty
    omega
  | cons g gs =>
    rw [hnext] at hstream hframes
    have hg : g ∈ frames := by
      rw [← hframes]
      exact List.mem_append_right _ List.mem_cons_self
    have htake : ((F.cut bs).2).take F.headSize = g.1 := by
      rw [← List.take_append_of_le_length hhead, ← hstream, serialize, List.flatMap_cons,
        List.append_assoc, List.take_left' (hf g hg).1]
    rw [htake]
    exact hbody g hg

/-! ### Readers that wait for more than a head -/

/-- What a reader cuts off that does not look at a head before something follows it. -/
def cutWaiting (F : Format β) (bs : List β) : List (Frame β) × List β :=
  if _h : F.headSize < bs.length ∧ F.Complete bs then
    let next := cutWaiting F (bs.drop (F.frameSize bs))
    (F.firstFrame bs :: next.1, next.2)
  else
    ([], bs)
termination_by bs.length
decreasing_by
  have hpos := F.headSize_pos
  have hsize : F.headSize ≤ F.frameSize bs := Nat.le_add_right ..
  simp only [List.length_drop]
  omega

/-- The stream ends right behind a frame that is a head only. -/
def EndsBare (F : Format β) (bs : List β) : Prop :=
  (F.cut bs).2 = [] ∧ ∃ frames f, (F.cut bs).1 = frames ++ [f] ∧ f.2 = []

theorem cutWaiting_of_complete {bs : List β} (hlen : F.headSize < bs.length)
    (h : F.Complete bs) :
    F.cutWaiting bs = (F.firstFrame bs :: (F.cutWaiting (bs.drop (F.frameSize bs))).1,
      (F.cutWaiting (bs.drop (F.frameSize bs))).2) := by
  rw [cutWaiting]
  simp [hlen, h]

theorem cutWaiting_of_not {bs : List β} (h : ¬ (F.headSize < bs.length ∧ F.Complete bs)) :
    F.cutWaiting bs = ([], bs) := by
  rw [cutWaiting]
  simp [h]

/-- This reader can be resumed, too. -/
theorem cutWaiting_append (bs cs : List β) :
    F.cutWaiting (bs ++ cs) =
      ((F.cutWaiting bs).1 ++ (F.cutWaiting ((F.cutWaiting bs).2 ++ cs)).1,
        (F.cutWaiting ((F.cutWaiting bs).2 ++ cs)).2) := by
  fun_induction cutWaiting F bs with
  | case1 bs h next ih =>
    have hlen : F.headSize < (bs ++ cs).length := by
      rw [List.length_append]
      exact Nat.lt_add_right _ h.1
    rw [cutWaiting_of_complete hlen (h.2.append cs), firstFrame_append h.2,
      frameSize_append h.2.1, List.drop_append_of_le_length h.2.2, ih]
    simp [next]
  | case2 bs h => simp

/-- A stream that starts with a frame ends with a bare one if what follows the frame
    does, or if the frame is one and nothing follows. -/
theorem endsBare_of_complete {bs : List β} (h : F.Complete bs) :
    F.EndsBare bs ↔ F.EndsBare (bs.drop (F.frameSize bs)) ∨
      ((F.firstFrame bs).2 = [] ∧ bs.drop (F.frameSize bs) = []) := by
  unfold EndsBare
  rw [cut_of_complete h]
  simp only
  constructor
  · intro hends
    obtain ⟨hrest, frames, f, hframes, hf⟩ := hends
    rcases List.cons_eq_append_iff.mp hframes with ⟨rfl, hlast⟩ | ⟨frames', rfl, hframes'⟩
    · -- the frame is the last one, so what follows it is nothing but the rest
      right
      obtain ⟨rfl, hnone⟩ := List.cons.inj hlast
      have hstream := serialize_cut (F := F) (bs.drop (F.frameSize bs))
      rw [← hnone, hrest] at hstream
      exact ⟨hf, hstream.symm⟩
    · exact Or.inl ⟨hrest, frames', f, hframes', hf⟩
  · intro hends
    rcases hends with ⟨hrest, frames, f, hframes, hf⟩ | ⟨hf, hnil⟩
    · exact ⟨hrest, F.firstFrame bs :: frames, f, by rw [hframes, List.cons_append], hf⟩
    · rw [hnil, cut_nil]
      exact ⟨rfl, [], F.firstFrame bs, rfl, hf⟩

/-- **What waiting costs**: the last frame, if the stream ends right behind it and it
    has no body, and nothing otherwise. -/
theorem cutWaiting_cases (bs : List β) :
    (¬ F.EndsBare bs ∧ F.cutWaiting bs = F.cut bs) ∨
      (F.EndsBare bs ∧ ∃ f, (F.cut bs).1 = (F.cutWaiting bs).1 ++ [f] ∧
        (F.cutWaiting bs).2 = f.1) := by
  fun_induction cutWaiting F bs with
  | case1 bs h next ih =>
    -- the first frame is cut off, and something followed its head
    have hends : F.EndsBare bs ↔ F.EndsBare (bs.drop (F.frameSize bs)) := by
      rw [endsBare_of_complete h.2]
      constructor
      · intro hends
        rcases hends with hends | ⟨hf, hnil⟩
        · exact hends
        · have hsplit := congrArg List.length
            (show (F.firstFrame bs).1 ++ (F.firstFrame bs).2 ++ bs.drop (F.frameSize bs) = bs
              from firstFrame_append_drop)
          have hhead : (F.firstFrame bs).1.length = F.headSize := (wellFormed_firstFrame h.2).1
          have hlen := h.1
          rw [hf, hnil, List.append_nil, List.append_nil] at hsplit
          omega
      · intro hends
        exact Or.inl hends
    rw [hends, cut_of_complete h.2]
    rcases ih with ⟨hnot, hcut⟩ | ⟨hyes, f, hcut, hrest⟩
    · left
      refine ⟨hnot, ?_⟩
      simp only [next, hcut]
    · right
      refine ⟨hyes, f, ?_, hrest⟩
      simp only [next, hcut, List.cons_append]
  | case2 bs h =>
    by_cases hc : F.Complete bs
    · -- a head, nothing behind it, and it announces nothing
      have hlen : ¬ F.headSize < bs.length := by
        intro hlen
        exact h ⟨hlen, hc⟩
      have hbody : F.bodySize (bs.take F.headSize) = 0 := by
        have hframe := hc.2
        simp only [frameSize] at hframe
        omega
      have hnil : bs.drop (F.frameSize bs) = [] := by
        rw [List.drop_eq_nil_iff]
        simp only [frameSize]
        omega
      have hf : (F.firstFrame bs).2 = [] := by
        simp only [firstFrame, hbody, List.take_zero]
      right
      refine ⟨(endsBare_of_complete hc).mpr (Or.inr ⟨hf, hnil⟩), F.firstFrame bs, ?_, ?_⟩
      · rw [cut_of_complete hc, hnil, cut_nil]
        rfl
      · exact (List.take_of_length_le (Nat.not_lt.mp hlen)).symm
    · left
      refine ⟨?_, (cut_of_not_complete hc).symm⟩
      rw [EndsBare, cut_of_not_complete hc]
      intro hends
      obtain ⟨-, frames, f, hframes, -⟩ := hends
      exact List.cons_ne_nil _ _ (List.append_eq_nil_iff.mp hframes.symm).2

/-- What such a reader keeps is smaller than a frame, too. -/
theorem Bounded.length_waiting {n : Nat} {bs : List β} (h : F.Bounded n bs) (hn : 0 < n) :
    (F.cutWaiting bs).2.length < F.headSize + n := by
  rcases cutWaiting_cases (F := F) bs with ⟨-, hcut⟩ | ⟨-, f, hcut, hrest⟩
  · rw [hcut]
    exact h.length_rest
  · have hf : f ∈ (F.cut bs).1 := by
      rw [hcut]
      exact List.mem_append_right _ (List.mem_singleton.mpr rfl)
    rw [hrest, (wellFormed_of_mem_cut bs f hf).1]
    exact Nat.lt_add_of_pos_right hn

end Format

end LengthPrefixed
