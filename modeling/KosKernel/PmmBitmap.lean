import KosKernel.PmmState

/-! What the bitmap helpers of the physical memory manager do to the sets of frames
that the bitmaps stand for. -/
namespace KosKernel.Pmm
open BitWords List Option

lemma bitmapTest_eq_member (bitmap : Words) (frame : ℕ) :
    bitmapTest bitmap frame = member bitmap frame := by
  have h := and_one_shiftLeft_ne_zero (bitmap (frame / 64)) (Nat.mod_lt frame (by norm_num : 0 < 64))
  rw [Bool.eq_iff_iff]
  simpa [bitmapTest, frameMask, member] using h

lemma member_bitmapSet (bitmap : Words) (frame n : ℕ) :
    member (bitmapSet bitmap frame) n = (member bitmap n || decide (n = frame)) :=
  member_update_set bitmap frame n

lemma member_bitmapClear (bitmap : Words) (frame n : ℕ) :
    member (bitmapClear bitmap frame) n = (member bitmap n && decide (n ≠ frame)) :=
  member_update_clear bitmap frame n

variable {bitmap : Words} {bound start endFrame : ℕ}

lemma members_bitmapSet {frame : ℕ} (h : frame < bound) :
    members (bitmapSet bitmap frame) bound = insert frame (members bitmap bound) := by
  ext n
  simp only [mem_members, member_bitmapSet, Finset.mem_insert, Bool.or_eq_true, decide_eq_true_eq]
  constructor
  · rintro ⟨hn, hm | rfl⟩
    · exact .inr ⟨hn, hm⟩
    · exact .inl rfl
  rintro (rfl | ⟨hn, hm⟩)
  · exact ⟨h, .inr rfl⟩
  · exact ⟨hn, .inl hm⟩

lemma members_bitmapClear (bitmap : Words) (bound frame : ℕ) :
    members (bitmapClear bitmap frame) bound = (members bitmap bound).erase frame := by
  ext n
  simp only [mem_members, member_bitmapClear, Finset.mem_erase, Bool.and_eq_true, decide_eq_true_eq]
  tauto

lemma member_clearFrames (bitmap : Words) (startFrame count n : ℕ) :
    member (clearFrames bitmap startFrame count) n =
      (member bitmap n && !decide (startFrame ≤ n ∧ n < startFrame + count)) := by
  induction count with
  | zero =>
    have h : ¬ (startFrame ≤ n ∧ n < startFrame + 0) := by omega
    rw [decide_eq_false h]
    simp [clearFrames]
  | succ count ih =>
    unfold clearFrames at ih ⊢
    rw [range_succ, foldl_append, foldl_cons, foldl_nil, member_bitmapClear, ih, Bool.and_assoc]
    congr 1
    rw [Bool.eq_iff_iff]
    simp only [Bool.and_eq_true, Bool.not_eq_true', decide_eq_false_iff_not, decide_eq_true_eq]
    omega

lemma member_setFrames (bitmap : Words) (startFrame count n : ℕ) :
    member (setFrames bitmap startFrame count) n =
      (member bitmap n || decide (startFrame ≤ n ∧ n < startFrame + count)) := by
  induction count with
  | zero =>
    have h : ¬ (startFrame ≤ n ∧ n < startFrame + 0) := by omega
    rw [decide_eq_false h]
    simp [setFrames]
  | succ count ih =>
    unfold setFrames at ih ⊢
    rw [range_succ, foldl_append, foldl_cons, foldl_nil, member_bitmapSet, ih, Bool.or_assoc]
    congr 1
    rw [Bool.eq_iff_iff]
    simp only [Bool.or_eq_true, decide_eq_true_eq]
    omega

section
variable {startFrame count : ℕ} (hb : startFrame + count ≤ bound)
include hb

lemma card_members_clearFrames (hset : ∀ i < count, member bitmap (startFrame + i) = true) :
    (members (clearFrames bitmap startFrame count) bound).card =
      (members bitmap bound).card - count := by
  have he : members (clearFrames bitmap startFrame count) bound =
      members bitmap bound \ Finset.Ico startFrame (startFrame + count) := by
    ext n
    simp only [mem_members, member_clearFrames, Finset.mem_sdiff, Finset.mem_Ico,
      Bool.and_eq_true, Bool.not_eq_true', decide_eq_false_iff_not]
    tauto
  have hsub : Finset.Ico startFrame (startFrame + count) ⊆ members bitmap bound := by
    intro n hn
    obtain ⟨h1, h2⟩ := Finset.mem_Ico.mp hn
    have hs := hset (n - startFrame) (by omega)
    rw [show startFrame + (n - startFrame) = n by omega] at hs
    exact mem_members.mpr ⟨by omega, hs⟩
  rw [he, Finset.card_sdiff_of_subset hsub, Nat.card_Ico, Nat.add_sub_cancel_left]

lemma card_members_setFrames (hclear : ∀ i < count, member bitmap (startFrame + i) = false) :
    (members (setFrames bitmap startFrame count) bound).card =
      (members bitmap bound).card + count := by
  have he : members (setFrames bitmap startFrame count) bound =
      members bitmap bound ∪ Finset.Ico startFrame (startFrame + count) := by
    ext n
    simp only [mem_members, member_setFrames, Finset.mem_union, Finset.mem_Ico,
      Bool.or_eq_true, decide_eq_true_eq]
    constructor
    · tauto
    rintro (h | h)
    · exact ⟨h.1, .inl h.2⟩
    · exact ⟨by omega, .inr h⟩
  have hd : Disjoint (members bitmap bound) (Finset.Ico startFrame (startFrame + count)) := by
    rw [Finset.disjoint_left]
    intro n hn hi
    obtain ⟨h1, h2⟩ := Finset.mem_Ico.mp hi
    have hc := hclear (n - startFrame) (by omega)
    rw [show startFrame + (n - startFrame) = n by omega, (mem_members.mp hn).2] at hc
    cases hc
  rw [he, Finset.card_union_of_disjoint hd, Nat.card_Ico, Nat.add_sub_cancel_left]

end

lemma getLsbD_bitmapRangeMask (word firstFrame endFrame : ℕ) {i : ℕ} (hi : i < 64) :
    (bitmapRangeMask word firstFrame endFrame).getLsbD i =
      decide (firstFrame ≤ 64 * word + i ∧ 64 * word + i < endFrame) := by
  simp only [bitmapRangeMask]
  generalize hf : (if firstFrame > word * 64 then firstFrame - word * 64 else 0) = firstBit
  generalize he : (if endFrame < word * 64 + 64 then endFrame - word * 64 else 64) = endBit
  have hfirst : firstBit ≤ i ↔ firstFrame ≤ 64 * word + i := by split_ifs at hf <;> omega
  have hend : i < endBit ↔ 64 * word + i < endFrame := by split_ifs at he <;> omega
  simp only [← hfirst, ← hend]
  split_ifs with hempty hfull
  · have : ¬ (firstBit ≤ i ∧ i < endBit) := by omega
    simp [this]
  · rw [BitVec.getLsbD_and, getLsbD_allOnes_shiftLeft hi, BitVec.getLsbD_allOnes]
    simp [hi, hfull]
  have hlt : endBit < 64 := by split_ifs at he <;> omega
  rw [BitVec.getLsbD_and, getLsbD_allOnes_shiftLeft hi, getLsbD_one_shiftLeft_sub_one hlt,
    Bool.decide_and]

lemma lowest_candidate {word : ℕ} (hc : bitmap word &&& bitmapRangeMask word start endFrame ≠ 0#64)
    : let frame := word * 64 + (bitmap word &&& bitmapRangeMask word start endFrame).ctz.toNat
    start ≤ frame ∧ frame < endFrame ∧ member bitmap frame = true := by
  have hlt : (bitmap word &&& bitmapRangeMask word start endFrame).ctz.toNat < 64 :=
    BitVec.ctz_lt_iff_ne_zero.mpr hc
  have hbit := BitVec.getLsbD_true_ctz_of_ne_zero hc
  rw [BitVec.getLsbD_and, getLsbD_bitmapRangeMask _ _ _ hlt, Bool.and_eq_true,
    decide_eq_true_eq] at hbit
  generalize (bitmap word &&& bitmapRangeMask word start endFrame).ctz.toNat = bit at *
  simp only [member]
  rw [show (word * 64 + bit) / 64 = word by omega, show (word * 64 + bit) % 64 = bit by omega]
  exact ⟨by omega, by omega, hbit.1⟩

lemma findFreeFrame_sound {pmm : PhysicalMemoryManager} (h : findFreeFrame pmm start endFrame ≠ 0) :
    start ≤ findFreeFrame pmm start endFrame ∧ findFreeFrame pmm start endFrame < endFrame ∧
      member pmm.freeBitmap (findFreeFrame pmm start endFrame) = true := by
  unfold findFreeFrame at h ⊢
  split_ifs at h ⊢ with hse
  · exact absurd rfl h
  cases hfind : (rangeWords start endFrame).findSome? fun word =>
      let candidates := pmm.freeBitmap word &&& bitmapRangeMask word start endFrame
      if candidates ≠ 0#64 then some (word * 64 + candidates.ctz.toNat) else none with
  | none =>
    rw [hfind] at h
    exact absurd rfl h
  | some frame =>
    obtain ⟨word, -, hw⟩ := exists_of_findSome?_eq_some hfind
    dsimp only at hw
    split_ifs at hw with hc
    obtain rfl := some.inj hw
    exact lowest_candidate hc

lemma findFreeFrame_complete {pmm : PhysicalMemoryManager} {n : ℕ} (hpos : 1 ≤ start)
    (h : findFreeFrame pmm start endFrame = 0) (hstart : start ≤ n) (hend : n < endFrame) :
    member pmm.freeBitmap n = false := by
  rw [findFreeFrame, if_neg (by omega)] at h
  cases hfind : (rangeWords start endFrame).findSome? fun word =>
      let candidates := pmm.freeBitmap word &&& bitmapRangeMask word start endFrame
      if candidates ≠ 0#64 then some (word * 64 + candidates.ctz.toNat) else none with
  | none =>
    -- a free frame would be a candidate in its word
    have hword : n / 64 ∈ rangeWords start endFrame := by
      rw [rangeWords, mem_range'_1]
      omega
    have hnone := findSome?_eq_none_iff.mp hfind _ hword
    simp only [ne_eq, ite_not, ite_eq_left_iff, reduceCtorEq, imp_false, not_not] at hnone
    rw [Bool.eq_false_iff]
    intro hfree
    refine ne_zero_of_getLsbD (k := n % 64) ?_ hnone
    rw [BitVec.getLsbD_and, getLsbD_bitmapRangeMask _ _ _ (Nat.mod_lt n (by norm_num)),
      Bool.and_eq_true, decide_eq_true_eq]
    exact ⟨hfree, by omega, by omega⟩
  | some frame =>
    rw [hfind, getD_some] at h
    obtain ⟨word, -, hw⟩ := exists_of_findSome?_eq_some hfind
    dsimp only at hw
    split_ifs at hw with hc
    have hframe := some.inj hw
    have hlow := (lowest_candidate hc).1
    omega

lemma scanRun_sound (bitmap : Words) (count n first consecutive startFrame : ℕ)
    (hrun : ∀ i < consecutive, member bitmap (startFrame + i) = true)
    (hend : 0 < consecutive → startFrame + consecutive = first) :
    let found := scanRun bitmap count (range' first n) consecutive startFrame
    ∀ i < found.1, member bitmap (found.2 + i) = true := by
  induction n generalizing first consecutive startFrame with
  | zero => exact hrun
  | succ n ih =>
    rw [range'_succ]
    simp only [scanRun, bitmapTest_eq_member]
    by_cases hfree : member bitmap first = true
    · rw [if_pos hfree]
      -- the run, extended by the frame just read
      have hnext : ∀ i < consecutive + 1,
          member bitmap ((if consecutive = 0 then first else startFrame) + i) = true := by
        intro i hi
        split_ifs with hz
        · obtain rfl : i = 0 := by omega
          exact hfree
        obtain hlt | rfl := Nat.lt_succ_iff_lt_or_eq.mp hi
        · exact hrun i hlt
        · rwa [hend (by omega)]
      have hbound : (if consecutive = 0 then first else startFrame) + (consecutive + 1) =
          first + 1 := by
        split_ifs with hz
        · omega
        · have := hend (by omega)
          omega
      generalize (if consecutive = 0 then first else startFrame) = runStart at hnext hbound ⊢
      by_cases hdone : consecutive + 1 = count
      · rw [if_pos hdone]
        exact hnext
      · rw [if_neg hdone]
        exact ih (first + 1) (consecutive + 1) runStart hnext fun _ => hbound
    · rw [if_neg hfree]
      exact ih (first + 1) 0 startFrame (by simp) (by simp)

end KosKernel.Pmm
