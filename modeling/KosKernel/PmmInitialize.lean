import KosKernel.PmmBitmap

/-! Initialisation marks exactly the whole frames of the usable memory-map entries.
The proof follows the three loops of the source: words of a range, ranges of
entries, entries of the map. -/
namespace KosKernel.Pmm
open BitWords

/-- Frame `n` lies wholly inside the entry, over the natural numbers: an entry whose end
passes `2 ^ 64` covers every frame above its base. -/
def MemmapEntry.Covers (entry : MemmapEntry) (n : ℕ) : Prop :=
  entry.type = .usable ∧ entry.base ≤ n * frameSize ∧
    (n + 1) * frameSize ≤ entry.base + entry.length

def UsableFrame (entries : List (Option MemmapEntry)) (n : ℕ) : Prop :=
  1 ≤ n ∧ n < maxTrackedFrames ∧ ∃ entry, some entry ∈ entries ∧ entry.Covers n

/-- The state while the map is read: `P` holds of the frames marked so far, and none of
them has been handed out. -/
structure Filling (P : ℕ → Prop) (pmm : PhysicalMemoryManager) : Prop where
  usable_iff : ∀ n, member pmm.usableBitmap n = true ↔ P n
  free_eq : ∀ n, member pmm.freeBitmap n = member pmm.usableBitmap n
  range : ∀ n, P n → 1 ≤ n ∧ n < pmm.frameSearchLimit
  limit_pos : 1 ≤ pmm.frameSearchLimit
  limit_le : pmm.frameSearchLimit ≤ maxTrackedFrames
  free_count : pmm.freeFrames = (members pmm.freeBitmap maxTrackedFrames).card
  usable_count : pmm.trackedUsableFrames = (members pmm.usableBitmap maxTrackedFrames).card
  hint_eq : pmm.allocationHint = 1

lemma maxTrackedFrames_eq : maxTrackedFrames = 16777216 := by
  norm_num [maxTrackedFrames, maxTrackedPhysicalMemory, frameSize]

lemma maxTrackedPhysicalMemory_eq : maxTrackedPhysicalMemory = 68719476736 := by
  norm_num [maxTrackedPhysicalMemory]

variable {pmm : PhysicalMemoryManager} {P : ℕ → Prop} {endFrame firstFrame : ℕ}

lemma Filling.congr {Q : ℕ → Prop} (h : Filling P pmm) (hPQ : ∀ n, P n ↔ Q n) : Filling Q pmm := by
  obtain rfl : P = Q := funext fun n => propext (hPQ n)
  exact h

lemma filling_resetState : Filling (fun _ => False) resetState := by
  have hzero : members zeroBitmap maxTrackedFrames = ∅ := by
    ext n
    simp [member, zeroBitmap]
  refine ⟨fun n => by simp [resetState, member, zeroBitmap], fun _ => rfl, fun _ h => h.elim,
    le_rfl, ?_, ?_, ?_, rfl⟩
  · rw [maxTrackedFrames_eq]
    simp [resetState]
  · simp [resetState, hzero]
  · simp [resetState, hzero]

lemma maskBit_iff (word firstFrame endFrame n : ℕ) :
    (decide (n / 64 = word) && (bitmapRangeMask word firstFrame endFrame).getLsbD (n % 64)) = true ↔
      n / 64 = word ∧ firstFrame ≤ n ∧ n < endFrame := by
  rw [getLsbD_bitmapRangeMask _ _ _ (Nat.mod_lt n (by norm_num))]
  simp only [Bool.and_eq_true, decide_eq_true_eq]
  omega

lemma or_mask_eq_or_newly (x mask : BitVec 64) : x ||| (mask &&& ~~~x) = x ||| mask := by
  apply BitVec.eq_of_getLsbD_eq
  intro i hi
  simp only [BitVec.getLsbD_or, BitVec.getLsbD_and, BitVec.getLsbD_not, hi, decide_true]
  cases x.getLsbD i <;> simp

lemma and_newly_eq_zero (x mask : BitVec 64) : x &&& (mask &&& ~~~x) = 0#64 := by
  apply BitVec.eq_of_getLsbD_eq
  intro i hi
  simp only [BitVec.getLsbD_and, BitVec.getLsbD_not, hi, decide_true, BitVec.getLsbD_zero]
  cases x.getLsbD i <;> simp

section
variable (h : Filling P pmm)
include h

/-- While nothing has been handed out the two bitmaps hold the same words. -/
lemma Filling.bitmaps_eq (word : ℕ) : pmm.freeBitmap word = pmm.usableBitmap word := by
  apply BitVec.eq_of_getLsbD_eq
  intro i hi
  have hh := h.free_eq (64 * word + i)
  unfold member at hh
  rwa [show (64 * word + i) / 64 = word by omega, show (64 * word + i) % 64 = i by omega] at hh

lemma Filling.markUsableWord (word : ℕ) (hfirst : 1 ≤ firstFrame)
    (hend : endFrame ≤ pmm.frameSearchLimit) (hword : word ≤ (endFrame - 1) / 64)
    (hpos : 0 < endFrame) :
    Filling (fun n => P n ∨ n / 64 = word ∧ firstFrame ≤ n ∧ n < endFrame)
      (Pmm.markUsableWord firstFrame endFrame pmm word) := by
  have hbound : 64 * (word + 1) ≤ maxTrackedFrames := by
    have := h.limit_le
    rw [maxTrackedFrames_eq] at this ⊢
    omega
  set mask := bitmapRangeMask word firstFrame endFrame with hmask
  have hfree : pmm.freeBitmap word ||| (mask &&& ~~~pmm.usableBitmap word) =
      pmm.freeBitmap word ||| mask := by
    rw [h.bitmaps_eq]
    exact or_mask_eq_or_newly _ _
  have husable : ∀ n, member (Function.update pmm.usableBitmap word
      (pmm.usableBitmap word ||| mask)) n = true ↔
        P n ∨ n / 64 = word ∧ firstFrame ≤ n ∧ n < endFrame := by
    intro n
    rw [member_update_or, Bool.or_eq_true, maskBit_iff, h.usable_iff]
  refine ⟨husable, ?_, ?_, h.limit_pos, h.limit_le, ?_, ?_, h.hint_eq⟩
  · intro n
    simp only [Pmm.markUsableWord]
    rw [← hmask, hfree, member_update_or, member_update_or, h.free_eq]
  · rintro n (hP | ⟨-, h1, h2⟩)
    · exact h.range n hP
    · exact ⟨by omega, lt_of_lt_of_le h2 hend⟩
  · simp only [Pmm.markUsableWord]
    rw [← hmask, card_members_update_or _ _ _ _ hbound, h.free_count]
    rw [h.bitmaps_eq]
    exact and_newly_eq_zero _ _
  simp only [Pmm.markUsableWord]
  rw [← hmask, ← or_mask_eq_or_newly, card_members_update_or _ _ _ _ hbound, h.usable_count]
  exact and_newly_eq_zero _ _

section
variable (hfirst : 1 ≤ firstFrame) (hend : endFrame ≤ pmm.frameSearchLimit)
include hfirst hend

lemma Filling.markUsableWords (hpos : 0 < endFrame) (n start : ℕ)
    (hlast : start + n ≤ (endFrame - 1) / 64 + 1) :
    Filling (fun f => P f ∨ (start ≤ f / 64 ∧ f / 64 < start + n) ∧ firstFrame ≤ f ∧ f < endFrame)
      ((List.range' start n).foldl (Pmm.markUsableWord firstFrame endFrame) pmm) := by
  induction n generalizing P pmm start with
  | zero =>
    refine h.congr fun f => ⟨.inl, ?_⟩
    rintro (hP | hf)
    · exact hP
    · omega
  | succ n ih =>
    have hone := h.markUsableWord start hfirst hend (by omega) hpos
    have hlimit : (Pmm.markUsableWord firstFrame endFrame pmm start).frameSearchLimit =
        pmm.frameSearchLimit := rfl
    rw [List.range'_succ, List.foldl_cons]
    refine (ih hone (by rwa [hlimit]) (start + 1) (by omega)).congr fun f => ?_
    constructor
    · rintro ((hP | h1) | h2)
      · exact .inl hP
      · exact .inr ⟨by omega, h1.2⟩
      · exact .inr ⟨by omega, h2.2⟩
    rintro (hP | ⟨h1, h2⟩)
    · exact .inl (.inl hP)
    by_cases hs : f / 64 = start
    · exact .inl (.inr ⟨hs, h2⟩)
    · exact .inr ⟨by omega, h2⟩

lemma Filling.markUsableFrames :
    Filling (fun n => P n ∨ firstFrame ≤ n ∧ n < endFrame)
      (Pmm.markUsableFrames pmm firstFrame endFrame) := by
  unfold Pmm.markUsableFrames rangeWords
  split_ifs with hempty
  · refine h.congr fun n => ⟨.inl, ?_⟩
    rintro (hP | hn)
    · exact hP
    · omega
  have hlast : firstFrame / 64 ≤ (endFrame - 1) / 64 := Nat.div_le_div_right (by omega)
  refine (h.markUsableWords hfirst hend (by omega) _ _ (by omega)).congr fun n => ?_
  constructor
  · rintro (hP | ⟨-, h2⟩)
    · exact .inl hP
    · exact .inr h2
  rintro (hP | h2)
  · exact .inl hP
  refine .inr ⟨⟨Nat.div_le_div_right h2.1, ?_⟩, h2⟩
  have : n / 64 ≤ (endFrame - 1) / 64 := Nat.div_le_div_right (by omega)
  omega

end

lemma Filling.raiseLimit (hle : endFrame ≤ maxTrackedFrames) :
    Filling P (if endFrame > pmm.frameSearchLimit then
      { pmm with frameSearchLimit := endFrame } else pmm) := by
  split_ifs with hgt
  · refine ⟨h.usable_iff, h.free_eq, fun n hn => ?_, ?_, hle, h.free_count, h.usable_count,
      h.hint_eq⟩
    · have := h.range n hn
      dsimp only
      omega
    have := h.limit_pos
    dsimp only
    omega
  · exact h

end

/-- Saturation and the clamp to the tracked limit do not move the end of a range as seen
by tracked frames. -/
lemma clamped_end {base length : ℕ} (hbase : base < maxTrackedPhysicalMemory) :
    (if saturatingAdd base length > maxTrackedPhysicalMemory then maxTrackedPhysicalMemory
      else saturatingAdd base length) = min (base + length) maxTrackedPhysicalMemory := by
  rw [maxTrackedPhysicalMemory_eq] at *
  unfold saturatingAdd uint64Max
  split_ifs <;> omega

lemma alignUpFrame_le_iff (base n : ℕ) : alignUpFrame base ≤ n ↔ base ≤ n * frameSize := by
  unfold alignUpFrame frameSize
  split_ifs <;> omega

lemma lt_alignDownFrame_iff (addr n : ℕ) :
    n < alignDownFrame addr ↔ (n + 1) * frameSize ≤ addr := by
  unfold alignDownFrame frameSize
  omega

lemma rounded_range_iff (base length n : ℕ) :
    (if alignUpFrame base = 0 then 1 else alignUpFrame base) ≤ n ∧
        n < alignDownFrame (min (base + length) maxTrackedPhysicalMemory) ↔
      1 ≤ n ∧ n < maxTrackedFrames ∧ base ≤ n * frameSize ∧
        (n + 1) * frameSize ≤ base + length := by
  have hfirst : (if alignUpFrame base = 0 then 1 else alignUpFrame base) ≤ n ↔
      1 ≤ n ∧ base ≤ n * frameSize := by
    rw [← alignUpFrame_le_iff]
    split_ifs <;> omega
  have hlast : (n + 1) * frameSize ≤ maxTrackedPhysicalMemory ↔ n < maxTrackedFrames := by
    rw [maxTrackedPhysicalMemory_eq, maxTrackedFrames_eq, frameSize]
    omega
  rw [hfirst, lt_alignDownFrame_iff, le_min_iff, hlast]
  constructor
  · rintro ⟨⟨h1, h2⟩, h3, h4⟩
    exact ⟨h1, h4, h2, h3⟩
  · rintro ⟨h1, h4, h2, h3⟩
    exact ⟨⟨h1, h2⟩, h3, h4⟩

section
variable (h : Filling P pmm)
include h

lemma Filling.markUsableRange (base length : ℕ) :
    Filling (fun n => P n ∨ 1 ≤ n ∧ n < maxTrackedFrames ∧ base ≤ n * frameSize ∧
        (n + 1) * frameSize ≤ base + length)
      (Pmm.markUsableRange pmm base length) := by
  unfold Pmm.markUsableRange
  split_ifs with hskip
  · refine h.congr fun n => ⟨.inl, ?_⟩
    rintro (hP | ⟨h1, h2, h3, h4⟩)
    · exact hP
    exfalso
    rw [maxTrackedFrames_eq] at h2
    rw [maxTrackedPhysicalMemory_eq] at hskip
    unfold frameSize at h3 h4
    omega
  · have hbase : base < maxTrackedPhysicalMemory := by omega
    simp only [clamped_end hbase]
    have hfirst : 1 ≤ (if alignUpFrame base = 0 then 1 else alignUpFrame base) := by
      split_ifs <;> omega
    have hle : alignDownFrame (min (base + length) maxTrackedPhysicalMemory) ≤ maxTrackedFrames :=
      Nat.div_le_div_right (min_le_right _ _)
    have hraised := h.raiseLimit hle
    have hend : alignDownFrame (min (base + length) maxTrackedPhysicalMemory) ≤
        (if alignDownFrame (min (base + length) maxTrackedPhysicalMemory) > pmm.frameSearchLimit
          then { pmm with frameSearchLimit :=
            alignDownFrame (min (base + length) maxTrackedPhysicalMemory) }
          else pmm).frameSearchLimit := by
      split_ifs with hgt
      · exact le_rfl
      · omega
    exact (hraised.markUsableFrames hfirst hend).congr fun n => by rw [rounded_range_iff]

lemma Filling.accountMemoryType (entry : MemmapEntry) :
    Filling P (Pmm.accountMemoryType pmm entry) := by
  unfold Pmm.accountMemoryType
  split <;> exact ⟨h.usable_iff, h.free_eq, h.range, h.limit_pos, h.limit_le, h.free_count,
    h.usable_count, h.hint_eq⟩

lemma Filling.accountEntry (entry : MemmapEntry) :
    Filling (fun n => P n ∨ 1 ≤ n ∧ n < maxTrackedFrames ∧ entry.Covers n)
      (Pmm.accountEntry pmm entry) := by
  simp only [Pmm.accountEntry]
  generalize hc : (if memoryTypeIsPhysicalRam entry.type = true then
      { pmm with totalMemoryBytes := saturatingAdd pmm.totalMemoryBytes entry.length }
      else pmm) = counted
  have hcounted : Filling P counted := by
    subst hc
    split_ifs
    · exact ⟨h.usable_iff, h.free_eq, h.range, h.limit_pos, h.limit_le, h.free_count,
        h.usable_count, h.hint_eq⟩
    · exact h
  have hacc := hcounted.accountMemoryType entry
  by_cases ht : entry.type = .usable
  · rw [if_pos ht]
    have hbytes : ∀ bytes, Filling P
        { Pmm.accountMemoryType counted entry with usableMemoryBytes := bytes } := fun _ =>
      ⟨hacc.usable_iff, hacc.free_eq, hacc.range, hacc.limit_pos, hacc.limit_le,
        hacc.free_count, hacc.usable_count, hacc.hint_eq⟩
    exact ((hbytes _).markUsableRange entry.base entry.length).congr fun n => by
      simp only [MemmapEntry.Covers, ht, true_and]
  · rw [if_neg ht]
    exact hacc.congr fun n => by simp only [MemmapEntry.Covers, ht, false_and, and_false, or_false]

/-- The entry loop marks the union of all entries, whatever their order and overlap. -/
lemma Filling.accountEntries (entries : List (Option MemmapEntry))
    (hdone : (Pmm.accountEntries entries pmm).1 = true) :
    Filling (fun n => P n ∨ UsableFrame entries n) (Pmm.accountEntries entries pmm).2 := by
  induction entries generalizing P pmm with
  | nil => exact h.congr fun n => by simp [UsableFrame]
  | cons slot rest ih =>
    cases slot with
    | none => simp [Pmm.accountEntries] at hdone
    | some entry =>
      refine (ih (h.accountEntry entry) hdone).congr fun n => ?_
      simp only [UsableFrame, List.mem_cons, Option.some.injEq]
      constructor
      · rintro ((hP | ⟨h1, h2, hc⟩) | ⟨h1, h2, e, he, hc⟩)
        · exact .inl hP
        · exact .inr ⟨h1, h2, entry, .inl rfl, hc⟩
        · exact .inr ⟨h1, h2, e, .inr he, hc⟩
      rintro (hP | ⟨h1, h2, e, rfl | he, hc⟩)
      · exact .inl (.inl hP)
      · exact .inl (.inr ⟨h1, h2, hc⟩)
      · exact .inr ⟨h1, h2, e, he, hc⟩

end

/-- A successful initialisation marks exactly the usable frames of its map, all free. -/
theorem pmmInitialize_filling {memoryMap : Option MemmapResponse}
    (h : (pmmInitialize pmm memoryMap).1 = true) :
    ∃ entries, memoryMap.bind MemmapResponse.entries = some entries ∧
      Filling (UsableFrame entries) (pmmInitialize pmm memoryMap).2 ∧
      (pmmInitialize pmm memoryMap).2.initialized = true ∧
      (pmmInitialize pmm memoryMap).2.freeFrames ≠ 0 := by
  unfold pmmInitialize at h ⊢
  cases hm : memoryMap.bind MemmapResponse.entries with
  | none => simp [hm] at h
  | some entries =>
    simp only [hm] at h ⊢
    rcases he : accountEntries entries resetState with ⟨done, filled⟩
    cases done with
    | false => simp [he] at h
    | true =>
      have hf : Filling (fun n => False ∨ UsableFrame entries n) filled := by
        have := filling_resetState.accountEntries entries (by rw [he])
        rwa [he] at this
      have hlimit : ¬ filled.frameSearchLimit > maxTrackedFrames := not_lt.mpr hf.limit_le
      simp only [he, if_neg hlimit] at h ⊢
      refine ⟨entries, rfl, ?_, h, of_decide_eq_true h⟩
      have hf' := hf.congr fun n => Iff.of_eq (false_or (UsableFrame entries n))
      exact ⟨hf'.usable_iff, hf'.free_eq, hf'.range, hf'.limit_pos, hf'.limit_le,
        hf'.free_count, hf'.usable_count, hf'.hint_eq⟩

end KosKernel.Pmm
