import KosKernel.PmmLedger

/-! The searches of the frame allocator miss nothing: a run of free frames that begins below the
hint ends before the second scan of `pmm_alloc_pages` does. -/
namespace KosKernel.Pmm
open BitWords List

/-- A scan finds every run that begins with the frames it has counted or later. -/
lemma scanRun_complete (bitmap : Words) {count start : ℕ} (n first consecutive startFrame : ℕ)
    (hcount : consecutive < count) (hstart : first ≤ start + consecutive)
    (hend : start + count ≤ first + n) (hfree : ∀ i < count, member bitmap (start + i) = true) :
    count ≤ (scanRun bitmap count (range' first n) consecutive startFrame).1 := by
  induction n generalizing first consecutive startFrame with
  | zero => omega
  | succ n ih =>
    rw [range'_succ]
    simp only [scanRun, bitmapTest_eq_member]
    by_cases hfirst : member bitmap first = true
    · rw [if_pos hfirst]
      by_cases hdone : consecutive + 1 = count
      · simp [hdone]
      · rw [if_neg hdone]
        exact ih (first + 1) (consecutive + 1) _ (by omega) (by omega) (by omega)
    -- the run cannot contain this frame, so it begins after it
    have hlater : first < start := by
      by_contra hle
      have hmem := hfree (first - start) (by omega)
      rw [show start + (first - start) = first by omega] at hmem
      exact hfirst hmem
    rw [if_neg hfirst]
    exact ih (first + 1) 0 _ (by omega) (by omega) (by omega)

variable {pmm : PhysicalMemoryManager}

/-- Some `count` consecutive frames below the search limit are free. -/
def HasFreeRun (pmm : PhysicalMemoryManager) (count : ℕ) : Prop :=
  ∃ start, 1 ≤ start ∧ start + count ≤ pmm.frameSearchLimit ∧
    ∀ n, InRun start count n → freeFrame pmm n

lemma Wf.count_le_freeFrames (h : Wf pmm) {start count : ℕ}
    (hrun : ∀ n, InRun start count n → freeFrame pmm n) : count ≤ pmm.freeFrames := by
  have hsub : Finset.Ico start (start + count) ⊆ freeSet pmm := by
    intro n hn
    exact h.mem_freeSet.mpr (hrun n (Finset.mem_Ico.mp hn))
  simpa [h.free_count] using Finset.card_le_card hsub

lemma pmmAllocPages_exhausted (h : Wf pmm) {count : ℕ} (hcount : 2 ≤ count)
    (hnone : pmmAllocPages pmm count = (0, pmm)) : ¬HasFreeRun pmm count := by
  rintro ⟨start, hpos, hlimit, hrun⟩
  have hfew := h.count_le_freeFrames hrun
  have hfree : ∀ i < count, member pmm.freeBitmap (start + i) = true :=
    fun i hi => hrun _ ⟨by omega, by omega⟩
  have hfirst : pmm.allocationHint ≤ start → count ≤ (scanRun pmm.freeBitmap count
      (frameRange pmm.allocationHint pmm.frameSearchLimit) 0 0).1 :=
    fun hhint => scanRun_complete _ _ _ 0 _ (by omega) (by omega) (by omega) hfree
  have hsecond : start < pmm.allocationHint → ∀ startFrame, count ≤ (scanRun pmm.freeBitmap count
      (frameRange 1 (min (pmm.allocationHint + count) pmm.frameSearchLimit)) 0 startFrame).1 :=
    fun hhint _ => scanRun_complete _ _ _ 0 _ (by omega) (by omega) (by omega) hfree
  unfold pmmAllocPages at hnone
  rw [if_neg (by omega), if_neg (by omega), if_neg (by simp [h.initialized]; omega)] at hnone
  dsimp only at hnone
  split at hnone
  next hagain =>
    split at hnone
    next hmissed =>
      rcases lt_or_ge start pmm.allocationHint with hhint | hhint
      · exact absurd hmissed (not_lt.mpr (hsecond hhint _))
      · exact absurd hagain.1 (not_lt.mpr (hfirst hhint))
    next => exact absurd (congrArg (fun r => r.2.freeFrames) hnone) (by dsimp only; omega)
  next hagain =>
    split at hnone
    next hmissed => exact absurd (hfirst (by omega)) (not_le.mpr hmissed)
    next => exact absurd (congrArg (fun r => r.2.freeFrames) hnone) (by dsimp only; omega)

theorem allocation_complete (pmm : PhysicalMemoryManager) (memoryMap : Option MemmapResponse)
    (hinit : (pmmInitialize pmm memoryMap).1 = true) (calls : List Call) :
    let s := ((Ledger.fresh (pmmInitialize pmm memoryMap).2).run calls).pmm
    ((pmmAllocateFrame s).1 = 0 ↔ ∀ n, ¬freeFrame s n) ∧
    ∀ count ≥ 2, ((pmmAllocPages s count).1 = 0 ↔ ¬HasFreeRun s count) ∧
      ((pmmAllocPages s count).1 ≠ 0 →
        ∀ n, InRun ((pmmAllocPages s count).1 / frameSize) count n → freeFrame s n) := by
  intro s
  have hwf : Wf s := ((fresh_consistent hinit).run calls).1.wf
  refine ⟨⟨pmmAllocateFrame_exhausted hwf, fun hnone => ?_⟩, fun count hcount => ?_⟩
  · rcases pmmAllocateFrame_cases hwf with he | ⟨frame, pmm', -, ht⟩
    · rw [he]
    · exact absurd (ht.wasFree frame ⟨le_rfl, by omega⟩) (hnone frame)
  rcases pmmAllocPages_cases hwf count with he | ⟨start, pmm', he, -, ht⟩
  · simp [he, pmmAllocPages_exhausted hwf hcount he]
  have hne : start * frameSize ≠ 0 :=
    Nat.mul_ne_zero (by have := ht.pos; omega) (by norm_num [frameSize])
  have hlimit := (hwf.usable_range _ (hwf.free_usable _
    (ht.wasFree (start + (count - 1)) ⟨by omega, by omega⟩))).2
  have hrun : HasFreeRun s count := ⟨start, ht.pos, by omega, ht.wasFree⟩
  rw [he, Nat.mul_div_cancel _ (by norm_num [frameSize] : 0 < frameSize)]
  exact ⟨iff_of_false hne (not_not_intro hrun), fun _ => ht.wasFree⟩

theorem allocation_complete_sample :
    let s := ((Ledger.fresh (pmmInitialize resetState sampleMap).2).run [.allocPages 2]).pmm
    (pmmAllocPages s 2).1 = 0 ↔ ¬HasFreeRun s 2 :=
  ((allocation_complete resetState sampleMap (by decide) [.allocPages 2]).2 2 le_rfl).1

end KosKernel.Pmm
