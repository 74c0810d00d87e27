import KosKernel.PmmInitialize

/-! The allocator invariant and one specification for each entry point. A call either
leaves the manager as it was or moves one run of frames between the free set and the
allocated set; `Taken` and `Returned` say what such a move does. -/
namespace KosKernel.Pmm
open BitWords

def usableFrame (pmm : PhysicalMemoryManager) (frame : ℕ) : Prop :=
  member pmm.usableBitmap frame = true

def freeFrame (pmm : PhysicalMemoryManager) (frame : ℕ) : Prop :=
  member pmm.freeBitmap frame = true

def freeSet (pmm : PhysicalMemoryManager) : Finset ℕ := members pmm.freeBitmap maxTrackedFrames

structure Wf (pmm : PhysicalMemoryManager) : Prop where
  initialized : pmm.initialized = true
  free_usable : ∀ n, freeFrame pmm n → usableFrame pmm n
  usable_range : ∀ n, usableFrame pmm n → 1 ≤ n ∧ n < pmm.frameSearchLimit
  limit_le : pmm.frameSearchLimit ≤ maxTrackedFrames
  free_count : pmm.freeFrames = (freeSet pmm).card
  hint_pos : 1 ≤ pmm.allocationHint
  hint_le : pmm.allocationHint ≤ pmm.frameSearchLimit

variable {pmm : PhysicalMemoryManager}

lemma Wf.usable_tracked (h : Wf pmm) {n : ℕ} (hn : usableFrame pmm n) : n < maxTrackedFrames :=
  lt_of_lt_of_le (h.usable_range n hn).2 h.limit_le

lemma Wf.mem_freeSet (h : Wf pmm) {n : ℕ} : n ∈ freeSet pmm ↔ freeFrame pmm n := by
  constructor
  · intro hn
    exact (mem_members.mp hn).2
  · intro hn
    exact mem_members.mpr ⟨h.usable_tracked (h.free_usable n hn), hn⟩

theorem pmmInitialize_wf {memoryMap : Option MemmapResponse}
    (h : (pmmInitialize pmm memoryMap).1 = true) :
    Wf (pmmInitialize pmm memoryMap).2 ∧ ∀ n, freeFrame (pmmInitialize pmm memoryMap).2 n ↔
        usableFrame (pmmInitialize pmm memoryMap).2 n := by
  obtain ⟨entries, -, hf, hinit, -⟩ := pmmInitialize_filling h
  generalize (pmmInitialize pmm memoryMap).2 = filled at hf hinit
  have hfree : ∀ n, freeFrame filled n ↔ usableFrame filled n := by
    intro n
    unfold freeFrame usableFrame
    rw [hf.free_eq]
  refine ⟨⟨hinit, fun n => (hfree n).mp, fun n hn => hf.range n ((hf.usable_iff n).mp hn),
    hf.limit_le, hf.free_count, ?_, ?_⟩, hfree⟩
  · rw [hf.hint_eq]
  · rw [hf.hint_eq]
    exact hf.limit_pos

def InRun (start count n : ℕ) : Prop := start ≤ n ∧ n < start + count

instance (start count n : ℕ) : Decidable (InRun start count n) :=
  inferInstanceAs (Decidable (_ ∧ _))

structure Taken (pmm : PhysicalMemoryManager) (start count : ℕ) (pmm' : PhysicalMemoryManager) :
    Prop where
  pos : 1 ≤ start
  wasFree : ∀ n, InRun start count n → freeFrame pmm n
  usable_iff : ∀ n, usableFrame pmm' n ↔ usableFrame pmm n
  free_iff : ∀ n, freeFrame pmm' n ↔ freeFrame pmm n ∧ ¬ InRun start count n
  wf : Wf pmm'

structure Returned (pmm : PhysicalMemoryManager) (start count : ℕ)
    (pmm' : PhysicalMemoryManager) : Prop where
  wasAllocated : ∀ n, InRun start count n → usableFrame pmm n ∧ ¬ freeFrame pmm n
  usable_iff : ∀ n, usableFrame pmm' n ↔ usableFrame pmm n
  free_iff : ∀ n, freeFrame pmm' n ↔ freeFrame pmm n ∨ InRun start count n
  wf : Wf pmm'

lemma Wf.taken (h : Wf pmm) {start count hint : ℕ} {bitmap : Words} (hcount : 1 ≤ count)
    (hbitmap : ∀ n, member bitmap n = (member pmm.freeBitmap n && !decide (InRun start count n)))
    (hrun : ∀ n, InRun start count n → freeFrame pmm n) (hhint : 1 ≤ hint)
    (hlimit : hint ≤ pmm.frameSearchLimit)
    (hcard : (members bitmap maxTrackedFrames).card = (freeSet pmm).card - count) :
    Taken pmm start count { pmm with
      freeBitmap := bitmap, freeFrames := pmm.freeFrames - count, allocationHint := hint } := by
  have hfree : ∀ n, member bitmap n = true ↔ freeFrame pmm n ∧ ¬ InRun start count n := by
    intro n
    rw [hbitmap n, Bool.and_eq_true, Bool.not_eq_true', decide_eq_false_iff_not, freeFrame]
  have hpos := (h.usable_range start (h.free_usable start (hrun start ⟨le_rfl, by omega⟩))).1
  refine ⟨hpos, hrun, fun n => Iff.rfl, hfree, ⟨h.initialized, ?_, h.usable_range, h.limit_le, ?_,
    hhint, hlimit⟩⟩
  · intro n hn
    exact h.free_usable n ((hfree n).mp hn).1
  · simp only [freeSet, hcard, h.free_count]

lemma Wf.returned (h : Wf pmm) {start count : ℕ} {bitmap : Words} (hcount : 1 ≤ count)
    (hbitmap : ∀ n, member bitmap n = (member pmm.freeBitmap n || decide (InRun start count n)))
    (hrun : ∀ n, InRun start count n → usableFrame pmm n ∧ ¬ freeFrame pmm n)
    (hcard : (members bitmap maxTrackedFrames).card = (freeSet pmm).card + count) :
    Returned pmm start count { pmm with
      freeBitmap := bitmap, freeFrames := pmm.freeFrames + count,
      allocationHint := if start < pmm.allocationHint then start else pmm.allocationHint } := by
  have hfree : ∀ n, member bitmap n = true ↔ freeFrame pmm n ∨ InRun start count n := by
    intro n
    rw [hbitmap n, Bool.or_eq_true, decide_eq_true_eq, freeFrame]
  have hstart := h.usable_range start (hrun start ⟨le_rfl, by omega⟩).1
  refine ⟨hrun, fun n => Iff.rfl, hfree, ⟨h.initialized, ?_, h.usable_range, h.limit_le, ?_, ?_, ?_⟩⟩
  · intro n hn
    rcases (hfree n).mp hn with hf | hr
    · exact h.free_usable n hf
    · exact (hrun n hr).1
  · simp only [freeSet, hcard, h.free_count]
  · have := h.hint_pos
    dsimp only
    split_ifs <;> omega
  have := h.hint_le
  dsimp only
  split_ifs <;> omega

lemma inRun_one (start n : ℕ) : InRun start 1 n ↔ n = start := by
  unfold InRun
  omega

lemma wrappedHint_range (next limit : ℕ) (hnext : 1 ≤ next) (hlimit : 1 ≤ limit) :
    1 ≤ (if next ≥ limit then 1 else next) ∧ (if next ≥ limit then 1 else next) ≤ limit := by
  split_ifs <;> omega

lemma Wf.frameIsAllocated_iff (h : Wf pmm) (frame : ℕ) :
    frameIsAllocated pmm frame = true ↔ usableFrame pmm frame ∧ ¬ freeFrame pmm frame := by
  unfold frameIsAllocated frameIsTracked usableFrame freeFrame
  rw [bitmapTest_eq_member, bitmapTest_eq_member]
  simp only [Bool.and_eq_true, decide_eq_true_eq, Bool.not_eq_true', Bool.not_eq_true]
  constructor
  · rintro ⟨⟨-, hu⟩, hf⟩
    exact ⟨hu, hf⟩
  · rintro ⟨hu, hf⟩
    exact ⟨⟨h.usable_tracked hu, hu⟩, hf⟩

theorem pmmAllocateFrame_cases (h : Wf pmm) :
    pmmAllocateFrame pmm = (0, pmm) ∨
      ∃ frame pmm', pmmAllocateFrame pmm = (frame * frameSize, pmm') ∧ Taken pmm frame 1 pmm' := by
  unfold pmmAllocateFrame
  rw [if_neg (by simp [h.initialized])]
  dsimp only
  generalize hframe : (if findFreeFrame pmm pmm.allocationHint pmm.frameSearchLimit = 0 ∧
      pmm.allocationHint > 1 then findFreeFrame pmm 1 pmm.allocationHint
      else findFreeFrame pmm pmm.allocationHint pmm.frameSearchLimit) = frame
  by_cases hz : frame = 0
  · exact .inl (by rw [if_pos hz])
  right
  -- both searches return only free frames
  have hfree : freeFrame pmm frame := by
    split_ifs at hframe with hc
    · rw [← hframe] at hz ⊢
      exact (findFreeFrame_sound hz).2.2
    · rw [← hframe] at hz ⊢
      exact (findFreeFrame_sound hz).2.2
  have hrange := h.usable_range frame (h.free_usable frame hfree)
  obtain ⟨hh1, hh2⟩ := wrappedHint_range (frame + 1) pmm.frameSearchLimit
    (by omega) (by omega)
  refine ⟨frame, _, if_neg hz, h.taken le_rfl ?_ ?_ hh1 hh2 ?_⟩
  · intro n
    rw [member_bitmapClear]
    simp only [inRun_one, ne_eq, decide_not]
  · intro n hn
    rwa [(inRun_one frame n).mp hn]
  · rw [members_bitmapClear]
    exact Finset.card_erase_of_mem (h.mem_freeSet.mpr hfree)

lemma pmmAllocateFrame_exhausted (h : Wf pmm) (hzero : (pmmAllocateFrame pmm).1 = 0) (n : ℕ) :
    ¬freeFrame pmm n := by
  intro hfree
  have hrange := h.usable_range n (h.free_usable n hfree)
  unfold pmmAllocateFrame at hzero
  rw [if_neg (by simp [h.initialized])] at hzero
  dsimp only at hzero
  generalize hframe : (if findFreeFrame pmm pmm.allocationHint pmm.frameSearchLimit = 0 ∧
      pmm.allocationHint > 1 then findFreeFrame pmm 1 pmm.allocationHint
      else findFreeFrame pmm pmm.allocationHint pmm.frameSearchLimit) = frame at hzero
  have hnone : frame = 0 := by
    by_contra hz
    rw [if_neg hz] at hzero
    exact hz ((Nat.mul_eq_zero.mp hzero).resolve_right (by decide))
  rw [hnone] at hframe
  have hmissed : member pmm.freeBitmap n = false := by
    split_ifs at hframe with hc
    · by_cases hn : n < pmm.allocationHint
      · exact findFreeFrame_complete le_rfl hframe hrange.1 hn
      · exact findFreeFrame_complete h.hint_pos hc.1 (by omega) hrange.2
    have hhint : pmm.allocationHint ≤ n := by
      have := fun hlt => hc ⟨hframe, hlt⟩
      omega
    exact findFreeFrame_complete h.hint_pos hframe hhint hrange.2
  rw [freeFrame, hmissed] at hfree
  cases hfree

/-- The request of a free call: every frame tracked, usable and allocated. -/
def FreeRequest (pmm : PhysicalMemoryManager) (physicalAddress count : ℕ) : Prop :=
  physicalAddress ≠ 0 ∧ physicalAddress % frameSize = 0 ∧ count ≠ 0 ∧
    ∀ n, InRun (physicalAddress / frameSize) count n →
      n < maxTrackedFrames ∧ usableFrame pmm n ∧ ¬ freeFrame pmm n

lemma not_freeRequest {pa count : ℕ} (hargs : pa = 0 ∨ pa % frameSize ≠ 0) :
    ¬ FreeRequest pmm pa count := by
  rintro ⟨hzero, halign, -⟩
  exact hargs.elim hzero fun hodd => hodd halign

theorem pmmFreeFrame_cases (h : Wf pmm) (pa : ℕ) :
    (pmmFreeFrame pmm pa = (false, pmm) ∧ ¬ FreeRequest pmm pa 1) ∨
    ∃ pmm', pmmFreeFrame pmm pa = (true, pmm') ∧
      FreeRequest pmm pa 1 ∧ Returned pmm (pa / frameSize) 1 pmm' := by
  unfold pmmFreeFrame
  by_cases hargs : pa = 0 ∨ pa % frameSize ≠ 0
  · exact .inl ⟨if_pos (.inr hargs), not_freeRequest hargs⟩
  rw [if_neg (by simpa [h.initialized] using hargs)]
  push Not at hargs
  dsimp only
  by_cases hok : frameIsAllocated pmm (pa / frameSize) = true
  · right
    have halloc := (h.frameIsAllocated_iff _).mp hok
    have hrun : ∀ n, InRun (pa / frameSize) 1 n → usableFrame pmm n ∧ ¬ freeFrame pmm n := by
      intro n hn
      rwa [(inRun_one _ n).mp hn]
    refine ⟨_, if_neg (by simp [hok]), ⟨hargs.1, hargs.2, one_ne_zero, fun n hn =>
      ⟨h.usable_tracked (hrun n hn).1, hrun n hn⟩⟩, h.returned le_rfl ?_ hrun ?_⟩
    · intro n
      rw [member_bitmapSet]
      simp only [inRun_one]
    · rw [members_bitmapSet (h.usable_tracked halloc.1)]
      exact Finset.card_insert_of_notMem (fun hm => halloc.2 (h.mem_freeSet.mp hm))
  · left
    rw [if_pos (by simp [hok])]
    refine ⟨rfl, fun hreq => hok ((h.frameIsAllocated_iff _).mpr ?_)⟩
    exact (hreq.2.2.2 _ ((inRun_one _ _).mpr rfl)).2

theorem pmmAllocPages_cases (h : Wf pmm) (count : ℕ) :
    pmmAllocPages pmm count = (0, pmm) ∨
      ∃ start pmm', pmmAllocPages pmm count = (start * frameSize, pmm') ∧ 1 ≤ count ∧
        Taken pmm start count pmm' := by
  unfold pmmAllocPages
  by_cases hzero : count = 0
  · exact .inl (by rw [if_pos hzero])
  rw [if_neg hzero]
  by_cases hone : count = 1
  · subst hone
    rw [if_pos rfl]
    rcases pmmAllocateFrame_cases h with hf | ⟨frame, pmm', he, ht⟩
    · exact .inl hf
    · exact .inr ⟨frame, pmm', he, le_rfl, ht⟩
  rw [if_neg hone]
  by_cases hfew : pmm.freeFrames < count
  · exact .inl (by rw [if_pos (.inr hfew)])
  rw [if_neg (by simpa [h.initialized] using hfew)]
  dsimp only
  have hfirst := scanRun_sound pmm.freeBitmap count (pmm.frameSearchLimit - pmm.allocationHint)
    pmm.allocationHint 0 0 (by simp) (by simp)
  generalize hscan : (if (scanRun pmm.freeBitmap count
      (frameRange pmm.allocationHint pmm.frameSearchLimit) 0 0).1 < count ∧
        pmm.allocationHint > 1 then
      scanRun pmm.freeBitmap count
        (frameRange 1 (min (pmm.allocationHint + count) pmm.frameSearchLimit)) 0
        (scanRun pmm.freeBitmap count
          (frameRange pmm.allocationHint pmm.frameSearchLimit) 0 0).2
      else scanRun pmm.freeBitmap count
        (frameRange pmm.allocationHint pmm.frameSearchLimit) 0 0) = found
  have hrun : ∀ i < found.1, member pmm.freeBitmap (found.2 + i) = true := by
    rw [← hscan]
    split_ifs with hc
    · exact scanRun_sound _ _ _ 1 0 _ (by simp) (by simp)
    · exact hfirst
  by_cases hfail : found.1 < count
  · exact .inl (by rw [if_pos hfail])
  right
  have hfree : ∀ n, InRun found.2 count n → freeFrame pmm n := by
    intro n hn
    have := hrun (n - found.2) (by unfold InRun at hn; omega)
    rwa [show found.2 + (n - found.2) = n by unfold InRun at hn; omega] at this
  have hlast : found.2 + (count - 1) < pmm.frameSearchLimit :=
    (h.usable_range _ (h.free_usable _ (hfree _ ⟨by omega, by omega⟩))).2
  obtain ⟨hh1, hh2⟩ := wrappedHint_range (found.2 + count) pmm.frameSearchLimit
    (by omega) (by omega)
  refine ⟨found.2, _, if_neg hfail, by omega, h.taken (by omega) ?_ hfree hh1 hh2 ?_⟩
  · intro n
    exact member_clearFrames _ _ _ _
  · have hle := h.limit_le
    exact card_members_clearFrames (by omega) (fun i hi => hrun i (by omega))

theorem pmmFreePages_cases (h : Wf pmm) (pa count : ℕ) :
    (pmmFreePages pmm pa count = (false, pmm) ∧ ¬ FreeRequest pmm pa count) ∨
    ∃ pmm', pmmFreePages pmm pa count = (true, pmm') ∧ FreeRequest pmm pa count ∧
      Returned pmm (pa / frameSize) count pmm' := by
  unfold pmmFreePages
  by_cases hzero : count = 0
  · exact .inl ⟨by rw [if_pos hzero], fun hreq => hreq.2.2.1 hzero⟩
  rw [if_neg hzero]
  by_cases hone : count = 1
  · subst hone
    rw [if_pos rfl]
    exact pmmFreeFrame_cases h pa
  rw [if_neg hone]
  by_cases hargs : pa = 0 ∨ pa % frameSize ≠ 0
  · exact .inl ⟨if_pos (.inr hargs), not_freeRequest hargs⟩
  rw [if_neg (by simpa [h.initialized] using hargs)]
  push Not at hargs
  dsimp only
  generalize hstart : pa / frameSize = start
  by_cases hall : ((List.range count).all fun i => frameIsAllocated pmm (start + i)) = true
  · right
    have hrun : ∀ n, InRun start count n → usableFrame pmm n ∧ ¬ freeFrame pmm n := by
      intro n hn
      have hi := List.all_eq_true.mp hall (n - start)
        (List.mem_range.mpr (by unfold InRun at hn; omega))
      rw [show start + (n - start) = n by unfold InRun at hn; omega] at hi
      exact (h.frameIsAllocated_iff n).mp hi
    have hlast := h.usable_tracked (hrun (start + (count - 1)) ⟨by omega, by omega⟩).1
    refine ⟨_, if_pos hall, ⟨hargs.1, hargs.2, hzero, fun n hn =>
      ⟨h.usable_tracked (hrun n (hstart ▸ hn)).1, hrun n (hstart ▸ hn)⟩⟩,
      h.returned (by omega) ?_ hrun ?_⟩
    · intro n
      exact member_setFrames _ _ _ _
    · refine card_members_setFrames (by omega) (fun i hi => ?_)
      exact Bool.eq_false_iff.mpr (hrun (start + i) ⟨by omega, by omega⟩).2
  · left
    rw [if_neg hall]
    refine ⟨rfl, fun hreq => hall (List.all_eq_true.mpr fun i hi => ?_)⟩
    have hr := hreq.2.2.2 (start + i) ⟨by omega, by have := List.mem_range.mp hi; omega⟩
    exact (h.frameIsAllocated_iff _).mpr hr.2

end KosKernel.Pmm
