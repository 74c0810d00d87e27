import KosKernel.PmmInvariant

/-! Histories of the physical memory manager. A ledger keeps, beside the manager, the
frame sets that successful allocations returned and that have not been given back. -/
namespace KosKernel.Pmm

inductive Call
  | allocateFrame
  | freeFrame (physicalAddress : ℕ)
  | allocPages (count : ℕ)
  | freePages (physicalAddress count : ℕ)
  deriving DecidableEq

inductive Outcome
  | address (physicalAddress : ℕ)
  | status (ok : Bool)
  deriving DecidableEq

/-- The failure values of the source: address 0 and `false`. -/
def Outcome.failed : Outcome → Bool
  | .address physicalAddress => physicalAddress = 0
  | .status ok => !ok

def call (pmm : PhysicalMemoryManager) : Call → Outcome × PhysicalMemoryManager
  | .allocateFrame => ((pmmAllocateFrame pmm).1 |> .address, (pmmAllocateFrame pmm).2)
  | .freeFrame a => ((pmmFreeFrame pmm a).1 |> .status, (pmmFreeFrame pmm a).2)
  | .allocPages c => ((pmmAllocPages pmm c).1 |> .address, (pmmAllocPages pmm c).2)
  | .freePages a c => ((pmmFreePages pmm a c).1 |> .status, (pmmFreePages pmm a c).2)

structure Ledger where
  pmm : PhysicalMemoryManager
  outstanding : List (Finset ℕ)

def requestFrames (physicalAddress count : ℕ) : Finset ℕ :=
  Finset.Ico (physicalAddress / frameSize) (physicalAddress / frameSize + count)

def Ledger.grant (outstanding : List (Finset ℕ)) (physicalAddress count : ℕ) :
    List (Finset ℕ) :=
  if physicalAddress = 0 then outstanding
  else requestFrames physicalAddress count :: outstanding

def Ledger.revoke (outstanding : List (Finset ℕ)) (ok : Bool) (physicalAddress count : ℕ) :
    List (Finset ℕ) :=
  if ok then outstanding.map (· \ requestFrames physicalAddress count) else outstanding

def Ledger.step (s : Ledger) (c : Call) : Ledger where
  pmm := (call s.pmm c).2
  outstanding :=
    match c with
    | .allocateFrame => Ledger.grant s.outstanding (pmmAllocateFrame s.pmm).1 1
    | .freeFrame a => Ledger.revoke s.outstanding (pmmFreeFrame s.pmm a).1 a 1
    | .allocPages n => Ledger.grant s.outstanding (pmmAllocPages s.pmm n).1 n
    | .freePages a n => Ledger.revoke s.outstanding (pmmFreePages s.pmm a n).1 a n

def Ledger.run (s : Ledger) (calls : List Call) : Ledger := calls.foldl Ledger.step s

/-- Some allocation that has not been given back holds the frame. -/
def Ledger.Allocated (s : Ledger) (n : ℕ) : Prop := ∃ g ∈ s.outstanding, n ∈ g

structure Ledger.Consistent (s : Ledger) : Prop where
  wf : Wf s.pmm
  disjoint : s.outstanding.Pairwise Disjoint
  allocated_iff : ∀ n, s.Allocated n ↔ usableFrame s.pmm n ∧ ¬ freeFrame s.pmm n

variable {count : ℕ} {s : Ledger}

lemma mem_requestFrames {start n : ℕ} :
    n ∈ requestFrames (start * frameSize) count ↔ InRun start count n := by
  rw [requestFrames, Nat.mul_div_cancel _ (by norm_num [frameSize] : 0 < frameSize), Finset.mem_Ico]
  rfl

section
variable (h : s.Consistent)
include h

variable {pmm' : PhysicalMemoryManager}

/-- Recording a newly taken run keeps the ledger consistent: its frames were free, hence in
no outstanding allocation. -/
lemma Ledger.Consistent.granted {start : ℕ} (ht : Taken s.pmm start count pmm') :
    (Ledger.mk pmm' (Ledger.grant s.outstanding (start * frameSize) count)).Consistent := by
  have hne : start * frameSize ≠ 0 :=
    Nat.mul_ne_zero (by have := ht.pos; omega) (by norm_num [frameSize])
  unfold Ledger.grant
  rw [if_neg hne]
  refine ⟨ht.wf, List.pairwise_cons.mpr ⟨fun g hg => ?_, h.disjoint⟩, fun n => ?_⟩
  · rw [Finset.disjoint_left]
    intro n hn hng
    exact ((h.allocated_iff n).mp ⟨g, hg, hng⟩).2 (ht.wasFree n (mem_requestFrames.mp hn))
  simp only [Ledger.Allocated, List.mem_cons, exists_eq_or_imp]
  rw [mem_requestFrames, ht.usable_iff, ht.free_iff]
  have hold := h.allocated_iff n
  unfold Ledger.Allocated at hold
  rw [hold]
  constructor
  · rintro (hr | ⟨hu, hf⟩)
    · exact ⟨h.wf.free_usable n (ht.wasFree n hr), fun hn => hn.2 hr⟩
    · exact ⟨hu, fun hn => hf hn.1⟩
  rintro ⟨hu, hf⟩
  by_cases hr : InRun start count n
  · exact .inl hr
  · exact .inr ⟨hu, fun hn => hf ⟨hn, hr⟩⟩

lemma Ledger.Consistent.revoked {pa : ℕ} (hr : Returned s.pmm (pa / frameSize) count pmm') :
    (Ledger.mk pmm' (Ledger.revoke s.outstanding true pa count)).Consistent := by
  unfold Ledger.revoke
  rw [if_pos rfl]
  refine ⟨hr.wf, ?_, fun n => ?_⟩
  · rw [List.pairwise_map]
    exact h.disjoint.imp fun hd => Disjoint.mono Finset.sdiff_subset Finset.sdiff_subset hd
  have hold := h.allocated_iff n
  have hmem : n ∈ requestFrames pa count ↔ InRun (pa / frameSize) count n := Finset.mem_Ico
  simp only [Ledger.Allocated, List.mem_map, exists_exists_and_eq_and, Finset.mem_sdiff, hmem,
    hr.usable_iff, hr.free_iff] at hold ⊢
  constructor
  · rintro ⟨g, hg, hng, hout⟩
    obtain ⟨hu, hf⟩ := hold.mp ⟨g, hg, hng⟩
    exact ⟨hu, fun hc => hc.elim hf hout⟩
  rintro ⟨hu, hf⟩
  push Not at hf
  obtain ⟨g, hg, hng⟩ := hold.mpr ⟨hu, hf.1⟩
  exact ⟨g, hg, hng, hf.2⟩

lemma Ledger.Consistent.step (c : Call) :
    (s.step c).Consistent ∧ ∀ n, usableFrame (s.step c).pmm n ↔ usableFrame s.pmm n := by
  cases c with
  | allocateFrame =>
    rcases pmmAllocateFrame_cases h.wf with he | ⟨frame, pmm', he, ht⟩
    · simpa [Ledger.step, call, he, Ledger.grant] using h
    · simp only [Ledger.step, call, he]
      exact ⟨h.granted ht, ht.usable_iff⟩
  | allocPages count =>
    rcases pmmAllocPages_cases h.wf count with he | ⟨start, pmm', he, -, ht⟩
    · simpa [Ledger.step, call, he, Ledger.grant] using h
    · simp only [Ledger.step, call, he]
      exact ⟨h.granted ht, ht.usable_iff⟩
  | freeFrame a =>
    rcases pmmFreeFrame_cases h.wf a with ⟨he, -⟩ | ⟨pmm', he, -, hr⟩
    · simpa [Ledger.step, call, he, Ledger.revoke] using h
    · simp only [Ledger.step, call, he]
      exact ⟨h.revoked hr, hr.usable_iff⟩
  | freePages a count =>
    rcases pmmFreePages_cases h.wf a count with ⟨he, -⟩ | ⟨pmm', he, -, hr⟩
    · simpa [Ledger.step, call, he, Ledger.revoke] using h
    · simp only [Ledger.step, call, he]
      exact ⟨h.revoked hr, hr.usable_iff⟩

lemma Ledger.Consistent.run (calls : List Call) :
    (s.run calls).Consistent ∧ ∀ n, usableFrame (s.run calls).pmm n ↔ usableFrame s.pmm n := by
  induction calls generalizing s with
  | nil => exact ⟨h, fun _ => Iff.rfl⟩
  | cons c rest ih =>
    obtain ⟨hc, hu⟩ := h.step c
    obtain ⟨hr, hur⟩ := ih hc
    exact ⟨hr, fun n => (hur n).trans (hu n)⟩

end

def Ledger.fresh (pmm : PhysicalMemoryManager) : Ledger := ⟨pmm, []⟩

variable {pmm : PhysicalMemoryManager}

lemma fresh_consistent {memoryMap : Option MemmapResponse}
    (h : (pmmInitialize pmm memoryMap).1 = true) :
    (Ledger.fresh (pmmInitialize pmm memoryMap).2).Consistent := by
  obtain ⟨hwf, hfree⟩ := pmmInitialize_wf h
  refine ⟨hwf, List.Pairwise.nil, fun n => ⟨?_, fun hn => ?_⟩⟩
  · rintro ⟨g, hg, -⟩
    cases hg
  · exact absurd ((hfree n).mpr hn.1) hn.2

/-- A free request in terms of the history: every frame is tracked, usable and held by an
outstanding allocation. -/
def Ledger.ValidFree (s : Ledger) (physicalAddress count : ℕ) : Prop :=
  physicalAddress ≠ 0 ∧ physicalAddress % frameSize = 0 ∧ count ≠ 0 ∧
    ∀ i < count, frameIsTracked (physicalAddress / frameSize + i) = true ∧
      usableFrame s.pmm (physicalAddress / frameSize + i) ∧
      s.Allocated (physicalAddress / frameSize + i)

lemma Ledger.Consistent.validFree_iff (h : s.Consistent) (pa count : ℕ) :
    s.ValidFree pa count ↔ FreeRequest s.pmm pa count := by
  unfold Ledger.ValidFree FreeRequest
  refine and_congr_right fun _ => and_congr_right fun _ => and_congr_right fun _ => ?_
  constructor
  · intro hall n hn
    obtain ⟨ht, hu, ha⟩ := hall (n - pa / frameSize) (by unfold InRun at hn; omega)
    rw [show pa / frameSize + (n - pa / frameSize) = n by unfold InRun at hn; omega] at ht hu ha
    exact ⟨of_decide_eq_true ht, (h.allocated_iff n).mp ha⟩
  · intro hall i hi
    obtain ⟨ht, hua⟩ := hall (pa / frameSize + i) ⟨by omega, by omega⟩
    exact ⟨decide_eq_true ht, hua.1, (h.allocated_iff _).mpr hua⟩

lemma Ledger.Consistent.freeFrame_iff (h : s.Consistent) (pa : ℕ) :
    (pmmFreeFrame s.pmm pa).1 = true ↔ s.ValidFree pa 1 := by
  rw [h.validFree_iff]
  rcases pmmFreeFrame_cases h.wf pa with ⟨he, hn⟩ | ⟨pmm', he, hreq, -⟩
  · simp [he, hn]
  · simp [he, hreq]

lemma Ledger.Consistent.freePages_iff (h : s.Consistent) (pa count : ℕ) :
    (pmmFreePages s.pmm pa count).1 = true ↔ s.ValidFree pa count := by
  rw [h.validFree_iff]
  rcases pmmFreePages_cases h.wf pa count with ⟨he, hn⟩ | ⟨pmm', he, hreq, -⟩
  · simp [he, hn]
  · simp [he, hreq]

lemma call_failed_unchanged (h : Wf pmm) (c : Call)
    (hf : (call pmm c).1.failed = true) : (call pmm c).2 = pmm := by
  have hpos : ∀ {start count pmm'}, Taken pmm start count pmm' → start * frameSize ≠ 0 :=
    fun ht => Nat.mul_ne_zero (by have := ht.pos; omega) (by norm_num [frameSize])
  cases c with
  | allocateFrame =>
    rcases pmmAllocateFrame_cases h with he | ⟨frame, pmm', he, ht⟩
    · simp [call, he]
    · exact absurd (of_decide_eq_true (by simpa [call, he, Outcome.failed] using hf)) (hpos ht)
  | allocPages count =>
    rcases pmmAllocPages_cases h count with he | ⟨start, pmm', he, -, ht⟩
    · simp [call, he]
    · exact absurd (of_decide_eq_true (by simpa [call, he, Outcome.failed] using hf)) (hpos ht)
  | freeFrame a =>
    rcases pmmFreeFrame_cases h a with ⟨he, -⟩ | ⟨pmm', he, -, -⟩
    · simp [call, he]
    · simp [call, he, Outcome.failed] at hf
  | freePages a count =>
    rcases pmmFreePages_cases h a count with ⟨he, -⟩ | ⟨pmm', he, -, -⟩
    · simp [call, he]
    · simp [call, he, Outcome.failed] at hf

/-- The frame allocator over any history that starts with a successful initialisation. -/
theorem pmm_history_invariant (pmm : PhysicalMemoryManager) (memoryMap : Option MemmapResponse)
    (hinit : (pmmInitialize pmm memoryMap).1 = true) (calls : List Call) :
    let s := (Ledger.fresh (pmmInitialize pmm memoryMap).2).run calls
    (∃ entries, memoryMap.bind MemmapResponse.entries = some entries ∧
      ∀ n, usableFrame s.pmm n ↔ UsableFrame entries n) ∧
    (∀ n, freeFrame s.pmm n → usableFrame s.pmm n) ∧
    s.pmm.freeFrames = (freeSet s.pmm).card ∧
    s.outstanding.Pairwise Disjoint ∧
    (∀ g ∈ s.outstanding, ∀ n ∈ g, usableFrame s.pmm n ∧ n ≠ 0) ∧
    (∀ a, (pmmFreeFrame s.pmm a).1 = true ↔ s.ValidFree a 1) ∧
    (∀ a count, (pmmFreePages s.pmm a count).1 = true ↔ s.ValidFree a count) ∧
    ∀ c, (call s.pmm c).1.failed = true → (call s.pmm c).2 = s.pmm := by
  intro s
  obtain ⟨hs, hu⟩ := (fresh_consistent hinit).run calls
  obtain ⟨entries, hentries, hf, -⟩ := pmmInitialize_filling hinit
  refine ⟨⟨entries, hentries, fun n => (hu n).trans (hf.usable_iff n)⟩, hs.wf.free_usable,
    hs.wf.free_count, hs.disjoint, fun g hg n hn => ?_, hs.freeFrame_iff, hs.freePages_iff,
    fun c => call_failed_unchanged hs.wf c⟩
  have husable := ((hs.allocated_iff n).mp ⟨g, hg, hn⟩).1
  exact ⟨husable, Nat.one_le_iff_ne_zero.mp (hs.wf.usable_range n husable).1⟩

def sampleMap : Option MemmapResponse :=
  some ⟨some [some ⟨68719472000, 18446744073709551615, .usable⟩, some ⟨68719470000, 9000, .usable⟩,
    some ⟨0, 4096, .framebuffer⟩]⟩

theorem pmm_history_invariant_sample :
    (pmmInitialize resetState sampleMap).1 = true ∧
    ((Ledger.fresh (pmmInitialize resetState sampleMap).2).run
      [.allocateFrame, .allocPages 2, .freeFrame 68719472640]).outstanding.Pairwise Disjoint :=
  ⟨by decide, (pmm_history_invariant resetState sampleMap (by decide) _).2.2.2.1⟩

end KosKernel.Pmm
