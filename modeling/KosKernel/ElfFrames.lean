import KosKernel.ElfStack

/-! The frames that `process_exec` takes and gives back. Unmapping the guard page does not free
its frame, so a program that has a segment there loses a frame each time it is loaded. -/
namespace KosKernel.Elf
open Pmm Vmm

section
variable {origin : VmmState} {root : ℕ} {held : Finset ℕ} {m : Machine}

section
variable (h : Accounted origin root held m.vmm)
include h

lemma Accounted.places_le (hwf : Wf origin.pmm) {pages : Finset ℕ}
    (hlt : ∀ p ∈ pages, p < userPages) (hmap : ∀ p ∈ pages, (contents m root p).isSome) :
    (placesFor pages).card ≤ origin.pmm.freeFrames := by
  refine h.tree.places_le hwf _ fun r hr => ?_
  obtain ⟨page, hpage, xs, hxs⟩ := mem_placesFor.mp hr
  have hpath := userPath_pathOf (address_lt (hlt page hpage))
  have hlen := length_pathOf (page * pageSize)
  refine ⟨hpath.of_suffix ⟨xs, hxs⟩, ?_, fun hzero => ?_⟩
  · rw [← hxs, List.length_append] at hlen
    omega
  have hsome := hmap page hpage
  rw [contents_isSome, pagesOf, ← hxs, entryAt_append_zero hzero xs] at hsome
  cases hsome

lemma Accounted.cleared (hroot : root ≠ origin.kernelPml4Phys) :
    Accounted origin root held (clearUser m root).vmm := by
  obtain ⟨htree, hzero⟩ := h.tree.clearUser hroot
  exact ⟨htree, noEmptyTable_of_zero hzero⟩

lemma Accounted.after_setup (hwf : Wf origin.pmm) (hguard : contents m root guardPage = none)
    (args : Arguments) : Accounted origin root held (processSetupUserStack m root args).2.vmm := by
  have hremove : removeGuard m root = m := by
    rcases removeGuard_cases h with ⟨-, heq⟩ | ⟨hsome, -⟩
    · exact heq
    · rw [hguard] at hsome
      cases hsome
  rw [processSetupUserStack_eq, hremove]
  split_ifs
  · exact h
  · exact h
  · exact h
  · exact built h hwf args

lemma Accounted.setup_empty :
    processSetupUserStack m root ⟨0, none⟩ = buildStack (removeGuard m root) root ⟨0, none⟩ := by
  have hroot := h.tree.root_pos
  have halign := h.tree.root_aligned
  rw [processSetupUserStack_eq, if_neg (by simp [hroot, halign]), if_neg (by decide),
    if_neg (by decide)]

end

/-- The stack of a loaded image: the frame of the guard page is lost if there was one, and the
guard page is unmapped. -/
lemma Accounted.imageStack (h : Accounted origin root ∅ m.vmm) (hwf : Wf origin.pmm) :
    ∃ held, Accounted origin root held (processSetupUserStack m root ⟨0, none⟩).2.vmm ∧
      (held = ∅ ↔ contents m root guardPage = none) ∧
      ((processSetupUserStack m root ⟨0, none⟩).1.isSome →
        contents (processSetupUserStack m root ⟨0, none⟩).2 root guardPage = none) := by
  have hlt : guardPage < userPages := page_lt guard_lt
  rw [h.setup_empty]
  -- the stack pages are elsewhere
  have hguard {held : Finset ℕ} (hheld : Accounted origin root held (removeGuard m root).vmm)
      (hnone : contents (removeGuard m root) root guardPage = none)
      (hsome : (buildStack (removeGuard m root) root ⟨0, none⟩).1.isSome) :
      contents (buildStack (removeGuard m root) root ⟨0, none⟩).2 root guardPage = none := by
    rw [(built_empty hheld hwf hsome).contents_eq _ hlt, editAll_stackView,
      if_neg (by decide), hnone]
  rcases removeGuard_cases h with ⟨hnone, heq⟩ | ⟨hsome, ⟨frame, -, hheld⟩, hcont⟩
  · rw [heq] at hguard ⊢
    exact ⟨∅, built h hwf _, by simp [hnone], hguard h hnone⟩
  have hnone : contents (removeGuard m root) root guardPage = none := by
    rw [hcont _ hlt, if_pos rfl]
  refine ⟨_, built hheld hwf _, ?_, hguard hheld hnone⟩
  rw [Option.isSome_iff_ne_none] at hsome
  simp [hsome]

/-- A file whose segments can be loaded, one of them over the guard page of the stack. -/
def CoversGuard (freeFrames : ℕ) (file : Option (List Byte)) : Prop :=
  ∃ bytes loadable, file = some bytes ∧ elfParse bytes = some loadable ∧
    guardPage ∈ touchedPages loadable ∧ (placesFor (touchedPages loadable)).card ≤ freeFrames

theorem Accounted.after_load (h : Accounted origin root ∅ m.vmm) (hwf : Wf origin.pmm)
    (hroot : root ≠ origin.kernelPml4Phys) (hempty : ∀ p < userPages, contents m root p = none)
    (file : Option (List Byte)) :
    ∃ held, Accounted origin root held (elfLoadBinary m root file).2.vmm ∧
      (held = ∅ ↔ ¬CoversGuard origin.pmm.freeFrames file) ∧
      ((elfLoadBinary m root file).1.isSome →
        contents (elfLoadBinary m root file).2 root guardPage = none) := by
  have hpos := h.tree.root_pos
  have halign := h.tree.root_aligned
  unfold elfLoadBinary
  rw [if_neg (by simp [hpos, halign])]
  cases file with
  | none =>
    refine ⟨∅, h, ?_, by simp⟩
    simp [CoversGuard]
  | some bytes =>
    dsimp only
    cases hparse : elfParse bytes with
    | none =>
      refine ⟨∅, h, ?_, by simp⟩
      simp [CoversGuard, hparse]
    | some loadable =>
      obtain ⟨-, hfits, -⟩ := elfParse_spec hparse
      have hcovers : CoversGuard origin.pmm.freeFrames (some bytes) ↔
          guardPage ∈ touchedPages loadable ∧
            (placesFor (touchedPages loadable)).card ≤ origin.pmm.freeFrames := by
        simp [CoversGuard, hparse]
      rw [hcovers]
      dsimp only
      have hload := loadSegments_outcome h hwf bytes hfits
      generalize untilFailure (loadSegment bytes root) loadable m = result at hload ⊢
      obtain ⟨ok, m'⟩ := result
      rcases hload with ⟨rfl, hm', hshort⟩ | ⟨rfl, hm', hcont⟩
      · -- the frames do not suffice
        have hlacking := hshort (touchedPages loadable) subset_rfl fun p hp hsome => by
          rw [hempty p hp] at hsome
          cases hsome
        refine ⟨∅, hm'.cleared hroot, ?_, by simp⟩
        rw [Short, Finset.card_empty, Nat.zero_add] at hlacking
        simp [hlacking]
      · have hmap (p : ℕ) (hp : p < userPages) :
            (contents m' root p).isSome ↔ p ∈ touchedPages loadable := by
          rw [hcont p hp, hempty p hp, editAll_segmentView_isSome]
          simp
        have hlt (p : ℕ) (hp : p ∈ touchedPages loadable) : p < userPages := by
          obtain ⟨seg, hseg, hp⟩ := mem_touchedPages.mp hp
          exact (hfits seg hseg).touched_lt hp
        have henough := hm'.places_le hwf hlt fun p hp => (hmap p (hlt p hp)).mpr hp
        obtain ⟨held, hheld, hlost, hguard⟩ := imageStack hm' hwf
        have hiff : held = ∅ ↔ ¬(guardPage ∈ touchedPages loadable ∧
            (placesFor (touchedPages loadable)).card ≤ origin.pmm.freeFrames) := by
          rw [hlost, ← hmap guardPage (page_lt guard_lt)]
          simp [henough]
        dsimp only
        rcases hsetup : processSetupUserStack m' root ⟨0, none⟩ with ⟨pointer, m''⟩
        rw [hsetup] at hheld hguard
        cases pointer with
        | none => exact ⟨held, cleared hheld hroot, hiff, by simp⟩
        | some pointer => exact ⟨held, hheld, hiff, hguard⟩

end

/-- The free frames are the same as before: after a failure, or once the address space of the new
program has been destroyed. -/
def Conserves (m : Machine) (file : Option (List Byte)) (args : Arguments) : Prop :=
  match processExec m file args with
  | (none, m') => freeAddresses m'.vmm.pmm = freeAddresses m.vmm.pmm
  | (some program, m') =>
    freeAddresses (destroySpace m' program.root).vmm.pmm = freeAddresses m.vmm.pmm

lemma Accounted.destroyed {origin : VmmState} {root : ℕ} {held : Finset ℕ} {m : Machine}
    (h : Accounted origin root held m.vmm) (hroot : root ≠ origin.kernelPml4Phys) :
    freeAddresses (destroySpace m root).vmm.pmm = freeAddresses origin.pmm ↔ held = ∅ := by
  obtain ⟨hunion, hdisj, -⟩ := h.tree.destroy hroot
  constructor
  · intro hsame
    have hsub : (↑held : Set ℕ) ⊆ freeAddresses (destroySpace m root).vmm.pmm := by
      rw [hsame, ← hunion]
      exact Set.subset_union_right
    exact Finset.coe_eq_empty.mp (disjoint_self.mp (hdisj.mono_left hsub))
  rintro rfl
  rw [Finset.coe_empty, Set.union_empty] at hunion
  exact hunion

lemma created_contents {s : VmmState} (hwf : Wf s.pmm) (hroot : (vmmCreateAddressSpace s).1 ≠ 0)
    (data : ℕ → PageBytes) {p : ℕ} (hp : p < userPages) :
    contents ⟨(vmmCreateAddressSpace s).2, data⟩ (vmmCreateAddressSpace s).1 p = none := by
  have hdepth : 3 ≤ 4 ∧ 4 ≤ 4 := by norm_num
  obtain ⟨-, hzero⟩ := vmmCreateAddressSpace_tree hwf hdepth hroot
  have hpath := userPath_pathOf (address_lt hp)
  have hlen := length_pathOf (p * pageSize)
  rw [contents, pagesOf, hzero _ hpath (List.ne_nil_of_length_pos (by omega))]
  rfl

lemma created_zero {s : VmmState} (hwf : Wf s.pmm) (hroot : (vmmCreateAddressSpace s).1 = 0)
    (hinit : s.initialized = true) : s.pmm.freeFrames = 0 := by
  rw [hwf.free_count, Finset.card_eq_zero, Finset.eq_empty_iff_forall_notMem]
  intro n hn
  refine pmmAllocateFrame_exhausted hwf ?_ n (hwf.mem_freeSet.mp hn)
  rw [vmmCreateAddressSpace, if_neg (by simp [hinit])] at hroot
  dsimp only at hroot
  split_ifs at hroot with hzero
  · exact hzero
  · exact absurd hroot hzero

lemma not_coversGuard_zero (file : Option (List Byte)) : ¬CoversGuard 0 file := by
  rintro ⟨bytes, loadable, -, -, hguard, hcard⟩
  rw [Nat.le_zero, Finset.card_eq_zero] at hcard
  have hmem : [] ∈ placesFor (touchedPages loadable) :=
    mem_placesFor.mpr ⟨guardPage, hguard, List.nil_suffix⟩
  rw [hcard] at hmem
  exact Finset.notMem_empty _ hmem

section
variable {m : Machine} (hwf : Wf m.vmm.pmm) (file : Option (List Byte)) (args : Arguments)
include hwf

lemma conserves_of_uncreated (hroot : (vmmCreateAddressSpace m.vmm).1 = 0) :
    Conserves m file args := by
  unfold Conserves processExec
  dsimp only
  rw [if_pos hroot]
  rcases createAddressSpace_cases hwf with hsame | ⟨f, pmm, hcreated, htaken, -⟩
  · rw [hsame]
  · rw [hcreated] at hroot
    exact absurd hroot htaken.pos

lemma conserves_of_created (hkernel : m.vmm.kernelPml4Phys ∉ freeAddresses m.vmm.pmm)
    (hroot : (vmmCreateAddressSpace m.vmm).1 ≠ 0) :
    Conserves m file args ↔ ¬CoversGuard m.vmm.pmm.freeFrames file := by
  have hcreated := create_accounted hwf hroot
  have hne : (vmmCreateAddressSpace m.vmm).1 ≠ m.vmm.kernelPml4Phys := fun heq =>
    hkernel (heq ▸ created_root_free hwf hroot)
  obtain ⟨held, hheld, hlost, hguard⟩ := Accounted.after_load
    (m := { m with vmm := (vmmCreateAddressSpace m.vmm).2 }) hcreated hwf hne
    (fun p hp => created_contents hwf hroot m.data hp) file
  unfold Conserves processExec
  dsimp only
  rw [if_neg hroot, ← hlost]
  generalize (vmmCreateAddressSpace m.vmm).1 = root at *
  generalize elfLoadBinary _ root file = result at hheld hguard ⊢
  obtain ⟨image, m'⟩ := result
  cases image with
  | none => exact Accounted.destroyed hheld hne
  | some image =>
    have hargs := Accounted.after_setup hheld hwf (hguard rfl) args
    dsimp only
    generalize processSetupUserStack m' root args = result at hargs ⊢
    obtain ⟨pointer, m''⟩ := result
    cases pointer with
    | none => exact Accounted.destroyed hargs hne
    | some pointer => exact Accounted.destroyed hargs hne

end

/-- Frames are conserved unless a program is loaded over the guard page of its stack. -/
theorem exec_conserves_frames (m : Machine) (hwf : Wf m.vmm.pmm)
    (hkernel : m.vmm.kernelPml4Phys ∉ freeAddresses m.vmm.pmm) (file : Option (List Byte))
    (args : Arguments) :
    Conserves m file args ↔
      ¬(m.vmm.initialized = true ∧ CoversGuard m.vmm.pmm.freeFrames file) := by
  by_cases hroot : (vmmCreateAddressSpace m.vmm).1 = 0
  · refine iff_of_true (conserves_of_uncreated hwf file args hroot) ?_
    rintro ⟨hinitialized, hcovers⟩
    rw [created_zero hwf hroot hinitialized] at hcovers
    exact not_coversGuard_zero file hcovers
  have hinitialized : m.vmm.initialized = true := by
    rcases createAddressSpace_cases hwf with hsame | ⟨f, pmm, -, -, hinitialized⟩
    · exact absurd (by rw [hsame]) hroot
    · exact hinitialized
  rw [conserves_of_created hwf file args hkernel hroot, hinitialized]
  simp

def sampleMachine : Machine := ⟨sampleState, fun _ _ => 0⟩

def smallProgram : List Byte := elfFile imageBase [⟨ptLoad, 5, 120, imageBase, 2, 2, 0⟩] [1, 2]

def guardProgram : List Byte :=
  elfFile userStackGuardPage [⟨ptLoad, 5, 0, userStackGuardPage, 0, 16, 0⟩] []

theorem exec_conserves_frames_small : Conserves sampleMachine (some smallProgram) ⟨0, none⟩ := by
  rw [exec_conserves_frames sampleMachine sampleState_wf sampleState_kernel]
  rintro ⟨-, bytes, loadable, hbytes, hparse, hguard, -⟩
  obtain rfl := Option.some.inj hbytes
  have hloadable : elfParse smallProgram = some [⟨ptLoad, 5, 120, imageBase, 2, 2, 0⟩] := by
    decide +kernel
  obtain rfl := Option.some.inj (hparse.symm.trans hloadable)
  revert hguard
  decide +kernel

/-- The frame of a segment at the guard page is lost. -/
theorem guard_segment_loses_frame : ¬Conserves sampleMachine (some guardProgram) ⟨0, none⟩ := by
  have hroot : (vmmCreateAddressSpace sampleMachine.vmm).1 ≠ 0 := by decide +kernel
  rw [conserves_of_created (m := sampleMachine) sampleState_wf _ _ sampleState_kernel hroot,
    not_not]
  refine ⟨guardProgram, [⟨ptLoad, 5, 0, userStackGuardPage, 0, 16, 0⟩], rfl, by decide +kernel,
    by decide +kernel, ?_⟩
  decide +kernel

end KosKernel.Elf
