import KosKernel.VmmRefinement
import KosKernel.VmmTeardown

/-! The frames of an address space over its whole life: its owner gets frames from the
allocator, maps and unmaps them, and destroys the address space. -/
namespace KosKernel.Vmm
open Pmm

inductive OwnerCall where
  | allocate
  | map (virtualAddress frame : ℕ) (flags : BitVec 64)
  | unmap (virtualAddress : ℕ)
  | discard (frame : ℕ)
  deriving DecidableEq

def OwnerCall.Valid : OwnerCall → Prop
  | .map virtualAddress _ _ | .unmap virtualAddress => virtualAddress < userLimit
  | _ => True

/-- The machine and the frames that the owner got and has neither mapped nor freed. -/
structure Owner where
  state : VmmState
  held : Finset ℕ

open Owner

def Owner.create (s : VmmState) : Owner := ⟨(vmmCreateAddressSpace s).2, ∅⟩

/-- A frame is mapped only by its holder, who frees it if the map is refused; a frame that an
unmap returns is freed, too. -/
def Owner.step (root : ℕ) (x : Owner) : OwnerCall → Owner
  | .allocate =>
    match pmmAllocateFrame x.state.pmm with
    | (frame, pmm) =>
      if frame = 0 then ⟨{ x.state with pmm }, x.held⟩
      else ⟨{ x.state with pmm }, insert frame x.held⟩
  | .map virtualAddress frame flags =>
    if frame ∈ x.held then
      match vmmMapPageIn x.state root virtualAddress frame flags with
      | (true, s) => ⟨s, x.held.erase frame⟩
      | (false, s) => ⟨(pmmFree s frame).2, x.held.erase frame⟩
    else x
  | .unmap virtualAddress =>
    match vmmUnmapPageIn x.state root virtualAddress with
    | (frame, s) => if frame = 0 then ⟨s, x.held⟩ else ⟨(pmmFree s frame).2, x.held⟩
  | .discard frame => if frame ∈ x.held then ⟨(pmmFree x.state frame).2, x.held.erase frame⟩ else x

def Owner.run (root : ℕ) (x : Owner) (calls : List OwnerCall) : Owner :=
  calls.foldl (Owner.step root) x

/-- Each frame is with the allocator, with the owner, or at one place of the tree. -/
structure Owner.Accounted (origin : VmmState) (root : ℕ) (x : Owner) : Prop where
  tree : UserTree origin root 4 ↑x.held x.state
  full : NoEmptyTable x.state root

section
variable {held : Set ℕ} {root depth a : ℕ} {origin s : VmmState} {pmm' : PhysicalMemoryManager}

section
variable (h : UserTree origin root depth held s)
include h

lemma UserTree.reassign {held' : Set ℕ} {s' : VmmState} (hmem : s'.mem = s.mem)
    (hinit : s'.initialized = s.initialized) (hkernel : s'.kernelPml4Phys = s.kernelPml4Phys)
    (hfreed : failedFrees s' = failedFrees s) (hwf : Wf s'.pmm)
    (husable : ∀ b, UsableAddress s'.pmm b ↔ UsableAddress s.pmm b)
    (hheld : ∀ b ∈ held', b ∉ freeAddresses s'.pmm)
    (hpool : freeAddresses s'.pmm ∪ held' = freeAddresses s.pmm ∪ held) :
    UserTree origin root depth held' s' := by
  have hentry : entryAt s' root = entryAt s root := by
    unfold entryAt
    rw [hmem]
  have hframe : frameAt s' root = frameAt s root := by
    unfold frameAt
    rw [hentry]
  refine ⟨h.depth_range, hinit.trans h.initialized, h.root_aligned, h.root_pos, h.root_lt, hwf,
    fun b hb => ⟨(husable b).mpr (h.frames b hb).1, (h.frames b hb).2⟩, hheld, ?_, ?_, ?_, ?_,
    hkernel.trans h.kernel_eq, hfreed.trans h.freed_once⟩
  · rw [hframe, hpool]
    exact h.apart
  · rw [hframe, hpool]
    exact h.covers
  · rw [hentry]
    exact h.tables
  · rw [hentry]
    exact h.leaves

lemma UserTree.take (ht : FrameTaken s.pmm a pmm') :
    UserTree origin root depth (insert a held) { s with pmm := pmm' } := by
  refine h.reassign rfl rfl rfl rfl ht.wf ht.usable_iff (fun b hb hfree => ?_) ?_
  · rw [show ({ s with pmm := pmm' } : VmmState).pmm = pmm' from rfl, ht.free_eq] at hfree
    rcases hb with rfl | hb
    · exact hfree.2 rfl
    · exact h.held_allocated b hb hfree.1
  · rw [show ({ s with pmm := pmm' } : VmmState).pmm = pmm' from rfl, ht.free_eq, Set.union_insert,
      ← Set.insert_union, Set.insert_sdiff_singleton, Set.insert_eq_of_mem ht.wasFree]

lemma UserTree.giveBack (ha : a ∈ held) :
    UserTree origin root depth (held \ {a}) (pmmFree s a).2 := by
  obtain ⟨husable, hpos⟩ := h.frames a ((h.covers a).mpr (.inl (.inr ha)))
  obtain ⟨pmm', heq, hr⟩ := freeFrame_success h.wf hpos husable (h.held_allocated a ha)
  have hstate : (pmmFree s a).2 = { s with pmm := pmm', freed := (a, true) :: s.freed } := by
    simp [pmmFree, heq]
  rw [hstate]
  refine h.reassign rfl rfl rfl rfl hr.wf hr.usable_iff (fun b hb hfree => ?_) ?_
  · rw [hr.free_eq] at hfree
    rcases hfree with rfl | hfree
    · exact hb.2 rfl
    · exact h.held_allocated b hb.1 hfree
  · rw [hr.free_eq, Set.insert_union, ← Set.union_insert, Set.insert_sdiff_singleton,
      Set.insert_eq_of_mem ha]

end

lemma NoEmptyTable.pmmFree (h : NoEmptyTable s root) (a : ℕ) : NoEmptyTable (pmmFree s a).2 root := h

end

section
variable {origin : VmmState} {root : ℕ} {x : Owner}

lemma UserTree.held_address {held : Set ℕ} {depth a : ℕ} {s : VmmState}
    (h : UserTree origin root depth held s) (ha : a ∈ held) : a % pageSize = 0 ∧ a < 2 ^ 52 := by
  obtain ⟨husable, -⟩ := h.frames a ((h.covers a).mpr (.inl (.inr ha)))
  have htracked := h.wf.usable_tracked husable.2
  rw [maxTrackedFrames_eq] at htracked
  have halign := husable.1
  unfold pageSize at *
  omega

section
variable (h : x.Accounted origin root)
include h

lemma Owner.Accounted.allocate : (x.step root .allocate).Accounted origin root := by
  rcases allocateFrame_cases h.tree.wf with hnone | ⟨a, pmm', heq, ht⟩
  · simpa [step, hnone] using h
  have hstep : x.step root .allocate = ⟨{ x.state with pmm := pmm' }, insert a x.held⟩ := by
    simp [step, heq, ht.pos]
  rw [hstep]
  refine ⟨?_, h.full⟩
  rw [Finset.coe_insert]
  exact h.tree.take ht

lemma Owner.Accounted.free {a : ℕ} (ha : a ∈ x.held) :
    Owner.Accounted origin root ⟨(pmmFree x.state a).2, x.held.erase a⟩ := by
  refine ⟨?_, h.full.pmmFree a⟩
  rw [Finset.coe_erase]
  exact h.tree.giveBack ha

lemma Owner.Accounted.map {v a : ℕ} {flags : BitVec 64} (hv : v < userLimit) :
    (x.step root (.map v a flags)).Accounted origin root := by
  by_cases ha : a ∈ x.held
  swap
  · simpa [step, ha] using h
  obtain ⟨hphys, hlt⟩ := h.tree.held_address ha
  by_cases halign : v % pageSize = 0
  · rcases h.tree.vmmMapPageIn_cases hv halign hphys hlt flags (.inr ⟨rfl, ha, rfl⟩) with
      ⟨s', heq, htree, hsame⟩ | ⟨s', heq, -, htree, hmap⟩
    · simp only [step, ha, if_true, heq]
      have hkept : Owner.Accounted origin root ⟨s', x.held⟩ := ⟨htree, hsame.noEmptyTable h.full⟩
      exact hkept.free ha
    simp only [step, ha, if_true, heq]
    refine ⟨?_, hmap.noEmptyTable h.full⟩
    rw [Finset.coe_erase]
    exact htree
  · have heq : vmmMapPageIn x.state root v a flags = (false, x.state) := by
      rw [vmmMapPageIn, if_pos (by simp [mapArgumentsValid, halign])]
    simp only [step, ha, if_true, heq]
    exact h.free ha

lemma Owner.Accounted.unmap {v : ℕ} (hv : v < userLimit) :
    (x.step root (.unmap v)).Accounted origin root := by
  by_cases halign : v % pageSize = 0
  swap
  · have heq : vmmUnmapPageIn x.state root v = (0, x.state) := by
      rw [vmmUnmapPageIn, if_pos (.inl halign)]
    simpa [step, heq] using h
  rcases h.tree.vmmUnmapPageIn_cases hv halign h.full (.inr ⟨rfl, rfl⟩) with
    ⟨heq, -⟩ | ⟨s', heq, hne, htree, -, hfull⟩
  · simpa [step, heq] using h
  -- the frame passes through the owner's hands on its way to the allocator
  have hframe := (h.tree.frameAt_of_ne_zero (userPath_pathOf hv) (length_pathOf v).le hne).2
  obtain ⟨-, hpos, -, hheld⟩ := h.tree.frame_allocated (userPath_pathOf hv)
    (length_pathOf v).le hframe
  simp only [step, heq, hpos, if_false]
  refine ⟨?_, hfull.pmmFree _⟩
  have hback := htree.giveBack (Set.mem_insert _ _)
  rwa [Set.insert_sdiff_self_of_notMem hheld] at hback

lemma Owner.Accounted.step {call : OwnerCall} (hcall : call.Valid) :
    (x.step root call).Accounted origin root := by
  cases call with
  | allocate => exact h.allocate
  | map v a flags => exact h.map hcall
  | unmap v => exact h.unmap hcall
  | discard a =>
    by_cases ha : a ∈ x.held
    · simpa [Owner.step, ha] using h.free ha
    · simpa [Owner.step, ha] using h

lemma Owner.Accounted.run (calls : List OwnerCall) (hcalls : ∀ call ∈ calls, call.Valid) :
    (x.run root calls).Accounted origin root :=
  Runs.run_invariant (fun _ _ h hcall => h.step hcall) h calls (Runs.along_of_forall hcalls)

end

lemma create_accounted {s : VmmState} (hwf : Wf s.pmm) (hroot : (vmmCreateAddressSpace s).1 ≠ 0) :
    (create s).Accounted s (vmmCreateAddressSpace s).1 := by
  obtain ⟨htree, hzero⟩ := vmmCreateAddressSpace_tree hwf ⟨by norm_num, le_rfl⟩ hroot
  refine ⟨?_, noEmptyTable_of_zero hzero⟩
  rw [create, Finset.coe_empty]
  exact htree

end

lemma created_root_free {s : VmmState} (hwf : Wf s.pmm) (hroot : (vmmCreateAddressSpace s).1 ≠ 0) :
    (vmmCreateAddressSpace s).1 ∈ freeAddresses s.pmm := by
  have htree := (create_accounted hwf hroot).tree
  exact (htree.covers _).mpr (.inr ⟨[], trivial, by simp, htree.frameAt_root⟩)

/-- From the creation of an address space to its destruction every frame is accounted for: the
free frames at the end are those at the start, but for frames the owner still holds, and no
frame is freed twice. -/
theorem address_space_conserves_frames (s : VmmState) (hwf : Wf s.pmm)
    (hkernel : s.kernelPml4Phys ∉ freeAddresses s.pmm) (hroot : (vmmCreateAddressSpace s).1 ≠ 0)
    (calls : List OwnerCall) (hcalls : ∀ call ∈ calls, call.Valid) :
    let root := (vmmCreateAddressSpace s).1
    let x := (Owner.create s).run root calls
    let s' := vmmDestroyAddressSpace x.state root
    freeAddresses s'.pmm ∪ ↑x.held = freeAddresses s.pmm ∧
      Disjoint (freeAddresses s'.pmm) ↑x.held ∧
      (x.held = ∅ → freeAddresses s'.pmm = freeAddresses s.pmm) ∧
      failedFrees s' = failedFrees s := by
  intro root x s'
  have h : x.Accounted s root := (create_accounted hwf hroot).run calls hcalls
  have hne : root ≠ s.kernelPml4Phys := by
    intro heq
    exact hkernel (heq ▸ created_root_free hwf hroot)
  obtain ⟨hunion, hdisjoint, hfreed⟩ := h.tree.destroy hne
  refine ⟨hunion, hdisjoint, fun hempty => ?_, hfreed⟩
  rw [← hunion, hempty, Finset.coe_empty, Set.union_empty]

theorem address_space_conserves_frames_sample :
    let x := (Owner.create sampleState).run 4096
      [.allocate, .map 8192 8192 vmmPageUser, .allocate, .map 8192 24576 0#64, .unmap 8192]
    x.held = ∅ ∧ freeAddresses (vmmDestroyAddressSpace x.state 4096).pmm =
      freeAddresses sampleState.pmm := by
  intro x
  have hroot : (vmmCreateAddressSpace sampleState).1 = 4096 := by decide +kernel
  have hheld : x.held = ∅ := by decide +kernel
  have h := address_space_conserves_frames sampleState sampleState_wf sampleState_kernel
    (by rw [hroot]; decide)
    [.allocate, .map 8192 8192 vmmPageUser, .allocate, .map 8192 24576 0#64, .unmap 8192]
    (by simp [OwnerCall.Valid, userLimit])
  rw [hroot] at h
  exact ⟨hheld, h.2.2.1 hheld⟩

end KosKernel.Vmm
