import KosKernel.VmmKernelTree
import KosKernel.VmmRefinement
import KosKernel.VmmTeardown

/-! A new address space copies the kernel half of the top-level table by value. When the
copies stay equal to the original, and when they do not. -/
namespace KosKernel.Vmm
open Pmm RadixTree Runs Finset

inductive KernelCall where
  | create
  | map (virtualAddress physicalAddress : ℕ) (flags : BitVec 64)
  | unmap (virtualAddress : ℕ)
  | destroy (root : ℕ)
  deriving DecidableEq

/-- The machine and the top-level tables of the processes. -/
structure Processes where
  state : VmmState
  live : Finset ℕ

def Processes.step (x : Processes) : KernelCall → Processes
  | .create =>
    match vmmCreateAddressSpace x.state with
    | (root, s) => if root = 0 then ⟨s, x.live⟩ else ⟨s, insert root x.live⟩
  | .map virtualAddress physicalAddress flags =>
    ⟨(vmmMapPage x.state virtualAddress physicalAddress flags).2, x.live⟩
  | .unmap virtualAddress => ⟨(vmmUnmapPage x.state virtualAddress).2, x.live⟩
  | .destroy root =>
    if root ∈ x.live then ⟨vmmDestroyAddressSpace x.state root, x.live.erase root⟩ else x

def KernelAddress (virtualAddress : ℕ) : Prop :=
  kernelBase ≤ virtualAddress ∧ virtualAddress < 2 ^ 64

def KernelCall.Valid : KernelCall → Prop
  | .map virtualAddress _ _ | .unmap virtualAddress => KernelAddress virtualAddress
  | _ => True

/-- While there is a process, a page is mapped only where the top-level entry is present, and
no unmap takes the last page below a top-level table of the VMM. -/
def KernelCall.KeepsTopLevel (x : Processes) : KernelCall → Prop
  | .map virtualAddress _ _ => x.live = ∅ ∨
    has (x.state.mem x.state.kernelPml4Phys (pageTableIndex virtualAddress 39)) pagePresent = true
  | .unmap virtualAddress => x.live = ∅ ∨
    clearsEntry x.state.mem (walkIndices virtualAddress) x.state.kernelPml4Phys = false
  | _ => True

/-- The kernel half of each process is the one of the kernel, and its user half is empty. -/
structure Processes.Shared (root : ℕ) (x : Processes) : Prop where
  half : KernelHalf root ↑x.live x.state
  address : ∀ a ∈ x.live, a ≠ 0 ∧ a % pageSize = 0
  user_zero : ∀ a ∈ x.live, ∀ i < 256, x.state.mem a i = 0#64
  kernel_eq : ∀ a ∈ x.live, ∀ i, 256 ≤ i → i < 512 → x.state.mem a i = x.state.mem root i

lemma kernelPath_pathOf {va : ℕ} (h : KernelAddress va) :
    KernelPath (pathOf va) := by
  obtain ⟨hlow, hhigh⟩ := h
  rw [pathOf_eq]
  simp only [HalfPath, pageTableIndex]
  unfold kernelBase at hlow
  refine ⟨Nat.mod_lt _ (by norm_num), Nat.mod_lt _ (by norm_num), Nat.mod_lt _ (by norm_num), ?_⟩
  omega

section
/-- Translation depends on the top-level table only through one entry. -/
lemma vmmQueryPageIn_congr {s : VmmState} {a b v : ℕ} (ha : a ≠ 0 ∧ a % pageSize = 0)
    (hb : b ≠ 0 ∧ b % pageSize = 0)
    (hentry : s.mem a (pageTableIndex v 39) = s.mem b (pageTableIndex v 39)) :
    vmmQueryPageIn s a v = vmmQueryPageIn s b v := by
  unfold vmmQueryPageIn
  simp only [ha.1, ha.2, hb.1, hb.2, hentry]

lemma Processes.Shared.query_eq {root : ℕ} {x : Processes} (h : x.Shared root) {a v : ℕ}
    (ha : a ∈ x.live) (hv : KernelAddress v) :
    vmmQueryPageIn x.state a v = vmmQueryPageIn x.state root v := by
  have hindex : 256 ≤ pageTableIndex v 39 ∧ pageTableIndex v 39 < 512 :=
    (kernelPath_pathOf hv).tail.tail.tail
  exact vmmQueryPageIn_congr (h.address a ha) ⟨h.half.root_pos, h.half.root_aligned⟩
    (h.kernel_eq a ha _ hindex.1 hindex.2)

end

section
variable {root : ℕ} {x : Processes}

variable {s' s : VmmState} {a : ℕ}

section
variable (h : x.Shared root)
include h

lemma Processes.Shared.keep (h' : KernelHalf root ↑x.live s')
    (hlive : ∀ a ∈ x.live, s'.mem a = x.state.mem a)
    (hroot : x.live = ∅ ∨ s'.mem root = x.state.mem root) : Shared root ⟨s', x.live⟩ := by
  refine ⟨h', h.address, fun a ha i hi => ?_, fun a ha i hlo hhi => ?_⟩
  · rw [show (Processes.mk s' x.live).state.mem a = s'.mem a from rfl, hlive a ha]
    exact h.user_zero a ha i hi
  rcases hroot with hempty | hroot
  · have ha' : a ∈ x.live := ha
    simp [hempty] at ha'
  · rw [show (Processes.mk s' x.live).state.mem = s'.mem from rfl, hlive a ha, hroot]
    exact h.kernel_eq a ha i hlo hhi

lemma Processes.Shared.map {v : ℕ} {flags : BitVec 64} (hv : KernelAddress v)
    (hkeep : (KernelCall.map v a flags).KeepsTopLevel x) :
    (x.step (.map v a flags)).Shared root := by
  have hlow : userLimit ≤ v := le_trans (by decide) hv.1
  simp only [Processes.step, vmmMapPage, vmmMapPageIn_eq_mapWalk, h.half.root_eq]
  split_ifs with hargs hinit
  · exact h
  · exact h
  have hflags : has flags vmmPageUser = false := by
    simp only [mapArgumentsValid, hlow, Bool.not_eq_false, Bool.and_eq_true] at hargs
    simpa [hlow] using hargs.1.2
  have hD := kernelPath_pathOf hv
  obtain ⟨h', hw⟩ := h.half.mapWalk hlow hflags a [_, _, _] hD rfl h.half.frameAt_root
  refine h.keep h' (fun b hb => hw.mem b (h.half.live_outside hb)) ?_
  rcases hkeep with hempty | hpresent
  · exact .inl hempty
  rw [h.half.root_eq] at hpresent
  have hw1 := h.half.mapWalk_present hlow hflags a [_, _] (p := []) hD rfl
    h.half.frameAt_root hpresent
  exact .inr (hw1.mem root (h.half.above (q := []) trivial (by simp) (by simp)
    h.half.frameAt_root))

lemma Processes.Shared.unmap {v : ℕ} (hv : KernelAddress v)
    (hkeep : (KernelCall.unmap v).KeepsTopLevel x) : (x.step (.unmap v)).Shared root := by
  simp only [Processes.step, vmmUnmapPage, vmmUnmapPageIn_eq_unmapWalk, h.half.root_eq]
  split_ifs with hargs
  · exact h
  rcases h.half.unmapWalk [_, _, _] (kernelPath_pathOf hv) rfl h.half.frameAt_root with
    hnone | ⟨a, releasing, s', hwalk, hu⟩
  · rw [walkIndices, hnone]
    exact h
  rw [walkIndices, hwalk]
  refine h.keep hu.half (fun b hb => hu.within.mem b (h.half.live_outside hb)) ?_
  rcases hkeep with hempty | hkept
  · exact .inl hempty
  rw [h.half.root_eq] at hkept
  refine .inr (funext fun j => ?_)
  by_cases hj : j = pageTableIndex v 39
  · rw [hj]
    exact (hu.keeps hkept).2
  · exact hu.beside j hj

lemma Processes.Shared.create : (x.step .create).Shared root := by
  rcases createAddressSpace_cases h.half.wf with hnone | ⟨f, pmm', heq, hf, -⟩
  · simpa [Processes.step, hnone] using h
  simp only [Processes.step, heq, hf.pos, if_false]
  set s' := withRoot x.state f pmm'
  have hmem : ∀ a, a ≠ f → s'.mem a = x.state.mem a := fun a ha => Function.update_of_ne ha _ _
  have hnew : s'.mem f = fun index => if index < 256 then 0#64
      else if index < 512 then x.state.mem x.state.kernelPml4Phys index else x.state.mem f index :=
    Function.update_self _ _ _
  have hrootf : root ≠ f := by
    intro heq
    exact h.half.apart.disjoint [] root trivial (by simp) h.half.frameAt_root
      (.inl (heq ▸ hf.wasFree))
  have hlivef : ∀ a ∈ x.live, a ≠ f := by
    intro a ha heq
    exact h.half.live_allocated a ha (heq ▸ hf.wasFree)
  have hframe : ∀ r, KernelPath r → r.length ≤ 3 → frameAt s' root r = frameAt x.state root r := by
    intro r hr hlen
    unfold frameAt entryAt
    rw [slot_congr (n := 3) (fun i p => HalfPath.tail) (fun p t hp hplen ht i _ => ?_) r hr
      (by omega)]
    have htf : t ≠ f := by
      intro heq
      exact h.half.apart.disjoint p t hp hplen ht (.inl (heq ▸ hf.wasFree))
    rw [hmem t htf]
  have hpool : freeAddresses s'.pmm ∪ ↑(insert f x.live) = freeAddresses x.state.pmm ∪ ↑x.live := by
    rw [show s'.pmm = pmm' from rfl, hf.free_eq, coe_insert, Set.union_insert,
      ← Set.insert_union, Set.insert_sdiff_singleton, Set.insert_eq_of_mem hf.wasFree]
  refine ⟨⟨h.half.root_eq, h.half.root_aligned, h.half.root_pos, h.half.root_lt, hf.wf, ?_, ?_⟩,
    ?_, ?_, ?_⟩
  · intro a ha hfree
    rw [show s'.pmm = pmm' from rfl, hf.free_eq] at hfree
    rcases mem_insert.mp ha with rfl | ha
    · exact hfree.2 rfl
    · exact h.half.live_allocated a ha hfree.1
  · rw [hpool]
    exact h.half.apart.congr hframe
  · intro a ha
    rcases mem_insert.mp ha with rfl | ha
    · exact ⟨hf.pos, hf.wasFree.1⟩
    · exact h.address a ha
  · intro a ha i hi
    rcases mem_insert.mp ha with rfl | ha
    · simp [hnew, hi]
    · rw [show (Processes.mk s' (insert f x.live)).state = s' from rfl, hmem a (hlivef a ha)]
      exact h.user_zero a ha i hi
  intro a ha i hlo hhi
  rw [show (Processes.mk s' (insert f x.live)).state = s' from rfl, hmem root hrootf]
  rcases mem_insert.mp ha with rfl | ha
  · simp [hnew, Nat.not_lt.mpr hlo, hhi, h.half.root_eq]
  · rw [hmem a (hlivef a ha)]
    exact h.kernel_eq a ha i hlo hhi

end

lemma clearEntries_absent (visit : VmmState → BitVec 64 → VmmState) {t : ℕ} (n : ℕ)
    (h : ∀ i < n, has (s.mem t i) pagePresent = false) : clearEntries visit t n s = s := by
  induction n with
  | zero => rfl
  | succ n ih =>
    rw [clearEntries_succ, ih fun i hi => h i (by omega), clearEntry, if_pos (h n (by omega))]

/-- The parts of the state that taking down an empty user half leaves alone. -/
structure SameTables (s s' : VmmState) : Prop where
  mem : s'.mem = s.mem
  kernel : s'.kernelPml4Phys = s.kernelPml4Phys
  pmm : s'.pmm = s.pmm

lemma SameTables.leave (h : SameTables s s') (a : ℕ) : SameTables s (leaveAddressSpace s' a) := by
  unfold leaveAddressSpace
  split_ifs
  · exact ⟨h.mem, h.kernel, h.pmm⟩
  · exact h

lemma SameTables.clearUser (h : SameTables s s') (hzero : ∀ i < 256, s.mem a i = 0#64) :
    SameTables s (vmmClearUserAddressSpace s' a) := by
  have hclear : clearPml4 a s' = s' := by
    refine clearEntries_absent _ 256 fun i hi => ?_
    rw [h.mem, hzero i hi]
    decide
  unfold vmmClearUserAddressSpace
  split_ifs
  · exact h
  · exact h
  · rw [hclear]
    exact h.leave a

lemma destroy_cases (hwf : Wf s.pmm) (hzero : ∀ i < 256, s.mem a i = 0#64) :
    (vmmDestroyAddressSpace s a).mem = s.mem ∧
      (vmmDestroyAddressSpace s a).kernelPml4Phys = s.kernelPml4Phys ∧
      Wf (vmmDestroyAddressSpace s a).pmm ∧
      freeAddresses (vmmDestroyAddressSpace s a).pmm ⊆ insert a (freeAddresses s.pmm) := by
  unfold vmmDestroyAddressSpace
  split_ifs
  · exact ⟨rfl, rfl, hwf, Set.subset_insert _ _⟩
  · exact ⟨rfl, rfl, hwf, Set.subset_insert _ _⟩
  have hself : SameTables s s := ⟨rfl, rfl, rfl⟩
  have hsame := (hself.leave a).clearUser hzero
  refine ⟨hsame.mem, hsame.kernel, ?_⟩
  simp only [pmmFree, hsame.pmm]
  rcases freeFrame_cases hwf a with ⟨heq, -⟩ | ⟨pmm', heq, hr⟩
  · rw [heq]
    exact ⟨hwf, Set.subset_insert _ _⟩
  · rw [heq]
    exact ⟨hr.wf, hr.free_eq.subset⟩

lemma Processes.Shared.destroy (h : x.Shared root) (a : ℕ) : (x.step (.destroy a)).Shared root := by
  by_cases ha : a ∈ x.live
  swap
  · simpa [Processes.step, ha] using h
  simp only [Processes.step, ha, if_true]
  obtain ⟨hmem, hkernel, hwf, hfree⟩ := destroy_cases h.half.wf (h.user_zero a ha)
  set s' := vmmDestroyAddressSpace x.state a
  have hsub : ∀ b ∈ x.live.erase a, b ∈ x.live := fun b hb => mem_of_mem_erase hb
  have hframe : frameAt s' root = frameAt x.state root := by
    unfold frameAt entryAt
    rw [hmem]
  refine ⟨⟨hkernel.trans h.half.root_eq, h.half.root_aligned, h.half.root_pos, h.half.root_lt, hwf,
    ?_, ?_⟩, fun b hb => h.address b (hsub b hb), ?_, ?_⟩
  · intro b hb hbfree
    rcases hfree hbfree with rfl | hbfree
    · exact absurd hb (notMem_erase _ _)
    · exact h.half.live_allocated b (hsub b hb) hbfree
  · rw [hframe]
    refine ⟨h.half.apart.distinct, fun p b hp hlen hpb hpool => ?_⟩
    refine h.half.apart.disjoint p b hp hlen hpb ?_
    rcases hpool with hpool | hpool
    · rcases hfree hpool with rfl | hpool
      · exact .inr ha
      · exact .inl hpool
    · exact .inr (hsub b hpool)
  · intro b hb i hi
    rw [show (Processes.mk s' (x.live.erase a)).state.mem = x.state.mem from hmem]
    exact h.user_zero b (hsub b hb) i hi
  intro b hb i hlo hhi
  rw [show (Processes.mk s' (x.live.erase a)).state.mem = x.state.mem from hmem]
  exact h.kernel_eq b (hsub b hb) i hlo hhi

lemma Processes.Shared.step (h : x.Shared root) {call : KernelCall} (hvalid : call.Valid)
    (hkeep : call.KeepsTopLevel x) : (x.step call).Shared root := by
  cases call with
  | create => exact h.create
  | map v a flags => exact h.map hvalid hkeep
  | unmap v => exact h.unmap hvalid hkeep
  | destroy a => exact h.destroy a

end

/-- The kernel's tables as the boot loader leaves them, before there is any process. -/
def Booted (s : VmmState) : Prop := KernelHalf s.kernelPml4Phys ∅ s

lemma booted_shared {s : VmmState} (h : Booted s) : Processes.Shared s.kernelPml4Phys ⟨s, ∅⟩ := by
  refine ⟨?_, ?_, ?_, ?_⟩
  · rw [coe_empty]
    exact h
  all_goals
    intro a ha
    exact absurd ha (notMem_empty a)

/-- As long as no kernel map makes a top-level table and no kernel unmap releases one while there
are processes, every kernel address translates in each of them as in the kernel. -/
theorem kernel_half_shared (s : VmmState) (hboot : Booted s) (calls : List KernelCall)
    (hcalls : Along Processes.step (fun x call => call.Valid ∧ call.KeepsTopLevel x) ⟨s, ∅⟩ calls) :
    let x := run Processes.step ⟨s, ∅⟩ calls
    ∀ a ∈ x.live, ∀ v, KernelAddress v →
      vmmQueryPageIn x.state a v = vmmQueryPageIn x.state x.state.kernelPml4Phys v := by
  intro x a ha v hv
  have h : x.Shared s.kernelPml4Phys :=
    run_invariant (fun x call hx hcond => hx.step hcond.1 hcond.2) (booted_shared hboot) calls hcalls
  rw [h.half.root_eq]
  exact h.query_eq ha hv

lemma sampleState_booted : Booted sampleState := by
  have hroot : frameAt sampleState sampleState.kernelPml4Phys [] = some 65536 := by decide
  have hnil : ∀ p a, frameAt sampleState sampleState.kernelPml4Phys p = some a →
      p = [] ∧ a = 65536 := by
    intro p a ha
    cases p with
    | nil => exact ⟨rfl, Option.some.inj (ha.symm.trans hroot)⟩
    | cons i p =>
      have hzero : entryAt sampleState sampleState.kernelPml4Phys (i :: p) = 0#64 := by
        unfold entryAt slot
        split <;> rfl
      rw [frameAt, hzero, pageNext_zero] at ha
      cases ha
  refine ⟨rfl, by decide, by decide, by decide, sampleState_wf, by simp, ⟨?_, ?_⟩⟩
  · intro p q a _ _ _ _ hp hq
    rw [(hnil p a hp).1, (hnil q a hq).1]
  intro p a _ _ hp
  rw [(hnil p a hp).2, Set.union_empty]
  exact sampleState_kernel

/-- The second page lies below the top-level table that the first one made. -/
def sampleKernelCalls : List KernelCall :=
  [.map 0xffff900000000000 0x5000 vmmPageWritable, .create, .map 0xffff900000001000 0x6000 0#64]

theorem kernel_half_shared_sample :
    vmmQueryPageIn (run Processes.step ⟨sampleState, ∅⟩ sampleKernelCalls).state 16384
        0xffff900000001234 =
      vmmQueryPageIn (run Processes.step ⟨sampleState, ∅⟩ sampleKernelCalls).state
        (run Processes.step ⟨sampleState, ∅⟩ sampleKernelCalls).state.kernelPml4Phys
        0xffff900000001234 := by
  have hcalls : Along Processes.step (fun x call => call.Valid ∧ call.KeepsTopLevel x)
      ⟨sampleState, ∅⟩ sampleKernelCalls := by
    refine ⟨⟨⟨by decide, by decide⟩, .inl rfl⟩, ⟨trivial, trivial⟩,
      ⟨⟨by decide, by decide⟩, .inr ?_⟩, trivial⟩
    decide +kernel
  have hlive : (run Processes.step ⟨sampleState, ∅⟩ sampleKernelCalls).live = {16384} := by
    decide +kernel
  have h := kernel_half_shared sampleState sampleState_booted sampleKernelCalls hcalls
  dsimp only at h
  rw [hlive] at h
  exact h 16384 (mem_singleton_self 16384) 0xffff900000001234 ⟨by decide, by decide⟩

/-- A page that is mapped in the kernel after the process was created, where there was no
top-level table, is not mapped in the process. -/
theorem kernel_half_diverges :
    Booted sampleState ∧
    let x := run Processes.step ⟨sampleState, ∅⟩
      [.create, .map 0xffff900000000000 0x5000 vmmPageWritable]
    4096 ∈ x.live ∧ vmmQueryPageIn x.state 4096 0xffff900000000000 = none ∧
      vmmQueryPageIn x.state x.state.kernelPml4Phys 0xffff900000000000 ≠ none := by
  refine ⟨sampleState_booted, ?_, ?_, ?_⟩
  · decide +kernel
  · decide +kernel
  · decide +kernel

end KosKernel.Vmm
