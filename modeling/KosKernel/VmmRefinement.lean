import KosKernel.Runs
import KosKernel.VmmUserCalls

/-! The user half of an address space refines a partial map from pages to mappings. -/
namespace KosKernel.Vmm
open Pmm Function

/-- What a mapped page is, whatever tables lead to it. -/
structure Mapping where
  physical : ℕ
  writable : Bool
  user : Bool
  noExecute : Bool
  deriving DecidableEq

def mappingOf (physical : ℕ) (flags : BitVec 64) : Mapping :=
  ⟨physical, has flags vmmPageWritable, has flags vmmPageUser, has flags vmmPageNoExecute⟩

def Mapping.shift (m : Mapping) (offset : ℕ) : Mapping := { m with physical := m.physical + offset }

inductive UserCall where
  | map (virtualAddress physicalAddress : ℕ) (flags : BitVec 64)
  | unmap (virtualAddress : ℕ)
  deriving DecidableEq

/-- Page-aligned user addresses, and page-aligned physical addresses below `2 ^ 52`. -/
def UserCall.Valid : UserCall → Prop
  | .map virtualAddress physicalAddress _ =>
    virtualAddress % pageSize = 0 ∧ virtualAddress < userLimit ∧
      physicalAddress % pageSize = 0 ∧ physicalAddress < 2 ^ 52
  | .unmap virtualAddress => virtualAddress % pageSize = 0 ∧ virtualAddress < userLimit

def UserCall.page : UserCall → ℕ
  | .map virtualAddress _ _ => virtualAddress / pageSize
  | .unmap virtualAddress => virtualAddress / pageSize

/-- The tables in memory beside the partial map they stand for. -/
structure AddressSpace where
  state : VmmState
  pages : ℕ → Option Mapping

open AddressSpace

def AddressSpace.step (root : ℕ) (x : AddressSpace) : UserCall → AddressSpace
  | .map virtualAddress physicalAddress flags =>
    let (mapped, state) := vmmMapPageIn x.state root virtualAddress physicalAddress flags
    if mapped then
      ⟨state, update x.pages (virtualAddress / pageSize)
        (some (mappingOf physicalAddress flags))⟩
    else ⟨state, x.pages⟩
  | .unmap virtualAddress =>
    ⟨(vmmUnmapPageIn x.state root virtualAddress).2,
      update x.pages (virtualAddress / pageSize) none⟩

def AddressSpace.run (root : ℕ) (x : AddressSpace) (calls : List UserCall) : AddressSpace :=
  calls.foldl (AddressSpace.step root) x

def AddressSpace.create (s : VmmState) : AddressSpace :=
  ⟨(vmmCreateAddressSpace s).2, fun _ => none⟩

def entryMapping (entry : BitVec 64) : Option Mapping :=
  if entry = 0#64 then none else some (mappingOf (entryAddress entry) entry)

/-- The tables stand for the partial map. -/
structure AddressSpace.Refines (origin : VmmState) (root : ℕ) (x : AddressSpace) : Prop where
  tree : UserTree origin root 3 ∅ x.state
  full : NoEmptyTable x.state root
  pages_eq : ∀ virtualAddress < userLimit,
    x.pages (virtualAddress / pageSize) = entryMapping (entryAt x.state root (pathOf virtualAddress))

section
variable {origin : VmmState} {root : ℕ} {x : AddressSpace}

variable {flags : BitVec 64}

lemma entryMapping_leafEntry {pa : ℕ} (hphys : pa % pageSize = 0) (hlt : pa < 2 ^ 52)
    (hflags : has flags (~~~permissionBits) = false) :
    entryMapping (leafEntry pa flags) = some (mappingOf pa flags) := by
  have hne := (leafEntry_leaf hphys hlt hflags).ne_zero
  simp only [entryMapping, hne, if_false, mappingOf, entryAddress_leafEntry hphys hlt hflags]
  rw [has_leafEntry_permission hphys hlt hflags (by decide) (by decide) (by decide),
    has_leafEntry_permission hphys hlt hflags (by decide) (by decide) (by decide),
    has_leafEntry_permission hphys hlt hflags (by decide) (by decide) (by decide)]

variable {v : ℕ}

lemma update_pages {pages : ℕ → Option Mapping} {e e' new : BitVec 64} {w : ℕ} {m : Option Mapping}
    (hpages : pages (w / pageSize) = entryMapping e) (hv : v < userLimit) (hw : w < userLimit)
    (hentry : e' = if pathOf w = pathOf v then new else e) (hm : entryMapping new = m) :
    update pages (v / pageSize) m (w / pageSize) = entryMapping e' := by
  rw [hentry]
  by_cases hwv : w / pageSize = v / pageSize
  · rw [if_pos ((pathOf_inj hw hv).mpr hwv), hwv, update_self, hm]
  · rw [if_neg (fun heq => hwv ((pathOf_inj hw hv).mp heq)), update_of_ne hwv, hpages]

lemma length_pathOf (va : ℕ) : (pathOf va).length = 4 := rfl

variable {call : UserCall}

section
variable (h : x.Refines origin root)
include h

lemma AddressSpace.Refines.map_cases {a : ℕ} (hcall : (UserCall.map v a flags).Valid) :
    (∃ s', vmmMapPageIn x.state root v a flags = (false, s') ∧
        AddressSpace.Refines origin root ⟨s', x.pages⟩ ∧ SameEntries x.state s' root) ∨
      ∃ s', vmmMapPageIn x.state root v a flags = (true, s') ∧ x.pages (v / pageSize) = none ∧
        AddressSpace.Refines origin root
          ⟨s', update x.pages (v / pageSize) (some (mappingOf a flags))⟩ ∧
        Mapped x.state s' root (pathOf v) (leafEntry a flags) := by
  obtain ⟨halign, hva, hphys, hlt⟩ := hcall
  rcases h.tree.vmmMapPageIn_cases hva halign hphys hlt flags (.inl ⟨rfl, rfl⟩) with
    ⟨s', heq, htree, hsame⟩ | ⟨s', heq, hflags, htree, hmap⟩
  · refine .inl ⟨s', heq, ⟨htree, hsame.noEmptyTable h.full, fun w hw => ?_⟩, hsame⟩
    rw [hsame _ (userPath_pathOf hw) (length_pathOf w).le]
    exact h.pages_eq w hw
  refine .inr ⟨s', heq, ?_, ⟨htree, hmap.noEmptyTable h.full, fun w hw => ?_⟩, hmap⟩
  · rw [h.pages_eq v hva, hmap.was_free]
    rfl
  exact update_pages (h.pages_eq w hw) hva hw
    (hmap.leaf _ (userPath_pathOf hw) (length_pathOf w))
    (entryMapping_leafEntry hphys hlt hflags)

lemma AddressSpace.Refines.unmap_cases (hcall : (UserCall.unmap v).Valid) :
    (vmmUnmapPageIn x.state root v).1 = ((x.pages (v / pageSize)).map Mapping.physical).getD 0 ∧
      (x.step root (.unmap v)).Refines origin root ∧
      ∀ w < userLimit, w / pageSize ≠ v / pageSize →
        entryAt (vmmUnmapPageIn x.state root v).2 root (pathOf w) =
          entryAt x.state root (pathOf w) := by
  obtain ⟨halign, hva⟩ := hcall
  rcases h.tree.vmmUnmapPageIn_cases hva halign h.full (.inl ⟨rfl, rfl⟩) with
    ⟨heq, hz⟩ | ⟨s', heq, hne, htree, hun, hfull⟩
  · have hnone : x.pages (v / pageSize) = none := by
      rw [h.pages_eq v hva, hz]
      rfl
    refine ⟨by simp [heq, hnone], ?_, fun _ _ _ => by rw [heq]⟩
    have hsame : x.step root (.unmap v) = x := by
      simp only [step, heq]
      rw [← hnone, update_eq_self]
    rwa [hsame]
  · refine ⟨?_, ?_, fun w hw hwv => ?_⟩
    · rw [heq, h.pages_eq v hva, entryMapping, if_neg hne]
      rfl
    · simp only [step, heq]
      refine ⟨htree, hfull, fun w hw => ?_⟩
      exact update_pages (h.pages_eq w hw) hva hw
        (hun.leaf _ (userPath_pathOf hw) (length_pathOf w)) rfl
    · rw [heq, hun.leaf _ (userPath_pathOf hw) (length_pathOf w),
        if_neg (fun hpath => hwv ((pathOf_inj hw hva).mp hpath))]

lemma AddressSpace.Refines.step (hcall : call.Valid) : (x.step root call).Refines origin root := by
  cases call with
  | map v a flags =>
    rcases h.map_cases hcall with ⟨s', heq, href, -⟩ | ⟨s', heq, -, href, -⟩
    · simpa [AddressSpace.step, heq] using href
    · simpa [AddressSpace.step, heq] using href
  | unmap v => exact (h.unmap_cases hcall).2.1

lemma AddressSpace.Refines.run (calls : List UserCall) (hcalls : ∀ call ∈ calls, call.Valid) :
    (x.run root calls).Refines origin root :=
  Runs.run_invariant (fun _ _ h hcall => h.step hcall) h calls (Runs.along_of_forall hcalls)

end

variable {s : VmmState}

lemma create_refines (hwf : Wf s.pmm) (hroot : (vmmCreateAddressSpace s).1 ≠ 0) :
    (create s).Refines s (vmmCreateAddressSpace s).1 := by
  obtain ⟨htree, hzero⟩ := vmmCreateAddressSpace_tree hwf ⟨le_rfl, by norm_num⟩ hroot
  refine ⟨htree, noEmptyTable_of_zero hzero, fun v hv => ?_⟩
  rw [create, hzero _ (userPath_pathOf hv) (List.cons_ne_nil _ _)]
  rfl

lemma UserTree.query_mapping {held : Set ℕ} {depth : ℕ}
    (h : UserTree origin root depth held s) (hv : v < userLimit) :
    (vmmQueryPageIn s root v).map (fun r => mappingOf r.1 r.2) =
      (entryMapping (entryAt s root (pathOf v))).map (fun m => m.shift (v % pageSize)) := by
  rw [h.vmmQueryPageIn_eq hv, entryMapping]
  split_ifs
  · rfl
  have hoff : v % pageSize < pageSize := Nat.mod_lt _ (by decide)
  simp only [Option.map_some, mappingOf, Mapping.shift, or_offset (entryAddress_aligned _) hoff]
  rw [has_publicPageFlags _ (by decide), has_publicPageFlags _ (by decide),
    has_publicPageFlags _ (by decide)]

section
variable (h : x.Refines origin root)
include h

lemma AddressSpace.Refines.query (hv : v < userLimit) :
    (vmmQueryPageIn x.state root v).map (fun r => mappingOf r.1 r.2) =
      (x.pages (v / pageSize)).map (fun m => m.shift (v % pageSize)) := by
  rw [h.pages_eq v hv]
  exact h.tree.query_mapping hv

lemma AddressSpace.Refines.step_other (hcall : call.Valid) {w : ℕ}
    (hw : w < userLimit) (hpage : w / pageSize ≠ call.page) :
    entryAt (x.step root call).state root (pathOf w) = entryAt x.state root (pathOf w) := by
  cases call with
  | map v a flags =>
    obtain ⟨-, hva, -, -⟩ := id hcall
    rcases h.map_cases hcall with ⟨s', heq, -, hsame⟩ | ⟨s', heq, -, -, hmap⟩
    · simp only [AddressSpace.step, heq]
      exact hsame _ (userPath_pathOf hw) (length_pathOf w).le
    simp only [AddressSpace.step, heq, if_true]
    rw [hmap.leaf _ (userPath_pathOf hw) (length_pathOf w),
      if_neg (fun hpath => hpage ((pathOf_inj hw hva).mp hpath))]
  | unmap v => exact (h.unmap_cases hcall).2.2 w hw hpage

/-- What the release of empty tables would see in any table: something is left in it. -/
lemma AddressSpace.Refines.table_not_empty {p : List ℕ} (hp : UserPath p) (h1 : 1 ≤ p.length)
    (h3 : p.length ≤ 3) (hne : entryAt x.state root p ≠ 0#64) :
    pageTableIsEmpty x.state.mem (entryAddress (entryAt x.state root p)) = false := by
  obtain ⟨j, hj, hchild⟩ := h.full p hp h1 h3 hne
  have hframe := (h.tree.frameAt_of_ne_zero hp (by omega) hne).2
  cases p with
  | nil => simp at h1
  | cons i p =>
    rw [List.length_cons] at h3
    rw [Bool.eq_false_iff]
    intro hempty
    rw [h.tree.isEmpty_iff hp (by omega) hframe] at hempty
    exact hchild (hempty j hj.1)

end
end

/-- For every address space and every history of map and unmap calls on user pages: queries
agree with the partial map that the calls build, a mapped page is not mapped again, unmapping
returns the mapped frame, a call does not touch any other page, and no table is left empty. -/
theorem user_pages_refine_partial_map (s : VmmState) (hwf : Wf s.pmm)
    (hroot : (vmmCreateAddressSpace s).1 ≠ 0) (calls : List UserCall)
    (hcalls : ∀ call ∈ calls, call.Valid) : let root := (vmmCreateAddressSpace s).1
    let x := (AddressSpace.create s).run root calls
    (∀ v < userLimit, (vmmQueryPageIn x.state root v).map (fun r => mappingOf r.1 r.2) =
      (x.pages (v / pageSize)).map (fun m => m.shift (v % pageSize))) ∧
    (∀ v a flags, (UserCall.map v a flags).Valid → x.pages (v / pageSize) ≠ none →
      (vmmMapPageIn x.state root v a flags).1 = false) ∧
    (∀ v, (UserCall.unmap v).Valid → (vmmUnmapPageIn x.state root v).1 =
      ((x.pages (v / pageSize)).map Mapping.physical).getD 0) ∧
    (∀ call : UserCall, call.Valid → ∀ w < userLimit, w / pageSize ≠ call.page →
      vmmQueryPageIn (x.step root call).state root w = vmmQueryPageIn x.state root w) ∧
    ∀ p, UserPath p → 1 ≤ p.length → p.length ≤ 3 →
      hasAll (entryAt x.state root p) (pagePresent ||| pageKosOwnedTable) = true →
      pageTableIsEmpty x.state.mem (entryAddress (entryAt x.state root p)) = false := by
  intro root x
  have h : x.Refines s root := (create_refines hwf hroot).run calls hcalls
  refine ⟨fun v hv => h.query hv, fun v a flags hcall hmapped => ?_,
    fun v hcall => (h.unmap_cases hcall).1, fun call hcall w hw hpage => ?_, ?_⟩
  · rcases h.map_cases hcall with ⟨s', heq, -⟩ | ⟨s', heq, hnone, -⟩
    · rw [heq]
    · exact absurd hnone hmapped
  · rw [(h.step hcall).tree.vmmQueryPageIn_eq hw, h.tree.vmmQueryPageIn_eq hw,
      h.step_other hcall hw hpage]
  intro p hp h1 h3 howned
  rw [hasAll_ownedTable, Bool.and_eq_true] at howned
  exact h.table_not_empty hp h1 h3 (ne_zero_of_has howned.1)

def sampleState : VmmState where
  pmm := (pmmInitialize resetState (some ⟨some [some ⟨4096, 32768, .usable⟩]⟩)).2
  mem := fun _ _ => 0#64
  kernelPml4Phys := 65536
  cr3 := 65536
  initialized := true
  freed := []

lemma sampleState_wf : Wf sampleState.pmm := by
  have hinit : (pmmInitialize resetState (some ⟨some [some ⟨4096, 32768, .usable⟩]⟩)).1 = true := by
    decide
  exact (pmmInitialize_wf hinit).1

lemma sampleState_kernel : sampleState.kernelPml4Phys ∉ freeAddresses sampleState.pmm := by
  intro hfree
  exact absurd hfree.2 (by unfold Pmm.freeFrame; decide)

/-- Two pages are mapped below different tables, and the first one is unmapped again. -/
def sampleCalls : List UserCall :=
  [.map 0x2000 0x5000 vmmPageUser, .map 0x400000 0x6000 (vmmPageUser ||| vmmPageWritable),
    .unmap 0x2000]

theorem user_pages_refine_partial_map_sample :
    (vmmCreateAddressSpace sampleState).1 = 4096 ∧
    (vmmQueryPageIn ((AddressSpace.create sampleState).run 4096 sampleCalls).state 4096
      0x400123).map (fun r => mappingOf r.1 r.2) = some ⟨0x6123, true, true, false⟩ ∧
    (vmmQueryPageIn ((AddressSpace.create sampleState).run 4096 sampleCalls).state 4096
      0x2123).map (fun r => mappingOf r.1 r.2) = none := by
  have hroot : (vmmCreateAddressSpace sampleState).1 = 4096 := by decide +kernel
  have hpages : ((AddressSpace.create sampleState).run 4096 sampleCalls).pages 0x400 =
      some ⟨0x6000, true, true, false⟩ ∧
      ((AddressSpace.create sampleState).run 4096 sampleCalls).pages 2 = none := by
    decide +kernel
  have h := user_pages_refine_partial_map sampleState sampleState_wf (by rw [hroot]; decide)
    sampleCalls (by simp [sampleCalls, UserCall.Valid, userLimit, pageSize])
  rw [hroot] at h
  refine ⟨hroot, (h.1 0x400123 (by decide)).trans ?_, (h.1 0x2123 (by decide)).trans ?_⟩
  · change (((AddressSpace.create sampleState).run 4096 sampleCalls).pages 0x400).map _ = _
    rw [hpages.1]
    rfl
  · change (((AddressSpace.create sampleState).run 4096 sampleCalls).pages 2).map _ = _
    rw [hpages.2]
    rfl

end KosKernel.Vmm
