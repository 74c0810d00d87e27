import KosKernel.PmmInvariant
import KosKernel.VmmWalk

/-! The user half of an address space as a tree of tables, and who holds each frame: the
allocator, the caller, or one place of the tree. -/
namespace KosKernel.Vmm
open Pmm RadixTree

section
variable {pmm pmm' : PhysicalMemoryManager} {a : ℕ}

def freeAddresses (pmm : PhysicalMemoryManager) : Set ℕ :=
  {a | a % pageSize = 0 ∧ Pmm.freeFrame pmm (a / pageSize)}

def UsableAddress (pmm : PhysicalMemoryManager) (a : ℕ) : Prop :=
  a % pageSize = 0 ∧ usableFrame pmm (a / pageSize)

structure FrameTaken (pmm : PhysicalMemoryManager) (a : ℕ) (pmm' : PhysicalMemoryManager) :
    Prop where
  wf : Wf pmm'
  wasFree : a ∈ freeAddresses pmm
  free_eq : freeAddresses pmm' = freeAddresses pmm \ {a}
  usable_iff : ∀ b, UsableAddress pmm' b ↔ UsableAddress pmm b
  pos : a ≠ 0
  lt : a < 2 ^ 52

structure FrameReturned (pmm : PhysicalMemoryManager) (a : ℕ) (pmm' : PhysicalMemoryManager) :
    Prop where
  wf : Wf pmm'
  free_eq : freeAddresses pmm' = insert a (freeAddresses pmm)
  usable_iff : ∀ b, UsableAddress pmm' b ↔ UsableAddress pmm b

lemma eq_address_iff {b frame : ℕ} (hb : b % pageSize = 0) :
    b = frame * pageSize ↔ b / pageSize = frame := by
  unfold pageSize at *
  omega

lemma allocateFrame_cases (h : Wf pmm) :
    pmmAllocateFrame pmm = (0, pmm) ∨
      ∃ a pmm', pmmAllocateFrame pmm = (a, pmm') ∧ FrameTaken pmm a pmm' := by
  rcases pmmAllocateFrame_cases h with hnone | ⟨frame, pmm', heq, ht⟩
  · exact .inl hnone
  right
  have halign : frame * pageSize % pageSize = 0 := Nat.mul_mod_left _ _
  have hdiv : frame * pageSize / pageSize = frame := Nat.mul_div_cancel _ (by decide)
  have hfree : Pmm.freeFrame pmm frame := ht.wasFree frame ⟨le_rfl, by omega⟩
  refine ⟨frame * pageSize, pmm', heq, ht.wf, ⟨halign, by rwa [hdiv]⟩, ?_, ?_, ?_, ?_⟩
  · ext b
    simp only [freeAddresses, Set.mem_sdiff, Set.mem_ofPred_eq, Set.mem_singleton_iff, ht.free_iff,
      inRun_one]
    constructor
    · intro ⟨hb, hf, hne⟩
      exact ⟨⟨hb, hf⟩, fun heq => hne ((eq_address_iff hb).mp heq)⟩
    · intro ⟨⟨hb, hf⟩, hne⟩
      exact ⟨hb, hf, fun heq => hne ((eq_address_iff hb).mpr heq)⟩
  · intro b
    simp only [UsableAddress, ht.usable_iff]
  · have := ht.pos
    unfold pageSize
    omega
  have := h.usable_tracked (h.free_usable frame hfree)
  have hlimit : maxTrackedFrames = 2 ^ 24 := maxTrackedFrames_eq
  unfold pageSize
  omega

lemma freeFrame_cases (h : Wf pmm) (a : ℕ) :
    (pmmFreeFrame pmm a = (false, pmm) ∧ ¬ FreeRequest pmm a 1) ∨
      ∃ pmm', pmmFreeFrame pmm a = (true, pmm') ∧ FrameReturned pmm a pmm' := by
  rcases pmmFreeFrame_cases h a with hrefuse | ⟨pmm', heq, hreq, hr⟩
  · exact .inl hrefuse
  refine .inr ⟨pmm', heq, hr.wf, ?_, fun b => by simp only [UsableAddress, hr.usable_iff]⟩
  have halign : a % pageSize = 0 := hreq.2.1
  ext b
  simp only [freeAddresses, Set.mem_insert_iff, Set.mem_ofPred_eq, hr.free_iff, inRun_one]
  constructor
  · intro ⟨hb, hcase⟩
    rcases hcase with hf | heq
    · exact .inr ⟨hb, hf⟩
    · unfold pageSize frameSize at *
      exact .inl (by omega)
  intro hcase
  rcases hcase with rfl | ⟨hb, hf⟩
  · exact ⟨halign, .inr rfl⟩
  · exact ⟨hb, .inl hf⟩

lemma freeFrame_success (h : Wf pmm) (hpos : a ≠ 0) (husable : UsableAddress pmm a)
    (hfree : a ∉ freeAddresses pmm) :
    ∃ pmm', pmmFreeFrame pmm a = (true, pmm') ∧ FrameReturned pmm a pmm' := by
  refine (freeFrame_cases h a).resolve_left fun ⟨_, hreq⟩ => hreq ?_
  refine ⟨hpos, husable.1, one_ne_zero, fun n hn => ?_⟩
  obtain rfl := (inRun_one _ n).mp hn
  exact ⟨h.usable_tracked husable.2, husable.2, fun hf => hfree ⟨husable.1, hf⟩⟩

/-- The state after `vmm_create_address_space` has made a top-level table. -/
def withRoot (s : VmmState) (f : ℕ) (pmm : PhysicalMemoryManager) : VmmState :=
  { s with
    pmm
    mem := Function.update s.mem f fun index =>
      if index < 256 then 0#64
      else if index < 512 then s.mem s.kernelPml4Phys index
      else s.mem f index }

lemma createAddressSpace_cases {s : VmmState} (h : Wf s.pmm) :
    vmmCreateAddressSpace s = (0, s) ∨
      ∃ f pmm', vmmCreateAddressSpace s = (f, withRoot s f pmm') ∧ FrameTaken s.pmm f pmm' ∧
        s.initialized = true := by
  unfold vmmCreateAddressSpace
  split_ifs with hinit
  · exact .inl rfl
  rcases allocateFrame_cases h with hnone | ⟨f, pmm', heq, hf⟩
  · exact .inl (by simp only [hnone, if_true])
  · exact .inr ⟨f, pmm', by simp only [heq, hf.pos, if_false, withRoot], hf, by simpa using hinit⟩

end

section
/-- Paths whose top-level index is in the range `top`. -/
def HalfPath (top : ℕ → Prop) : List ℕ → Prop
  | [] => True
  | [i] => top i
  | i :: j :: p => i < 512 ∧ HalfPath top (j :: p)

/-- The paths of the user half: its top-level entries are the first 256. -/
abbrev UserPath : List ℕ → Prop := HalfPath fun i => i < 256

abbrev KernelPath : List ℕ → Prop := HalfPath fun i => 256 ≤ i ∧ i < 512

section
variable {top : ℕ → Prop} {i j : ℕ} {p : List ℕ}

lemma HalfPath.tail (h : HalfPath top (i :: p)) : HalfPath top p := by
  cases p with
  | nil => trivial
  | cons j p => exact h.2

lemma HalfPath.cons (h : HalfPath top (j :: p)) (hi : i < 512) : HalfPath top (i :: j :: p) :=
  ⟨hi, h⟩

lemma HalfPath.of_append {xs : List ℕ} (h : HalfPath top (xs ++ p)) : HalfPath top p := by
  induction xs with
  | nil => exact h
  | cons x xs ih => exact ih h.tail

end

def pathOf (virtualAddress : ℕ) : List ℕ := (walkIndices virtualAddress).reverse

lemma pathOf_eq (va : ℕ) :
    pathOf va = [pageTableIndex va 12, pageTableIndex va 21,
      pageTableIndex va 30, pageTableIndex va 39] := rfl

lemma userPath_pathOf {va : ℕ} (h : va < userLimit) :
    UserPath (pathOf va) := by
  rw [pathOf_eq]
  simp only [HalfPath, pageTableIndex]
  unfold userLimit at h
  refine ⟨Nat.mod_lt _ (by norm_num), Nat.mod_lt _ (by norm_num), Nat.mod_lt _ (by norm_num), ?_⟩
  omega

lemma pathOf_inj {v w : ℕ} (hv : v < userLimit) (hw : w < userLimit) :
    pathOf v = pathOf w ↔ v / pageSize = w / pageSize := by
  rw [pathOf_eq, pathOf_eq]
  simp only [List.cons.injEq, and_true, pageTableIndex, pageSize]
  unfold userLimit at hv hw
  omega

end

def entryAt (s : VmmState) (root : ℕ) : List ℕ → BitVec 64 :=
  slot pageNext s.mem 0#64 (tableEntry root true)

def frameAt (s : VmmState) (root : ℕ) (p : List ℕ) : Option ℕ := pageNext (entryAt s root p)

/-- The calls of `pmm_free_frame` that were refused. -/
def failedFrees (s : VmmState) : List (ℕ × Bool) := s.freed.filter fun call => !call.2

/-- The user half of an address space that was created in the state `origin`. Each frame that
was free there is free now, held by the caller, or at one place of the tree down to `depth`,
which is 3 when only tables are accounted for and 4 when mapped frames are, too. -/
structure UserTree (origin : VmmState) (root depth : ℕ) (held : Set ℕ) (s : VmmState) :
    Prop where
  depth_range : 3 ≤ depth ∧ depth ≤ 4
  initialized : s.initialized = true
  root_aligned : root % pageSize = 0
  root_pos : root ≠ 0
  root_lt : root < 2 ^ 52
  wf : Wf s.pmm
  frames : ∀ a ∈ freeAddresses origin.pmm, UsableAddress s.pmm a ∧ a ≠ 0
  held_allocated : ∀ a ∈ held, a ∉ freeAddresses s.pmm
  apart : Apart (frameAt s root) UserPath depth (freeAddresses s.pmm ∪ held)
  covers : Covers (frameAt s root) UserPath depth (freeAddresses origin.pmm)
    (freeAddresses s.pmm ∪ held)
  tables : ∀ p, UserPath p → p.length ≤ 3 →
    entryAt s root p = 0#64 ∨ UserTable (entryAt s root p)
  leaves : ∀ p, UserPath p → p.length = 4 → entryAt s root p = 0#64 ∨ UserLeaf (entryAt s root p)
  kernel_eq : s.kernelPml4Phys = origin.kernelPml4Phys
  freed_once : failedFrees s = failedFrees origin

variable {held : Set ℕ} {root depth : ℕ} {origin s : VmmState} {p : List ℕ} {i t : ℕ}

lemma entryAt_cons (h : frameAt s root p = some t) (i : ℕ) : entryAt s root (i :: p) = s.mem t i :=
  slot_cons h i

lemma entryAt_below_zero (h : entryAt s root p = 0#64) (i : ℕ) : entryAt s root (i :: p) = 0#64 :=
  slot_cons_none (by rw [show slot _ _ _ _ p = 0#64 from h, pageNext_zero]) i

variable (h : UserTree origin root depth held s)
include h

lemma UserTree.frameAt_root : frameAt s root [] = some root :=
  tableEntry_next h.root_aligned h.root_lt true

lemma UserTree.frameAt_of_ne_zero (hp : UserPath p) (hlen : p.length ≤ 4)
    (hne : entryAt s root p ≠ 0#64) :
    has (entryAt s root p) pagePresent = true ∧
      frameAt s root p = some (entryAddress (entryAt s root p)) := by
  by_cases hleaf : p.length = 4
  · have hl := (h.leaves p hp hleaf).resolve_left hne
    exact ⟨hl.present, hl.next⟩
  · have ht := (h.tables p hp (by omega)).resolve_left hne
    exact ⟨ht.present, ht.next⟩

lemma UserTree.absent_iff (hp : UserPath p) (hlen : p.length ≤ 4) :
    has (entryAt s root p) pagePresent = false ↔ entryAt s root p = 0#64 := by
  constructor
  · intro hfalse
    by_contra hne
    rw [(h.frameAt_of_ne_zero hp hlen hne).1] at hfalse
    cases hfalse
  intro hz
  rw [hz]
  decide

lemma UserTree.distinct : Distinct (frameAt s root) UserPath 3 :=
  h.apart.distinct.mono h.depth_range.1

lemma UserTree.frame_allocated (hp : UserPath p) (hlen : p.length ≤ depth) {a : ℕ}
    (ha : frameAt s root p = some a) :
    UsableAddress s.pmm a ∧ a ≠ 0 ∧ a ∉ freeAddresses s.pmm ∧ a ∉ held := by
  obtain ⟨husable, hpos⟩ := h.frames a ((h.covers a).mpr (.inr ⟨p, hp, hlen, ha⟩))
  have hpool := h.apart.disjoint p a hp hlen ha
  exact ⟨husable, hpos, fun hf => hpool (.inl hf), fun hh => hpool (.inr hh)⟩

end KosKernel.Vmm
