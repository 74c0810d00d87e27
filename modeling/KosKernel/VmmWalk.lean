import KosKernel.VmmEntries

/-! The four-level walks of the source as recursions on the indices still to be followed. -/
namespace KosKernel.Vmm
open RadixTree

def walkIndices (virtualAddress : ℕ) : List ℕ :=
  [pageTableIndex virtualAddress 39, pageTableIndex virtualAddress 30,
    pageTableIndex virtualAddress 21, pageTableIndex virtualAddress 12]

section
variable (virtualAddress physicalAddress : ℕ) (flags : BitVec 64)

def mapWalk : List ℕ → VmmState → ℕ → Bool × VmmState
  | [], s, _ => (false, s)
  | [index], s, table =>
    if has (s.mem table index) pagePresent then (false, s)
    else (true, { s with mem := write s.mem table index (leafEntry physicalAddress flags) })
  | index :: i :: rest, s, table =>
    match nextTable s table index virtualAddress flags with
    | (none, _, s) => (false, s)
    | (some next, created, s) =>
      match mapWalk (i :: rest) s next with
      | (true, s) => (true, s)
      | (false, s) => (false, rollback created s table index)

theorem vmmMapPageIn_eq_mapWalk (s : VmmState) (pml4Phys : ℕ) :
    vmmMapPageIn s pml4Phys va pa flags =
      if mapArgumentsValid pml4Phys va pa flags = false then (false, s)
      else if s.initialized = false then (false, s)
      else mapWalk va pa flags (walkIndices va) s pml4Phys := by
  unfold vmmMapPageIn
  split_ifs
  · rfl
  · rfl
  simp only [walkIndices, mapWalk]
  rcases nextTable s pml4Phys (pageTableIndex va 39) va flags with
    ⟨_ | pdpt, c3, s3⟩
  · rfl
  dsimp only
  rcases nextTable s3 pdpt (pageTableIndex va 30) va flags with
    ⟨_ | directory, c2, s2⟩
  · rfl
  dsimp only
  rcases nextTable s2 directory (pageTableIndex va 21) va flags with
    ⟨_ | table, c1, s1⟩
  · rfl
  dsimp only
  split_ifs <;> rfl

end

/-- The physical address that was mapped, whether every table so far was released, and the
state; nothing if there is no such page. -/
def unmapWalk : List ℕ → VmmState → ℕ → Option (ℕ × Bool × VmmState)
  | [], _, _ => none
  | [index], s, table =>
    if hasAll (s.mem table index) (pagePresent ||| pageKosOwnedMapping) = false then none
    else
      some (entryAddress (s.mem table index), true,
        { s with mem := write s.mem table index 0#64 })
  | index :: i :: rest, s, table =>
    if has (s.mem table index) pagePresent = false ∨ has (s.mem table index) pageHuge = true then none
    else
      match unmapWalk (i :: rest) s (entryAddress (s.mem table index)) with
      | none => none
      | some (a, false, s) => some (a, false, s)
      | some (a, true, s) =>
        match releaseOwnedEmptyTable s table index with
        | (released, s) => some (a, released, s)

theorem vmmUnmapPageIn_eq_unmapWalk (s : VmmState) (pml4Phys va : ℕ) :
    vmmUnmapPageIn s pml4Phys va = if va % pageSize ≠ 0 ∨ pml4Phys = 0 ∨ pml4Phys % pageSize ≠ 0 ∨
        s.initialized = false then (0, s)
      else
        match unmapWalk (walkIndices va) s pml4Phys with
        | none => (0, s)
        | some (a, _, s) => (a, s) := by
  unfold vmmUnmapPageIn
  split_ifs
  · rfl
  simp only [walkIndices, unmapWalk]
  generalize s.mem pml4Phys (pageTableIndex va 39) = pml4Value
  by_cases h3 : has pml4Value pagePresent = false ∨ has pml4Value pageHuge = true
  · simp only [if_pos h3]
  simp only [if_neg h3]
  generalize entryAddress pml4Value = pdpt
  generalize s.mem pdpt (pageTableIndex va 30) = pdptValue
  by_cases h2 : has pdptValue pagePresent = false ∨ has pdptValue pageHuge = true
  · simp only [if_pos h2]
  simp only [if_neg h2]
  generalize entryAddress pdptValue = directory
  generalize s.mem directory (pageTableIndex va 21) = directoryValue
  by_cases h1 : has directoryValue pagePresent = false ∨ has directoryValue pageHuge = true
  · simp only [if_pos h1]
  simp only [if_neg h1]
  generalize entryAddress directoryValue = table
  generalize s.mem table (pageTableIndex va 12) = entry
  by_cases h0 : hasAll entry (pagePresent ||| pageKosOwnedMapping) = false
  · simp only [if_pos h0]
  simp only [if_neg h0]
  -- the releases go up as long as they succeed
  generalize ({ s with mem := write s.mem table _ 0#64 } : VmmState) = s0
  rcases releaseOwnedEmptyTable s0 directory (pageTableIndex va 21) with ⟨_ | _, s1⟩
  · rfl
  dsimp only
  rcases releaseOwnedEmptyTable s1 pdpt (pageTableIndex va 30) with ⟨_ | _, s2⟩
  · rfl
  · rfl

end KosKernel.Vmm
