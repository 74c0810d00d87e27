import KosKernel.PmmState
import KosKernel.RadixTree

/-! The page tables of `mm/vmm.c`. Physical memory that holds tables is read and written
through the direct map in the source; here it is a table of entries by physical address and
index. Translation caches and the lock are left out: every function below runs under
`vmm_lock`. -/
namespace KosKernel.Vmm
open Pmm RadixTree

def pageSize : ℕ := 4096
def pagePresent : BitVec 64 := 1#64 <<< 0
def vmmPageWritable : BitVec 64 := 1#64 <<< 1
def vmmPageUser : BitVec 64 := 1#64 <<< 2
def pageHuge : BitVec 64 := 1#64 <<< 7
def pageKosOwnedTable : BitVec 64 := 1#64 <<< 9
def pageKosOwnedMapping : BitVec 64 := 1#64 <<< 10
def vmmPageNoExecute : BitVec 64 := 1#64 <<< 63
def pageAddressMask : BitVec 64 := 0x000ffffffffff000#64
def page2MAddressMask : BitVec 64 := 0x000fffffffe00000#64
def page1GAddressMask : BitVec 64 := 0x000fffffc0000000#64
def permissionBits : BitVec 64 := vmmPageWritable ||| vmmPageUser ||| vmmPageNoExecute
def userLimit : ℕ := 0x0000800000000000
def kernelBase : ℕ := 0xffff800000000000

def has (value bits : BitVec 64) : Bool := value &&& bits != 0#64

def hasAll (value bits : BitVec 64) : Bool := value &&& bits == bits

def entryAddress (entry : BitVec 64) : ℕ := (entry &&& pageAddressMask).toNat

/-- The manager together with the memory it writes. `freed` records every call of
`pmm_free_frame` with its result; no function reads it. -/
structure VmmState where
  pmm : PhysicalMemoryManager
  mem : Tables (BitVec 64)
  kernelPml4Phys : ℕ
  cr3 : ℕ
  initialized : Bool
  freed : List (ℕ × Bool)

def pageTableIndex (virtualAddress shift : ℕ) : ℕ := virtualAddress / 2 ^ shift % 512

def clearPageTable (mem : Tables (BitVec 64)) (table : ℕ) : Tables (BitVec 64) :=
  Function.update mem table fun index => if index < 512 then 0#64 else mem table index

def pageTableIsEmpty (mem : Tables (BitVec 64)) (table : ℕ) : Bool :=
  (List.range 512).all fun index => !has (mem table index) pagePresent

def pmmFree (s : VmmState) (physicalAddress : ℕ) : Bool × VmmState :=
  let (result, pmm) := pmmFreeFrame s.pmm physicalAddress
  (result, { s with pmm, freed := (physicalAddress, result) :: s.freed })

def releaseOwnedEmptyTable (s : VmmState) (table index : ℕ) : Bool × VmmState :=
  let value := s.mem table index
  if hasAll value (pagePresent ||| pageKosOwnedTable) = false then (false, s)
  else if pageTableIsEmpty s.mem (entryAddress value) = false then (false, s)
  else pmmFree { s with mem := write s.mem table index 0#64 } (entryAddress value)

def publicPageFlags (flags : BitVec 64) : BitVec 64 :=
  flags &&& ~~~(pageKosOwnedTable ||| pageKosOwnedMapping)

def combineEffectiveFlags (parentFlags entry : BitVec 64) : BitVec 64 :=
  let result := entry
  let result := if has parentFlags vmmPageWritable then result else result &&& ~~~vmmPageWritable
  let result := if has parentFlags vmmPageUser then result else result &&& ~~~vmmPageUser
  if has parentFlags vmmPageNoExecute then result ||| vmmPageNoExecute else result

def tableEntry (frame : ℕ) (isUser : Bool) : BitVec 64 :=
  let entryFlags := BitVec.ofNat 64 frame ||| pagePresent ||| vmmPageWritable ||| pageKosOwnedTable
  if isUser then entryFlags ||| vmmPageUser else entryFlags

/-- The next table, or nothing; whether it was created; and the state. -/
def nextTable (s : VmmState) (table index virtualAddress : ℕ) (flags : BitVec 64) :
    Option ℕ × Bool × VmmState :=
  let isUser := decide (virtualAddress < userLimit) || has flags vmmPageUser
  let entry := s.mem table index
  if has entry pagePresent then
    if has entry pageHuge then (none, false, s)
    else
      let entry := if isUser then entry ||| vmmPageUser else entry
      (some (entryAddress entry), false, { s with mem := write s.mem table index entry })
  else
    match pmmAllocateFrame s.pmm with
    | (frame, pmm) =>
      if frame = 0 then (none, false, { s with pmm })
      else
        (some frame, true,
          { s with
            pmm
            mem := write (clearPageTable s.mem frame) table index (tableEntry frame isUser) })

def vmmCreateAddressSpace (s : VmmState) : ℕ × VmmState :=
  if s.initialized = false then (0, s)
  else
    match pmmAllocateFrame s.pmm with
    | (pml4Frame, pmm) =>
      if pml4Frame = 0 then (0, { s with pmm })
      else
        (pml4Frame,
          { s with
            pmm
            mem := Function.update s.mem pml4Frame fun index =>
              if index < 256 then 0#64
              else if index < 512 then s.mem s.kernelPml4Phys index
              else s.mem pml4Frame index })

/-- The undo of one level when `vmm_map_page_in` fails below it. -/
def rollback (created : Bool) (s : VmmState) (table index : ℕ) : VmmState :=
  if created then (releaseOwnedEmptyTable s table index).2 else s

def leafEntry (physicalAddress : ℕ) (flags : BitVec 64) : BitVec 64 :=
  (BitVec.ofNat 64 physicalAddress &&& pageAddressMask) ||| pagePresent ||| pageKosOwnedMapping |||
    flags

def mapArgumentsValid (pml4Phys virtualAddress physicalAddress : ℕ) (flags : BitVec 64) : Bool :=
  !(virtualAddress % pageSize ≠ 0 || physicalAddress % pageSize ≠ 0 || pml4Phys = 0 ||
      pml4Phys % pageSize ≠ 0 || has flags (~~~permissionBits)) &&
    !(has flags vmmPageUser && virtualAddress ≥ userLimit) &&
    !(virtualAddress ≥ userLimit && virtualAddress < kernelBase)

def vmmMapPageIn (s : VmmState) (pml4Phys virtualAddress physicalAddress : ℕ)
    (flags : BitVec 64) : Bool × VmmState :=
  if mapArgumentsValid pml4Phys virtualAddress physicalAddress flags = false then (false, s)
  else if s.initialized = false then (false, s)
  else
    let pml4Index := pageTableIndex virtualAddress 39
    let pdptIndex := pageTableIndex virtualAddress 30
    let directoryIndex := pageTableIndex virtualAddress 21
    let tableIndex := pageTableIndex virtualAddress 12
    match nextTable s pml4Phys pml4Index virtualAddress flags with
    | (none, _, s) => (false, s)
    | (some pdpt, pml4TableCreated, s) =>
      match nextTable s pdpt pdptIndex virtualAddress flags with
      | (none, _, s) => (false, rollback pml4TableCreated s pml4Phys pml4Index)
      | (some directory, pdptTableCreated, s) =>
        match nextTable s directory directoryIndex virtualAddress flags with
        | (none, _, s) =>
          let s := rollback pdptTableCreated s pdpt pdptIndex
          (false, rollback pml4TableCreated s pml4Phys pml4Index)
        | (some table, directoryTableCreated, s) =>
          if has (s.mem table tableIndex) pagePresent then
            let s := rollback directoryTableCreated s directory directoryIndex
            let s := rollback pdptTableCreated s pdpt pdptIndex
            (false, rollback pml4TableCreated s pml4Phys pml4Index)
          else
            (true, { s with mem := write s.mem table tableIndex (leafEntry physicalAddress flags) })

def vmmMapPage (s : VmmState) (virtualAddress physicalAddress : ℕ) (flags : BitVec 64) :
    Bool × VmmState :=
  vmmMapPageIn s s.kernelPml4Phys virtualAddress physicalAddress flags

/-- The physical address and the flags that `vmm_query_page_in` reports. -/
def vmmQueryPageIn (s : VmmState) (pml4Phys virtualAddress : ℕ) : Option (ℕ × BitVec 64) :=
  if pml4Phys = 0 ∨ pml4Phys % pageSize ≠ 0 ∨ s.initialized = false then none
  else
    let entry := s.mem pml4Phys (pageTableIndex virtualAddress 39)
    if has entry pagePresent = false then none
    else
      let effectiveFlags := entry
      let entry := s.mem (entryAddress entry) (pageTableIndex virtualAddress 30)
      if has entry pagePresent = false then none
      else
        let effectiveFlags := combineEffectiveFlags effectiveFlags entry
        if has entry pageHuge then
          some ((entry &&& page1GAddressMask).toNat ||| virtualAddress % 2 ^ 30,
            publicPageFlags effectiveFlags)
        else
          let entry := s.mem (entryAddress entry) (pageTableIndex virtualAddress 21)
          if has entry pagePresent = false then none
          else
            let effectiveFlags := combineEffectiveFlags effectiveFlags entry
            if has entry pageHuge then
              some ((entry &&& page2MAddressMask).toNat ||| virtualAddress % 2 ^ 21,
                publicPageFlags effectiveFlags)
            else
              let entry := s.mem (entryAddress entry) (pageTableIndex virtualAddress 12)
              if has entry pagePresent = false then none
              else
                let effectiveFlags := combineEffectiveFlags effectiveFlags entry
                some (entryAddress entry ||| virtualAddress % pageSize,
                  publicPageFlags effectiveFlags)

def vmmUnmapPageIn (s : VmmState) (pml4Phys virtualAddress : ℕ) : ℕ × VmmState :=
  if virtualAddress % pageSize ≠ 0 ∨ pml4Phys = 0 ∨ pml4Phys % pageSize ≠ 0 ∨
      s.initialized = false then (0, s)
  else
    let pml4Index := pageTableIndex virtualAddress 39
    let pdptIndex := pageTableIndex virtualAddress 30
    let directoryIndex := pageTableIndex virtualAddress 21
    let tableIndex := pageTableIndex virtualAddress 12
    let pml4Value := s.mem pml4Phys pml4Index
    if has pml4Value pagePresent = false ∨ has pml4Value pageHuge = true then (0, s)
    else
      let pdpt := entryAddress pml4Value
      let pdptValue := s.mem pdpt pdptIndex
      if has pdptValue pagePresent = false ∨ has pdptValue pageHuge = true then (0, s)
      else
        let directory := entryAddress pdptValue
        let directoryValue := s.mem directory directoryIndex
        if has directoryValue pagePresent = false ∨ has directoryValue pageHuge = true then (0, s)
        else
          let table := entryAddress directoryValue
          let entry := s.mem table tableIndex
          if hasAll entry (pagePresent ||| pageKosOwnedMapping) = false then (0, s)
          else
            let s := { s with mem := write s.mem table tableIndex 0#64 }
            match releaseOwnedEmptyTable s directory directoryIndex with
            | (false, s) => (entryAddress entry, s)
            | (true, s) =>
              match releaseOwnedEmptyTable s pdpt pdptIndex with
              | (false, s) => (entryAddress entry, s)
              | (true, s) =>
                (entryAddress entry, (releaseOwnedEmptyTable s pml4Phys pml4Index).2)

def vmmUnmapPage (s : VmmState) (virtualAddress : ℕ) : ℕ × VmmState :=
  vmmUnmapPageIn s s.kernelPml4Phys virtualAddress

/-- One loop of `vmm_clear_user_address_space`: `visit` each present entry, then clear it. -/
def clearEntries (visit : VmmState → BitVec 64 → VmmState) (table count : ℕ) (s : VmmState) :
    VmmState :=
  (List.range count).foldl (fun s index =>
    let entry := s.mem table index
    if has entry pagePresent = false then s
    else
      let s := visit s entry
      { s with mem := write s.mem table index 0#64 }) s

def clearTable (table : ℕ) (s : VmmState) : VmmState :=
  clearEntries (fun s pte => (pmmFree s (entryAddress pte)).2) table 512 s

def clearDirectory (directory : ℕ) (s : VmmState) : VmmState :=
  clearEntries (fun s pde =>
    if has pde pageHuge then (pmmFree s (entryAddress pde)).2
    else (pmmFree (clearTable (entryAddress pde) s) (entryAddress pde)).2) directory 512 s

def clearPdpt (pdpt : ℕ) (s : VmmState) : VmmState :=
  clearEntries (fun s pdpte =>
    if has pdpte pageHuge then (pmmFree s (entryAddress pdpte)).2
    else (pmmFree (clearDirectory (entryAddress pdpte) s) (entryAddress pdpte)).2) pdpt 512 s

def clearPml4 (pml4 : ℕ) (s : VmmState) : VmmState :=
  clearEntries (fun s pml4e =>
    (pmmFree (clearPdpt (entryAddress pml4e) s) (entryAddress pml4e)).2) pml4 256 s

/-- The switch away from an address space that is being taken down. -/
def leaveAddressSpace (s : VmmState) (pml4Phys : ℕ) : VmmState :=
  if s.cr3 = pml4Phys then { s with cr3 := s.kernelPml4Phys } else s

def vmmClearUserAddressSpace (s : VmmState) (pml4Phys : ℕ) : VmmState :=
  if pml4Phys = 0 ∨ pml4Phys % pageSize ≠ 0 then s
  else if s.initialized = false ∨ pml4Phys = s.kernelPml4Phys then s
  else leaveAddressSpace (clearPml4 pml4Phys s) pml4Phys

def vmmDestroyAddressSpace (s : VmmState) (pml4Phys : ℕ) : VmmState :=
  if pml4Phys = 0 ∨ pml4Phys % pageSize ≠ 0 then s
  else if s.initialized = false ∨ pml4Phys = s.kernelPml4Phys then s
  else
    let s := leaveAddressSpace s pml4Phys
    let s := vmmClearUserAddressSpace s pml4Phys
    (pmmFree s pml4Phys).2

end KosKernel.Vmm
