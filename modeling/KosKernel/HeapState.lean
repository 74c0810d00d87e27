import KosKernel.ByteMemory

/-! The kernel heap of `mm/heap.c`. Block headers live in byte memory at their own
addresses, as the C structure lays them out: `size`, `previous`, `next` and `free` at
offsets 0, 8, 16 and 24 of 32 bytes. The frame allocator and the page mapper are a
parameter, so every pattern of allocation and mapping failure is a run of the model. -/
namespace KosKernel.Heap
open ByteMemory

def pageSize : ℕ := 4096
def heapBase : ℕ := 0xffffffffc0000000
def heapMaximumBytes : ℕ := 128 * 1024 * 1024
def heapAlignment : ℕ := 16
def headerSize : ℕ := 32
def uint64Max : ℕ := 2 ^ 64 - 1

def heapPageFlags : BitVec 64 := (1#64 <<< 1) ||| (1#64 <<< 63)

/-- The four calls the heap makes into the frame allocator and the page mapper. -/
structure PageBackend (σ : Type) where
  pmmAllocateFrame : σ → ℕ × σ
  pmmFreeFrame : σ → ℕ → Bool × σ
  vmmMapPage : σ → ℕ → ℕ → BitVec 64 → Bool × σ
  vmmUnmapPage : σ → ℕ → ℕ × σ

structure KernelHeap where
  first : ℕ
  last : ℕ
  mappedBytes : ℕ
  activeAllocations : ℕ
  initialized : Bool
  deriving DecidableEq

structure HeapState (σ : Type) where
  heap : KernelHeap
  mem : Memory
  env : σ

section
def blockSize (m : Memory) (block : ℕ) : ℕ := readBytes m block 8
def blockPrevious (m : Memory) (block : ℕ) : ℕ := readBytes m (block + 8) 8
def blockNext (m : Memory) (block : ℕ) : ℕ := readBytes m (block + 16) 8
def blockFree (m : Memory) (block : ℕ) : Bool := readBytes m (block + 24) 1 != 0

def setSize (m : Memory) (block v : ℕ) : Memory := writeBytes m block 8 v
def setPrevious (m : Memory) (block v : ℕ) : Memory := writeBytes m (block + 8) 8 v
def setNext (m : Memory) (block v : ℕ) : Memory := writeBytes m (block + 16) 8 v
def setFree (m : Memory) (block : ℕ) (v : Bool) : Memory := writeBytes m (block + 24) 1 v.toNat

end

/-- `none` is the overflow case, where the caller gives up. -/
def alignUp (value alignment : ℕ) : Option ℕ :=
  if value > uint64Max - (alignment - 1) then none
  else some ((value + alignment - 1) / alignment * alignment)

def blocksAreAdjacent (m : Memory) (left right : ℕ) : Bool :=
  left + headerSize + blockSize m left = right

variable {σ : Type}

def mergeWithNext (s : HeapState σ) (block : ℕ) : HeapState σ :=
  let next := blockNext s.mem block
  if next = 0 ∨ blockFree s.mem next = false ∨ blocksAreAdjacent s.mem block next = false then s
  else
    let m := setSize s.mem block (blockSize s.mem block + (headerSize + blockSize s.mem next))
    let m := setNext m block (blockNext m next)
    if blockNext m next ≠ 0 then { s with mem := setPrevious m (blockNext m next) block }
    else { s with mem := m, heap := { s.heap with last := block } }

/-- More steps than any list of disjoint headers in the heap region can take. -/
def walkFuel : ℕ := heapMaximumBytes / headerSize

/-- The list walk of `find_free_block`; `none` if it has not ended within the fuel. -/
def findFreeBlock (m : Memory) (size : ℕ) : ℕ → ℕ → Option ℕ
  | fuel, block =>
    if block = 0 then some 0
    else
      match fuel with
      | 0 => none
      | fuel + 1 =>
        if blockFree m block = true ∧ blockSize m block ≥ size then some block
        else findFreeBlock m size fuel (blockNext m block)

/-- The mapping loop of `grow_heap`: how many pages it mapped before it ended. -/
def mapHeapPages (B : PageBackend σ) (virtualAddress : ℕ) : ℕ → ℕ → σ → ℕ × σ
  | 0, mappedPages, env => (mappedPages, env)
  | remaining + 1, mappedPages, env =>
    let (physicalFrame, env) := B.pmmAllocateFrame env
    if physicalFrame = 0 then (mappedPages, env)
    else
      let (mapped, env) :=
        B.vmmMapPage env (virtualAddress + mappedPages * pageSize) physicalFrame heapPageFlags
      if mapped then mapHeapPages B virtualAddress remaining (mappedPages + 1) env
      else (mappedPages, (B.pmmFreeFrame env physicalFrame).2)

def unmapHeapPages (B : PageBackend σ) (virtualAddress mappedPages : ℕ) (env : σ) : σ :=
  (List.range mappedPages).foldl (fun env page =>
    let (physicalFrame, env) := B.vmmUnmapPage env (virtualAddress + page * pageSize)
    if physicalFrame ≠ 0 then (B.pmmFreeFrame env physicalFrame).2 else env) env

def growPages (requestedSize : ℕ) : ℕ :=
  (requestedSize + headerSize + pageSize - 1) / pageSize

/-- The end of `grow_heap`: the freshly mapped bytes become one free block behind the last. -/
def appendBlock (s : HeapState σ) (mappedBytes : ℕ) (env : σ) : HeapState σ :=
  let block := heapBase + s.heap.mappedBytes
  let m := setSize s.mem block (mappedBytes - headerSize)
  let m := setPrevious m block s.heap.last
  let m := setNext m block 0
  let m := setFree m block true
  let linked : Memory × ℕ :=
    if s.heap.last ≠ 0 then (setNext m s.heap.last block, s.heap.first) else (m, block)
  { mem := linked.1
    env
    heap := { s.heap with
      first := linked.2
      last := block
      mappedBytes := s.heap.mappedBytes + mappedBytes } }

def growHeap (B : PageBackend σ) (s : HeapState σ) (requestedSize : ℕ) : ℕ × HeapState σ :=
  if requestedSize > heapMaximumBytes - headerSize then (0, s)
  else if growPages requestedSize * pageSize > heapMaximumBytes - s.heap.mappedBytes then (0, s)
  else
    match mapHeapPages B (heapBase + s.heap.mappedBytes) (growPages requestedSize) 0 s.env with
    | (mappedPages, env) =>
      if mappedPages ≠ growPages requestedSize then
        (0, { s with env := unmapHeapPages B (heapBase + s.heap.mappedBytes) mappedPages env })
      else
        (heapBase + s.heap.mappedBytes, appendBlock s (growPages requestedSize * pageSize) env)

/-- The unmapping loop of `reclaim_trailing_block`; `false` if it gave up part way. -/
def reclaimPages (B : PageBackend σ) (blockAddress : ℕ) : List ℕ → σ → Bool × σ
  | [], env => (true, env)
  | page :: rest, env =>
    let (physicalFrame, env) := B.vmmUnmapPage env (blockAddress + page * pageSize)
    if physicalFrame = 0 then (false, env)
    else
      let (freed, env) := B.pmmFreeFrame env physicalFrame
      if freed then reclaimPages B blockAddress rest env else (false, env)

def reclaimTrailingBlock (B : PageBackend σ) (s : HeapState σ) : HeapState σ :=
  let block := s.heap.last
  if block = 0 ∨ blockFree s.mem block = false ∨ block % pageSize ≠ 0 then s
  else
    let blockBytes := headerSize + blockSize s.mem block
    if blockBytes % pageSize ≠ 0 then s
    else if block + blockBytes ≠ heapBase + s.heap.mappedBytes then s
    else
      let previous := blockPrevious s.mem block
      let (done, env) := reclaimPages B block (List.range (blockBytes / pageSize)) s.env
      if done = false then { s with env }
      else if previous ≠ 0 then
        { mem := setNext s.mem previous 0
          env
          heap := { s.heap with last := previous, mappedBytes := s.heap.mappedBytes - blockBytes } }
      else
        { mem := s.mem
          env
          heap := { s.heap with
            last := previous, first := 0, mappedBytes := s.heap.mappedBytes - blockBytes } }

def heapInitialize (s : HeapState σ) : HeapState σ :=
  { s with heap := ⟨0, 0, 0, 0, true⟩ }

/-- The tail of `kmalloc`: cut off the unused end of the block and mark it allocated. -/
def carveBlock (s : HeapState σ) (block size : ℕ) : HeapState σ :=
  let carved : HeapState σ :=
    if blockSize s.mem block ≥ size + headerSize + heapAlignment then
      let split := block + headerSize + size
      let m := setSize s.mem split (blockSize s.mem block - size - headerSize)
      let m := setPrevious m split block
      let m := setNext m split (blockNext m block)
      let m := setFree m split true
      let linked : Memory × ℕ :=
        if blockNext m block ≠ 0 then (setPrevious m (blockNext m block) split, s.heap.last)
        else (m, split)
      let m := setNext linked.1 block split
      let m := setSize m block size
      { s with mem := m, heap := { s.heap with last := linked.2 } }
    else s
  { carved with
    mem := setFree carved.mem block false
    heap := { carved.heap with activeAllocations := carved.heap.activeAllocations + 1 } }

def kmalloc (B : PageBackend σ) (s : HeapState σ) (size : ℕ) : Option (ℕ × HeapState σ) :=
  if s.heap.initialized = false ∨ size = 0 then some (0, s)
  else
    match alignUp size heapAlignment with
    | none => some (0, s)
    | some size => do
      let block ← findFreeBlock s.mem size walkFuel s.heap.first
      if block ≠ 0 then return (block + headerSize, carveBlock s block size)
      let (block, grown) := growHeap B s size
      if block = 0 then return (0, grown)
      return (block + headerSize, carveBlock grown block size)

/-- The search loop of `kfree` and `krealloc` for the block at a candidate address. -/
def findBlock (m : Memory) (candidate : ℕ) : ℕ → ℕ → Option ℕ
  | fuel, block =>
    if block = 0 ∨ block = candidate then some block
    else
      match fuel with
      | 0 => none
      | fuel + 1 => findBlock m candidate fuel (blockNext m block)

/-- The range test and search that precede every use of a caller's pointer: the address of
its allocated block, or 0. -/
def lookupPointer (s : HeapState σ) (pointer : ℕ) : Option ℕ :=
  if s.heap.mappedBytes = 0 ∨ pointer < heapBase + headerSize ∨
      pointer ≥ heapBase + s.heap.mappedBytes then some 0
  else do
    let block ← findBlock s.mem (pointer - headerSize) walkFuel s.heap.first
    if block = 0 ∨ blockFree s.mem block = true then return 0
    return block

/-- The tail of `kfree`: coalesce forwards, then backwards, then give back trailing pages. -/
def releaseBlock (B : PageBackend σ) (s : HeapState σ) (block : ℕ) : HeapState σ :=
  let s := { s with
    mem := setFree s.mem block true
    heap := { s.heap with activeAllocations := s.heap.activeAllocations - 1 } }
  let s := mergeWithNext s block
  let previous := blockPrevious s.mem block
  let s := if previous ≠ 0 ∧ blockFree s.mem previous = true then mergeWithNext s previous else s
  reclaimTrailingBlock B s

def kfree (B : PageBackend σ) (s : HeapState σ) (pointer : ℕ) : Option (Bool × HeapState σ) :=
  if s.heap.initialized = false ∨ pointer = 0 then some (false, s)
  else do
    let block ← lookupPointer s pointer
    if block = 0 ∨ s.heap.activeAllocations = 0 then return (false, s)
    return (true, releaseBlock B s block)

def kcalloc (B : PageBackend σ) (s : HeapState σ) (num size : ℕ) : Option (ℕ × HeapState σ) :=
  if num ≠ 0 ∧ size > uint64Max / num then some (0, s)
  else do
    let total := num * size
    let (ptr, s) ← kmalloc B s total
    if ptr ≠ 0 then return (ptr, { s with mem := zeroBytes s.mem ptr total })
    return (ptr, s)

def krealloc (B : PageBackend σ) (s : HeapState σ) (pointer newSize : ℕ) :
    Option (ℕ × HeapState σ) :=
  if pointer = 0 then kmalloc B s newSize
  else if newSize = 0 then do
    let (_, s) ← kfree B s pointer
    return (0, s)
  else if s.heap.initialized = false then some (0, s)
  else do
    let block ← lookupPointer s pointer
    if block = 0 then return (0, s)
    let oldSize := blockSize s.mem block
    if newSize ≤ oldSize then return (pointer, s)
    let (newPtr, s) ← kmalloc B s newSize
    if newPtr = 0 then return (0, s)
    let copyBytes := min oldSize newSize
    let s := { s with mem := ByteMemory.copyBytes s.mem newPtr pointer copyBytes }
    let (_, s) ← kfree B s pointer
    return (newPtr, s)

end KosKernel.Heap
