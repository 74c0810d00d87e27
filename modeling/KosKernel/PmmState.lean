import KosKernel.BitWords

/-! The physical memory manager of `mm/pmm.c`: two frame bitmaps, the accounting
counters, and the code paths that read and update them. Every entry point runs
under `pmm_lock`, so each is one function of the state. Counters and addresses are
natural numbers; the 64-bit bound shows only where the code tests it. -/
namespace KosKernel.Pmm
open BitWords

def uint64Max : ℕ := 2 ^ 64 - 1
def frameSize : ℕ := 4096
def maxTrackedPhysicalMemory : ℕ := 64 * 1024 * 1024 * 1024
def maxTrackedFrames : ℕ := maxTrackedPhysicalMemory / frameSize

inductive MemmapType
  | usable
  | acpiReclaimable
  | acpiNvs
  | bootloaderReclaimable
  | executableAndModules
  | framebuffer
  | other (code : ℕ)
  deriving DecidableEq

structure MemmapEntry where
  base : ℕ
  length : ℕ
  type : MemmapType
  deriving DecidableEq

/-- `entries` is `none` for a null array; each slot of the array may itself be null. -/
structure MemmapResponse where
  entries : Option (List (Option MemmapEntry))
  deriving DecidableEq

structure PhysicalMemoryManager where
  usableBitmap : Words
  freeBitmap : Words
  totalMemoryBytes : ℕ
  usableMemoryBytes : ℕ
  kernelMemoryBytes : ℕ
  framebufferMemoryBytes : ℕ
  bootloaderReclaimableBytes : ℕ
  trackedUsableFrames : ℕ
  freeFrames : ℕ
  frameSearchLimit : ℕ
  allocationHint : ℕ
  initialized : Bool

def saturatingAdd (left right : ℕ) : ℕ :=
  if uint64Max - left < right then uint64Max else left + right

def alignUpFrame (address : ℕ) : ℕ :=
  address / frameSize + (if address % frameSize ≠ 0 then 1 else 0)

def alignDownFrame (address : ℕ) : ℕ := address / frameSize

def frameIsTracked (frame : ℕ) : Bool := frame < maxTrackedFrames

def frameMask (frame : ℕ) : BitVec 64 := 1#64 <<< (frame % 64)

def bitmapTest (bitmap : Words) (frame : ℕ) : Bool :=
  (bitmap (frame / 64) &&& frameMask frame) != 0#64

def bitmapSet (bitmap : Words) (frame : ℕ) : Words :=
  Function.update bitmap (frame / 64) (bitmap (frame / 64) ||| frameMask frame)

def bitmapClear (bitmap : Words) (frame : ℕ) : Words :=
  Function.update bitmap (frame / 64) (bitmap (frame / 64) &&& ~~~frameMask frame)

def zeroBitmap : Words := fun _ => 0#64

def bitmapRangeMask (word firstFrame endFrame : ℕ) : BitVec 64 :=
  let wordFirstFrame := word * 64
  let firstBit := if firstFrame > wordFirstFrame then firstFrame - wordFirstFrame else 0
  let wordEndFrame := wordFirstFrame + 64
  let endBit := if endFrame < wordEndFrame then endFrame - wordFirstFrame else 64
  if firstBit ≥ endBit then 0#64
  else
    let lowerMask := BitVec.allOnes 64 <<< firstBit
    let upperMask := if endBit = 64 then BitVec.allOnes 64 else (1#64 <<< endBit) - 1#64
    lowerMask &&& upperMask

def markUsableWord (firstFrame endFrame : ℕ) (pmm : PhysicalMemoryManager) (word : ℕ) :
    PhysicalMemoryManager :=
  let mask := bitmapRangeMask word firstFrame endFrame
  let newlyUsable := mask &&& ~~~pmm.usableBitmap word
  let addedFrames := newlyUsable.cpop.toNat
  { pmm with
    usableBitmap := Function.update pmm.usableBitmap word (pmm.usableBitmap word ||| mask)
    freeBitmap := Function.update pmm.freeBitmap word (pmm.freeBitmap word ||| newlyUsable)
    trackedUsableFrames := pmm.trackedUsableFrames + addedFrames
    freeFrames := pmm.freeFrames + addedFrames }

/-- The words `firstFrame / 64 ..= (endFrame - 1) / 64` that a frame range touches. -/
def rangeWords (firstFrame endFrame : ℕ) : List ℕ :=
  List.range' (firstFrame / 64) ((endFrame - 1) / 64 + 1 - firstFrame / 64)

def markUsableFrames (pmm : PhysicalMemoryManager) (firstFrame endFrame : ℕ) :
    PhysicalMemoryManager :=
  if firstFrame ≥ endFrame then pmm
  else (rangeWords firstFrame endFrame).foldl (markUsableWord firstFrame endFrame) pmm

def memoryTypeIsPhysicalRam : MemmapType → Bool
  | .other _ => false
  | _ => true

def accountMemoryType (pmm : PhysicalMemoryManager) (entry : MemmapEntry) :
    PhysicalMemoryManager :=
  match entry.type with
  | .executableAndModules =>
    { pmm with kernelMemoryBytes := saturatingAdd pmm.kernelMemoryBytes entry.length }
  | .framebuffer =>
    { pmm with framebufferMemoryBytes := saturatingAdd pmm.framebufferMemoryBytes entry.length }
  | .bootloaderReclaimable =>
    { pmm with
      bootloaderReclaimableBytes := saturatingAdd pmm.bootloaderReclaimableBytes entry.length }
  | _ => pmm

def markUsableRange (pmm : PhysicalMemoryManager) (base length : ℕ) : PhysicalMemoryManager :=
  if length = 0 ∨ base ≥ maxTrackedPhysicalMemory then pmm
  else
    let sum := saturatingAdd base length
    let rangeEnd := if sum > maxTrackedPhysicalMemory then maxTrackedPhysicalMemory else sum
    let firstFrame := alignUpFrame base
    let endFrame := alignDownFrame rangeEnd
    let limited :=
      if endFrame > pmm.frameSearchLimit then { pmm with frameSearchLimit := endFrame } else pmm
    -- frame 0 is never handed out: address 0 is the failure value of the allocator
    markUsableFrames limited (if firstFrame = 0 then 1 else firstFrame) endFrame

def accountEntry (pmm : PhysicalMemoryManager) (entry : MemmapEntry) : PhysicalMemoryManager :=
  let counted :=
    if memoryTypeIsPhysicalRam entry.type then
      { pmm with totalMemoryBytes := saturatingAdd pmm.totalMemoryBytes entry.length }
    else pmm
  let accounted := accountMemoryType counted entry
  if entry.type = .usable then
    markUsableRange
      { accounted with
        usableMemoryBytes := saturatingAdd accounted.usableMemoryBytes entry.length }
      entry.base entry.length
  else accounted

/-- The entry loop of `pmm_initialize`; `false` reports a null entry. -/
def accountEntries : List (Option MemmapEntry) → PhysicalMemoryManager →
    Bool × PhysicalMemoryManager
  | [], pmm => (true, pmm)
  | none :: _, pmm => (false, pmm)
  | some entry :: rest, pmm => accountEntries rest (accountEntry pmm entry)

/-- The manager after the reset at the head of `pmm_initialize`. -/
def resetState : PhysicalMemoryManager where
  usableBitmap := zeroBitmap
  freeBitmap := zeroBitmap
  totalMemoryBytes := 0
  usableMemoryBytes := 0
  kernelMemoryBytes := 0
  framebufferMemoryBytes := 0
  bootloaderReclaimableBytes := 0
  trackedUsableFrames := 0
  freeFrames := 0
  frameSearchLimit := 1
  allocationHint := 1
  initialized := false

def pmmInitialize (pmm : PhysicalMemoryManager) (memoryMap : Option MemmapResponse) :
    Bool × PhysicalMemoryManager :=
  match memoryMap.bind MemmapResponse.entries with
  | none => (false, pmm)
  | some entries =>
    match accountEntries entries resetState with
    | (false, partialState) => (false, partialState)
    | (true, filled) =>
      let limited :=
        if filled.frameSearchLimit > maxTrackedFrames then
          { filled with frameSearchLimit := maxTrackedFrames }
        else filled
      let initialized := decide (limited.freeFrames ≠ 0)
      (initialized, { limited with initialized })

def findFreeFrame (pmm : PhysicalMemoryManager) (start endFrame : ℕ) : ℕ :=
  if start ≥ endFrame then 0
  else
    ((rangeWords start endFrame).findSome? fun word =>
      let candidates := pmm.freeBitmap word &&& bitmapRangeMask word start endFrame
      if candidates ≠ 0#64 then some (word * 64 + candidates.ctz.toNat) else none).getD 0

def pmmAllocateFrame (pmm : PhysicalMemoryManager) : ℕ × PhysicalMemoryManager :=
  if !pmm.initialized then (0, pmm)
  else
    let first := findFreeFrame pmm pmm.allocationHint pmm.frameSearchLimit
    let frame :=
      if first = 0 ∧ pmm.allocationHint > 1 then findFreeFrame pmm 1 pmm.allocationHint else first
    if frame = 0 then (0, pmm)
    else
      (frame * frameSize,
        { pmm with
          freeBitmap := bitmapClear pmm.freeBitmap frame
          freeFrames := pmm.freeFrames - 1
          allocationHint := if frame + 1 ≥ pmm.frameSearchLimit then 1 else frame + 1 })

/-- The acceptance test a frame must pass before it is returned to the free bitmap. -/
def frameIsAllocated (pmm : PhysicalMemoryManager) (frame : ℕ) : Bool :=
  frameIsTracked frame && bitmapTest pmm.usableBitmap frame && !bitmapTest pmm.freeBitmap frame

def pmmFreeFrame (pmm : PhysicalMemoryManager) (physicalAddress : ℕ) :
    Bool × PhysicalMemoryManager :=
  if !pmm.initialized ∨ physicalAddress = 0 ∨ physicalAddress % frameSize ≠ 0 then (false, pmm)
  else
    let frame := physicalAddress / frameSize
    if !frameIsAllocated pmm frame then (false, pmm)
    else
      (true,
        { pmm with
          freeBitmap := bitmapSet pmm.freeBitmap frame
          freeFrames := pmm.freeFrames + 1
          allocationHint := if frame < pmm.allocationHint then frame else pmm.allocationHint })

/-- The scan of `pmm_alloc_pages` over a frame range: the length of the run ending at the
last frame read, and the frame where the last run began. -/
def scanRun (bitmap : Words) (count : ℕ) : List ℕ → ℕ → ℕ → ℕ × ℕ
  | [], consecutive, startFrame => (consecutive, startFrame)
  | frame :: rest, consecutive, startFrame =>
    if bitmapTest bitmap frame then
      let startFrame := if consecutive = 0 then frame else startFrame
      if consecutive + 1 = count then (consecutive + 1, startFrame)
      else scanRun bitmap count rest (consecutive + 1) startFrame
    else scanRun bitmap count rest 0 startFrame

def frameRange (first endFrame : ℕ) : List ℕ := List.range' first (endFrame - first)

def clearFrames (bitmap : Words) (startFrame count : ℕ) : Words :=
  (List.range count).foldl (fun b i => bitmapClear b (startFrame + i)) bitmap

def setFrames (bitmap : Words) (startFrame count : ℕ) : Words :=
  (List.range count).foldl (fun b i => bitmapSet b (startFrame + i)) bitmap

def pmmAllocPages (pmm : PhysicalMemoryManager) (count : ℕ) : ℕ × PhysicalMemoryManager :=
  if count = 0 then (0, pmm)
  else if count = 1 then pmmAllocateFrame pmm
  else if !pmm.initialized ∨ pmm.freeFrames < count then (0, pmm)
  else
    let first := scanRun pmm.freeBitmap count
      (frameRange pmm.allocationHint pmm.frameSearchLimit) 0 0
    let found :=
      if first.1 < count ∧ pmm.allocationHint > 1 then
        scanRun pmm.freeBitmap count
          (frameRange 1 (min (pmm.allocationHint + count) pmm.frameSearchLimit)) 0 first.2
      else first
    if found.1 < count then (0, pmm)
    else
      (found.2 * frameSize,
        { pmm with
          freeBitmap := clearFrames pmm.freeBitmap found.2 count
          freeFrames := pmm.freeFrames - count
          allocationHint :=
            if found.2 + count ≥ pmm.frameSearchLimit then 1 else found.2 + count })

/-- `start_frame + i` cannot wrap before it leaves the tracked range, where the loop stops. -/
def pmmFreePages (pmm : PhysicalMemoryManager) (physicalAddress count : ℕ) :
    Bool × PhysicalMemoryManager :=
  if count = 0 then (false, pmm)
  else if count = 1 then pmmFreeFrame pmm physicalAddress
  else if !pmm.initialized ∨ physicalAddress = 0 ∨ physicalAddress % frameSize ≠ 0 then
    (false, pmm)
  else
    let startFrame := physicalAddress / frameSize
    if (List.range count).all fun i => frameIsAllocated pmm (startFrame + i) then
      (true,
        { pmm with
          freeBitmap := setFrames pmm.freeBitmap startFrame count
          freeFrames := pmm.freeFrames + count
          allocationHint :=
            if startFrame < pmm.allocationHint then startFrame else pmm.allocationHint })
    else (false, pmm)

end KosKernel.Pmm
