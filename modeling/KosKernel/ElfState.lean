import KosKernel.ByteMemory
import KosKernel.VmmState

/-! Loading a program: `fs/elf.c` and the first steps of `process_exec`. A frame that holds data
is never a table, so the contents of frames are kept beside the tables, by the address of the
frame. -/
namespace KosKernel.Elf
open Pmm Vmm

abbrev Byte := BitVec 8

def userStackTop : ℕ := 0x00007fffffffe000
def userStackSize : ℕ := 64 * 1024
def userStackBottom : ℕ := userStackTop - userStackSize
def userStackGuardPage : ℕ := userStackBottom - 4096
def imageBase : ℕ := 0x00200000

abbrev PageBytes := Fin pageSize → Byte

structure Machine where
  vmm : VmmState
  data : ℕ → PageBytes

def untilFailure {α : Type*} (turn : Machine → α → Bool × Machine) :
    List α → Machine → Bool × Machine
  | [], m => (true, m)
  | x :: rest, m =>
    match turn m x with
    | (false, m) => (false, m)
    | (true, m) => untilFailure turn rest m

section
def field (file : List Byte) (offset size : ℕ) : ℕ :=
  ByteMemory.readBytes (fun i => file.getD i 0) offset size

def headerSize : ℕ := 64
def programHeaderSize : ℕ := 56
def ptLoad : ℕ := 1
def ptInterp : ℕ := 3

structure ProgramHeader where
  type : ℕ
  flags : ℕ
  offset : ℕ
  vaddr : ℕ
  filesz : ℕ
  memsz : ℕ
  align : ℕ
  deriving DecidableEq

def entryPoint (file : List Byte) : ℕ := field file 24 8
def programHeaderOffset (file : List Byte) : ℕ := field file 32 8
def programHeaderCount (file : List Byte) : ℕ := field file 56 2

def programHeader (file : List Byte) (index : ℕ) : ProgramHeader :=
  let base := programHeaderOffset file + index * programHeaderSize
  { type := field file base 4
    flags := field file (base + 4) 4
    offset := field file (base + 8) 8
    vaddr := field file (base + 16) 8
    filesz := field file (base + 32) 8
    memsz := field file (base + 40) 8
    align := field file (base + 48) 8 }

def rangeIsValid (offset length totalSize : ℕ) : Bool :=
  decide (offset ≤ totalSize) && decide (length ≤ totalSize - offset)

def isPowerOfTwo (value : ℕ) : Bool := value != 0 && (value &&& (value - 1)) == 0

def headerIsValid (file : List Byte) : Bool :=
  decide (headerSize ≤ file.length) &&
    file.take 7 == [0x7f, 0x45, 0x4c, 0x46, 2, 1, 1] &&
    field file 16 2 == 2 && field file 18 2 == 62 && field file 20 4 == 1 &&
    field file 52 2 == headerSize && field file 54 2 == programHeaderSize &&
    programHeaderCount file != 0 && decide (programHeaderCount file ≤ 64) &&
    rangeIsValid (programHeaderOffset file) (programHeaderCount file * programHeaderSize)
      file.length &&
    decide (imageBase ≤ entryPoint file) && decide (entryPoint file < userLimit)

/-- The checks on a segment to load; the sum of 64-bit numbers may wrap. -/
def segmentIsValid (file : List Byte) (segment : ProgramHeader) : Bool :=
  let end_ := (segment.vaddr + segment.memsz) % 2 ^ 64
  !decide (segment.memsz < segment.filesz) &&
    rangeIsValid segment.offset segment.filesz file.length &&
    !decide (segment.vaddr < imageBase) &&
    !(decide (0 < segment.memsz) && (decide (end_ < segment.vaddr) || decide (userLimit ≤ end_))) &&
    !(decide (1 < segment.align) && (!isPowerOfTwo segment.align ||
      segment.vaddr % segment.align != segment.offset % segment.align))

/-- The loop over the program headers: the segments to load, or nothing if the file is refused. -/
def collectLoadable (file : List Byte) : List ProgramHeader → Option (List ProgramHeader)
  | [] => some []
  | header :: rest =>
    if header.type = ptInterp then none
    else if header.type = ptLoad then
      if segmentIsValid file header = false then none
      else (collectLoadable file rest).map (header :: ·)
    else collectLoadable file rest

def segmentsOverlap (a b : ProgramHeader) : Bool :=
  decide (max a.vaddr b.vaddr < min (a.vaddr + a.memsz) (b.vaddr + b.memsz))

def nonOverlapping : List ProgramHeader → Bool
  | [] => true
  | segment :: rest => rest.all (fun other => !segmentsOverlap segment other) && nonOverlapping rest

def isExecutable (segment : ProgramHeader) : Bool := segment.flags.testBit 0
def isWritable (segment : ProgramHeader) : Bool := segment.flags.testBit 1

def entryIsValid (entry : ℕ) (loadable : List ProgramHeader) : Bool :=
  loadable.any fun segment =>
    isExecutable segment && decide (segment.vaddr ≤ entry) &&
      decide (entry < segment.vaddr + segment.memsz)

def elfParse (file : List Byte) : Option (List ProgramHeader) :=
  if headerIsValid file = false then none
  else
    match collectLoadable file
      ((List.range (programHeaderCount file)).map (programHeader file)) with
    | none => none
    | some loadable =>
      if loadable = [] ∨ nonOverlapping loadable = false ∨
          entryIsValid (entryPoint file) loadable = false then none
      else some loadable

end

section
def segmentFlags (segment : ProgramHeader) : BitVec 64 :=
  let flags := vmmPageUser
  let flags := if isWritable segment then flags ||| vmmPageWritable else flags
  if isExecutable segment = false then flags ||| vmmPageNoExecute else flags

def segmentPages (segment : ProgramHeader) : List ℕ :=
  let first := segment.vaddr / pageSize * pageSize
  let end_ := (segment.vaddr + segment.memsz + pageSize - 1) / pageSize * pageSize
  (List.range ((end_ - first) / pageSize)).map fun i => first + i * pageSize

def zeroFrame (data : ℕ → PageBytes) (frame : ℕ) : ℕ → PageBytes :=
  Function.update data frame fun _ => 0

/-- The bytes of a page with those that the file has for it copied over them. -/
def overlay (file : List Byte) (segment : ProgramHeader) (va : ℕ) (bytes : PageBytes) : PageBytes :=
  let start := max segment.vaddr va
  let end_ := min (segment.vaddr + segment.filesz) (va + pageSize)
  fun offset =>
    if start ≤ va + offset ∧ va + offset < end_ then
      file.getD (segment.offset + (va + offset - segment.vaddr)) 0
    else bytes offset

def copySegment (file : List Byte) (segment : ProgramHeader) (va : ℕ) (data : ℕ → PageBytes)
    (frame : ℕ) : ℕ → PageBytes :=
  Function.update data frame (overlay file segment va (data frame))

def loadPage (file : List Byte) (root : ℕ) (segment : ProgramHeader) (m : Machine) (va : ℕ) :
    Bool × Machine :=
  match vmmQueryPageIn m.vmm root va with
  | some (frame, _) => (true, { m with data := copySegment file segment va m.data frame })
  | none =>
    let (frame, pmm) := pmmAllocateFrame m.vmm.pmm
    let vmm := { m.vmm with pmm }
    if frame = 0 then (false, { m with vmm })
    else
      match vmmMapPageIn vmm root va frame (segmentFlags segment) with
      | (false, vmm) => (false, { m with vmm := (pmmFree vmm frame).2 })
      | (true, vmm) =>
        (true, { vmm, data := copySegment file segment va (zeroFrame m.data frame) frame })

def loadSegment (file : List Byte) (root : ℕ) (m : Machine) (segment : ProgramHeader) :
    Bool × Machine :=
  if segment.memsz = 0 then (true, m)
  else untilFailure (loadPage file root segment) (segmentPages segment) m

end

section
/-- The arguments of a program. A string is given without the byte that ends it. -/
structure Arguments where
  argc : ℤ
  argv : Option (ℕ → Option (List Byte))

structure StackPage where
  address : ℕ
  frame : ℕ
  newlyAllocated : Bool
  deriving DecidableEq, Repr, Inhabited

def removeGuard (m : Machine) (root : ℕ) : Machine :=
  if (vmmQueryPageIn m.vmm root userStackGuardPage).isSome then
    { m with vmm := (vmmUnmapPageIn m.vmm root userStackGuardPage).2 }
  else m

def stackFlags : BitVec 64 := vmmPageUser ||| vmmPageWritable ||| vmmPageNoExecute

def mapStackPage (root : ℕ) (m : Machine) (address : ℕ) : Option StackPage × Machine :=
  match vmmQueryPageIn m.vmm root address with
  | some (frame, _) =>
    (some ⟨address, frame, false⟩, { m with data := zeroFrame m.data frame })
  | none =>
    let (frame, pmm) := pmmAllocateFrame m.vmm.pmm
    let vmm := { m.vmm with pmm }
    if frame = 0 then (none, { m with vmm })
    else
      match vmmMapPageIn vmm root address frame stackFlags with
      | (false, vmm) => (none, { m with vmm := (pmmFree vmm frame).2 })
      | (true, vmm) => (some ⟨address, frame, true⟩, { vmm, data := zeroFrame m.data frame })

/-- The loop over the stack pages; `pages` are the ones that are there. -/
def mapStackPages (root : ℕ) : List ℕ → Machine → List StackPage → Bool × List StackPage × Machine
  | [], m, pages => (true, pages, m)
  | address :: rest, m, pages =>
    match mapStackPage root m address with
    | (none, m) => (false, pages, m)
    | (some page, m) => mapStackPages root rest m (pages ++ [page])

def unwindPage (root : ℕ) (m : Machine) (page : StackPage) : Machine :=
  if page.newlyAllocated then
    { m with vmm := (pmmFree (vmmUnmapPageIn m.vmm root page.address).2 page.frame).2 }
  else m

def unwindStack (root : ℕ) (pages : List StackPage) (m : Machine) : Machine :=
  pages.foldl (unwindPage root) m

def argumentStrings (args : Arguments) : Option (List (List Byte)) :=
  (List.range args.argc.toNat).mapM fun i =>
    match args.argv.bind fun argv => argv i with
    | none => none
    | some text => if 4096 < text.length then none else some text

def writeStack (pages : List StackPage) (data : ℕ → PageBytes) : ℕ → List Byte → ℕ → PageBytes
  | _, [] => data
  | address, byte :: rest =>
    let frame := (pages.getD ((address - userStackBottom) / pageSize) default).frame
    let offset := ⟨(address - userStackBottom) % pageSize, Nat.mod_lt _ (by decide)⟩
    writeStack pages (Function.update data frame (Function.update (data frame) offset byte))
      (address + 1) rest

def stackWriteBytes (pages : List StackPage) (data : ℕ → PageBytes) (address : ℕ)
    (bytes : List Byte) : Option (ℕ → PageBytes) :=
  if address < userStackBottom ∨ userStackTop < address + bytes.length then none
  else some (writeStack pages data address bytes)

/-- The loop that writes the strings: the stack pointer and the pointers to them. -/
def pushStrings (pages : List StackPage) :
    List (List Byte) → ℕ → List ℕ → (ℕ → PageBytes) → Option (ℕ × List ℕ) × (ℕ → PageBytes)
  | [], sp, pointers, data => (some (sp, pointers), data)
  | text :: rest, sp, pointers, data =>
    let sp := sp - (text.length + 1)
    match stackWriteBytes pages data sp (text ++ [0]) with
    | none => (none, data)
    | some data => pushStrings pages rest sp (pointers ++ [sp]) data

def quadwordBytes (value : ℕ) : List Byte :=
  (List.range 8).map fun i => BitVec.ofNat 8 (value / 256 ^ i)

/-- The strings and the table below them; the stack pointer if all fits. -/
def fillStack (pages : List StackPage) (args : Arguments) (data : ℕ → PageBytes) :
    Option ℕ × (ℕ → PageBytes) :=
  match argumentStrings args with
  | none => (none, data)
  | some strings =>
    let stringBytes := (strings.map fun text => text.length + 1).sum
    let tableBytes := (1 + args.argc.toNat + 1 + 1 + 2) * 8
    if userStackSize < stringBytes + tableBytes + 64 then (none, data)
    else
      match pushStrings pages strings userStackTop [] data with
      | (none, data) => (none, data)
      | (some (sp, pointers), data) =>
        if sp < tableBytes then (none, data)
        else
          let target := (sp - tableBytes) / 16 * 16
          if target < userStackBottom then (none, data)
          else
            let table := args.argc.toNat :: pointers ++ [0, 0, 0, 0]
            match stackWriteBytes pages data target (table.flatMap quadwordBytes) with
            | none => (none, data)
            | some data => (some target, data)

def stackAddresses : List ℕ := (List.range 16).map fun i => userStackBottom + i * pageSize

def processSetupUserStack (m : Machine) (root : ℕ) (args : Arguments) : Option ℕ × Machine :=
  if root = 0 ∨ root % pageSize ≠ 0 then (none, m)
  else if args.argc < 0 ∨ 64 < args.argc then (none, m)
  else if 0 < args.argc ∧ args.argv.isNone then (none, m)
  else
    match mapStackPages root stackAddresses (removeGuard m root) [] with
    | (false, pages, m) => (none, unwindStack root pages m)
    | (true, pages, m) =>
      match fillStack pages args m.data with
      | (none, data) => (none, unwindStack root pages { m with data })
      | (some pointer, data) => (some pointer, { m with data })

end

def clearUser (m : Machine) (root : ℕ) : Machine :=
  { m with vmm := vmmClearUserAddressSpace m.vmm root }

structure BinaryImage where
  entryPoint : ℕ
  userStackTop : ℕ
  userStackBottom : ℕ
  userRsp : ℕ
  deriving DecidableEq

/-- `file` is what the VFS reads, if it reads anything. -/
def elfLoadBinary (m : Machine) (root : ℕ) (file : Option (List Byte)) :
    Option BinaryImage × Machine :=
  if root = 0 ∨ root % pageSize ≠ 0 then (none, m)
  else
    match file with
    | none => (none, m)
    | some file =>
      match elfParse file with
      | none => (none, m)
      | some loadable =>
        match untilFailure (loadSegment file root) loadable m with
        | (false, m) => (none, clearUser m root)
        | (true, m) =>
          match processSetupUserStack m root ⟨0, none⟩ with
          | (none, m) => (none, clearUser m root)
          | (some pointer, m) =>
            (some ⟨entryPoint file, userStackTop, userStackBottom, pointer⟩, m)

/-- The new address space of a process: its top-level table, where to start and the stack. -/
structure Program where
  root : ℕ
  image : BinaryImage
  userRsp : ℕ
  deriving DecidableEq

def destroySpace (m : Machine) (root : ℕ) : Machine :=
  { m with vmm := vmmDestroyAddressSpace m.vmm root }

/-- The first three steps of `process_exec`. -/
def processExec (m : Machine) (file : Option (List Byte)) (args : Arguments) :
    Option Program × Machine :=
  let (root, vmm) := vmmCreateAddressSpace m.vmm
  let m := { m with vmm }
  if root = 0 then (none, m)
  else
    match elfLoadBinary m root file with
    | (none, m) => (none, destroySpace m root)
    | (some image, m) =>
      match processSetupUserStack m root args with
      | (none, m) => (none, destroySpace m root)
      | (some pointer, m) => (some ⟨root, image, pointer⟩, m)

end KosKernel.Elf
