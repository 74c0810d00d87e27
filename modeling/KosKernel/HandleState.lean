import Mathlib

/-! Kernel objects of `kernel/object.c` and the handle tables of `kernel/handle.c`. Each call
holds the lock of the table it works on, so it is one function of the state. A null process
pointer behaves as a process without a table. Object addresses are natural numbers, 0 for
null. -/
namespace KosKernel.Handle
open Function

inductive ObjectType
  | none
  | thread
  | process
  | mutex
  | semaphore
  | event
  | file
  | socket
  | waitQueue
  deriving DecidableEq

def rightNone : BitVec 32 := 0#32
def rightRead : BitVec 32 := 1#32 <<< 0
def rightWrite : BitVec 32 := 1#32 <<< 1
def rightWait : BitVec 32 := 1#32 <<< 3
def rightSignal : BitVec 32 := 1#32 <<< 4
def rightDuplicate : BitVec 32 := 1#32 <<< 5
def rightDestroy : BitVec 32 := 1#32 <<< 7

def invalidHandle : BitVec 32 := 0#32
def handleIndex (handle : BitVec 32) : ℕ := (handle &&& 0x0000FFFF#32).toNat
def handleGen (handle : BitVec 32) : BitVec 16 := (handle >>> 16).setWidth 16
def makeHandle (index : ℕ) (generation : BitVec 16) : BitVec 32 :=
  generation.setWidth 32 <<< 16 ||| (BitVec.ofNat 32 index &&& 0x0000FFFF#32)

def handleTableCapacity : ℕ := 64

variable {δ σ : Type*}

/-- `δ` names the destructor functions; `none` is a null destructor. -/
structure ObjectHeader (δ : Type*) where
  type : ObjectType
  refcount : BitVec 32
  destructor : Option δ
  deriving DecidableEq

structure HandleEntry where
  object : ℕ
  rights : BitVec 32
  generation : BitVec 16
  inUse : Bool
  deriving DecidableEq

structure HandleTable where
  entries : ℕ → HandleEntry
  count : ℕ

/-- The tables of the processes, the object headers by address, and what destructors act on. -/
structure HandleSystem (δ σ : Type*) where
  handles : ℕ → Option HandleTable
  objects : ℕ → ObjectHeader δ
  env : σ

section
variable (destroy : δ → ℕ → σ → σ) (s : HandleSystem δ σ)

def kosObjectInit (object : ℕ) (type : ObjectType) (destructor : Option δ) : HandleSystem δ σ :=
  if object = 0 then s
  else { s with objects := update s.objects object ⟨type, 1#32, destructor⟩ }

def addRefcount (object : ℕ) (delta : BitVec 32) : HandleSystem δ σ :=
  { s with
    objects := update s.objects object
      { s.objects object with refcount := (s.objects object).refcount + delta } }

def kosObjectRef (object : ℕ) : HandleSystem δ σ :=
  if object = 0 then s else addRefcount s object 1#32

def runDestructor (object : ℕ) : HandleSystem δ σ :=
  match (s.objects object).destructor with
  | none => s
  | some destructor => { s with env := destroy destructor object s.env }

def kosObjectUnref (object : ℕ) : HandleSystem δ σ :=
  if object = 0 then s
  else if (s.objects object).refcount - 1#32 = 0#32 then
    runDestructor destroy (addRefcount s object (-1#32)) object
  else addRefcount s object (-1#32)

def kosObjectGetRefcount (object : ℕ) : ℤ :=
  if object = 0 then 0 else (s.objects object).refcount.toInt

end

def freshEntry : HandleEntry := ⟨0, rightNone, 1#16, false⟩

def handleTableCreate : HandleTable := ⟨fun _ => freshEntry, 0⟩

def nextGeneration (generation : BitVec 16) : BitVec 16 :=
  if generation + 1#16 = 0#16 then 1#16 else generation + 1#16

def HandleTable.freeSlot (table : HandleTable) : Option ℕ :=
  (List.range handleTableCapacity).find? fun i => !(table.entries i).inUse

def issuedGeneration (entry : HandleEntry) : BitVec 16 :=
  if entry.generation = 0#16 then 1#16 else entry.generation

def HandleTable.fill (table : HandleTable) (i object : ℕ) (rights : BitVec 32) : HandleTable where
  entries := update table.entries i
    ⟨object, rights, issuedGeneration (table.entries i), true⟩
  count := table.count + 1

def HandleTable.clear (table : HandleTable) (i : ℕ) : HandleTable where
  entries := update table.entries i
    ⟨0, rightNone, nextGeneration (table.entries i).generation, false⟩
  count := if table.count > 0 then table.count - 1 else table.count

/-- The entry that a handle names, if its slot is in use under the generation of the handle. -/
def HandleTable.resolve (table : HandleTable) (handle : BitVec 32) : Option HandleEntry :=
  if handle = invalidHandle ∨ handleIndex handle ≥ handleTableCapacity then none
  else if (table.entries (handleIndex handle)).inUse = false ∨
    (table.entries (handleIndex handle)).generation ≠ handleGen handle then none
  else some (table.entries (handleIndex handle))

variable (destroy : δ → ℕ → σ → σ) (s : HandleSystem δ σ)

def setTable (process : ℕ) (table : HandleTable) : HandleSystem δ σ :=
  { s with handles := update s.handles process (some table) }

def handleCreate (process object : ℕ) (rights : BitVec 32) : BitVec 32 × HandleSystem δ σ :=
  if object = 0 then (invalidHandle, s)
  else
    match s.handles process with
    | none => (invalidHandle, s)
    | some table =>
      match table.freeSlot with
      | none => (invalidHandle, s)
      | some i =>
        (makeHandle i (issuedGeneration (table.entries i)),
          kosObjectRef (setTable s process (table.fill i object rights)) object)

/-- The object of a handle that carries the required rights, else null. -/
def handleLookup (process : ℕ) (handle requiredRights : BitVec 32) : ℕ :=
  match s.handles process with
  | none => 0
  | some table =>
    match table.resolve handle with
    | none => 0
    | some entry => if entry.rights &&& requiredRights ≠ requiredRights then 0 else entry.object

def handleClose (process : ℕ) (handle : BitVec 32) : Bool × HandleSystem δ σ :=
  match s.handles process with
  | none => (false, s)
  | some table =>
    match table.resolve handle with
    | none => (false, s)
    | some entry =>
      (true, kosObjectUnref destroy (setTable s process (table.clear (handleIndex handle)))
        entry.object)

/-- The rights a duplicate asks for: 0 asks for those of the source. -/
def targetRights (newRights sourceRights : BitVec 32) : BitVec 32 :=
  if newRights ≠ 0#32 then newRights else sourceRights

def handleDuplicate (source destination : ℕ) (handle newRights : BitVec 32) :
    BitVec 32 × HandleSystem δ σ :=
  match s.handles source, s.handles destination with
  | some table, some _ =>
    match table.resolve handle with
    | none => (invalidHandle, s)
    | some entry =>
      if entry.rights &&& rightDuplicate = 0#32 then (invalidHandle, s)
      else if targetRights newRights entry.rights &&& ~~~entry.rights ≠ 0#32 then (invalidHandle, s)
      else if entry.object = 0 then (invalidHandle, s)
      else
        -- a temporary reference keeps the object alive until the new handle holds one
        match handleCreate (kosObjectRef s entry.object) destination entry.object
          (targetRights newRights entry.rights) with
        | (duplicate, s) => (duplicate, kosObjectUnref destroy s entry.object)
  | _, _ => (invalidHandle, s)

def HandleTable.objects (table : HandleTable) : List ℕ :=
  (List.range handleTableCapacity).filterMap fun i =>
    if (table.entries i).inUse ∧ (table.entries i).object ≠ 0 then some (table.entries i).object
    else none

/-- The entries are cleared, the objects released, and the table itself is freed. -/
def handleTableDestroy (process : ℕ) : HandleSystem δ σ :=
  match s.handles process with
  | none => s
  | some table =>
    table.objects.foldl (kosObjectUnref destroy)
      { s with handles := update s.handles process none }

end KosKernel.Handle
