import Mathlib

/-! The block cache of `fs/block_cache.c`, over a layer that reads and writes single sectors.
The cache lock is held through every call, so each call is one function of the state. The
intrusive lists are lists of entry numbers, the head of a list first. -/
namespace KosKernel.BlockCache

/-- `block_read` and `block_write` of one sector, on the state of the devices. -/
structure BlockLayer (D α : Type*) where
  read : D → ℕ → BitVec 64 → Option α × D
  write : D → ℕ → BitVec 64 → α → Bool × D

def cacheCapacity : ℕ := 512
def hashSize : ℕ := 128

structure CacheEntry (α : Type*) where
  dev : Option ℕ
  lba : BitVec 64
  data : α
  valid : Bool
  dirty : Bool
  deriving DecidableEq

structure Cache (D α : Type*) where
  entries : ℕ → CacheEntry α
  lru : List ℕ
  hash : ℕ → List ℕ
  initialized : Bool
  disk : D

def cacheHash (devId : BitVec 32) (lba : BitVec 64) : ℕ :=
  let key := (devId.setWidth 64 <<< 48) ^^^ lba
  let key := ~~~key + (key <<< 18)
  let key := key ^^^ (key >>> 31)
  let key := key * 21#64
  let key := key ^^^ (key >>> 11)
  let key := key + (key <<< 6)
  let key := key ^^^ (key >>> 22)
  key.toNat % hashSize

variable {D α : Type*}

def blockCacheInit (data : ℕ → α) (disk : D) : Cache D α where
  entries i := ⟨none, 0#64, data i, false, false⟩
  lru := List.range cacheCapacity
  hash _ := []
  initialized := true
  disk := disk

section
variable (layer : BlockLayer D α) (devId : ℕ → BitVec 32) (c : Cache D α)

def Cache.setEntry (i : ℕ) (entry : CacheEntry α) : Cache D α :=
  { c with entries := Function.update c.entries i entry }

/-- `list_del` of the hash node: it leaves the bucket that it is in. -/
def Cache.hashDel (i : ℕ) : Cache D α := { c with hash := fun bucket => (c.hash bucket).erase i }

def Cache.hashAdd (bucket i : ℕ) : Cache D α :=
  { c with hash := Function.update c.hash bucket (i :: c.hash bucket) }

def Cache.matches (dev : ℕ) (lba : BitVec 64) (i : ℕ) : Bool :=
  (c.entries i).valid ∧ (c.entries i).dev = some dev ∧ (c.entries i).lba = lba

def cacheLookupLocked (dev : ℕ) (lba : BitVec 64) : Option ℕ :=
  (c.hash (cacheHash (devId dev) lba)).find? (c.matches dev lba)

def cacheFlushEntryLocked (i : ℕ) : Bool × Cache D α :=
  match (c.entries i).dev with
  | none => (true, c)
  | some dev =>
    if (c.entries i).valid = false ∨ (c.entries i).dirty = false then (true, c)
    else
      match layer.write c.disk dev (c.entries i).lba (c.entries i).data with
      | (true, disk) =>
        (true, Cache.setEntry { c with disk := disk } i { c.entries i with dirty := false })
      | (false, disk) => (false, { c with disk := disk })

/-- Whether the write-back of the victim succeeds is not looked at. -/
def evict (i : ℕ) : Cache D α :=
  let c := if (c.entries i).dirty then (cacheFlushEntryLocked layer c i).2 else c
  (c.hashDel i).setEntry i { c.entries i with valid := false }

def cacheTouchLocked (i : ℕ) : Cache D α := { c with lru := i :: c.lru.erase i }

def freeEntry : Option (ℕ × Cache D α) :=
  match c.lru.reverse.find? fun i => !(c.entries i).valid with
  | some i => some (i, c)
  | none =>
    match c.lru.getLast? with
    | none => none
    | some i => some (i, evict layer c i)

/-- The entry is given to a sector, linked into its bucket and moved to the front. -/
def associate (i dev : ℕ) (lba : BitVec 64) : Cache D α :=
  cacheTouchLocked ((c.setEntry i
    { c.entries i with dev := some dev, lba := lba, dirty := false, valid := false }).hashAdd
      (cacheHash (devId dev) lba) i) i

def cacheAllocateSlotLocked (dev : ℕ) (lba : BitVec 64) : Option (ℕ × Cache D α) :=
  match freeEntry layer c with
  | none => none
  | some (i, c) => some (i, associate devId c i dev lba)

/-- One turn of the loop of `block_cache_read`. -/
def readSector (dev : ℕ) (lba : BitVec 64) : Option α × Cache D α :=
  match cacheLookupLocked devId c dev lba with
  | some i => (some (c.entries i).data, cacheTouchLocked c i)
  | none =>
    match cacheAllocateSlotLocked layer devId c dev lba with
    | none =>
      match layer.read c.disk dev lba with
      | (data, disk) => (data, { c with disk := disk })
    | some (i, c) =>
      match layer.read c.disk dev lba with
      | (none, disk) =>
        (none, Cache.hashDel (Cache.setEntry { c with disk := disk } i
          { c.entries i with valid := false }) i)
      | (some data, disk) =>
        (some data, Cache.setEntry { c with disk := disk } i
          { c.entries i with data := data, valid := true, dirty := false })

/-- One turn of the loop of `block_cache_write`. -/
def writeSector (dev : ℕ) (lba : BitVec 64) (data : α) : Bool × Cache D α :=
  match cacheLookupLocked devId c dev lba with
  | some i =>
    (true, cacheTouchLocked (c.setEntry i { c.entries i with data := data, dirty := true }) i)
  | none =>
    match cacheAllocateSlotLocked layer devId c dev lba with
    | none =>
      match layer.write c.disk dev lba data with
      | (ok, disk) => (ok, { c with disk := disk })
    | some (i, c) =>
      (true, cacheTouchLocked
        (c.setEntry i { c.entries i with valid := true, data := data, dirty := true }) i)

end

variable (layer : BlockLayer D α) (devId : ℕ → BitVec 32)

def readLoop (dev : ℕ) : ℕ → BitVec 64 → Cache D α → Option (List α) × Cache D α
  | 0, _, c => (some [], c)
  | count + 1, lba, c =>
    match readSector layer devId c dev lba with
    | (none, c) => (none, c)
    | (some data, c) =>
      match readLoop dev count (lba + 1#64) c with
      | (rest, c) => (rest.map (data :: ·), c)

def blockCacheRead (c : Cache D α) (dev : Option ℕ) (lba : BitVec 64) (count : ℕ) :
    Option (List α) × Cache D α :=
  match dev with
  | none => (none, c)
  | some dev =>
    if c.initialized = false ∨ count = 0 then (none, c)
    else readLoop layer devId dev count lba c

def writeLoop (dev : ℕ) : List α → BitVec 64 → Cache D α → Bool × Cache D α
  | [], _, c => (true, c)
  | data :: rest, lba, c =>
    match writeSector layer devId c dev lba data with
    | (false, c) => (false, c)
    | (true, c) => writeLoop dev rest (lba + 1#64) c

def blockCacheWrite (c : Cache D α) (dev : Option ℕ) (lba : BitVec 64) (data : List α) :
    Bool × Cache D α :=
  match dev with
  | none => (false, c)
  | some dev =>
    if c.initialized = false ∨ data = [] then (false, c)
    else writeLoop layer devId dev data lba c

/-- One turn of the loop of `block_cache_flush_device`; a null device stands for all. -/
def flushTurn (dev : Option ℕ) (state : Bool × Cache D α) (i : ℕ) : Bool × Cache D α :=
  let entry := state.2.entries i
  if entry.valid ∧ entry.dirty ∧ (dev = none ∨ entry.dev = dev) then
    match cacheFlushEntryLocked layer state.2 i with
    | (ok, c) => (state.1 && ok, c)
  else state

/-- The flush of the device itself, which follows, changes no sector. -/
def blockCacheFlushDevice (c : Cache D α) (dev : Option ℕ) : Bool × Cache D α :=
  if c.initialized = false then (false, c)
  else (List.range cacheCapacity).foldl (flushTurn layer dev) (true, c)

def blockCacheSync (c : Cache D α) : Bool × Cache D α := blockCacheFlushDevice layer c none

def invalidateTurn (dev : ℕ) (c : Cache D α) (i : ℕ) : Cache D α :=
  if (c.entries i).valid ∧ (c.entries i).dev = some dev then
    let c := if (c.entries i).dirty then (cacheFlushEntryLocked layer c i).2 else c
    (c.hashDel i).setEntry i { c.entries i with valid := false, dirty := false, dev := none }
  else c

def blockCacheInvalidateDevice (c : Cache D α) (dev : Option ℕ) : Cache D α :=
  match dev with
  | none => c
  | some dev =>
    if c.initialized = false then c
    else (List.range cacheCapacity).foldl (invalidateTurn layer dev) c

inductive Call (α : Type*) where
  | read (dev : ℕ) (lba : BitVec 64) (count : ℕ)
  | write (dev : ℕ) (lba : BitVec 64) (data : List α)
  | flush (dev : Option ℕ)
  | sync
  | invalidate (dev : Option ℕ)

end KosKernel.BlockCache
