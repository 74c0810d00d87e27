import KosKernel.BlockDevices

/-! Transfers of several blocks through `drivers/block.c` and `drivers/ramdisk.c`. The model
records every access on the way down: the calls of a driver, of a partition's parent and of
`kmemcpy` on the buffer of a ramdisk. All range checks are made on 64-bit sums. -/
namespace KosKernel.Block

inductive DeviceState where
  | offline
  | online
  | error
  deriving DecidableEq

/-- The tables of operations: those of a ramdisk, those of a partition, and those of any other
driver, of which either operation may be missing. -/
inductive Operations where
  | ramdisk
  | partition
  | other (reads writes : Bool)
  deriving DecidableEq

structure BlockDevice where
  state : DeviceState
  blockSize : BitVec 64
  totalBlocks : BitVec 64
  ops : Option Operations
  /-- The size of the buffer of a ramdisk, if it has its private data. -/
  sizeBytes : Option (BitVec 64)
  parent : Option ℕ
  startLba : BitVec 64
  deriving DecidableEq

inductive Direction where
  | read
  | write
  deriving DecidableEq

def Operations.supports : Operations → Direction → Bool
  | .other reads _, .read => reads
  | .other _ writes, .write => writes
  | _, _ => true

inductive Access where
  /-- The operation of the device is called. -/
  | driver (dev : ℕ) (lba : BitVec 64) (count : BitVec 32)
  /-- The partition `dev` passes an access on to its parent. -/
  | parent (dev : ℕ) (lba : BitVec 64) (count : BitVec 32)
  /-- The bytes of the ramdisk's buffer that are copied. -/
  | bytes (dev : ℕ) (offset length : BitVec 64)
  deriving DecidableEq

abbrev Outcome := Bool × List Access

/-- The sum of a block address and a count, as the checks form it. -/
def lastBlock (lba : BitVec 64) (count : BitVec 32) : BitVec 64 := lba + count.setWidth 64

/-- `partition_read_blocks` and `partition_write_blocks`. -/
def partitionBlocks (parentCall : ℕ → BitVec 64 → BitVec 32 → Outcome) (dev : ℕ)
    (device : BlockDevice) (lba : BitVec 64) (count : BitVec 32) : Outcome :=
  match device.parent with
  | none => (false, [])
  | some parent =>
    if lastBlock lba count > device.totalBlocks then (false, [])
    else
      let (result, accesses) := parentCall parent (device.startLba + lba) count
      (result, .parent dev (device.startLba + lba) count :: accesses)

def ramdiskOffset (device : BlockDevice) (lba : BitVec 64) : BitVec 64 := lba * device.blockSize

def ramdiskByteCount (device : BlockDevice) (count : BitVec 32) : BitVec 64 :=
  count.setWidth 64 * device.blockSize

/-- `ramdisk_read_blocks` and `ramdisk_write_blocks`. -/
def ramdiskBlocks (dev : ℕ) (device : BlockDevice) (lba : BitVec 64) (count : BitVec 32) :
    Outcome :=
  match device.sizeBytes with
  | none => (false, [])
  | some size =>
    if ramdiskOffset device lba + ramdiskByteCount device count > size then (false, [])
    else (true, [.bytes dev (ramdiskOffset device lba) (ramdiskByteCount device count)])

/-- The checks that `block_read` and `block_write` make before they call the driver. -/
def admits (device : BlockDevice) (direction : Direction) (lba : BitVec 64) (count : BitVec 32) :
    Bool :=
  count != 0 && device.state == .online && !(lastBlock lba count > device.totalBlocks) &&
    (device.ops.elim false fun ops => ops.supports direction)

/-- `block_read` and `block_write`, down a chain of at most `depth` devices. The driver of a
device that is neither a ramdisk nor a partition answers with `reply`. -/
def blockTransfer (devices : ℕ → BlockDevice) (reply : ℕ → BitVec 64 → BitVec 32 → Bool)
    (direction : Direction) : ℕ → ℕ → BitVec 64 → BitVec 32 → Outcome
  | 0, _, _, _ => (false, [])
  | depth + 1, dev, lba, count =>
    if admits (devices dev) direction lba count = false then (false, [])
    else
      let (result, accesses) :=
        match (devices dev).ops with
        | some .partition =>
          partitionBlocks (blockTransfer devices reply direction depth) dev (devices dev) lba count
        | some .ramdisk => ramdiskBlocks dev (devices dev) lba count
        | _ => (reply dev lba count, [])
      (result, .driver dev lba count :: accesses)

def blockRead (devices : ℕ → BlockDevice) (reply : ℕ → BitVec 64 → BitVec 32 → Bool) :
    ℕ → ℕ → BitVec 64 → BitVec 32 → Outcome :=
  blockTransfer devices reply .read

def blockWrite (devices : ℕ → BlockDevice) (reply : ℕ → BitVec 64 → BitVec 32 → Bool) :
    ℕ → ℕ → BitVec 64 → BitVec 32 → Outcome :=
  blockTransfer devices reply .write

/-- Over the naturals: a driver is called only inside its device, a parent only inside the
partition, and only bytes of the buffer are copied. -/
def Access.InBounds (devices : ℕ → BlockDevice) : Access → Prop
  | .driver dev lba count => lba.toNat + count.toNat ≤ (devices dev).totalBlocks.toNat
  | .parent dev lba count =>
    (devices dev).startLba.toNat ≤ lba.toNat ∧
      lba.toNat + count.toNat ≤ (devices dev).startLba.toNat + (devices dev).totalBlocks.toNat
  | .bytes dev offset length =>
    ∀ size ∈ (devices dev).sizeBytes, offset.toNat + length.toNat ≤ size.toNat

instance (devices : ℕ → BlockDevice) : DecidablePred (Access.InBounds devices)
  | .driver _ _ _ => inferInstanceAs (Decidable (_ ≤ _))
  | .parent _ _ _ => inferInstanceAs (Decidable (_ ∧ _))
  | .bytes dev offset length =>
    inferInstanceAs (Decidable (∀ size ∈ (devices dev).sizeBytes,
      offset.toNat + length.toNat ≤ size.toNat))

lemma inBounds_driver {devices : ℕ → BlockDevice} {dev : ℕ} {lba : BitVec 64} {count : BitVec 32} :
    (Access.driver dev lba count).InBounds devices ↔
      lba.toNat + count.toNat ≤ (devices dev).totalBlocks.toNat := Iff.rfl

/-- No sum that the checks of a call rest on wraps: neither the block sums of the devices that
admit it, nor the addresses in their parents, nor the byte sums of a ramdisk that pass. -/
def SumsFit (devices : ℕ → BlockDevice) (direction : Direction) :
    ℕ → ℕ → BitVec 64 → BitVec 32 → Prop
  | 0, _, _, _ => True
  | depth + 1, dev, lba, count =>
    admits (devices dev) direction lba count = true →
      lba.toNat + count.toNat < 2 ^ 64 ∧
      ((devices dev).ops = some .partition → ∀ parent ∈ (devices dev).parent,
        (devices dev).startLba.toNat + lba.toNat < 2 ^ 64 ∧
          SumsFit devices direction depth parent ((devices dev).startLba + lba) count) ∧
      ((devices dev).ops = some .ramdisk → ∀ size ∈ (devices dev).sizeBytes,
        ramdiskOffset (devices dev) lba + ramdiskByteCount (devices dev) count ≤ size →
          (ramdiskOffset (devices dev) lba).toNat +
            (ramdiskByteCount (devices dev) count).toNat < 2 ^ 64)

section
variable {a b total : BitVec 64} {count : BitVec 32}

lemma lastBlock_toNat : (lastBlock a count).toNat = (a.toNat + count.toNat) % 2 ^ 64 := by
  rw [lastBlock, BitVec.toNat_add, BitVec.toNat_setWidth_of_le (by norm_num)]

lemma lastBlock_le_iff (h : ¬lastBlock a count > total) :
    a.toNat + count.toNat ≤ total.toNat ↔ a.toNat + count.toNat < 2 ^ 64 := by
  rw [gt_iff_lt, BitVec.lt_def, lastBlock_toNat] at h
  have := total.isLt
  omega

lemma sum_le_iff (h : a + b ≤ total) :
    a.toNat + b.toNat ≤ total.toNat ↔ a.toNat + b.toNat < 2 ^ 64 := by
  rw [BitVec.le_def, BitVec.toNat_add] at h
  have := total.isLt
  omega

lemma shifted_iff {start lba : BitVec 64} (h : lba.toNat + count.toNat ≤ total.toNat) :
    (start.toNat ≤ (start + lba).toNat ∧
        (start + lba).toNat + count.toNat ≤ start.toNat + total.toNat) ↔
      start.toNat + lba.toNat < 2 ^ 64 := by
  rw [BitVec.toNat_add]
  have := start.isLt
  have := lba.isLt
  omega

end

section
variable {devices : ℕ → BlockDevice} {direction : Direction} {dev : ℕ} {lba : BitVec 64}
  {count : BitVec 32}

lemma admits_lastBlock {device : BlockDevice} (h : admits device direction lba count = true) :
    ¬lastBlock lba count > device.totalBlocks := by
  simp only [admits, Bool.and_eq_true, Bool.not_eq_true', decide_eq_false_iff_not] at h
  exact h.1.2

lemma partitionBlocks_inBounds (parentCall : ℕ → BitVec 64 → BitVec 32 → Outcome)
    (hlast : ¬lastBlock lba count > (devices dev).totalBlocks)
    (hcount : lba.toNat + count.toNat ≤ (devices dev).totalBlocks.toNat) :
    (∀ access ∈ (partitionBlocks parentCall dev (devices dev) lba count).2,
        access.InBounds devices) ↔
      ∀ parent ∈ (devices dev).parent, (devices dev).startLba.toNat + lba.toNat < 2 ^ 64 ∧
          ∀ access ∈ (parentCall parent ((devices dev).startLba + lba) count).2,
            access.InBounds devices := by
  cases hparent : (devices dev).parent with
  | none => simp [partitionBlocks, hparent]
  | some parent =>
    simp only [partitionBlocks, hparent, if_neg hlast, List.forall_mem_cons, Access.InBounds,
      shifted_iff hcount, Option.mem_def, Option.some.injEq, forall_eq']

lemma ramdiskBlocks_inBounds :
    (∀ access ∈ (ramdiskBlocks dev (devices dev) lba count).2, access.InBounds devices) ↔
      ∀ size ∈ (devices dev).sizeBytes,
        ramdiskOffset (devices dev) lba + ramdiskByteCount (devices dev) count ≤ size →
          (ramdiskOffset (devices dev) lba).toNat +
            (ramdiskByteCount (devices dev) count).toNat < 2 ^ 64 := by
  cases hsize : (devices dev).sizeBytes with
  | none => simp [ramdiskBlocks, hsize]
  | some size =>
    by_cases hle : ramdiskOffset (devices dev) lba + ramdiskByteCount (devices dev) count ≤ size
    · have hpass := BitVec.not_lt.mpr hle
      simp only [ramdiskBlocks, hsize, gt_iff_lt, if_neg hpass, List.forall_mem_singleton,
        Access.InBounds, Option.mem_def, Option.some.injEq, forall_eq', sum_le_iff hle, hle,
        true_imp_iff]
    · have hfail := BitVec.not_le.mp hle
      simp [ramdiskBlocks, hsize, hfail, hle]

end

/-- Every access of a call on a device, down its partitions and to the bytes of a ramdisk, is in
bounds exactly when none of the sums that passed a check had wrapped. -/
theorem accesses_in_bounds_iff (devices : ℕ → BlockDevice)
    (reply : ℕ → BitVec 64 → BitVec 32 → Bool) (direction : Direction) (depth dev : ℕ)
    (lba : BitVec 64) (count : BitVec 32) :
    (∀ access ∈ (blockTransfer devices reply direction depth dev lba count).2,
        access.InBounds devices) ↔
      SumsFit devices direction depth dev lba count := by
  induction depth generalizing dev lba with
  | zero => simp [blockTransfer, SumsFit]
  | succ depth ih =>
    cases hadmits : admits (devices dev) direction lba count with
    | false => simp [blockTransfer, SumsFit, hadmits]
    | true =>
      have hlast := admits_lastBlock hadmits
      simp only [blockTransfer, SumsFit, hadmits, Bool.true_eq_false, if_false, true_imp_iff,
        List.forall_mem_cons, inBounds_driver, lastBlock_le_iff hlast]
      apply and_congr_right
      intro hfits
      have hcount := (lastBlock_le_iff hlast).mpr hfits
      cases hops : (devices dev).ops with
      | none => simp
      | some ops =>
        cases ops with
        | ramdisk => simpa using ramdiskBlocks_inBounds
        | partition =>
          simpa [ih] using
            partitionBlocks_inBounds (blockTransfer devices reply direction depth) hlast hcount
        | other reads writes => simp

/-- The same device to the single-sector model of `BlockDevices`. -/
def BlockDevice.toDevice (device : BlockDevice) : BlockCache.Device where
  online := device.state == .online
  totalBlocks := device.totalBlocks
  writable := device.ops.elim false fun ops => ops.supports .write
  parent :=
    if device.ops = some .partition then device.parent.map fun parent => (parent, device.startLba)
    else none

/-- The disk that the single-sector model finds has its driver called for that sector, if every
device has an operation to read. -/
theorem driver_of_locate {devices : ℕ → BlockDevice} (reply : ℕ → BitVec 64 → BitVec 32 → Bool)
    (direction : Direction) {depth dev disk : ℕ} {lba sector : BitVec 64}
    (hreads : ∀ dev, ((devices dev).ops.elim false fun ops => ops.supports .read) = true)
    (h : BlockCache.locate (fun dev => (devices dev).toDevice) (direction == .write) depth dev lba =
      some (disk, sector)) :
    .driver disk sector 1 ∈ (blockTransfer devices reply direction depth dev lba 1).2 := by
  induction depth generalizing dev lba with
  | zero => cases h
  | succ depth ih =>
    rw [BlockCache.locate] at h
    split_ifs at h with honline hbound hwritable
    have hadmits : admits (devices dev) direction lba 1 = true := by
      have := hreads dev
      cases direction <;> simp_all [admits, BlockDevice.toDevice, lastBlock]
    simp only [blockTransfer, hadmits, Bool.true_eq_false, if_false]
    split at h
    · cases h
      exact List.mem_cons_self
    · next parent first hparent =>
      obtain ⟨hops, hdevice, rfl⟩ : (devices dev).ops = some .partition ∧
          (devices dev).parent = some parent ∧ (devices dev).startLba = first := by
        simpa [BlockDevice.toDevice] using hparent
      simp only [hops, partitionBlocks, hdevice, if_neg (admits_lastBlock hadmits)]
      exact List.mem_cons_of_mem _ (List.mem_cons_of_mem _ (ih h))

def smallRamdisk : BlockDevice where
  state := .online
  blockSize := 512
  totalBlocks := 8
  ops := some .ramdisk
  sizeBytes := some 4096
  parent := none
  startLba := 0

theorem driver_of_locate_partition : .driver 1 5 1 ∈ (blockTransfer (fun dev => if dev = 0 then
      { smallRamdisk with ops := some .partition, parent := some 1, startLba := 2 }
    else smallRamdisk) (fun _ _ _ => true) .write 2 0 3 1).2 :=
  driver_of_locate _ _ (fun dev => by split <;> rfl) rfl

/-- Two blocks from the last 64-bit address on: both sums wrap, and the copy starts 512 bytes
before the buffer. -/
theorem wrapped_read_leaves_ramdisk :
    (blockRead (fun _ => smallRamdisk) (fun _ _ _ => true) 1 0 0xffffffffffffffff 2).2 =
        [.driver 0 0xffffffffffffffff 2, .bytes 0 0xfffffffffffffe00 1024] ∧
      ¬∀ access ∈
        (blockRead (fun _ => smallRamdisk) (fun _ _ _ => true) 1 0 0xffffffffffffffff 2).2,
        access.InBounds fun _ => smallRamdisk := by
  decide

end KosKernel.Block
