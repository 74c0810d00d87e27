import KosKernel.BlockCacheState

/-! Single-sector access through `drivers/block.c`: a device is a disk of its own, or a partition
that passes the access on to its parent. -/
namespace KosKernel.BlockCache
variable {α : Type*}

structure Device where
  online : Bool
  totalBlocks : BitVec 64
  /-- Whether the driver has an operation to write blocks. -/
  writable : Bool
  /-- The parent of a partition and its first sector there. -/
  parent : Option (ℕ × BitVec 64)
  deriving DecidableEq

/-- No more devices than this can be registered, so no chain of parents is longer. -/
def maxDevices : ℕ := 64

/-- The disk and sector that an access ends at, if it passes the checks on the way. The bound
is checked with the sum of 64-bit numbers. -/
def locate (device : ℕ → Device) (write : Bool) : ℕ → ℕ → BitVec 64 → Option (ℕ × BitVec 64)
  | 0, _, _ => none
  | depth + 1, dev, lba =>
    if (device dev).online = false then none
    else if lba + 1#64 > (device dev).totalBlocks then none
    else if write ∧ (device dev).writable = false then none
    else
      match (device dev).parent with
      | none => some (dev, lba)
      | some (parent, start) => locate device write depth parent (start + lba)

abbrev Disks (α : Type*) := ℕ × BitVec 64 → α

def blockRead (device : ℕ → Device) (disks : Disks α) (dev : ℕ) (lba : BitVec 64) : Option α :=
  (locate device false maxDevices dev lba).map disks

def blockWrite (device : ℕ → Device) (disks : Disks α) (dev : ℕ) (lba : BitVec 64) (data : α) :
    Bool × Disks α :=
  match locate device true maxDevices dev lba with
  | none => (false, disks)
  | some place => (true, Function.update disks place data)

def deviceLayer (device : ℕ → Device) : BlockLayer (Disks α) α where
  read disks dev lba := (blockRead device disks dev lba, disks)
  write disks dev lba data := blockWrite device disks dev lba data

section
variable {device : ℕ → Device} {write : Bool} {depth dev : ℕ} {lba : BitVec 64}
  (honline : (device dev).online = true) (hwritable : (device dev).writable = true)
  (hlba : lba < (device dev).totalBlocks)
include hlba

lemma within_bound : ¬lba + 1#64 > (device dev).totalBlocks := by
  rw [gt_iff_lt, BitVec.not_lt]
  bv_omega

include honline hwritable

lemma locate_disk (hparent : (device dev).parent = none) :
    locate device write (depth + 1) dev lba = some (dev, lba) := by
  rw [locate, if_neg (by simp [honline]), if_neg (within_bound hlba), if_neg (by simp [hwritable])]
  simp only [hparent]

lemma locate_partition {parent : ℕ} {start : BitVec 64}
    (hparent : (device dev).parent = some (parent, start)) :
    locate device write (depth + 1) dev lba = locate device write depth parent (start + lba) := by
  rw [locate, if_neg (by simp [honline]), if_neg (within_bound hlba), if_neg (by simp [hwritable])]
  simp only [hparent]

end

lemma locate_write {device : ℕ → Device} {depth dev : ℕ} {lba : BitVec 64} {place : ℕ × BitVec 64}
    (h : locate device true depth dev lba = some place) :
    locate device false depth dev lba = some place := by
  induction depth generalizing dev lba with
  | zero => cases h
  | succ depth ih =>
    unfold locate at h ⊢
    split at h
    · cases h
    · next honline =>
      split at h
      · cases h
      · next hbound =>
        split at h
        · cases h
        rw [if_neg honline, if_neg hbound, if_neg (by simp)]
        cases hparent : (device dev).parent with
        | none =>
          rw [hparent] at h
          exact h
        | some parent =>
          rw [hparent] at h
          exact ih h

end KosKernel.BlockCache
