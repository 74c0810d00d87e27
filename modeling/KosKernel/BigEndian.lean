import Mathlib.Data.BitVec

/-! Big-endian fields of packets, byte by byte. -/
namespace KosKernel.BigEndian

abbrev Byte := BitVec 8

def u16Bytes (value : BitVec 16) : List Byte := [value.extractLsb' 8 8, value.extractLsb' 0 8]

def u32Bytes (value : BitVec 32) : List Byte :=
  [value.extractLsb' 24 8, value.extractLsb' 16 8, value.extractLsb' 8 8, value.extractLsb' 0 8]

def joinU16 (high low : Byte) : BitVec 16 := high.setWidth 16 <<< 8 ||| low.setWidth 16

def joinU32 (a b c d : Byte) : BitVec 32 :=
  a.setWidth 32 <<< 24 ||| b.setWidth 32 <<< 16 ||| c.setWidth 32 <<< 8 ||| d.setWidth 32

def readU16 (data : List Byte) (index : ℕ) : BitVec 16 :=
  joinU16 (data.getD index 0) (data.getD (index + 1) 0)

def readU32 (data : List Byte) (index : ℕ) : BitVec 32 :=
  joinU32 (data.getD index 0) (data.getD (index + 1) 0) (data.getD (index + 2) 0)
    (data.getD (index + 3) 0)

@[simp] lemma joinU16_bytes (value : BitVec 16) :
    joinU16 (value.extractLsb' 8 8) (value.extractLsb' 0 8) = value := by
  ext i hi
  simp only [joinU16, BitVec.getElem_or, BitVec.getElem_shiftLeft, BitVec.getElem_setWidth,
    BitVec.getLsbD_extractLsb']
  grind

@[simp] lemma joinU32_bytes (value : BitVec 32) :
    joinU32 (value.extractLsb' 24 8) (value.extractLsb' 16 8) (value.extractLsb' 8 8)
      (value.extractLsb' 0 8) = value := by
  ext i hi
  simp only [joinU32, BitVec.getElem_or, BitVec.getElem_shiftLeft, BitVec.getElem_setWidth,
    BitVec.getLsbD_extractLsb']
  grind

lemma toNat_u16Bytes (value : BitVec 16) :
    (value.extractLsb' 8 8).toNat * 256 + (value.extractLsb' 0 8).toNat = value.toNat := by
  rw [BitVec.extractLsb'_toNat, BitVec.extractLsb'_toNat, Nat.shiftRight_eq_div_pow]
  have := value.isLt
  omega

end KosKernel.BigEndian
