import KosKernel.BigEndian
import Mathlib.Tactic.Ring
import Mathlib.Tactic.NormNum

/-! The one's complement sum of 16-bit words that Internet headers carry, computed in a 32-bit
register whose carries are folded back. -/
namespace KosKernel.OnesComplement
open BigEndian

/-- The sum of the big-endian words; a last odd byte is the high byte of its word. -/
def wordSum : List (BitVec 8) → ℕ
  | [] => 0
  | [a] => a.toNat * 256
  | a :: b :: rest => a.toNat * 256 + b.toNat + wordSum rest

/-- `while (sum >> 16) sum = (sum & 0xffff) + (sum >> 16)`, in at most `fuel` turns. -/
def foldCarries : ℕ → ℕ → ℕ
  | 0, sum => sum
  | fuel + 1, sum =>
    if sum / 65536 = 0 then sum else foldCarries fuel (sum % 65536 + sum / 65536)

/-- The checksum of a sum. Two turns end the loop on every 32-bit number. -/
def checksum (sum : ℕ) : BitVec 16 := ~~~BitVec.ofNat 16 (foldCarries 2 (sum % 2 ^ 32))

lemma wordSum_u16Bytes (value : BitVec 16) : wordSum (u16Bytes value) = value.toNat := by
  rw [u16Bytes, wordSum, wordSum, Nat.add_zero, toNat_u16Bytes]

lemma wordSum_append (xs ys : List Byte) (h : xs.length % 2 = 0) :
    wordSum (xs ++ ys) = wordSum xs + wordSum ys := by
  induction xs using wordSum.induct with
  | case1 => simp [wordSum]
  | case2 a => simp at h
  | case3 a b rest ih =>
    have hrest : rest.length % 2 = 0 := by
      simp only [List.length_cons] at h
      omega
    simp only [List.cons_append, wordSum, ih hrest]
    omega

lemma wordSum_le (xs : List Byte) : wordSum xs ≤ xs.length * 65535 := by
  induction xs using wordSum.induct with
  | case1 => simp [wordSum]
  | case2 a =>
    have := a.isLt
    simp only [wordSum, List.length_singleton]
    omega
  | case3 a b rest ih =>
    have := a.isLt
    have := b.isLt
    simp only [wordSum, List.length_cons]
    omega

lemma foldCarries_lt {sum : ℕ} (h : sum < 2 ^ 32) : foldCarries 2 sum < 65536 := by
  simp only [foldCarries]
  split
  · omega
  · split <;> omega

lemma foldCarries_mod (fuel sum : ℕ) : foldCarries fuel sum % 65535 = sum % 65535 := by
  induction fuel generalizing sum with
  | zero => rfl
  | succ fuel ih =>
    rw [foldCarries]
    split
    · rfl
    · rw [ih]
      omega

lemma foldCarries_pos (fuel : ℕ) {sum : ℕ} (h : 0 < sum) : 0 < foldCarries fuel sum := by
  induction fuel generalizing sum with
  | zero => exact h
  | succ fuel ih =>
    rw [foldCarries]
    split
    · exact h
    · exact ih (by omega)

lemma toNat_checksum {sum : ℕ} (h : sum < 2 ^ 32) :
    (checksum sum).toNat = 65535 - foldCarries 2 sum := by
  have hlt := foldCarries_lt h
  rw [checksum, Nat.mod_eq_of_lt h, BitVec.toNat_not, BitVec.toNat_ofNat, Nat.mod_eq_of_lt hlt]

lemma checksum_add_checksum {sum : ℕ} (hpos : 0 < sum) (h : sum + 65535 < 2 ^ 32) :
    checksum (sum + (checksum sum).toNat) = 0#16 := by
  have hsum := toNat_checksum (show sum < 2 ^ 32 by omega)
  have hlt := foldCarries_lt (show sum < 2 ^ 32 by omega)
  have hmod := foldCarries_mod 2 sum
  have htotal : sum + (checksum sum).toNat < 2 ^ 32 := by omega
  have hzero : foldCarries 2 (sum + (checksum sum).toNat) = 65535 := by
    have hlt' := foldCarries_lt htotal
    have hpos' := foldCarries_pos 2 (show 0 < sum + (checksum sum).toNat by omega)
    have hmod' := foldCarries_mod 2 (sum + (checksum sum).toNat)
    omega
  apply BitVec.eq_of_toNat_eq
  rw [toNat_checksum htotal, hzero]
  rfl

end KosKernel.OnesComplement
