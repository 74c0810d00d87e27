import Mathlib.Tactic.IntervalCases
import KosKernel.LittleEndian

/-! Words of a machine read as numbers: masks, shifts and disjoint bits. -/
namespace KosKernel.MachineWords
open LittleEndian

lemma or_eq_add {a b k : ℕ} (ha : a < 2 ^ k) (hb : 2 ^ k ∣ b) : a ||| b = a + b := by
  obtain ⟨c, rfl⟩ := hb
  rw [Nat.or_comm, ← Nat.two_pow_add_eq_or_of_lt ha, Nat.add_comm]

section
variable {w k : ℕ}

lemma toNat_and_ones {mask : BitVec w} (hmask : mask.toNat = 2 ^ k - 1) (x : BitVec w) :
    (x &&& mask).toNat = x.toNat % 2 ^ k := by
  rw [BitVec.toNat_and, hmask, Nat.and_two_pow_sub_one_eq_mod]

lemma mod_and_of_lt {x m : ℕ} (h : m < 2 ^ k) : x % 2 ^ k &&& m = x &&& m := by
  have hand : x &&& m < 2 ^ k := Nat.and_lt_two_pow x h
  rw [← Nat.mod_eq_of_lt hand, Nat.and_mod_two_pow, Nat.mod_eq_of_lt h]

lemma toNat_shiftRight (x : BitVec w) (n : ℕ) : (x >>> n).toNat = x.toNat / 2 ^ n := by
  rw [BitVec.toNat_ushiftRight, Nat.shiftRight_eq_div_pow]

lemma toNat_shiftLeft (x : BitVec w) (n : ℕ) : (x <<< n).toNat = x.toNat * 2 ^ n % 2 ^ w := by
  rw [BitVec.toNat_shiftLeft, Nat.shiftLeft_eq]

lemma toNat_widen {v : ℕ} (h : w ≤ v) (x : BitVec w) : (x.setWidth v).toNat = x.toNat := by
  rw [BitVec.toNat_setWidth]
  exact Nat.mod_eq_of_lt (x.isLt.trans_le (Nat.pow_le_pow_right (by decide) h))

end

/-- Four bytes from an index on as a word, without its lowest bits. -/
def loadShifted (bytes : List Byte) (i s : ℕ) : BitVec 32 :=
  (bytes.getD i 0).setWidth 32 >>> s ||| (bytes.getD (i + 1) 0).setWidth 32 <<< (8 - s) |||
    (bytes.getD (i + 2) 0).setWidth 32 <<< (16 - s) |||
    (bytes.getD (i + 3) 0).setWidth 32 <<< (24 - s)

lemma dvd_shifted {k w : ℕ} (hk : k ≤ w) (b : ℕ) : 2 ^ k ∣ b * 2 ^ k % 2 ^ w :=
  (Nat.dvd_mod_iff (pow_dvd_pow 2 hk)).mpr (Dvd.intro_left b rfl)

lemma or_bytes {b0 b1 b2 b3 s : ℕ} (hs : s ≤ 8) (h0 : b0 < 256) (h1 : b1 < 256) (h2 : b2 < 256)
    (h3 : b3 < 256) :
    b0 / 2 ^ s ||| b1 * 2 ^ (8 - s) % 2 ^ 32 ||| b2 * 2 ^ (16 - s) % 2 ^ 32 |||
        b3 * 2 ^ (24 - s) % 2 ^ 32 =
      (b0 + 256 * b1 + 65536 * b2 + 16777216 * b3) / 2 ^ s := by
  have hlow : b0 / 2 ^ s < 2 ^ (8 - s) := by interval_cases s <;> omega
  have hmiddle : b0 / 2 ^ s + b1 * 2 ^ (8 - s) % 2 ^ 32 < 2 ^ (16 - s) := by
    interval_cases s <;> omega
  have hhigh : b0 / 2 ^ s + b1 * 2 ^ (8 - s) % 2 ^ 32 + b2 * 2 ^ (16 - s) % 2 ^ 32 <
      2 ^ (24 - s) := by
    interval_cases s <;> omega
  rw [or_eq_add hlow (dvd_shifted (by omega) b1), or_eq_add hmiddle (dvd_shifted (by omega) b2),
    or_eq_add hhigh (dvd_shifted (by omega) b3)]
  interval_cases s <;> omega

lemma toNat_loadShifted (bytes : List Byte) (i : ℕ) {s : ℕ} (hs : s ≤ 8) :
    (loadShifted bytes i s).toNat = leNat bytes / 2 ^ (8 * i + s) % 2 ^ (32 - s) := by
  have hbyte : ∀ j, (bytes.getD (i + j) 0).toNat = leNat bytes / 2 ^ (8 * i) / 256 ^ j % 256 := by
    intro j
    have hpow : 256 ^ (i + j) = 2 ^ (8 * i) * 256 ^ j := by rw [pow_add, pow_mul]; rfl
    rw [toNat_getD, hpow, Nat.div_div_eq_div_mul]
  have h0 := hbyte 0
  have h1 := hbyte 1
  have h2 := hbyte 2
  have h3 := hbyte 3
  rw [Nat.add_zero] at h0
  simp only [loadShifted, BitVec.toNat_or, toNat_shiftRight, toNat_shiftLeft,
    toNat_widen (show 8 ≤ 32 by decide)]
  rw [or_bytes hs (BitVec.isLt _) (BitVec.isLt _) (BitVec.isLt _) (BitVec.isLt _), h0, h1, h2, h3,
    pow_add, ← Nat.div_div_eq_div_mul]
  generalize leNat bytes / 2 ^ (8 * i) = n
  interval_cases s <;> omega

def load32 (bytes : List Byte) (i : ℕ) : BitVec 32 := loadShifted bytes i 0

end KosKernel.MachineWords
