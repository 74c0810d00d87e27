import Mathlib

/-! Byte-addressed memory with little-endian multi-byte cells. A cell written at one
address is read back there and leaves every disjoint cell alone. -/
namespace KosKernel.ByteMemory
open Function

abbrev Memory := ℕ → BitVec 8

def readBytes (m : Memory) (a : ℕ) : ℕ → ℕ
  | 0 => 0
  | n + 1 => (m a).toNat + 256 * readBytes m (a + 1) n

def writeBytes (m : Memory) (a : ℕ) : ℕ → ℕ → Memory
  | 0, _ => m
  | n + 1, v => writeBytes (update m a (BitVec.ofNat 8 v)) (a + 1) n (v / 256)

lemma writeBytes_of_outside (m : Memory) (a n v : ℕ) {x : ℕ} (h : x < a ∨ a + n ≤ x) :
    writeBytes m a n v x = m x := by
  induction n generalizing m a v with
  | zero => rfl
  | succ n ih =>
    have hx : x ≠ a := by omega
    rw [writeBytes, ih _ _ _ (by omega), update_of_ne hx]

lemma readBytes_lt (m : Memory) (a n : ℕ) : readBytes m a n < 256 ^ n := by
  induction n generalizing a with
  | zero => exact Nat.one_pos
  | succ n ih =>
    have hbyte := (m a).isLt
    have hrest := ih (a + 1)
    rw [readBytes, pow_succ]
    omega

lemma readBytes_congr {m m' : Memory} {a n : ℕ} (h : ∀ x, a ≤ x → x < a + n → m x = m' x) :
    readBytes m a n = readBytes m' a n := by
  induction n generalizing a with
  | zero => rfl
  | succ n ih =>
    rw [readBytes, readBytes, h a le_rfl (by omega), ih fun x h1 h2 => h x (by omega) (by omega)]

lemma readBytes_writeBytes_self (m : Memory) (a n v : ℕ) :
    readBytes (writeBytes m a n v) a n = v % 256 ^ n := by
  induction n generalizing m a v with
  | zero => simp [readBytes, Nat.mod_one]
  | succ n ih =>
    have hhead : writeBytes m a (n + 1) v a = BitVec.ofNat 8 v := by
      rw [writeBytes, writeBytes_of_outside _ _ _ _ (by omega), update_self]
    rw [readBytes, hhead, writeBytes, ih, BitVec.toNat_ofNat]
    change v % 256 + 256 * (v / 256 % 256 ^ n) = v % 256 ^ (n + 1)
    rw [Nat.pow_succ, Nat.mul_comm (256 ^ n), Nat.mod_mul]

lemma readBytes_writeBytes_disjoint (m : Memory) {a n b k : ℕ} (v : ℕ)
    (h : a + n ≤ b ∨ b + k ≤ a) : readBytes (writeBytes m a n v) b k = readBytes m b k :=
  readBytes_congr fun _ h1 h2 => writeBytes_of_outside _ _ _ _ (by omega)

def copyBytes (m : Memory) (target source n : ℕ) : Memory :=
  (List.range n).foldl (fun m i => update m (target + i) (m (source + i))) m

lemma copyBytes_of_outside (m : Memory) (target source n : ℕ) {x : ℕ}
    (h : x < target ∨ target + n ≤ x) : copyBytes m target source n x = m x := by
  induction n with
  | zero => rfl
  | succ n ih =>
    have hx : x ≠ target + n := by omega
    rw [copyBytes, List.range_succ, List.foldl_append, List.foldl_cons, List.foldl_nil,
      update_of_ne hx]
    exact ih (by omega)

def zeroBytes (m : Memory) (target n : ℕ) : Memory :=
  (List.range n).foldl (fun m i => update m (target + i) 0#8) m

lemma zeroBytes_of_outside (m : Memory) (target n : ℕ) {x : ℕ}
    (h : x < target ∨ target + n ≤ x) : zeroBytes m target n x = m x := by
  induction n with
  | zero => rfl
  | succ n ih =>
    have hx : x ≠ target + n := by omega
    rw [zeroBytes, List.range_succ, List.foldl_append, List.foldl_cons, List.foldl_nil,
      update_of_ne hx]
    exact ih (by omega)

end KosKernel.ByteMemory
