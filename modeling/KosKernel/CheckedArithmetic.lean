import Mathlib.Tactic.Linarith
import KosKernel.MachineWords

/-! Signed arithmetic in words of 64 bits: a result that does not fit is no result. Loops over a
range that may stop without one. -/
namespace KosKernel.CheckedArithmetic
open MachineWords List

def checked (x : ℤ) : Option ℤ := if -2 ^ 63 ≤ x ∧ x < 2 ^ 63 then some x else none

def add64 (a b : ℤ) : Option ℤ := checked (a + b)
def sub64 (a b : ℤ) : Option ℤ := checked (a - b)
def mul64 (a b : ℤ) : Option ℤ := checked (a * b)
def shl64 (a : ℤ) (n : ℕ) : Option ℤ := checked (a * 2 ^ n)

def shr64 (a : ℤ) (n : ℕ) : ℤ := a / 2 ^ n

def xor64 (a b : ℤ) : ℤ := (BitVec.ofInt 64 a ^^^ BitVec.ofInt 64 b).toInt
def and64 (a b : ℤ) : ℤ := (BitVec.ofInt 64 a &&& BitVec.ofInt 64 b).toInt
def or64 (a b : ℤ) : ℤ := (BitVec.ofInt 64 a ||| BitVec.ofInt 64 b).toInt
def not64 (a : ℤ) : ℤ := (~~~ BitVec.ofInt 64 a).toInt

variable {x a : ℤ}

section
lemma checked_of_abs_le (h : |x| ≤ 2 ^ 62) : checked x = some x := by
  have hbounds := abs_le.mp h
  exact if_pos ⟨by linarith, by linarith⟩

variable {b : ℤ}

lemma add64_eq (h : |a + b| ≤ 2 ^ 62) : add64 a b = some (a + b) := checked_of_abs_le h
lemma sub64_eq (h : |a - b| ≤ 2 ^ 62) : sub64 a b = some (a - b) := checked_of_abs_le h
lemma mul64_eq (h : |a * b| ≤ 2 ^ 62) : mul64 a b = some (a * b) := checked_of_abs_le h

lemma shl64_eq {n : ℕ} (h : |a * 2 ^ n| ≤ 2 ^ 62) : shl64 a n = some (a * 2 ^ n) :=
  checked_of_abs_le h

end

section
lemma toInt_ofInt (h : |a| ≤ 2 ^ 62) : (BitVec.ofInt 64 a).toInt = a := by
  have hbounds := abs_le.mp h
  rw [BitVec.toInt_ofInt]
  exact Int.bmod_eq_of_le (by norm_num; omega) (by norm_num; omega)

/-- A mask of ones from the lowest bit on is a remainder, also of a negative number. -/
lemma and64_ones (x : ℤ) {k : ℕ} (hk : k ≤ 62) : and64 x (2 ^ k - 1) = x % 2 ^ k := by
  have hpos : (0 : ℤ) < 2 ^ k := by positivity
  have hle : (2 : ℤ) ^ k ≤ 2 ^ 62 := pow_le_pow_right₀ (by decide) hk
  have hmask : (BitVec.ofInt 64 (2 ^ k - 1)).toNat = 2 ^ k - 1 := by
    have hlt : (2 ^ k - 1 : ℤ) % (2 ^ 64 : ℕ) = 2 ^ k - 1 :=
      Int.emod_eq_of_lt (by omega) (by push_cast; omega)
    have hcast : (2 ^ k - 1 : ℤ) = (2 ^ k - 1 : ℕ) := by
      rw [Nat.cast_sub Nat.one_le_two_pow]
      push_cast
      rfl
    rw [BitVec.toNat_ofInt, hlt, hcast, Int.toNat_natCast]
  have hnat : (BitVec.ofInt 64 x &&& BitVec.ofInt 64 (2 ^ k - 1)).toNat =
      (BitVec.ofInt 64 x).toNat % 2 ^ k := toNat_and_ones hmask _
  have hlt : (BitVec.ofInt 64 x).toNat % 2 ^ k < 2 ^ k := Nat.mod_lt _ (by positivity)
  have hle' : 2 ^ k ≤ 2 ^ 62 := Nat.pow_le_pow_right (by decide) hk
  rw [and64, BitVec.toInt_eq_toNat_of_lt (by omega), hnat, BitVec.toNat_ofInt]
  have hdvd : (2 : ℤ) ^ k ∣ (2 ^ 64 : ℕ) := by
    push_cast
    exact pow_dvd_pow 2 (show k ≤ 64 by omega)
  rw [Int.natCast_mod, Int.toNat_of_nonneg (Int.emod_nonneg _ (by decide)), Int.natCast_pow]
  exact Int.emod_emod_of_dvd _ hdvd

lemma or64_shifted {a b k : ℕ} (ha : a < 2 ^ k) (hb : a + b * 2 ^ k < 2 ^ 63) :
    or64 a (b * 2 ^ k) = a + b * 2 ^ k := by
  have hfirst : BitVec.ofInt 64 (a : ℤ) = BitVec.ofNat 64 a := BitVec.ofInt_natCast 64 a
  have hsecond : BitVec.ofInt 64 ((b : ℤ) * 2 ^ k) = BitVec.ofNat 64 (b * 2 ^ k) := by
    rw [← BitVec.ofInt_natCast]
    push_cast
    rfl
  have hnat : (BitVec.ofNat 64 a ||| BitVec.ofNat 64 (b * 2 ^ k)).toNat = a + b * 2 ^ k := by
    rw [BitVec.toNat_or, BitVec.toNat_ofNat, BitVec.toNat_ofNat, Nat.mod_eq_of_lt (by omega),
      Nat.mod_eq_of_lt (by omega), or_eq_add ha (Dvd.intro_left b rfl)]
  rw [or64, hfirst, hsecond, BitVec.toInt_eq_toNat_of_lt (by omega), hnat]
  push_cast
  rfl

lemma and64_zero (x : ℤ) : and64 0 x = 0 := by
  have hzero : BitVec.ofInt 64 0 = 0#64 := rfl
  rw [and64, hzero, BitVec.zero_and]
  rfl

lemma xor64_zero (h : |x| ≤ 2 ^ 62) : xor64 x 0 = x := by
  have hzero : BitVec.ofInt 64 0 = 0#64 := rfl
  rw [xor64, hzero, BitVec.xor_zero, toInt_ofInt h]

lemma and64_xor64 (x y : ℤ) : and64 (-1) (xor64 x y) = xor64 x y := by
  have hones : BitVec.ofInt 64 (-1) = BitVec.allOnes 64 := rfl
  rw [and64, hones, BitVec.allOnes_and, xor64, BitVec.ofInt_toInt]

lemma xor64_xor64_left (x : ℤ) {y : ℤ} (h : |y| ≤ 2 ^ 62) : xor64 x (xor64 x y) = y := by
  rw [xor64, xor64, BitVec.ofInt_toInt, ← BitVec.xor_assoc, BitVec.xor_self, BitVec.zero_xor,
    toInt_ofInt h]

lemma xor64_xor64_right (h : |x| ≤ 2 ^ 62) (y : ℤ) : xor64 y (xor64 x y) = x := by
  rw [xor64, xor64, BitVec.ofInt_toInt, BitVec.xor_comm, BitVec.xor_assoc, BitVec.xor_self,
    BitVec.xor_zero, toInt_ofInt h]

end

lemma bind_of_eq_some {α β : Type} {x : Option α} {a : α} (h : x = some a) (f : α → Option β) :
    (x >>= f) = f a := by
  rw [h]
  rfl

variable {σ : Type}

theorem foldlM_range {f : σ → ℕ → Option σ} (P : ℕ → σ → Prop) {n : ℕ} {s : σ} (h0 : P 0 s)
    (hstep : ∀ i < n, ∀ s, P i s → ∃ s', f s i = some s' ∧ P (i + 1) s') :
    ∃ s', (List.range n).foldlM f s = some s' ∧ P n s' := by
  induction n with
  | zero => exact ⟨s, rfl, h0⟩
  | succ n ih =>
    obtain ⟨s₁, hrun, hinv⟩ := ih fun i hi => hstep i (Nat.lt_succ_of_lt hi)
    obtain ⟨s₂, hturn, hinv'⟩ := hstep n n.lt_succ_self s₁ hinv
    refine ⟨s₂, ?_, hinv'⟩
    rw [range_succ, foldlM_append, hrun]
    simp [hturn]

theorem mapM_eq_some {α β : Type} {f : α → Option β} {g : α → β} {xs : List α}
    (h : ∀ x ∈ xs, f x = some (g x)) : xs.mapM f = some (xs.map g) := by
  induction xs with
  | nil => rfl
  | cons x xs ih =>
    rw [mapM_cons, h x mem_cons_self, ih fun y hy => h y (mem_cons_of_mem x hy)]
    rfl

end KosKernel.CheckedArithmetic
