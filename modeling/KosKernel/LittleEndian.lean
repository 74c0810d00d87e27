import Mathlib.Data.BitVec
import Mathlib.Tactic.Ring

/-! Numbers written as bytes, lowest first. -/
namespace KosKernel.LittleEndian
open List

abbrev Byte := BitVec 8

def leNat : List Byte → ℕ
  | [] => 0
  | b :: bs => b.toNat + 256 * leNat bs

@[simp] lemma leNat_nil : leNat [] = 0 := rfl

@[simp] lemma leNat_cons (b : Byte) (bs : List Byte) : leNat (b :: bs) = b.toNat + 256 * leNat bs :=
  rfl

lemma two_pow_eight_mul (n : ℕ) : 2 ^ (8 * n) = 256 ^ n := pow_mul 2 8 n

lemma leNat_lt (bs : List Byte) : leNat bs < 256 ^ bs.length := by
  induction bs with
  | nil => exact Nat.one_pos
  | cons b bs ih =>
    have hbyte := b.isLt
    rw [leNat_cons, length_cons, pow_succ]
    omega

lemma leNat_append (as bs : List Byte) :
    leNat (as ++ bs) = leNat as + 256 ^ as.length * leNat bs := by
  induction as with
  | nil => simp
  | cons a as ih =>
    rw [cons_append, leNat_cons, leNat_cons, ih, length_cons, pow_succ]
    ring

lemma leNat_drop (bs : List Byte) (n : ℕ) : leNat (bs.drop n) = leNat bs / 256 ^ n := by
  induction n generalizing bs with
  | zero => simp
  | succ n ih =>
    cases bs with
    | nil => simp
    | cons b bs =>
      have hbyte := b.isLt
      have hdiv : (b.toNat + 256 * leNat bs) / 256 = leNat bs := by omega
      rw [drop_succ_cons, ih, leNat_cons, pow_succ', ← Nat.div_div_eq_div_mul, hdiv]

lemma leNat_take (bs : List Byte) (n : ℕ) : leNat (bs.take n) = leNat bs % 256 ^ n := by
  have hsplit := leNat_append (bs.take n) (bs.drop n)
  rw [take_append_drop] at hsplit
  rcases le_total n bs.length with hn | hn
  · have hlt := leNat_lt (bs.take n)
    rw [length_take, min_eq_left hn] at hsplit hlt
    rw [hsplit, Nat.add_mul_mod_self_left, Nat.mod_eq_of_lt hlt]
  · have hlt := (leNat_lt bs).trans_le (Nat.pow_le_pow_right (show 0 < 256 by decide) hn)
    rw [take_of_length_le hn, Nat.mod_eq_of_lt hlt]

lemma toNat_getD (bs : List Byte) (i : ℕ) : (bs.getD i 0).toNat = leNat bs / 256 ^ i % 256 := by
  rw [← leNat_drop, getD_eq_getElem?_getD, ← head?_drop]
  cases bs.drop i with
  | nil => rfl
  | cons b bs =>
    have hbyte := b.isLt
    rw [leNat_cons, head?_cons, Option.getD_some]
    omega

lemma leNat_map_getD (bs : List Byte) (offset count : ℕ) :
    leNat ((range count).map fun i => bs.getD (offset + i) 0) =
      leNat bs / 256 ^ offset % 256 ^ count := by
  induction count with
  | zero => simp [Nat.mod_one]
  | succ count ih =>
    rw [range_succ, map_append, leNat_append, ih, length_map, length_range,
      Nat.mod_pow_succ, map_singleton, leNat_cons, leNat_nil, toNat_getD, pow_add,
      Nat.div_div_eq_div_mul, Nat.mul_zero, Nat.add_zero]

lemma leNat_replicate_zero (n : ℕ) : leNat (replicate n 0) = 0 := by
  induction n with
  | zero => rfl
  | succ n ih => rw [replicate_succ, leNat_cons, ih]; rfl

def leBytes : ℕ → ℕ → List Byte
  | 0, _ => []
  | count + 1, n => BitVec.ofNat 8 n :: leBytes count (n / 256)

lemma leBytes_add (m n x : ℕ) : leBytes (m + n) x = leBytes m x ++ leBytes n (x / 256 ^ m) := by
  induction m generalizing x with
  | zero => simp [leBytes]
  | succ m ih =>
    rw [Nat.succ_add, leBytes, leBytes, ih, cons_append, pow_succ', Nat.div_div_eq_div_mul]

@[simp] lemma length_leBytes (count n : ℕ) : (leBytes count n).length = count := by
  induction count generalizing n with
  | zero => rfl
  | succ count ih => rw [leBytes, length_cons, ih]

lemma leNat_leBytes (count n : ℕ) : leNat (leBytes count n) = n % 256 ^ count := by
  induction count generalizing n with
  | zero => simp [leBytes, Nat.mod_one]
  | succ count ih =>
    rw [leBytes, leNat_cons, ih, pow_succ', Nat.mod_mul]
    simp

lemma leBytes_leNat (bs : List Byte) : leBytes bs.length (leNat bs) = bs := by
  induction bs with
  | nil => rfl
  | cons b bs ih =>
    have hbyte := b.isLt
    have hhead : BitVec.ofNat 8 (b.toNat + 256 * leNat bs) = b := by
      apply BitVec.eq_of_toNat_eq
      rw [BitVec.toNat_ofNat]
      omega
    have htail : (b.toNat + 256 * leNat bs) / 256 = leNat bs := by omega
    rw [length_cons, leNat_cons, leBytes, hhead, htail, ih]

lemma leBytes_eq_iff {count a b : ℕ} :
    leBytes count a = leBytes count b ↔ a % 256 ^ count = b % 256 ^ count := by
  rw [← leNat_leBytes, ← leNat_leBytes]
  refine ⟨fun h => by rw [h], fun h => ?_⟩
  rw [← leBytes_leNat (leBytes count a), ← leBytes_leNat (leBytes count b), h, length_leBytes,
    length_leBytes]

lemma leBytes_eq_map (count n : ℕ) :
    leBytes count n = (range count).map fun i => BitVec.ofNat 8 (n / 256 ^ i) := by
  induction count with
  | zero => rfl
  | succ count ih => rw [leBytes_add, ih, range_succ, map_append]; rfl

def field (bytes : List Byte) (offset size : ℕ) : ℕ := leNat ((bytes.drop offset).take size)

lemma field_lt (bytes : List Byte) (offset size : ℕ) : field bytes offset size < 256 ^ size := by
  refine (leNat_lt _).trans_le (Nat.pow_le_pow_right (by decide) ?_)
  rw [length_take]
  exact min_le_left _ _

end KosKernel.LittleEndian
