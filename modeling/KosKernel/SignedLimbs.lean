import Mathlib.Data.List.Basic
import Mathlib.Tactic.LinearCombination
import Mathlib.Tactic.Linarith
import Mathlib.Tactic.Ring

/-! Numbers written with signed limbs in some radix, lowest first, and the carry that runs through
them. -/
namespace KosKernel.SignedLimbs
open List

variable {xs : List ℤ}

section
variable (radix : ℤ)

def value : List ℤ → ℤ
  | [] => 0
  | x :: xs => x + radix * value xs

@[simp] lemma value_nil : value radix [] = 0 := rfl

@[simp] lemma value_cons (x : ℤ) (xs : List ℤ) : value radix (x :: xs) = x + radix * value radix xs :=
  rfl

lemma value_append (xs ys : List ℤ) :
    value radix (xs ++ ys) = value radix xs + radix ^ xs.length * value radix ys := by
  induction xs with
  | nil => simp
  | cons x xs ih =>
    rw [cons_append, value_cons, value_cons, ih, length_cons, pow_succ]
    ring

lemma value_set {i : ℕ} (hi : i < xs.length) (x : ℤ) :
    value radix (xs.set i x) = value radix xs + radix ^ i * (x - xs.getD i 0) := by
  induction xs generalizing i with
  | nil => cases hi
  | cons y ys ih =>
    cases i with
    | zero =>
      rw [set_cons_zero, value_cons, value_cons, getD_cons_zero]
      ring
    | succ i =>
      rw [set_cons_succ, value_cons, value_cons, ih (Nat.lt_of_succ_lt_succ hi),
        getD_cons_succ, pow_succ]
      ring

lemma value_replicate_zero (n : ℕ) : value radix (replicate n 0) = 0 := by
  induction n with
  | zero => rfl
  | succ n ih => rw [replicate_succ, value_cons, ih, mul_zero, add_zero]

lemma value_map_add {α : Type} (f g : α → ℤ) (xs : List α) :
    value radix (xs.map fun x => f x + g x) = value radix (xs.map f) + value radix (xs.map g) := by
  induction xs with
  | nil => rfl
  | cons x xs ih =>
    rw [map_cons, map_cons, map_cons, value_cons, value_cons, value_cons, ih]
    ring

lemma value_map_sub {α : Type} (f g : α → ℤ) (xs : List α) :
    value radix (xs.map fun x => f x - g x) = value radix (xs.map f) - value radix (xs.map g) := by
  induction xs with
  | nil => rfl
  | cons x xs ih =>
    rw [map_cons, map_cons, map_cons, value_cons, value_cons, value_cons, ih]
    ring

lemma value_limbs (n r : ℕ) (count : ℕ) :
    value (r : ℤ) ((range count).map fun i => ((n / r ^ i % r : ℕ) : ℤ)) =
      ((n % r ^ count : ℕ) : ℤ) := by
  induction count with
  | zero => simp [Nat.mod_one]
  | succ count ih =>
    rw [range_succ, map_append, value_append, ih, length_map, length_range, Nat.mod_pow_succ]
    push_cast
    simp

end

lemma map_getD {n : ℕ} (h : xs.length = n) : (range n).map (fun i => xs.getD i 0) = xs := by
  refine ext_getElem (by simp [h]) fun i hi hi' => ?_
  simp [getD_eq_getElem?_getD, hi']

variable (radix : ℤ)

/-- The limbs brought into range one after the other, and the carry that is left. -/
def ripple : ℤ → List ℤ → List ℤ × ℤ
  | k, [] => ([], k)
  | k, x :: xs =>
    ((x + k) % radix :: (ripple ((x + k) / radix) xs).1, (ripple ((x + k) / radix) xs).2)

lemma length_ripple (k : ℤ) (xs : List ℤ) : (ripple radix k xs).1.length = xs.length := by
  induction xs generalizing k with
  | nil => rfl
  | cons x xs ih => rw [ripple, length_cons, ih, length_cons]

lemma value_ripple (k : ℤ) (xs : List ℤ) :
    value radix (ripple radix k xs).1 + radix ^ xs.length * (ripple radix k xs).2 =
      value radix xs + k := by
  induction xs generalizing k with
  | nil => simp [ripple]
  | cons x xs ih =>
    have hrest := ih ((x + k) / radix)
    have hdiv := Int.emod_add_mul_ediv (x + k) radix
    rw [ripple, value_cons, value_cons, length_cons, pow_succ]
    linear_combination radix * hrest + hdiv

lemma ripple_concat (k : ℤ) (xs : List ℤ) (x : ℤ) : ripple radix k (xs ++ [x]) =
    ((ripple radix k xs).1 ++ [(x + (ripple radix k xs).2) % radix],
      (x + (ripple radix k xs).2) / radix) := by
  induction xs generalizing k with
  | nil => rfl
  | cons y ys ih => rw [cons_append, ripple, ripple, ih]; rfl

def Digits (xs : List ℤ) : Prop := ∀ x ∈ xs, 0 ≤ x ∧ x < radix

variable {radix}

lemma digits_ripple (hradix : 0 < radix) (k : ℤ) (xs : List ℤ) :
    Digits radix (ripple radix k xs).1 := by
  induction xs generalizing k with
  | nil => exact fun _ h => nomatch h
  | cons x xs ih =>
    rintro y (_ | ⟨_, hy⟩)
    · exact ⟨Int.emod_nonneg _ hradix.ne', Int.emod_lt_of_pos _ hradix⟩
    · exact ih _ y hy

lemma value_digits (hradix : 0 < radix) (h : Digits radix xs) :
    0 ≤ value radix xs ∧ value radix xs < radix ^ xs.length := by
  induction xs with
  | nil => simp
  | cons x xs ih =>
    obtain ⟨hlow, hhigh⟩ := ih fun y hy => h y (mem_cons_of_mem x hy)
    obtain ⟨hx, hx'⟩ := h x mem_cons_self
    rw [value_cons, length_cons, pow_succ]
    constructor
    · positivity
    · nlinarith

lemma abs_ripple_le {bound : ℤ}
    (h : ∀ x ∈ xs, ∀ k, |k| ≤ bound → |(x + k) / radix| ≤ bound) {k : ℤ} (hk : |k| ≤ bound) :
    |(ripple radix k xs).2| ≤ bound := by
  induction xs generalizing k with
  | nil => exact hk
  | cons x xs ih =>
    exact ih (fun y hy => h y (mem_cons_of_mem x hy)) (h x mem_cons_self k hk)

lemma ripple_digits (h : Digits radix xs) : ripple radix 0 xs = (xs, 0) := by
  induction xs with
  | nil => rfl
  | cons x xs ih =>
    obtain ⟨hx, hx'⟩ := h x mem_cons_self
    rw [ripple, add_zero, Int.emod_eq_of_lt hx hx', Int.ediv_eq_zero_of_lt hx hx',
      ih fun y hy => h y (mem_cons_of_mem x hy)]

end KosKernel.SignedLimbs
