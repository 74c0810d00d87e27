import Mathlib

/-! Gregorian dates, seconds since the start of 1970, and their decimal writing. -/
namespace KosKernel.Calendar

def Leap (year : ℕ) : Prop := 4 ∣ year ∧ ¬100 ∣ year ∨ 400 ∣ year

instance (year : ℕ) : Decidable (Leap year) :=
  inferInstanceAs (Decidable (4 ∣ year ∧ ¬100 ∣ year ∨ 400 ∣ year))

def yearLength (year : ℕ) : ℕ := if Leap year then 366 else 365

def monthLength (year : ℕ) : ℕ → ℕ
  | 2 => if Leap year then 29 else 28
  | 4 | 6 | 9 | 11 => 30
  | _ => 31

structure Time where
  year : ℕ
  month : ℕ
  day : ℕ
  hour : ℕ
  minute : ℕ
  second : ℕ
deriving DecidableEq

structure Time.Valid (t : Time) : Prop where
  month : 1 ≤ t.month ∧ t.month ≤ 12
  day : 1 ≤ t.day ∧ t.day ≤ monthLength t.year t.month
  hour : t.hour < 24
  minute : t.minute < 60
  second : t.second < 60

def yearDays (year : ℕ) : ℤ :=
  ∑ y ∈ Finset.Ico 1970 year, (yearLength y : ℤ) - ∑ y ∈ Finset.Ico year 1970, (yearLength y : ℤ)

def monthDays (year month : ℕ) : ℕ := ∑ k ∈ Finset.Ico 1 month, monthLength year k

def Time.seconds (t : Time) : ℤ :=
  (yearDays t.year + monthDays t.year t.month + (t.day - 1)) * 86400 + t.hour * 3600 +
    t.minute * 60 + t.second

lemma monthLength_le (year month : ℕ) : monthLength year month ≤ 31 := by
  unfold monthLength
  split <;> (try split) <;> omega

lemma yearDays_of_le {year : ℕ} (h : 1970 ≤ year) :
    yearDays year = ∑ y ∈ Finset.Ico 1970 year, (yearLength y : ℤ) := by
  rw [yearDays, Finset.Ico_eq_empty_of_le h, Finset.sum_empty, sub_zero]

/-- The months before one fill less than its year together with its own days. -/
lemma monthDays_add_day_le {t : Time} (h : t.Valid) :
    monthDays t.year t.month + t.day ≤ yearLength t.year := by
  obtain ⟨hlow, hhigh⟩ := h.month
  have hday := h.day.2
  obtain ⟨year, month, day, hour, minute, second⟩ := t
  dsimp only at hlow hhigh hday ⊢
  interval_cases month <;>
    simp only [monthDays, monthLength, yearLength, Finset.sum_Ico_succ_top, Nat.reduceLeDiff,
      Finset.Ico_self, Finset.sum_empty, Nat.one_le_ofNat, le_refl] at hday ⊢ <;>
    split_ifs at hday ⊢ <;> omega

lemma seconds_neg {t : Time} (h : t.Valid) (hyear : t.year < 1970) : t.seconds < 0 := by
  have hfill := monthDays_add_day_le h
  have hhour := h.hour
  have hminute := h.minute
  have hsecond := h.second
  have hyears : yearDays t.year ≤ -(yearLength t.year : ℤ) := by
    rw [yearDays, Finset.Ico_eq_empty_of_le hyear.le, Finset.sum_empty, zero_sub, neg_le_neg_iff]
    exact Finset.single_le_sum (f := fun y => (yearLength y : ℤ)) (fun y _ => Int.natCast_nonneg _)
      (Finset.left_mem_Ico.mpr hyear)
  unfold Time.seconds
  omega

def digitByte (n : ℕ) : BitVec 8 := BitVec.ofNat 8 (48 + n)

def twoDigits (n : ℕ) : List (BitVec 8) := [digitByte (n / 10), digitByte (n % 10)]

end KosKernel.Calendar
