import Mathlib

/-! Arrays of 64-bit words read as sets of natural numbers: number `n` is bit
`n % 64` of word `n / 64`. Updating whole words and single bits is related to
unions, insertions and deletions, and population counts to cardinalities. -/
namespace KosKernel.BitWords
open Function Finset

abbrev Words := ℕ → BitVec 64

def member (b : Words) (n : ℕ) : Bool := (b (n / 64)).getLsbD (n % 64)

def members (b : Words) (bound : ℕ) : Finset ℕ :=
  (Finset.range bound).filter (fun n => member b n = true)

@[simp] lemma mem_members {b : Words} {bound n : ℕ} :
    n ∈ members b bound ↔ n < bound ∧ member b n = true := by
  simp [members]

variable {k i : ℕ}

lemma getLsbD_one_shiftLeft (hi : i < 64) : (1#64 <<< k).getLsbD i = decide (i = k) := by
  rcases lt_trichotomy i k with h | h | h
  · simp [hi, h, h.ne]
  · subst h
    simp [hi]
  · have hk : i - k ≠ 0 := by omega
    simp [hi, h.ne', hk]

lemma and_one_shiftLeft_ne_zero (x : BitVec 64) (hk : k < 64) :
    (x &&& (1#64 <<< k)) ≠ 0#64 ↔ x.getLsbD k = true := by
  constructor
  · intro h
    by_contra hx
    apply h
    apply BitVec.eq_of_getLsbD_eq
    intro i hi
    simp only [BitVec.getLsbD_and, getLsbD_one_shiftLeft hi, BitVec.getLsbD_zero]
    by_cases he : i = k
    · subst he
      simpa using hx
    · simp [he]
  · intro hx h
    have hh := congrArg (fun y : BitVec 64 => y.getLsbD k) h
    simp [getLsbD_one_shiftLeft hk, hx] at hh

lemma ne_zero_of_getLsbD {x : BitVec 64} (h : x.getLsbD k = true) : x ≠ 0#64 := by
  rintro rfl
  simp at h

lemma getLsbD_allOnes_shiftLeft (hi : i < 64) :
    (BitVec.allOnes 64 <<< k).getLsbD i = decide (k ≤ i) := by
  have hk : i - k < 64 := by omega
  rw [BitVec.getLsbD_shiftLeft, BitVec.getLsbD_allOnes]
  by_cases h : i < k
  · simp [h]
  · simp [hi, h, hk, not_lt.mp h]

lemma toNat_one_shiftLeft_sub_one (hk : k < 64) : ((1#64 <<< k) - 1#64).toNat = 2 ^ k - 1 := by
  have hp : 2 ^ k < 2 ^ 64 := Nat.pow_lt_pow_right (by norm_num) hk
  have hpos : 1 ≤ 2 ^ k := Nat.one_le_two_pow
  have hs : (1#64 <<< k).toNat = 2 ^ k := by
    rw [BitVec.toNat_shiftLeft, BitVec.toNat_ofNat, Nat.shiftLeft_eq,
      Nat.mod_eq_of_lt (by norm_num : 1 < 2 ^ 64), Nat.one_mul, Nat.mod_eq_of_lt hp]
  rw [BitVec.toNat_sub, hs, BitVec.toNat_ofNat, Nat.mod_eq_of_lt (by norm_num : 1 < 2 ^ 64)]
  omega

lemma getLsbD_one_shiftLeft_sub_one (hk : k < 64) :
    ((1#64 <<< k) - 1#64).getLsbD i = decide (i < k) := by
  rw [BitVec.getLsbD, toNat_one_shiftLeft_sub_one hk, Nat.testBit_two_pow_sub_one]

lemma toNat_cpop_eq_card (x : BitVec 64) :
    x.cpop.toNat = ((Finset.range 64).filter (fun i => x.getLsbD i = true)).card := by
  have key : ∀ n acc, BitVec.cpopNatRec x n acc =
      acc + ((Finset.range n).filter (fun i => x.getLsbD i = true)).card := by
    intro n
    induction n with
    | zero => intro acc; simp
    | succ n ih =>
      intro acc
      rw [BitVec.cpopNatRec_succ, ih, range_add_one, filter_insert]
      cases hx : x.getLsbD n
      · simp
      rw [if_pos rfl, card_insert_of_notMem (by simp)]
      simp
      omega
  rw [BitVec.toNat_cpop, key, Nat.zero_add]

variable (b : Words)

lemma member_update (w : ℕ) (v : BitVec 64) (n : ℕ) :
    member (update b w v) n = if n / 64 = w then v.getLsbD (n % 64) else member b n := by
  unfold member
  by_cases h : n / 64 = w
  · simp [h]
  · simp [h]

lemma member_update_or (w : ℕ) (v : BitVec 64) (n : ℕ) :
    member (update b w (b w ||| v)) n =
      (member b n || (decide (n / 64 = w) && v.getLsbD (n % 64))) := by
  rw [member_update]
  by_cases h : n / 64 = w
  · subst h
    simp [member]
  · simp [h]

lemma card_members_update_or (w : ℕ) (v : BitVec 64) (bound : ℕ)
    (hw : 64 * (w + 1) ≤ bound) (hd : b w &&& v = 0#64) :
    (members (update b w (b w ||| v)) bound).card = (members b bound).card + v.cpop.toNat := by
  let added := ((Finset.range 64).filter (fun i => v.getLsbD i = true)).image (fun i => 64 * w + i)
  have hunion : members (update b w (b w ||| v)) bound = members b bound ∪ added := by
    ext n
    simp only [mem_members, member_update_or, Bool.or_eq_true, Bool.and_eq_true,
      decide_eq_true_eq, mem_union, added, mem_image, mem_filter,
      mem_range]
    constructor
    · rintro ⟨hn, h | ⟨hq, hv⟩⟩
      · exact Or.inl ⟨hn, h⟩
      · exact Or.inr ⟨n % 64, ⟨by omega, hv⟩, by omega⟩
    rintro (h | ⟨i, ⟨hi, hv⟩, rfl⟩)
    · exact ⟨h.1, Or.inl h.2⟩
    have hq : (64 * w + i) / 64 = w := by omega
    have hr : (64 * w + i) % 64 = i := by omega
    exact ⟨by omega, Or.inr ⟨hq, by rwa [hr]⟩⟩
  have hdisj : Disjoint (members b bound) added := by
    rw [disjoint_left]
    intro n hn ha
    simp only [added, mem_image, mem_filter, mem_range] at ha
    obtain ⟨i, ⟨hi, hv⟩, rfl⟩ := ha
    have hq : (64 * w + i) / 64 = w := by omega
    have hr : (64 * w + i) % 64 = i := by omega
    have hb : (b w).getLsbD i = true := by
      have := (mem_members.mp hn).2
      rwa [member, hq, hr] at this
    have hz := congrArg (fun y : BitVec 64 => y.getLsbD i) hd
    simp [hb, hv] at hz
  have himage : added.card = v.cpop.toNat := by
    rw [toNat_cpop_eq_card]
    apply card_image_of_injective
    intro i j h
    dsimp only at h
    omega
  rw [hunion, card_union_of_disjoint hdisj, himage]

lemma member_update_set (n m : ℕ) :
    member (update b (n / 64) (b (n / 64) ||| (1#64 <<< (n % 64)))) m =
      (member b m || decide (m = n)) := by
  rw [member_update_or, getLsbD_one_shiftLeft (by omega)]
  congr 1
  by_cases h : m = n
  · simp [h]
  · have : ¬ (m / 64 = n / 64 ∧ m % 64 = n % 64) := by omega
    simpa [h, -Nat.reduceDiv] using this

lemma member_update_clear (n m : ℕ) :
    member (update b (n / 64) (b (n / 64) &&& ~~~(1#64 <<< (n % 64)))) m =
      (member b m && decide (m ≠ n)) := by
  rw [member_update]
  by_cases hq : m / 64 = n / 64
  · rw [if_pos hq, BitVec.getLsbD_and, BitVec.getLsbD_not, getLsbD_one_shiftLeft (by omega),
      member, hq]
    have hm : m % 64 < 64 := by omega
    by_cases h : m = n
    · simp [h]
    · have : m % 64 ≠ n % 64 := by omega
      simp [h, this, hm]
  · have h : m ≠ n := by rintro rfl; exact hq rfl
    simp [hq, h]

end KosKernel.BitWords
