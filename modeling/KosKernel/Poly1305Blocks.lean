import Mathlib.Tactic.Linarith
import KosKernel.Poly1305State

/-! The accumulator of Poly1305 as a number: each block multiplies it by the key modulo
`2 ^ 130 - 5`, and no word overflows on the way. -/
namespace KosKernel.Poly1305
open LittleEndian MachineWords

def prime : ℕ := 2 ^ 130 - 5

def Limbs.value (h : Limbs) : ℕ :=
  h.l0.toNat + 2 ^ 26 * h.l1.toNat + 2 ^ 52 * h.l2.toNat + 2 ^ 78 * h.l3.toNat +
    2 ^ 104 * h.l4.toNat

/-- Limbs of 26 bits; only the second one may be a little larger. -/
structure Reduced (excess : ℕ) (h : Limbs) : Prop where
  l0 : h.l0.toNat < 2 ^ 26
  l1 : h.l1.toNat < 2 ^ 26 + excess
  l2 : h.l2.toNat < 2 ^ 26
  l3 : h.l3.toNat < 2 ^ 26
  l4 : h.l4.toNat < 2 ^ 26

def slack : ℕ := 64

lemma toNat_limbMask (x : Word) : (x &&& limbMask).toNat = x.toNat % 2 ^ 26 := toNat_and_ones rfl x

section
def clamp (r : ℕ) : ℕ := r &&& 0x0ffffffc0ffffffc0ffffffc0fffffff

lemma toNat_clamped (key : List Byte) {i offset s : ℕ} {mask : Word} (hs : s ≤ 8)
    (hoff : 8 * offset + s = 26 * i) (hlt : mask.toNat < 2 ^ (32 - s))
    (hmask : mask.toNat = 0x0ffffffc0ffffffc0ffffffc0fffffff / 2 ^ (26 * i) % 2 ^ 26) :
    (loadShifted key offset s &&& mask).toNat = clamp (leNat key) / 2 ^ (26 * i) % 2 ^ 26 := by
  rw [BitVec.toNat_and, toNat_loadShifted _ _ hs, mod_and_of_lt hlt, hoff, clamp,
    ← Nat.shiftRight_eq_div_pow, ← Nat.shiftRight_eq_div_pow, Nat.shiftRight_and_distrib,
    Nat.and_mod_two_pow, mod_and_of_lt (Nat.mod_lt _ (by decide)), hmask,
    ← Nat.shiftRight_eq_div_pow]

lemma clamp_lt (r : ℕ) : clamp r < 2 ^ 124 := Nat.and_lt_two_pow r (by decide)

lemma init_limbs (key : List Byte) :
    (poly1305Init key).r.l0.toNat = clamp (leNat key) / 2 ^ (26 * 0) % 2 ^ 26 ∧
    (poly1305Init key).r.l1.toNat = clamp (leNat key) / 2 ^ (26 * 1) % 2 ^ 26 ∧
    (poly1305Init key).r.l2.toNat = clamp (leNat key) / 2 ^ (26 * 2) % 2 ^ 26 ∧
    (poly1305Init key).r.l3.toNat = clamp (leNat key) / 2 ^ (26 * 3) % 2 ^ 26 ∧
    (poly1305Init key).r.l4.toNat = clamp (leNat key) / 2 ^ (26 * 4) % 2 ^ 26 :=
  ⟨toNat_clamped key (by decide) (by decide) (by decide) (by decide),
    toNat_clamped key (by decide) (by decide) (by decide) (by decide),
    toNat_clamped key (by decide) (by decide) (by decide) (by decide),
    toNat_clamped key (by decide) (by decide) (by decide) (by decide),
    toNat_clamped key (by decide) (by decide) (by decide) (by decide)⟩

lemma init_reduced (key : List Byte) : Reduced 0 (poly1305Init key).r := by
  obtain ⟨h0, h1, h2, h3, h4⟩ := init_limbs key
  constructor <;> omega

lemma init_value (key : List Byte) : (poly1305Init key).r.value = clamp (leNat key) := by
  obtain ⟨h0, h1, h2, h3, h4⟩ := init_limbs key
  have hlt := clamp_lt (leNat key)
  rw [Limbs.value, h0, h1, h2, h3, h4]
  omega

end

section
/-- The sums after a block is added stay below `2 ^ 27` and the excess. -/
structure Summed (h : Limbs) : Prop where
  l0 : h.l0.toNat ≤ 2 ^ 27 + slack
  l1 : h.l1.toNat ≤ 2 ^ 27 + slack
  l2 : h.l2.toNat ≤ 2 ^ 27 + slack
  l3 : h.l3.toNat ≤ 2 ^ 27 + slack
  l4 : h.l4.toNat ≤ 2 ^ 27 + slack

lemma toNat_load32 (m : List Byte) (i : ℕ) : (load32 m i).toNat = leNat m / 2 ^ (8 * i) % 2 ^ 32 :=
  toNat_loadShifted m i (by decide)

lemma toNat_across (t u : Word) {k l : ℕ} (hkl : k + l = 32) :
    ((t >>> k ||| u <<< l) &&& limbMask).toNat = (t.toNat / 2 ^ k + u.toNat * 2 ^ l) % 2 ^ 26 := by
  have hlow : t.toNat / 2 ^ k < 2 ^ l := by
    rw [Nat.div_lt_iff_lt_mul (by positivity), ← pow_add, Nat.add_comm, hkl]
    exact t.isLt
  rw [toNat_limbMask, BitVec.toNat_or, toNat_shiftRight, toNat_shiftLeft,
    or_eq_add hlow (dvd_shifted (by omega) _)]
  omega

lemma toNat_top (t : Word) : (t >>> 8 ||| 1 <<< 24).toNat = t.toNat / 2 ^ 8 + 2 ^ 24 := by
  have hword := t.isLt
  have hlow : t.toNat / 2 ^ 8 < 2 ^ 24 := by omega
  rw [BitVec.toNat_or, toNat_shiftRight]
  exact or_eq_add hlow (dvd_refl _)

lemma addBlock_spec {h : Limbs} (hh : Reduced slack h) (m : List Byte) (isFinal : Bool) :
    Summed (addBlock h m (hibitOf isFinal)) ∧ (addBlock h m (hibitOf isFinal)).value =
        h.value + leNat m % 2 ^ 128 + if isFinal then 0 else 2 ^ 128 := by
  obtain ⟨h0, h1, h2, h3, h4⟩ := hh
  have hslack : slack = 64 := rfl
  have t0 := toNat_load32 m 0
  have t1 := toNat_load32 m 4
  have t2 := toNat_load32 m 8
  have t3 := toNat_load32 m 12
  generalize leNat m = n at *
  generalize hl0 : load32 m 0 &&& limbMask = m0
  generalize hl1 : (load32 m 0 >>> 26 ||| load32 m 4 <<< 6) &&& limbMask = m1
  generalize hl2 : (load32 m 4 >>> 20 ||| load32 m 8 <<< 12) &&& limbMask = m2
  generalize hl3 : (load32 m 8 >>> 14 ||| load32 m 12 <<< 18) &&& limbMask = m3
  generalize hl4 : load32 m 12 >>> 8 ||| hibitOf isFinal = m4
  have e0 : m0.toNat = n % 2 ^ 26 := by
    rw [← hl0, toNat_limbMask]
    omega
  have e1 : m1.toNat = n / 2 ^ 26 % 2 ^ 26 := by
    rw [← hl1, toNat_across _ _ (by decide)]
    omega
  have e2 : m2.toNat = n / 2 ^ 52 % 2 ^ 26 := by
    rw [← hl2, toNat_across _ _ (by decide)]
    omega
  have e3 : m3.toNat = n / 2 ^ 78 % 2 ^ 26 := by
    rw [← hl3, toNat_across _ _ (by decide)]
    omega
  have e4 : m4.toNat = n / 2 ^ 104 % 2 ^ 24 + if isFinal then 0 else 2 ^ 24 := by
    cases isFinal with
    | true =>
      have hzero : hibitOf true = 0#32 := rfl
      rw [← hl4, hzero, BitVec.or_zero, toNat_shiftRight, if_pos rfl]
      omega
    | false =>
      rw [← hl4, if_neg Bool.false_ne_true]
      refine (toNat_top _).trans ?_
      omega
  have hres : addBlock h m (hibitOf isFinal) =
      ⟨h.l0 + m0, h.l1 + m1, h.l2 + m2, h.l3 + m3, h.l4 + m4⟩ := by
    rw [← hl0, ← hl1, ← hl2, ← hl3, ← hl4]
    rfl
  have htop : (if isFinal then 0 else 2 ^ 128) = 2 ^ 104 * if isFinal then 0 else 2 ^ 24 := by
    cases isFinal <;> rfl
  have hbit : (if isFinal then 0 else 2 ^ 24) ≤ 2 ^ 24 := by
    cases isFinal <;> decide
  rw [hres, htop]
  generalize (if isFinal then 0 else 2 ^ 24) = top at *
  constructor
  · constructor <;> dsimp only <;> rw [BitVec.toNat_add] <;> omega
  · simp only [Limbs.value, BitVec.toNat_add]
    omega

end

section
lemma toNat_wideMul (a b : Word) : (wideMul a b).toNat = a.toNat * b.toNat := by
  have hmul : a.toNat * b.toNat < 2 ^ 32 * 2 ^ 32 := Nat.mul_lt_mul'' a.isLt b.isLt
  rw [wideMul, BitVec.toNat_mul_of_lt, toNat_widen (by decide), toNat_widen (by decide)]
  rw [toNat_widen (by decide), toNat_widen (by decide)]
  exact hmul.trans_le (by decide)

lemma toNat_five_mul {r : Word} (h : r.toNat < 2 ^ 26) : (5 * r).toNat = 5 * r.toNat := by
  have hfive : (5 : Word).toNat = 5 := rfl
  rw [BitVec.toNat_mul, hfive]
  omega

lemma toNat_sum {x0 x1 x2 x3 x4 : Wide}
    (h : x0.toNat + x1.toNat + x2.toNat + x3.toNat + x4.toNat < 2 ^ 64) :
    (x0 + x1 + x2 + x3 + x4).toNat = x0.toNat + x1.toNat + x2.toNat + x3.toNat + x4.toNat := by
  simp only [BitVec.toNat_add]
  omega

/-- The largest sum of five products with limbs of the key, and with five times them. -/
def plainBound : ℕ := 5 * ((2 ^ 27 + slack) * 2 ^ 26)
def fiveBound : ℕ := 5 * ((2 ^ 27 + slack) * (5 * 2 ^ 26))

lemma toNat_products {h : Limbs} (hh : Summed h) {b0 b1 b2 b3 b4 : Word} {bound : ℕ}
    (hbound : bound ≤ 5 * 2 ^ 26) (hb0 : b0.toNat ≤ bound) (hb1 : b1.toNat ≤ bound)
    (hb2 : b2.toNat ≤ bound) (hb3 : b3.toNat ≤ bound) (hb4 : b4.toNat ≤ bound) :
    (wideMul h.l0 b0 + wideMul h.l1 b1 + wideMul h.l2 b2 + wideMul h.l3 b3 +
        wideMul h.l4 b4).toNat =
      h.l0.toNat * b0.toNat + h.l1.toNat * b1.toNat + h.l2.toNat * b2.toNat +
        h.l3.toNat * b3.toNat + h.l4.toNat * b4.toNat ∧
    (wideMul h.l0 b0 + wideMul h.l1 b1 + wideMul h.l2 b2 + wideMul h.l3 b3 +
        wideMul h.l4 b4).toNat ≤ 5 * ((2 ^ 27 + slack) * bound) := by
  have h0 := Nat.mul_le_mul hh.l0 hb0
  have h1 := Nat.mul_le_mul hh.l1 hb1
  have h2 := Nat.mul_le_mul hh.l2 hb2
  have h3 := Nat.mul_le_mul hh.l3 hb3
  have h4 := Nat.mul_le_mul hh.l4 hb4
  have htop : (2 ^ 27 + slack) * bound ≤ (2 ^ 27 + slack) * (5 * 2 ^ 26) :=
    Nat.mul_le_mul_left _ hbound
  have hsmall : 5 * ((2 ^ 27 + slack) * (5 * 2 ^ 26)) < 2 ^ 64 := by decide
  have hsum : (wideMul h.l0 b0 + wideMul h.l1 b1 + wideMul h.l2 b2 + wideMul h.l3 b3 +
      wideMul h.l4 b4).toNat = h.l0.toNat * b0.toNat + h.l1.toNat * b1.toNat +
        h.l2.toNat * b2.toNat + h.l3.toNat * b3.toNat + h.l4.toNat * b4.toNat := by
    rw [toNat_sum] <;> simp only [toNat_wideMul]
    linarith
  refine ⟨hsum, ?_⟩
  rw [hsum]
  linarith

def Products.value (p : Products) : ℕ :=
  p.d0.toNat + 2 ^ 26 * p.d1.toNat + 2 ^ 52 * p.d2.toNat + 2 ^ 78 * p.d3.toNat +
    2 ^ 104 * p.d4.toNat

/-- No product overflows, nor does a carry. -/
structure Bounded (p : Products) : Prop where
  d0 : p.d0.toNat ≤ fiveBound
  d1 : p.d1.toNat ≤ fiveBound
  d2 : p.d2.toNat ≤ fiveBound
  d3 : p.d3.toNat ≤ fiveBound
  d4 : p.d4.toNat ≤ plainBound

/-- The products of the limbs make the product of the numbers, as `2 ^ 130` counts as 5. -/
lemma multiply_spec {h r : Limbs} (hh : Summed h) (hr : Reduced 0 r) :
    Bounded (multiply h r) ∧ ∃ c, (multiply h r).value + c * prime = h.value * r.value := by
  obtain ⟨hr0, hr1, hr2, hr3, hr4⟩ := hr
  have f1 := toNat_five_mul hr1
  have f2 := toNat_five_mul hr2
  have f3 := toNat_five_mul hr3
  have f4 := toNat_five_mul hr4
  obtain ⟨e0, b0⟩ := toNat_products hh (le_refl _) (show r.l0.toNat ≤ 5 * 2 ^ 26 by omega)
    (show (5 * r.l4).toNat ≤ 5 * 2 ^ 26 by omega) (show (5 * r.l3).toNat ≤ 5 * 2 ^ 26 by omega)
    (show (5 * r.l2).toNat ≤ 5 * 2 ^ 26 by omega) (show (5 * r.l1).toNat ≤ 5 * 2 ^ 26 by omega)
  obtain ⟨e1, b1⟩ := toNat_products hh (le_refl _) (show r.l1.toNat ≤ 5 * 2 ^ 26 by omega)
    (show r.l0.toNat ≤ 5 * 2 ^ 26 by omega) (show (5 * r.l4).toNat ≤ 5 * 2 ^ 26 by omega)
    (show (5 * r.l3).toNat ≤ 5 * 2 ^ 26 by omega) (show (5 * r.l2).toNat ≤ 5 * 2 ^ 26 by omega)
  obtain ⟨e2, b2⟩ := toNat_products hh (le_refl _) (show r.l2.toNat ≤ 5 * 2 ^ 26 by omega)
    (show r.l1.toNat ≤ 5 * 2 ^ 26 by omega) (show r.l0.toNat ≤ 5 * 2 ^ 26 by omega)
    (show (5 * r.l4).toNat ≤ 5 * 2 ^ 26 by omega) (show (5 * r.l3).toNat ≤ 5 * 2 ^ 26 by omega)
  obtain ⟨e3, b3⟩ := toNat_products hh (le_refl _) (show r.l3.toNat ≤ 5 * 2 ^ 26 by omega)
    (show r.l2.toNat ≤ 5 * 2 ^ 26 by omega) (show r.l1.toNat ≤ 5 * 2 ^ 26 by omega)
    (show r.l0.toNat ≤ 5 * 2 ^ 26 by omega) (show (5 * r.l4).toNat ≤ 5 * 2 ^ 26 by omega)
  obtain ⟨e4, b4⟩ := toNat_products hh (by decide) hr4.le hr3.le hr2.le hr1.le hr0.le
  refine ⟨⟨b0, b1, b2, b3, b4⟩, ?_⟩
  rw [f1, f2, f3, f4] at e0
  rw [f2, f3, f4] at e1
  rw [f3, f4] at e2
  rw [f4] at e3
  refine ⟨h.l1.toNat * r.l4.toNat + h.l2.toNat * r.l3.toNat + h.l3.toNat * r.l2.toNat +
    h.l4.toNat * r.l1.toNat + 2 ^ 26 * (h.l2.toNat * r.l4.toNat + h.l3.toNat * r.l3.toNat +
    h.l4.toNat * r.l2.toNat) + 2 ^ 52 * (h.l3.toNat * r.l4.toNat + h.l4.toNat * r.l3.toNat) +
    2 ^ 78 * (h.l4.toNat * r.l4.toNat), ?_⟩
  have hprime : prime = 2 ^ 130 - 5 := rfl
  simp only [Products.value, Limbs.value, multiply, hprime] at *
  rw [e0, e1, e2, e3, e4]
  norm_num only
  ring

end

section
lemma toNat_lowLimb (d : Wide) : (lowLimb d).toNat = d.toNat % 2 ^ 26 := by
  rw [lowLimb, toNat_limbMask, BitVec.toNat_setWidth]
  omega

lemma toNat_carryOf {d : Wide} (h : d.toNat < 2 ^ 58) : (carryOf d).toNat = d.toNat / 2 ^ 26 := by
  rw [carryOf, BitVec.toNat_setWidth, toNat_shiftRight]
  omega

lemma toNat_add_carry {d e : Wide} (hd : d.toNat < 2 ^ 58) (he : e.toNat < 2 ^ 58) :
    (e + (carryOf d).setWidth 64).toNat = e.toNat + d.toNat / 2 ^ 26 := by
  have hcarry := toNat_carryOf hd
  rw [BitVec.toNat_add, toNat_widen (by decide), hcarry]
  omega

lemma propagate_spec {p : Products} (hp : Bounded p) :
    Reduced slack (propagate p) ∧ ∃ c, (propagate p).value + c * prime = p.value := by
  obtain ⟨hd0, hd1, hd2, hd3, hd4⟩ := hp
  have hfive : fiveBound ≤ 2 ^ 58 - 2 ^ 40 := by decide
  have hplain : plainBound ≤ 5 * 2 ^ 53 + 2 ^ 40 := by decide
  generalize hd1' : p.d1 + (carryOf p.d0).setWidth 64 = d1
  generalize hd2' : p.d2 + (carryOf d1).setWidth 64 = d2
  generalize hd3' : p.d3 + (carryOf d2).setWidth 64 = d3
  generalize hd4' : p.d4 + (carryOf d3).setWidth 64 = d4
  have e1 : d1.toNat = p.d1.toNat + p.d0.toNat / 2 ^ 26 := by
    rw [← hd1', toNat_add_carry (by omega) (by omega)]
  have e2 : d2.toNat = p.d2.toNat + d1.toNat / 2 ^ 26 := by
    rw [← hd2', toNat_add_carry (by omega) (by omega)]
  have e3 : d3.toNat = p.d3.toNat + d2.toNat / 2 ^ 26 := by
    rw [← hd3', toNat_add_carry (by omega) (by omega)]
  have e4 : d4.toNat = p.d4.toNat + d3.toNat / 2 ^ 26 := by
    rw [← hd4', toNat_add_carry (by omega) (by omega)]
  have hcarry := toNat_carryOf (show d4.toNat < 2 ^ 58 by omega)
  -- the last carry goes around with the factor 5 and fits into a word
  generalize hh0 : lowLimb p.d0 + carryOf d4 * 5 = h0
  have e0 : h0.toNat = p.d0.toNat % 2 ^ 26 + d4.toNat / 2 ^ 26 * 5 := by
    have hword : (5 : Word).toNat = 5 := rfl
    rw [← hh0, BitVec.toNat_add, BitVec.toNat_mul, toNat_lowLimb, hcarry, hword]
    omega
  have hres : propagate p = ⟨h0 &&& limbMask, lowLimb d1 + h0 >>> 26, lowLimb d2, lowLimb d3,
      lowLimb d4⟩ := by
    rw [← hh0, ← hd4', ← hd3', ← hd2', ← hd1']
    rfl
  have hl1 : (lowLimb d1 + h0 >>> 26).toNat = d1.toNat % 2 ^ 26 + h0.toNat / 2 ^ 26 := by
    rw [BitVec.toNat_add, toNat_lowLimb, toNat_shiftRight]
    omega
  rw [hres]
  refine ⟨?_, d4.toNat / 2 ^ 26, ?_⟩
  · refine ⟨?_, ?_, ?_, ?_, ?_⟩ <;> dsimp only
    · rw [toNat_limbMask]
      omega
    · rw [hl1, slack]
      omega
    all_goals
      rw [toNat_lowLimb]
      omega
  · simp only [Limbs.value, Products.value, prime, toNat_limbMask, hl1, toNat_lowLimb]
    omega

end

lemma block_spec {r h : Limbs} (hr : Reduced 0 r) (hh : Reduced slack h) (m : List Byte)
    (isFinal : Bool) :
    Reduced slack (poly1305Block r h m (hibitOf isFinal)) ∧
      (poly1305Block r h m (hibitOf isFinal)).value ≡
        (h.value + leNat m % 2 ^ 128 + if isFinal then 0 else 2 ^ 128) * r.value [MOD prime] := by
  obtain ⟨hsummed, hadded⟩ := addBlock_spec hh m isFinal
  obtain ⟨hbounded, c, hprod⟩ := multiply_spec hsummed hr
  obtain ⟨hred, c', hcarried⟩ := propagate_spec hbounded
  refine ⟨hred, ?_⟩
  rw [← hadded, ← hprod, ← hcarried]
  rw [Nat.ModEq, Nat.add_mul_mod_self_right, Nat.add_mul_mod_self_right]
  rfl

end KosKernel.Poly1305
