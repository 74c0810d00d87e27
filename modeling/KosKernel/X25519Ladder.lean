import Mathlib.Data.ZMod.Basic
import KosKernel.X25519Field

/-! X25519: the ladder of RFC 7748 over the field of `2 ^ 255 - 19` elements, and that the code
computes it without an overflow. -/
namespace KosKernel.X25519
open LittleEndian CheckedArithmetic SignedLimbs

def prime : ℕ := 2 ^ 255 - 19

instance : NeZero prime := ⟨by decide⟩

def element (l : Gf) : ZMod prime := (num l : ℤ)

section
variable {a b : Gf}

lemma cast_double_prime : ((2 ^ 256 - 38 : ℤ) : ZMod prime) = 0 := by
  have hdouble : (2 ^ 256 - 38 : ℤ) = ((2 * prime : ℕ) : ℤ) := by
    rw [prime]
    norm_num
  rw [hdouble, Int.cast_natCast, Nat.cast_mul, ZMod.natCast_self, mul_zero]

lemma element_eq_of_num {o : Gf} {c n : ℤ} (h : num o + c * (2 ^ 256 - 38) = n) :
    element o = (n : ZMod prime) := by
  rw [← h, element, Int.cast_add, Int.cast_mul, cast_double_prime, mul_zero, add_zero]

lemma M_element (ha : Loose a) (hb : Loose b) :
    ∃ o, M a b = some o ∧ Tight o ∧ element o = element a * element b := by
  obtain ⟨o, hproduct, htight, c, hnum⟩ := M_spec ha hb
  refine ⟨o, hproduct, htight, ?_⟩
  rw [element_eq_of_num hnum, Int.cast_mul]
  rfl

lemma S_element (ha : Loose a) : ∃ o, S a = some o ∧ Tight o ∧ element o = element a * element a :=
  M_element ha ha

lemma loose_map {f : ℕ → ℤ} (h : ∀ i, |f i| ≤ 2 ^ 18) : Loose ((List.range 16).map f) := by
  refine ⟨by rw [List.length_map, List.length_range], fun x hx => ?_⟩
  obtain ⟨i, -, rfl⟩ := List.mem_map.mp hx
  exact h i

lemma A_element (ha : Tight a) (hb : Tight b) :
    ∃ o, A a b = some o ∧ Loose o ∧ element o = element a + element b := by
  have hlimb : ∀ i, |a.getD i 0 + b.getD i 0| ≤ 2 ^ 18 := by
    intro i
    have hadd := abs_add_le (a.getD i 0) (b.getD i 0)
    linarith [getD_abs_le (by decide) ha.bound i, getD_abs_le (by decide) hb.bound i]
  refine ⟨_, mapM_eq_some fun i _ => add64_eq ((hlimb i).trans (by decide)), loose_map hlimb, ?_⟩
  rw [element, num, value_map_add, map_getD ha.length, map_getD hb.length, Int.cast_add]
  rfl

lemma Z_element (ha : Tight a) (hb : Tight b) :
    ∃ o, Z a b = some o ∧ Loose o ∧ element o = element a - element b := by
  have hlimb : ∀ i, |a.getD i 0 - b.getD i 0| ≤ 2 ^ 18 := by
    intro i
    have hsub := abs_sub (a.getD i 0) (b.getD i 0)
    linarith [getD_abs_le (by decide) ha.bound i, getD_abs_le (by decide) hb.bound i]
  refine ⟨_, mapM_eq_some fun i _ => sub64_eq ((hlimb i).trans (by decide)), loose_map hlimb, ?_⟩
  rw [element, num, value_map_sub, map_getD ha.length, map_getD hb.length, Int.cast_sub]
  rfl

lemma Loose.word {l : Gf} (h : Loose l) (i : ℕ) : |l.getD i 0| ≤ 2 ^ 62 :=
  (getD_abs_le (by decide) h.bound i).trans (by decide)

lemma sel25519_zero (ha : Loose a) (hb : Loose b) : sel25519 a b 0 = (a, b) := by
  have hmask : not64 (0 - 1) = 0 := by decide
  rw [sel25519, hmask]
  simp only [and64_zero, xor64_zero (ha.word _), xor64_zero (hb.word _)]
  rw [map_getD ha.length, map_getD hb.length]

lemma sel25519_one (ha : Loose a) (hb : Loose b) : sel25519 a b 1 = (b, a) := by
  have hmask : not64 (1 - 1) = -1 := by decide
  rw [sel25519, hmask]
  simp only [and64_xor64, xor64_xor64_left _ (hb.word _), xor64_xor64_right (ha.word _)]
  rw [map_getD ha.length, map_getD hb.length]

end

section
/-- The exponent after so many turns of `inv25519`. -/
def exponent (n : ℕ) : ℕ :=
  (List.range n).foldl (fun e n => 2 * e + if 253 - n ≠ 2 ∧ 253 - n ≠ 4 then 1 else 0) 1

lemma exponent_succ (n : ℕ) : exponent (n + 1) =
    2 * exponent n + if 253 - n ≠ 2 ∧ 253 - n ≠ 4 then 1 else 0 := by
  rw [exponent, List.range_succ, List.foldl_append]
  rfl

lemma exponent_last : exponent 254 = prime - 2 := by decide +kernel

lemma invTurn_spec {i c : Gf} (hi : Tight i) (hc : Tight c) (n : ℕ) (hn : element c = element i ^ exponent n) :
    ∃ o, invTurn i c (253 - n) = some o ∧ Tight o ∧ element o = element i ^ exponent (n + 1) := by
  obtain ⟨s, hsquare, hs, hvalue⟩ := S_element hc.loose
  unfold invTurn
  rw [hsquare, exponent_succ]
  simp only [Option.bind_eq_bind, Option.bind_some]
  by_cases hbit : 253 - n ≠ 2 ∧ 253 - n ≠ 4
  · obtain ⟨o, hproduct, ho, hvalue'⟩ := M_element hs.loose hi.loose
    rw [if_pos hbit, if_pos hbit]
    refine ⟨o, hproduct, ho, ?_⟩
    rw [hvalue', hvalue, hn]
    ring
  rw [if_neg hbit, if_neg hbit]
  refine ⟨s, rfl, hs, ?_⟩
  rw [hvalue, hn]
  ring

lemma inv25519_element {i : Gf} (hi : Tight i) :
    ∃ o, inv25519 i = some o ∧ Tight o ∧ element o = element i ^ (prime - 2) := by
  obtain ⟨o, hrun, ho, hvalue⟩ := foldlM_range
    (fun n c => Tight c ∧ element c = element i ^ exponent n)
    (⟨hi, (pow_one _).symm⟩ : Tight i ∧ element i = element i ^ exponent 0)
    (fun n (_ : n < 254) c hc => invTurn_spec hi hc.1 n hc.2)
  rw [exponent_last] at hvalue
  exact ⟨o, hrun, ho, hvalue⟩

end

section
structure LadderPoint where
  x2 : ZMod prime
  z2 : ZMod prime
  x3 : ZMod prime
  z3 : ZMod prime
  swap : ℕ

def cswap (p : LadderPoint) (b : ℕ) : LadderPoint :=
  if b = 1 then ⟨p.x3, p.z3, p.x2, p.z2, p.swap⟩ else p

def montgomeryStep (x1 : ZMod prime) (p : LadderPoint) : LadderPoint :=
  let a := p.x2 + p.z2
  let aa := a ^ 2
  let b := p.x2 - p.z2
  let bb := b ^ 2
  let e := aa - bb
  let c := p.x3 + p.z3
  let d := p.x3 - p.z3
  let da := d * a
  let cb := c * b
  ⟨aa * bb, e * (aa + 121665 * e), (da + cb) ^ 2, x1 * (da - cb) ^ 2, p.swap⟩

def montgomeryTurn (k : ℕ) (x1 : ZMod prime) (p : LadderPoint) (t : ℕ) : LadderPoint :=
  let bit := k / 2 ^ t % 2
  montgomeryStep x1 { cswap p (p.swap ^^^ bit) with swap := bit }

/-- The scalar with the three lowest bits cleared, the highest one cleared and the next one set. -/
def decodeScalar (n : ℕ) : ℕ := n % 2 ^ 254 / 8 * 8 + 2 ^ 254

/-- The function of RFC 7748 on a scalar and a coordinate, with the coordinate's bit 255 ignored. -/
def x25519 (scalar u : ℕ) : ZMod prime :=
  let p := (List.range 255).foldl
    (fun p n => montgomeryTurn (decodeScalar scalar) (u % 2 ^ 255 : ℕ) p (254 - n))
    ⟨1, 0, (u % 2 ^ 255 : ℕ), 1, 0⟩
  let p := cswap p p.swap
  p.x2 * p.z2 ^ (prime - 2)

end

/-- The code's state stands for the state of the ladder. -/
structure Represents (s : Ladder) (p : LadderPoint) : Prop where
  tight2 : Tight s.x2 ∧ Tight s.z2
  tight3 : Tight s.x3 ∧ Tight s.z3
  x2 : element s.x2 = p.x2
  z2 : element s.z2 = p.z2
  x3 : element s.x3 = p.x3
  z3 : element s.z3 = p.z3
  swap : s.swap = p.swap

variable {s : Ladder} {p : LadderPoint} {x1 : Gf}

lemma element_a24 : element a24 = 121665 := by
  have hnum : num a24 = 121665 := by decide
  rw [element, hnum]
  rfl

lemma loose_a24 : Loose a24 := ⟨rfl, by decide⟩

lemma represents_swapPoints (h : Represents s p) {b : ℕ} (hb : b < 2) :
    Represents (swapPoints s b) (cswap p b) := by
  obtain ⟨⟨hx2, hz2⟩, ⟨hx3, hz3⟩, ex2, ez2, ex3, ez3, hswap⟩ := h
  interval_cases b
  · have hpoints : swapPoints s 0 = s := by
      unfold swapPoints
      rw [Nat.cast_zero, sel25519_zero hx2.loose hx3.loose, sel25519_zero hz2.loose hz3.loose]
    rw [hpoints, cswap, if_neg (by decide)]
    exact ⟨⟨hx2, hz2⟩, ⟨hx3, hz3⟩, ex2, ez2, ex3, ez3, hswap⟩
  have hpoints : swapPoints s 1 = ⟨s.x3, s.z3, s.x2, s.z2, s.swap⟩ := by
    unfold swapPoints
    rw [Nat.cast_one, sel25519_one hx2.loose hx3.loose, sel25519_one hz2.loose hz3.loose]
  rw [hpoints, cswap, if_pos rfl]
  exact ⟨⟨hx3, hz3⟩, ⟨hx2, hz2⟩, ex3, ez3, ex2, ez2, hswap⟩

lemma ladderStep_spec (h : Represents s p) (hx1 : Tight x1) :
    ∃ s', ladderStep x1 s = some s' ∧ Represents s' (montgomeryStep (element x1) p) := by
  obtain ⟨⟨hx2, hz2⟩, ⟨hx3, hz3⟩, ex2, ez2, ex3, ez3, hswap⟩ := h
  obtain ⟨a, ra, ha, ea⟩ := A_element hx2 hz2
  obtain ⟨aa, raa, haa, eaa⟩ := S_element ha
  obtain ⟨b, rb, hb, eb⟩ := Z_element hx2 hz2
  obtain ⟨bb, rbb, hbb, ebb⟩ := S_element hb
  obtain ⟨e, re, he, ee⟩ := Z_element haa hbb
  obtain ⟨c, rc, hc, ec⟩ := A_element hx3 hz3
  obtain ⟨d, rd, hd, ed⟩ := Z_element hx3 hz3
  obtain ⟨da, rda, hda, eda⟩ := M_element hd ha
  obtain ⟨cb, rcb, hcb, ecb⟩ := M_element hc hb
  obtain ⟨sum, rsum, hsum, esum⟩ := A_element hda hcb
  obtain ⟨x3', rx3, hx3', ex3'⟩ := S_element hsum
  obtain ⟨diff, rdiff, hdiff, ediff⟩ := Z_element hda hcb
  obtain ⟨square, rsquare, hsquare, esquare⟩ := S_element hdiff
  obtain ⟨z3', rz3, hz3', ez3'⟩ := M_element hsquare.loose hx1.loose
  obtain ⟨x2', rx2, hx2', ex2'⟩ := M_element haa.loose hbb.loose
  obtain ⟨ae, rae, hae, eae⟩ := M_element he loose_a24
  obtain ⟨total, rtotal, htotal, etotal⟩ := A_element hae haa
  obtain ⟨z2', rz2, hz2', ez2'⟩ := M_element he htotal
  refine ⟨⟨x2', z2', x3', z3', s.swap⟩, ?_, ⟨hx2', hz2'⟩, ⟨hx3', hz3'⟩, ?_, ?_, ?_, ?_, hswap⟩
  · unfold ladderStep
    rw [bind_of_eq_some ra, bind_of_eq_some raa, bind_of_eq_some rb, bind_of_eq_some rbb,
      bind_of_eq_some re, bind_of_eq_some rc, bind_of_eq_some rd, bind_of_eq_some rda,
      bind_of_eq_some rcb, bind_of_eq_some rsum, bind_of_eq_some rx3, bind_of_eq_some rdiff,
      bind_of_eq_some rsquare, bind_of_eq_some rz3, bind_of_eq_some rx2, bind_of_eq_some rae,
      bind_of_eq_some rtotal, bind_of_eq_some rz2]
    rfl
  · rw [ex2', eaa, ebb, ea, eb, ex2, ez2, montgomeryStep]
    ring
  · rw [ez2', etotal, eae, ee, eaa, ebb, ea, eb, ex2, ez2, element_a24, montgomeryStep]
    ring
  · rw [ex3', esum, eda, ecb, ed, ec, ea, eb, ex2, ez2, ex3, ez3, montgomeryStep]
    ring
  · rw [ez3', esquare, ediff, eda, ecb, ed, ec, ea, eb, ex2, ez2, ex3, ez3, montgomeryStep]
    ring

lemma scalarBit_eq (z : List Byte) (pos : ℕ) : scalarBit z pos = leNat z / 2 ^ pos % 2 := by
  have hpos : 2 ^ pos = 256 ^ (pos / 8) * 2 ^ (pos % 8) := by
    rw [← two_pow_eight_mul, ← pow_add, Nat.div_add_mod]
  have hdvd : 256 = 2 ^ (pos % 8) * 2 * 2 ^ (7 - pos % 8) := by
    rw [← pow_succ, ← pow_add, show pos % 8 + 1 + (7 - pos % 8) = 8 by omega]
    rfl
  rw [scalarBit, toNat_getD, hpos, ← Nat.div_div_eq_div_mul]
  generalize leNat z / 256 ^ (pos / 8) = n
  rw [hdvd, Nat.mul_assoc, Nat.mod_mul_right_div_self, Nat.mod_mul_right_mod]

lemma scalarBit_lt (z : List Byte) (pos : ℕ) : scalarBit z pos < 2 := Nat.mod_lt _ (by decide)

/-- The swap flag is a bit, and the states correspond. -/
structure Simulates (s : Ladder) (p : LadderPoint) : Prop where
  represents : Represents s p
  swap_lt : p.swap < 2

lemma ladderTurn_spec (z : List Byte) (h : Simulates s p) (hx1 : Tight x1) (pos : ℕ) :
    ∃ s', ladderTurn z x1 s pos = some s' ∧
      Simulates s' (montgomeryTurn (leNat z) (element x1) p pos) := by
  have hbit := scalarBit_lt z pos
  have hswap := h.represents.swap
  have hlt : s.swap ^^^ scalarBit z pos < 2 :=
    Nat.xor_lt_two_pow (n := 1) (by rw [hswap]; exact h.swap_lt) hbit
  have hswapped := represents_swapPoints h.represents hlt
  have hflag : Represents
      { swapPoints s (s.swap ^^^ scalarBit z pos) with swap := scalarBit z pos }
      { cswap p (s.swap ^^^ scalarBit z pos) with swap := scalarBit z pos } :=
    ⟨hswapped.tight2, hswapped.tight3, hswapped.x2, hswapped.z2, hswapped.x3, hswapped.z3, rfl⟩
  obtain ⟨s', hstep, hrepresents⟩ := ladderStep_spec hflag hx1
  rw [hswap, scalarBit_eq] at hrepresents
  refine ⟨s', hstep, hrepresents, ?_⟩
  exact Nat.mod_lt _ (by decide)

end KosKernel.X25519
