import KosKernel.Poly1305Blocks

/-! The tag of Poly1305: what RFC 8439 asks for, and when the code computes it. -/
namespace KosKernel.Poly1305
open LittleEndian MachineWords List

section
def blockValue (block : List Byte) : ℕ := leNat block + 2 ^ (8 * block.length)

/-- The polynomial over so many blocks of sixteen bytes; the last one may be shorter. -/
def polynomial (r : ℕ) (m : List Byte) (count : ℕ) : ℕ :=
  (range count).foldl
    (fun acc i => (acc + blockValue ((m.drop (16 * i)).take 16)) * r % prime) 0

def messageValue (key m : List Byte) : ℕ :=
  polynomial (clamp (leNat (key.take 16))) m ((m.length + 15) / 16)

def poly1305Mac (key m : List Byte) : List Byte :=
  leBytes 16 ((messageValue key m + leNat ((key.drop 16).take 16)) % 2 ^ 128)

lemma polynomial_succ (r : ℕ) (m : List Byte) (count : ℕ) : polynomial r m (count + 1) =
    (polynomial r m count + blockValue ((m.drop (16 * count)).take 16)) * r % prime := by
  rw [polynomial, range_succ, foldl_append]
  rfl

lemma polynomial_lt (r : ℕ) (m : List Byte) (count : ℕ) : polynomial r m count < prime := by
  cases count with
  | zero => exact show 0 < prime by decide
  | succ count =>
    rw [polynomial_succ]
    exact Nat.mod_lt _ (by decide)

lemma polynomial_append (r : ℕ) {m : List Byte} {count : ℕ} (h : 16 * count ≤ m.length)
    (rest : List Byte) : polynomial r (m ++ rest) count = polynomial r m count := by
  induction count with
  | zero => rfl
  | succ count ih =>
    have hblock : ((m ++ rest).drop (16 * count)).take 16 = (m.drop (16 * count)).take 16 := by
      rw [drop_append_of_le_length (by omega), take_append_of_le_length]
      rw [length_drop]
      omega
    rw [polynomial_succ, polynomial_succ, ih (by omega), hblock]

end

section
variable {r h : Limbs} {n : ℕ} {m : List Byte} {count : ℕ}

section
variable (hr : Reduced 0 r) (hh : Reduced slack h)
  (hvalue : h.value ≡ polynomial r.value m count [MOD prime])
include hr hh hvalue

lemma block_polynomial (hfits : 16 * (count + 1) ≤ m.length) {b : List Byte}
    (hb : b.take 16 = (m.drop (16 * count)).take 16) :
    Reduced slack (poly1305Block r h b (hibitOf false)) ∧
      (poly1305Block r h b (hibitOf false)).value ≡ polynomial r.value m (count + 1)
        [MOD prime] := by
  obtain ⟨hred, hprod⟩ := block_spec hr hh b false
  refine ⟨hred, hprod.trans ?_⟩
  have hlen : ((m.drop (16 * count)).take 16).length = 16 := by
    rw [length_take, length_drop]
    omega
  have hblock : blockValue ((m.drop (16 * count)).take 16) = leNat b % 2 ^ 128 + 2 ^ 128 := by
    rw [blockValue, hlen, ← hb, leNat_take]
    rfl
  rw [polynomial_succ, hblock, if_neg Bool.false_ne_true, Nat.add_assoc]
  exact ((hvalue.add_right _).mul_right _).trans (Nat.mod_modEq _ _).symm

lemma blocks_polynomial {b : List Byte} (hb : b <+: m.drop (16 * count)) :
    Reduced slack (poly1305Blocks r h b false) ∧
      (poly1305Blocks r h b false).value ≡ polynomial r.value m (count + b.length / 16)
        [MOD prime] := by
  have hlen := hb.length_le
  rw [length_drop] at hlen
  unfold poly1305Blocks
  have hrun : ∀ n ≤ b.length / 16, Reduced slack ((range n).foldl
      (fun h i => poly1305Block r h (b.drop (16 * i)) (hibitOf false)) h) ∧
      ((range n).foldl
        (fun h i => poly1305Block r h (b.drop (16 * i)) (hibitOf false)) h).value ≡
        polynomial r.value m (count + n) [MOD prime] := by
    intro n
    induction n with
    | zero => exact fun _ => ⟨hh, hvalue⟩
    | succ n ih =>
      intro hn
      obtain ⟨hred, hprev⟩ := ih (by omega)
      rw [range_succ, foldl_append, foldl_cons, foldl_nil]
      refine block_polynomial hr hred hprev (by omega) ?_
      -- the block of the part is the block of the msg
      obtain ⟨rest, hrest⟩ := hb
      rw [Nat.mul_add, ← drop_drop, ← hrest, drop_append_of_le_length (by omega),
        take_append_of_le_length]
      rw [length_drop]
      omega
  exact hrun _ (le_refl _)

end
end

section
/-- The context after a message: so many blocks of it are in the accumulator, the rest is in the
buffer. -/
structure Absorbed (key m : List Byte) (count : ℕ) (ctx : Poly1305Ctx) : Prop where
  r : ctx.r = (poly1305Init key).r
  pad0 : ctx.pad0 = load32 key 16
  pad1 : ctx.pad1 = load32 key 20
  pad2 : ctx.pad2 = load32 key 24
  pad3 : ctx.pad3 = load32 key 28
  fits : 16 * count ≤ m.length
  buffer : ctx.buffer = m.drop (16 * count)
  reduced : Reduced slack ctx.h
  value : ctx.h.value ≡ polynomial (poly1305Init key).r.value m count [MOD prime]

variable {key m : List Byte} {count : ℕ} {ctx : Poly1305Ctx}

lemma reduced_zero : Reduced slack ⟨0, 0, 0, 0, 0⟩ := by
  constructor <;> decide

lemma absorbed_init (key : List Byte) : Absorbed key [] 0 (poly1305Init key) :=
  ⟨rfl, rfl, rfl, rfl, rfl, le_refl _, rfl, reduced_zero, rfl⟩

section
variable (h : Absorbed key m count ctx)
include h

lemma Absorbed.length_buffer : ctx.buffer.length = m.length - 16 * count := by
  rw [h.buffer, length_drop]

lemma Absorbed.append (bytes : List Byte) :
    Absorbed key (m ++ bytes) count { ctx with buffer := ctx.buffer ++ bytes } := by
  have hfits := h.fits
  refine ⟨h.r, h.pad0, h.pad1, h.pad2, h.pad3, ?_, ?_, h.reduced, ?_⟩
  · rw [length_append]
    omega
  · rw [drop_append_of_le_length hfits, h.buffer]
  · rw [polynomial_append _ hfits]
    exact h.value

lemma Absorbed.takeOut {b rest : List Byte} (hbuf : ctx.buffer = b ++ rest) (hb : 16 ∣ b.length) :
    Absorbed key m (count + b.length / 16)
      { ctx with h := poly1305Blocks ctx.r ctx.h b false, buffer := rest } := by
  have hr : Reduced 0 ctx.r := h.r ▸ init_reduced key
  have hvalue := h.value
  rw [← h.r] at hvalue
  have hprefix : b <+: m.drop (16 * count) := by
    rw [← h.buffer, hbuf]
    exact prefix_append _ _
  obtain ⟨hred, hres⟩ := blocks_polynomial hr h.reduced hvalue hprefix
  have hlen := hprefix.length_le
  rw [length_drop] at hlen
  have hfits := h.fits
  refine ⟨h.r, h.pad0, h.pad1, h.pad2, h.pad3, by omega, ?_, hred, ?_⟩
  · have hcount : 16 * (count + b.length / 16) = 16 * count + b.length := by omega
    rw [hcount, ← drop_drop, ← h.buffer, hbuf, drop_left]
  · rw [← h.r]
    exact hres

section
variable (hlt : ctx.buffer.length < 16)
include hlt

lemma absorbed_fillBuffer (bytes : List Byte) :
    ∃ count', Absorbed key (m ++ bytes.take (16 - ctx.buffer.length)) count'
        (fillBuffer ctx bytes) ∧
      (fillBuffer ctx bytes).buffer.length < 16 ∧
      ((fillBuffer ctx bytes).buffer = [] ∨ bytes.drop (16 - ctx.buffer.length) = []) := by
  have hfilled := h.append (bytes.take (16 - ctx.buffer.length))
  have hlen : (ctx.buffer ++ bytes.take (16 - ctx.buffer.length)).length =
      ctx.buffer.length + min (16 - ctx.buffer.length) bytes.length := by
    rw [length_append, length_take]
  unfold fillBuffer
  dsimp only
  split
  · rename_i hfull
    have hblock := hfilled.takeOut (append_nil _).symm (by rw [hfull])
    exact ⟨_, hblock, Nat.zero_lt_succ _, Or.inl rfl⟩
  rename_i hpart
  refine ⟨count, hfilled, ?_, Or.inr ?_⟩
  · dsimp only
    omega
  · rw [drop_eq_nil_iff]
    omega

lemma absorbed_takeBlocks {bytes : List Byte} (hempty : ctx.buffer = [] ∨ bytes = []) :
    ∃ count', Absorbed key (m ++ bytes) count' (takeBlocks ctx bytes) ∧
      (takeBlocks ctx bytes).buffer.length < 16 := by
  have happended := h.append bytes
  unfold takeBlocks
  by_cases hlong : 16 ≤ bytes.length
  · have hnil : ctx.buffer = [] := by
      refine hempty.resolve_right fun hnone => ?_
      rw [hnone] at hlong
      cases hlong
    have hsplit : ctx.buffer ++ bytes = bytes.take (bytes.length / 16 * 16) ++
        bytes.drop (bytes.length / 16 * 16) := by
      rw [hnil, nil_append, take_append_drop]
    have htaken := happended.takeOut hsplit (by
      rw [length_take]
      omega)
    dsimp only at htaken ⊢
    rw [if_pos hlong, hnil, nil_append]
    refine ⟨_, htaken, ?_⟩
    rw [length_drop]
    omega
  · have hzero : bytes.length / 16 * 16 = 0 := by omega
    dsimp only
    rw [if_neg hlong, hzero, drop_zero]
    refine ⟨count, happended, ?_⟩
    rcases hempty with hnil | hnil
    · rw [hnil, nil_append]
      omega
    · rw [hnil, append_nil]
      exact hlt

lemma absorbed_update (bytes : List Byte) :
    ∃ count', Absorbed key (m ++ bytes) count' (poly1305Update ctx bytes) ∧
      (poly1305Update ctx bytes).buffer.length < 16 := by
  unfold poly1305Update
  split
  · obtain ⟨count', hfilled, hlt', hempty⟩ := absorbed_fillBuffer h hlt bytes
    have htaken := absorbed_takeBlocks hfilled hlt' hempty
    rwa [append_assoc, take_append_drop] at htaken
  · rename_i hnone
    exact absorbed_takeBlocks h hlt (Or.inl (eq_nil_of_length_eq_zero (by omega)))

end
end

lemma absorbed_chunks (key : List Byte) (chunks : List (List Byte)) :
    ∃ count, Absorbed key chunks.flatten count (chunks.foldl poly1305Update (poly1305Init key)) ∧
      (chunks.foldl poly1305Update (poly1305Init key)).buffer.length < 16 := by
  induction chunks using reverseRecOn with
  | nil => exact ⟨0, absorbed_init key, Nat.zero_lt_succ _⟩
  | append_singleton chunks chunk ih =>
    obtain ⟨count, habs, hlt⟩ := ih
    rw [foldl_append, flatten_append, flatten_singleton]
    exact absorbed_update habs hlt chunk

end

section
/-- The final carries leave limbs of 26 bits: if the last carry is not zero, the second limb is
small. -/
lemma carryLimbs_spec {h : Limbs} (hh : Reduced slack h) :
    Reduced 0 (carryLimbs h) ∧ ∃ c, (carryLimbs h).value + c * prime = h.value := by
  obtain ⟨h0, h1, h2, h3, h4⟩ := hh
  have hslack : slack = 64 := rfl
  generalize hl2 : h.l2 + h.l1 >>> 26 = l2
  generalize hl3 : h.l3 + l2 >>> 26 = l3
  generalize hl4 : h.l4 + l3 >>> 26 = l4
  generalize hl0 : h.l0 + l4 >>> 26 * 5 = l0
  have e2 : l2.toNat = h.l2.toNat + h.l1.toNat / 2 ^ 26 := by
    rw [← hl2, BitVec.toNat_add, toNat_shiftRight]
    omega
  have e3 : l3.toNat = h.l3.toNat + l2.toNat / 2 ^ 26 := by
    rw [← hl3, BitVec.toNat_add, toNat_shiftRight]
    omega
  have e4 : l4.toNat = h.l4.toNat + l3.toNat / 2 ^ 26 := by
    rw [← hl4, BitVec.toNat_add, toNat_shiftRight]
    omega
  have e0 : l0.toNat = h.l0.toNat + l4.toNat / 2 ^ 26 * 5 := by
    have hword : (5 : Word).toNat = 5 := rfl
    rw [← hl0, BitVec.toNat_add, BitVec.toNat_mul, toNat_shiftRight, hword]
    omega
  have hl1 : ((h.l1 &&& limbMask) + l0 >>> 26).toNat = h.l1.toNat % 2 ^ 26 + l0.toNat / 2 ^ 26 := by
    rw [BitVec.toNat_add, toNat_limbMask, toNat_shiftRight]
    omega
  have hres : carryLimbs h = ⟨l0 &&& limbMask, (h.l1 &&& limbMask) + l0 >>> 26, l2 &&& limbMask,
      l3 &&& limbMask, l4 &&& limbMask⟩ := by
    rw [← hl0, ← hl4, ← hl3, ← hl2]
    rfl
  have hround : l0.toNat / 2 ^ 26 = 0 ∨ h.l1.toNat % 2 ^ 26 < 64 ∧ l0.toNat / 2 ^ 26 ≤ 1 := by
    rcases Nat.eq_zero_or_pos (l4.toNat / 2 ^ 26) with hnone | hcarry
    · omega
    have hcarry3 : 0 < l3.toNat / 2 ^ 26 := by omega
    have hcarry2 : 0 < l2.toNat / 2 ^ 26 := by omega
    have hcarry1 : 0 < h.l1.toNat / 2 ^ 26 := by omega
    omega
  rw [hres]
  refine ⟨?_, l4.toNat / 2 ^ 26, ?_⟩
  · constructor <;> simp only [hl1, toNat_limbMask] <;> omega
  · simp only [Limbs.value, prime, hl1, toNat_limbMask]
    omega

lemma selectLimb_zero (h g : Word) : selectLimb 0#32 h g = h := by
  rw [selectLimb, BitVec.not_zero, BitVec.and_allOnes, BitVec.and_zero, BitVec.or_zero]

lemma selectLimb_ones (h g : Word) : selectLimb (BitVec.allOnes 32) h g = g := by
  rw [selectLimb, BitVec.not_allOnes, BitVec.and_allOnes, BitVec.and_zero, BitVec.zero_or]

lemma subtractPrime_spec {h : Limbs} (hh : Reduced 0 h) :
    Reduced 0 (subtractPrime h) ∧ (subtractPrime h).value = h.value % prime := by
  obtain ⟨h0, h1, h2, h3, h4⟩ := hh
  generalize hg0 : h.l0 + 5 = g0
  generalize hg1 : h.l1 + g0 >>> 26 = g1
  generalize hg2 : h.l2 + g1 >>> 26 = g2
  generalize hg3 : h.l3 + g2 >>> 26 = g3
  generalize hg4 : h.l4 + g3 >>> 26 - 1 <<< 26 = g4
  have e0 : g0.toNat = h.l0.toNat + 5 := by
    have hword : (5 : Word).toNat = 5 := rfl
    rw [← hg0, BitVec.toNat_add, hword]
    omega
  have e1 : g1.toNat = h.l1.toNat + g0.toNat / 2 ^ 26 := by
    rw [← hg1, BitVec.toNat_add, toNat_shiftRight]
    omega
  have e2 : g2.toNat = h.l2.toNat + g1.toNat / 2 ^ 26 := by
    rw [← hg2, BitVec.toNat_add, toNat_shiftRight]
    omega
  have e3 : g3.toNat = h.l3.toNat + g2.toNat / 2 ^ 26 := by
    rw [← hg3, BitVec.toNat_add, toNat_shiftRight]
    omega
  have e4 : g4.toNat = (h.l4.toNat + g3.toNat / 2 ^ 26 + 2 ^ 32 - 2 ^ 26) % 2 ^ 32 := by
    have hword : (1 <<< 26 : Word).toNat = 2 ^ 26 := rfl
    rw [← hg4, BitVec.toNat_sub, BitVec.toNat_add, toNat_shiftRight, hword]
    omega
  have hres : subtractPrime h = ⟨selectLimb (g4 >>> 31 - 1) h.l0 (g0 &&& limbMask),
      selectLimb (g4 >>> 31 - 1) h.l1 (g1 &&& limbMask),
      selectLimb (g4 >>> 31 - 1) h.l2 (g2 &&& limbMask),
      selectLimb (g4 >>> 31 - 1) h.l3 (g3 &&& limbMask), selectLimb (g4 >>> 31 - 1) h.l4 g4⟩ := by
    rw [← hg4, ← hg3, ← hg2, ← hg1, ← hg0]
    rfl
  have htop : (g4 >>> 31).toNat = g4.toNat / 2 ^ 31 := toNat_shiftRight _ _
  have hsum : h.value + 5 = g0.toNat % 2 ^ 26 + 2 ^ 26 * (g1.toNat % 2 ^ 26) +
      2 ^ 52 * (g2.toNat % 2 ^ 26) + 2 ^ 78 * (g3.toNat % 2 ^ 26) +
      2 ^ 104 * (h.l4.toNat + g3.toNat / 2 ^ 26) := by
    rw [Limbs.value]
    omega
  rcases lt_or_ge (h.l4.toNat + g3.toNat / 2 ^ 26) (2 ^ 26) with hsmall | hlarge
  · -- the subtraction borrows, so the accumulator stays
    have hone : g4 >>> 31 = 1 := BitVec.eq_of_toNat_eq (htop.trans (by
      rw [e4]
      exact show _ = 1 by omega))
    have hmask : (1 : Word) - 1 = 0#32 := rfl
    rw [hres, hone, hmask]
    simp only [selectLimb_zero]
    have hlt : h.value < prime := by
      rw [prime]
      omega
    exact ⟨⟨h0, h1, h2, h3, h4⟩, (Nat.mod_eq_of_lt hlt).symm⟩
  · have hzero : g4 >>> 31 = 0 := BitVec.eq_of_toNat_eq (htop.trans (by
      rw [e4]
      exact show _ = 0 by omega))
    have hmask : (0 : Word) - 1 = BitVec.allOnes 32 := rfl
    rw [hres, hzero, hmask]
    simp only [selectLimb_ones]
    constructor
    · constructor <;> simp only [toNat_limbMask] <;> omega
    have hhigh : h.l4.toNat + g3.toNat / 2 ^ 26 = 2 ^ 26 := by omega
    have hzero4 : g4.toNat = 0 := by omega
    rw [hhigh] at hsum
    have hvalue : h.value = h.value + 5 - 2 ^ 130 + prime := by
      rw [prime]
      omega
    rw [hvalue, Nat.add_mod_right, Nat.mod_eq_of_lt, hsum]
    · simp only [Limbs.value, toNat_limbMask, hzero4]
      omega
    · rw [hsum, prime]
      omega

variable {key m : List Byte} {count : ℕ} {ctx : Poly1305Ctx}

lemma finalBlock_spec (h : Absorbed key m count ctx) (hlt : ctx.buffer.length < 16) :
    Reduced slack (finalBlock ctx) ∧ (finalBlock ctx).value ≡
      polynomial (poly1305Init key).r.value m ((m.length + 15) / 16) [MOD prime] := by
  have hfits := h.fits
  have hlen := h.length_buffer
  unfold finalBlock
  split
  · rename_i hsome
    have hcount : (m.length + 15) / 16 = count + 1 := by omega
    have hone : (ctx.buffer ++ 1 :: replicate (15 - ctx.buffer.length) 0).length / 16 = 1 := by
      rw [length_append, length_cons, length_replicate]
      omega
    have hblock : (m.drop (16 * count)).take 16 = ctx.buffer := by
      rw [← h.buffer, take_of_length_le hlt.le]
    have hvalue : leNat (ctx.buffer ++ 1 :: replicate (15 - ctx.buffer.length) 0) =
        blockValue ctx.buffer := by
      have hbyte : (1 : Byte).toNat = 1 := rfl
      rw [leNat_append, leNat_cons, leNat_replicate_zero, hbyte, blockValue,
        two_pow_eight_mul, Nat.mul_zero, Nat.add_zero, Nat.mul_one]
    have hsmall : blockValue ctx.buffer < 2 ^ 128 := by
      have hbytes := leNat_lt ctx.buffer
      have hpower : 256 ^ ctx.buffer.length ≤ 256 ^ 15 :=
        Nat.pow_le_pow_right (by decide) (by omega)
      rw [blockValue, two_pow_eight_mul]
      omega
    unfold poly1305Blocks
    rw [hone, hcount, polynomial_succ, hblock, range_one, foldl_cons, foldl_nil,
      Nat.mul_zero, drop_zero]
    obtain ⟨hred, hprod⟩ := block_spec (h.r ▸ init_reduced key) h.reduced
      (ctx.buffer ++ 1 :: replicate (15 - ctx.buffer.length) 0) true
    refine ⟨hred, hprod.trans ?_⟩
    rw [hvalue, Nat.mod_eq_of_lt hsmall, if_pos rfl, Nat.add_zero, h.r]
    exact ((h.value.add_right _).mul_right _).trans (Nat.mod_modEq _ _).symm
  · rename_i hnone
    have hcount : (m.length + 15) / 16 = count := by omega
    rw [hcount]
    exact ⟨h.reduced, h.value⟩

lemma clamp_take (key : List Byte) : clamp (leNat (key.take 16)) = clamp (leNat key) := by
  rw [clamp, leNat_take, clamp]
  exact @mod_and_of_lt 128 _ _ (by decide)

lemma frozen_spec (h : Absorbed key m count ctx) (hlt : ctx.buffer.length < 16) :
    Reduced 0 (subtractPrime (carryLimbs (finalBlock ctx))) ∧
      (subtractPrime (carryLimbs (finalBlock ctx))).value = messageValue key m := by
  obtain ⟨hred, hvalue⟩ := finalBlock_spec h hlt
  obtain ⟨hcarried, c, hsum⟩ := carryLimbs_spec hred
  obtain ⟨hfrozen, hmod⟩ := subtractPrime_spec hcarried
  refine ⟨hfrozen, ?_⟩
  rw [init_value, ← clamp_take, ← hsum] at hvalue
  have hpoly : (carryLimbs (finalBlock ctx)).value % prime = messageValue key m % prime := by
    rw [← Nat.add_mul_mod_self_right _ c prime]
    exact hvalue
  rw [hmod, hpoly, messageValue, Nat.mod_eq_of_lt (polynomial_lt _ _ _)]

end

lemma storeWide_eq (f : Wide) : storeWide f = leBytes 8 f.toNat := by
  rw [leBytes_eq_map, storeWide]
  refine map_congr_left fun i _ => ?_
  apply BitVec.eq_of_toNat_eq
  rw [BitVec.toNat_setWidth, toNat_shiftRight, BitVec.toNat_ofNat, Nat.mul_comm, two_pow_eight_mul]

lemma toNat_wide (x : Word) : (wide x).toNat = x.toNat := toNat_widen (by decide) x

lemma toNat_lowTag {h : Limbs} (hh : Reduced 0 h) (ctx : Poly1305Ctx) :
    (lowTag h ctx).toNat =
      (h.value % 2 ^ 52 + ctx.pad0.toNat + 2 ^ 32 * ctx.pad1.toNat) % 2 ^ 64 := by
  obtain ⟨h0, h1, -, -, -⟩ := hh
  have hlow : h.value % 2 ^ 52 = h.l0.toNat + h.l1.toNat * 2 ^ 26 := by
    rw [Limbs.value]
    omega
  simp only [lowTag, BitVec.toNat_add, BitVec.toNat_or, toNat_shiftLeft, toNat_wide]
  rw [or_eq_add h0 (dvd_shifted (by decide) _), hlow]
  omega

lemma toNat_highTag {h : Limbs} (hh : Reduced 0 h) (ctx : Poly1305Ctx) :
    (highTag h ctx).toNat =
      (h.value / 2 ^ 64 + ctx.pad2.toNat + 2 ^ 32 * ctx.pad3.toNat) % 2 ^ 64 := by
  obtain ⟨h0, h1, h2, h3, h4⟩ := hh
  have hhigh : h.value / 2 ^ 64 = h.l2.toNat / 2 ^ 12 + h.l3.toNat * 2 ^ 14 +
      h.l4.toNat * 2 ^ 40 := by
    rw [Limbs.value]
    omega
  have hlow : h.l2.toNat / 2 ^ 12 < 2 ^ 14 := by omega
  have hmiddle : h.l2.toNat / 2 ^ 12 + h.l3.toNat * 2 ^ 14 % 2 ^ 64 < 2 ^ 40 := by omega
  simp only [highTag, BitVec.toNat_add, BitVec.toNat_or, toNat_shiftLeft, toNat_shiftRight,
    toNat_wide]
  rw [or_eq_add hlow (dvd_shifted (by decide) _), or_eq_add hmiddle (dvd_shifted (by decide) _),
    hhigh]
  omega

lemma secret_eq (key : List Byte) : leNat ((key.drop 16).take 16) =
    (load32 key 16).toNat + 2 ^ 32 * (load32 key 20).toNat + 2 ^ 64 * (load32 key 24).toNat +
      2 ^ 96 * (load32 key 28).toNat := by
  rw [leNat_take, leNat_drop, toNat_load32, toNat_load32, toNat_load32, toNat_load32]
  omega

lemma secretLow_eq (key : List Byte) : leNat ((key.drop 16).take 8) =
    (load32 key 16).toNat + 2 ^ 32 * (load32 key 20).toNat := by
  rw [leNat_take, leNat_drop, toNat_load32, toNat_load32]
  omega

lemma finish_eq_iff (ctx : Poly1305Ctx) (n : ℕ) : poly1305Finish ctx = leBytes 16 (n % 2 ^ 128) ↔
    (lowTag (subtractPrime (carryLimbs (finalBlock ctx))) ctx).toNat = n % 2 ^ 64 ∧
      (highTag (subtractPrime (carryLimbs (finalBlock ctx))) ctx).toNat = n / 2 ^ 64 % 2 ^ 64 := by
  have hlow := (lowTag (subtractPrime (carryLimbs (finalBlock ctx))) ctx).isLt
  have hhigh := (highTag (subtractPrime (carryLimbs (finalBlock ctx))) ctx).isLt
  have hparts : poly1305Finish ctx = leBytes 16 (n % 2 ^ 128) ↔
      leBytes 8 (lowTag (subtractPrime (carryLimbs (finalBlock ctx))) ctx).toNat =
        leBytes 8 (n % 2 ^ 128) ∧
      leBytes 8 (highTag (subtractPrime (carryLimbs (finalBlock ctx))) ctx).toNat =
        leBytes 8 (n % 2 ^ 128 / 256 ^ 8) := by
    rw [poly1305Finish, storeWide_eq, storeWide_eq, leBytes_add 8 8]
    refine ⟨fun h => append_inj h (by simp), fun h => ?_⟩
    rw [h.1, h.2]
  rw [hparts, leBytes_eq_iff, leBytes_eq_iff]
  omega

/-- The code does not put the bits from 52 to 63 of the polynomial into the tag, and it does not
carry from the lower half of the tag to the upper one. -/
theorem poly1305_correct_iff (key : List Byte) (chunks : List (List Byte)) :
    poly1305Finish (chunks.foldl poly1305Update (poly1305Init key)) =
        poly1305Mac key chunks.flatten ↔
      messageValue key chunks.flatten % 2 ^ 64 < 2 ^ 52 ∧
        messageValue key chunks.flatten % 2 ^ 64 + leNat ((key.drop 16).take 8) < 2 ^ 64 := by
  obtain ⟨count, habsorbed, hlt⟩ := absorbed_chunks key chunks
  obtain ⟨hreduced, hvalue⟩ := frozen_spec habsorbed hlt
  have hlow := toNat_lowTag hreduced (chunks.foldl poly1305Update (poly1305Init key))
  have hhigh := toNat_highTag hreduced (chunks.foldl poly1305Update (poly1305Init key))
  rw [hvalue, habsorbed.pad0, habsorbed.pad1] at hlow
  rw [hvalue, habsorbed.pad2, habsorbed.pad3] at hhigh
  rw [poly1305Mac, finish_eq_iff, hlow, hhigh, secret_eq, secretLow_eq]
  generalize messageValue key chunks.flatten = v
  omega

/-- The example of RFC 8439: the bits from 52 to 63 of the polynomial are not zero there. -/
def exampleKey : List Byte :=
  [0x85, 0xd6, 0xbe, 0x78, 0x57, 0x55, 0x6d, 0x33, 0x7f, 0x44, 0x52, 0xfe, 0x42, 0xd5, 0x06, 0xa8,
    0x01, 0x03, 0x80, 0x8a, 0xfb, 0x0d, 0xb2, 0xfd, 0x4a, 0xbf, 0xf6, 0xaf, 0x41, 0x49, 0xf5, 0x1b]

def exampleMessage : List Byte :=
  [0x43, 0x72, 0x79, 0x70, 0x74, 0x6f, 0x67, 0x72, 0x61, 0x70, 0x68, 0x69, 0x63, 0x20, 0x46, 0x6f,
    0x72, 0x75, 0x6d, 0x20, 0x52, 0x65, 0x73, 0x65, 0x61, 0x72, 0x63, 0x68, 0x20, 0x47, 0x72, 0x6f,
    0x75, 0x70]

/-- The tag of the example, and the one that the code computes for it. -/
theorem example_tag_wrong :
    poly1305Mac exampleKey exampleMessage =
        [0xa8, 0x06, 0x1d, 0xc1, 0x30, 0x51, 0x36, 0xc6, 0xc2, 0x2b, 0x8b, 0xaf, 0x0c, 0x01, 0x27,
          0xa9] ∧
      poly1305Finish (poly1305Update (poly1305Init exampleKey) exampleMessage) =
        [0xa8, 0x06, 0x1d, 0xc1, 0x30, 0x51, 0xb6, 0xfd, 0xc1, 0x2b, 0x8b, 0xaf, 0x0c, 0x01, 0x27,
          0xa9] := by
  decide +kernel

end KosKernel.Poly1305
