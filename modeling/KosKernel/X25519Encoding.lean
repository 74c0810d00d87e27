import KosKernel.X25519Ladder

/-! Scalars, coordinates and results of X25519 as bytes, and the function as a whole. -/
namespace KosKernel.X25519
open LittleEndian CheckedArithmetic SignedLimbs List

section
lemma toNat_and_248 : ∀ b : Byte, (b &&& 248).toNat = b.toNat / 8 * 8 := by decide
lemma toNat_clamp_last : ∀ b : Byte, (b &&& 127 ||| 64).toNat = b.toNat % 64 + 64 := by decide

lemma leNat_clampScalar (scalar : List Byte) :
    leNat (clampScalar scalar) = decodeScalar (leNat (scalar.take 32)) := by
  have hsplit : clampScalar scalar = [scalar.getD 0 0 &&& 248] ++
      (range 30).map (fun i => scalar.getD (1 + i) 0) ++ [scalar.getD 31 0 &&& 127 ||| 64] := rfl
  rw [hsplit, leNat_append, leNat_append, leNat_map_getD, leNat_cons, leNat_cons, leNat_nil,
    toNat_and_248, toNat_clamp_last, toNat_getD, toNat_getD, leNat_take, decodeScalar]
  simp only [length_append, length_map, length_range, length_singleton]
  omega

lemma unpack_limb (base : List Byte) (i : ℕ) :
    or64 (base.getD (2 * i) 0).toNat ((base.getD (2 * i + 1) 0).toNat * 2 ^ 8) =
      ((leNat base / 65536 ^ i % 65536 : ℕ) : ℤ) := by
  have hlow := (base.getD (2 * i) 0).isLt
  have hhigh := (base.getD (2 * i + 1) 0).isLt
  have hpow : 256 ^ (2 * i) = 65536 ^ i := by rw [pow_mul]; rfl
  rw [or64_shifted (k := 8) hlow (by omega), toNat_getD, toNat_getD, pow_succ, hpow,
    ← Nat.div_div_eq_div_mul]
  generalize leNat base / 65536 ^ i = n
  push_cast
  omega

lemma unpack25519_eq (base : List Byte) : unpack25519 base =
    (range 15).map (fun i => ((leNat base / 65536 ^ i % 65536 : ℕ) : ℤ)) ++
      [((leNat base / 65536 ^ 15 % 2 ^ 15 : ℕ) : ℤ)] := by
  have hmask : ∀ n : ℕ, and64 ((n % 65536 : ℕ) : ℤ) 0x7fff = ((n % 2 ^ 15 : ℕ) : ℤ) := by
    intro n
    refine (and64_ones (k := 15) _ (by decide)).trans ?_
    push_cast
    omega
  unfold unpack25519
  simp only [unpack_limb]
  rw [← hmask]
  rfl

lemma unpack25519_spec (base : List Byte) :
    Tight (unpack25519 base) ∧ num (unpack25519 base) = (leNat (base.take 32) % 2 ^ 255 : ℕ) := by
  have hradix : radix = ((65536 : ℕ) : ℤ) := rfl
  have hdigits : Digits radix (unpack25519 base) := by
    intro x hx
    rw [unpack25519_eq, mem_append, mem_map, mem_singleton] at hx
    rw [hradix]
    rcases hx with ⟨i, -, rfl⟩ | rfl <;> omega
  have hlen : (unpack25519 base).length = 16 := by
    rw [unpack25519_eq]
    simp
  refine ⟨⟨hlen, ?_, fun x hx => hdigits x (mem_of_mem_tail hx)⟩, ?_⟩
  · have hfirst := hdigits ((unpack25519 base).getD 0 0) (by
      rw [getD_eq_getElem?_getD, getElem?_eq_getElem (by rw [hlen]; decide)]
      exact getElem_mem _)
    rw [radix] at hfirst
    omega
  rw [unpack25519_eq, num, hradix, value_append, value_limbs, length_map, length_range,
    value_cons, value_nil, leNat_take]
  push_cast
  omega

end

section
variable {k x : ℤ} {t : Gf}

lemma carry_digits {l : List ℤ} (hl : Digits radix l) (hk : |k| ≤ 1) :
    (ripple radix k l).2 = 0 ∨ (ripple radix k l).2 = k := by
  induction l generalizing k with
  | nil => exact .inr rfl
  | cons x xs ih =>
    have hx := hl x mem_cons_self
    have hrest : Digits radix xs := fun y hy => hl y (mem_cons_of_mem x hy)
    have hk' := abs_le.mp hk
    have hcarry : (x + k) / radix = 0 ∨ (x + k) / radix = k := by
      rw [radix] at hx ⊢
      omega
    rw [ripple]
    rcases hcarry with h | h
    · rw [h, ripple_digits hrest]
      exact .inl rfl
    · rw [h]
      exact ih hrest hk

lemma car25519_tight {l : Gf} (h : Tight l) :
    ∃ t, car25519 l = some t ∧ t.length = 16 ∧ Digits radix t ∧
      ∃ c, num t + c * (2 ^ 256 - 38) = num l := by
  have hbound : ∀ x ∈ l, |x| ≤ 2 ^ 54 := fun x hx => (h.bound x hx).trans (by decide)
  have hnum := num_carried h.length
  have hdigits := digits_ripple radix_pos 0 l
  refine ⟨_, car25519_eq h.length hbound, ?_, ?_, _, hnum⟩
  · rw [length_bump, length_ripple, h.length]
  obtain ⟨hlen, hfirst, hrest⟩ := h
  cases l with
  | nil => cases hlen
  | cons x xs =>
    rw [getD_cons_zero] at hfirst
    rw [ripple, add_zero] at hdigits ⊢
    have hcarry : |x / radix| ≤ 1 := by
      rw [abs_le, radix]
      omega
    have hlast := carry_digits hrest hcarry
    rintro y (_ | ⟨_, hy⟩)
    · rw [radix] at hlast ⊢
      simp only [tail_cons] at hlast
      omega
    · exact hdigits y (mem_cons_of_mem _ hy)

lemma car25519_digits (hlen : t.length = 16) (ht : Digits radix t) : car25519 t = some t := by
  have hbound : ∀ x ∈ t, |x| ≤ 2 ^ 54 := by
    intro x hx
    have hdigit := ht x hx
    rw [radix] at hdigit
    rw [abs_le]
    omega
  rw [car25519_eq hlen hbound, ripple_digits ht]
  cases t with
  | nil => rfl
  | cons x xs => rw [mul_zero, bump_cons, add_zero]

def primeLimbs : List ℤ := 0xffed :: (replicate 14 0xffff ++ [0x7fff])

def difference (t : Gf) : List ℤ := zipWith (· - ·) t primeLimbs

lemma length_difference (ht : t.length = 16) : (difference t).length = 16 := by
  rw [difference, length_zipWith, ht]
  rfl

lemma value_zipWith_sub (r : ℤ) {xs ys : List ℤ} (h : xs.length = ys.length) :
    value r (zipWith (· - ·) xs ys) = value r xs - value r ys := by
  induction xs generalizing ys with
  | nil =>
    cases ys with
    | nil => rfl
    | cons y ys => cases h
  | cons x xs ih =>
    cases ys with
    | nil => cases h
    | cons y ys =>
      rw [zipWith_cons_cons, value_cons, value_cons, value_cons, ih (Nat.succ.inj h)]
      ring

lemma num_difference (ht : t.length = 16) : num (difference t) = num t - prime := by
  have hprime : value radix primeLimbs = prime := by decide +kernel
  rw [difference, num, value_zipWith_sub _ ht, hprime, num]

lemma getD_difference (ht : t.length = 16) (i : ℕ) :
    (difference t).getD i 0 = t.getD i 0 - primeLimbs.getD i 0 := by
  have hlen : t.length = primeLimbs.length := ht
  rw [difference, getD_eq_getElem?_getD, getD_eq_getElem?_getD,
    getD_eq_getElem?_getD, getElem?_zipWith]
  rcases lt_or_ge i t.length with hi | hi
  · rw [getElem?_eq_getElem hi, getElem?_eq_getElem (hlen ▸ hi)]
    rfl
  · rw [getElem?_eq_none hi, getElem?_eq_none (hlen ▸ hi)]
    rfl

lemma primeLimbs_bound (i : ℕ) : 0 ≤ primeLimbs.getD i 0 ∧ primeLimbs.getD i 0 < 2 ^ 16 := by
  rcases lt_or_ge i 16 with hi | hi
  · interval_cases i <;> decide
  · rw [getD_eq_getElem?_getD, getElem?_eq_none hi]
    decide

lemma digit_getD (ht : Digits radix t) (i : ℕ) : 0 ≤ t.getD i 0 ∧ t.getD i 0 < 2 ^ 16 := by
  rw [getD_eq_getElem?_getD]
  cases hi : t[i]? with
  | none => decide
  | some x => exact ht x (mem_of_getElem? hi)

lemma difference_bound (hlen : t.length = 16) (ht : Digits radix t) (i : ℕ) :
    -2 ^ 16 < (difference t).getD i 0 ∧ (difference t).getD i 0 < 2 ^ 16 := by
  have hdigit := digit_getD ht i
  have hprime := primeLimbs_bound i
  rw [getD_difference hlen]
  omega

lemma borrow_eq (h : x / radix = 0 ∨ x / radix = -1) : and64 (shr64 x 16) 1 = -(x / radix) := by
  have hshift : shr64 x 16 = x / radix := rfl
  refine (and64_ones (k := 1) _ (by decide)).trans ?_
  rw [hshift]
  rcases h with h | h <;> rw [h] <;> rfl

lemma borrowLimb_eq (t : Gf) (pre : List ℤ) {y p : ℤ} (rest : List ℤ)
    (hdigit : |t.getD (pre.length + 1) 0| ≤ 2 ^ 20) (hp : |p| ≤ 2 ^ 20)
    (hx : x / radix = 0 ∨ x / radix = -1) :
    borrowLimb t (pre ++ x :: y :: rest) (pre.length + 1) p =
      some (pre ++ x % radix :: (t.getD (pre.length + 1) 0 - p + x / radix) :: rest) := by
  have hmask : and64 x 0xffff = x % radix := and64_ones (k := 16) _ (by decide)
  have hdigit' := abs_le.mp hdigit
  have hp' := abs_le.mp hp
  unfold borrowLimb
  rw [bind_of_eq_some (sub64_eq (by rw [abs_le]; omega)), Nat.add_sub_cancel, getD_append_cons,
    borrow_eq hx, bind_of_eq_some (sub64_eq (by rw [abs_le]; omega)), sub_neg_eq_add,
    set_append_cons_cons, getD_append_cons, set_append_cons, hmask]
  rfl

lemma borrow_step (hx : -2 ^ 16 < x ∧ x < 2 ^ 16) (hk : k = 0 ∨ k = -1) :
    (x + k) / radix = 0 ∨ (x + k) / radix = -1 := by
  rw [radix]
  omega

lemma borrow_range {d : List ℤ} (hd : ∀ x ∈ d, -2 ^ 16 < x ∧ x < 2 ^ 16) (hk : k = 0 ∨ k = -1) :
    (ripple radix k d).2 = 0 ∨ (ripple radix k d).2 = -1 := by
  induction d generalizing k with
  | nil => exact hk
  | cons x xs ih =>
    exact ih (fun y hy => hd y (mem_cons_of_mem x hy))
      (borrow_step (hd x mem_cons_self) hk)

lemma difference_borrow (hlen : t.length = 16) (ht : Digits radix t) (n : ℕ) :
    (ripple radix 0 ((difference t).take n)).2 = 0 ∨
      (ripple radix 0 ((difference t).take n)).2 = -1 := by
  refine borrow_range (fun x hx => ?_) (.inl rfl)
  obtain ⟨i, hi, rfl⟩ := mem_iff_getElem.mp (mem_of_mem_take hx)
  have hbound := difference_bound hlen ht i
  rwa [getD_eq_getElem?_getD, getElem?_eq_getElem hi] at hbound

def Borrowed (t : Gf) (n : ℕ) (m : Gf) : Prop :=
  ∃ rest, rest.length = 15 - n ∧ m = (ripple radix 0 ((difference t).take n)).1 ++
    ((difference t).getD n 0 + (ripple radix 0 ((difference t).take n)).2) :: rest

variable {t : Gf}

variable {m : Gf}

section
variable (hlen : t.length = 16) (ht : Digits radix t)
include hlen ht

lemma borrowed_succ {n : ℕ} (hn : n < 15) (h : Borrowed t n m) :
    ∃ m', borrowLimb t m (n + 1) (primeLimbs.getD (n + 1) 0) = some m' ∧ Borrowed t (n + 1) m' := by
  obtain ⟨rest, hrest, rfl⟩ := h
  have hpre : (ripple radix 0 ((difference t).take n)).1.length = n := by
    rw [length_ripple, length_take, length_difference hlen]
    omega
  have hdigit := digit_getD ht (n + 1)
  have hprime := primeLimbs_bound (n + 1)
  have hlimb := difference_bound hlen ht n
  have hborrow := difference_borrow hlen ht n
  cases rest with
  | nil =>
    rw [length_nil] at hrest
    omega
  | cons y rest =>
    have hturn := borrowLimb_eq t (ripple radix 0 ((difference t).take n)).1 (y := y)
      (p := primeLimbs.getD (n + 1) 0)
      (x := (difference t).getD n 0 + (ripple radix 0 ((difference t).take n)).2) rest
      (by rw [hpre, abs_le]; omega) (by rw [abs_le]; omega) (borrow_step hlimb hborrow)
    rw [hpre] at hturn
    refine ⟨_, hturn, rest, ?_, ?_⟩
    · rw [length_cons] at hrest
      omega
    rw [take_succ_getD (by rw [length_difference hlen]; omega), ripple_concat,
      getD_difference hlen (n + 1), append_assoc]
    rfl

lemma subtractPrime_eq (hm : m.length = 16) :
    ∃ m', subtractPrime t m = some m' ∧ Borrowed t 15 m' := by
  have hdigit := digit_getD ht 0
  have hfirst : sub64 (t.getD 0 0) 0xffed = some (t.getD 0 0 - 0xffed) :=
    sub64_eq (by rw [abs_le]; omega)
  have hstart : Borrowed t 0 (m.set 0 (t.getD 0 0 - 0xffed)) := by
    cases m with
    | nil => cases hm
    | cons y rest =>
      refine ⟨rest, Nat.succ.inj hm, ?_⟩
      rw [getD_difference hlen]
      simp [ripple, primeLimbs]
  have hstep : ∀ n < 14, ∀ m, Borrowed t n m →
      ∃ m', borrowLimb t m (n + 1) 0xffff = some m' ∧ Borrowed t (n + 1) m' := by
    intro n hn m h
    have hlimb : primeLimbs.getD (n + 1) 0 = 0xffff := by interval_cases n <;> rfl
    rw [← hlimb]
    exact borrowed_succ hlen ht (by omega) h
  obtain ⟨m₁, hrun, hborrowed⟩ := foldlM_range (Borrowed t) hstart hstep
  obtain ⟨m₂, hlast, hborrowed'⟩ := borrowed_succ hlen ht (by decide) hborrowed
  refine ⟨m₂, ?_, hborrowed'⟩
  rw [subtractPrime, bind_of_eq_some hfirst, bind_of_eq_some hrun]
  exact hlast

/-- The words are the limbs of the number less the prime, with the sign in the last one. -/
lemma borrowed_spec (h : Borrowed t 15 m) :
    ∃ low last, m = low ++ [last] ∧ low.length = 15 ∧ Digits radix low ∧ |last| ≤ 2 ^ 15 ∧
      num low + 2 ^ 240 * last = num t - prime := by
  obtain ⟨rest, hrest, rfl⟩ := h
  have hnil : rest = [] := eq_nil_of_length_eq_zero hrest
  have hlow : ((difference t).take 15).length = 15 := by
    rw [length_take, length_difference hlen]
    rfl
  have hborrow := difference_borrow hlen ht 15
  have hvalue := value_ripple radix 0 ((difference t).take 15)
  have hnum := num_difference hlen
  have hsplit : num ((difference t).take (15 + 1)) = _ := num_take_succ (by
    rw [length_difference hlen]
    decide)
  rw [take_of_length_le (length_difference hlen).le, hnum] at hsplit
  have hdigit := digit_getD ht 15
  have hlast : (difference t).getD 15 0 = t.getD 15 0 - 0x7fff := getD_difference hlen 15
  refine ⟨_, _, by rw [hnil], ?_, digits_ripple radix_pos 0 _, ?_, ?_⟩
  · rw [length_ripple, hlow]
  · rw [hlast, abs_le]
    omega
  have hpow : radix ^ 15 = 2 ^ 240 := rfl
  rw [hlow, hpow] at hvalue
  rw [hpow] at hsplit
  unfold num at hsplit ⊢
  linarith

lemma freezeTurn_spec (hm : m.length = 16) :
    ∃ t' m', freezeTurn (t, m) = some (t', m') ∧ t'.length = 16 ∧ m'.length = 16 ∧
      Digits radix t' ∧ num t' = if num t < prime then num t else num t - prime := by
  obtain ⟨d, hrun, hborrowed⟩ := subtractPrime_eq hlen ht hm
  obtain ⟨low, last, rfl, hlow, hdigits, hlast, hnum⟩ := borrowed_spec hlen ht hborrowed
  have hradix : radix = 2 ^ 16 := rfl
  have hlast' := abs_le.mp hlast
  obtain ⟨hnonneg, hlt⟩ := value_digits radix_pos hdigits
  have hpow : radix ^ low.length = 2 ^ 240 := by
    rw [hlow]
    rfl
  rw [hpow] at hlt
  have hread : (low ++ [last]).getD 15 0 = last := by
    rw [← hlow]
    exact getD_append_cons _ _ _
  have hloose : Loose t := ⟨hlen, fun x hx => by
    have hdigit := ht x hx
    rw [abs_le]
    omega⟩
  have hloose' : Loose (low ++ [last]) := by
    refine ⟨by rw [length_append, hlow]; rfl, fun x hx => ?_⟩
    rcases mem_append.mp hx with hx | hx
    · have hdigit := hdigits x hx
      rw [abs_le]
      omega
    · rw [mem_singleton.mp hx, abs_le]
      omega
  have hvalue : num (low ++ [last]) = num low + 2 ^ 240 * last := by
    rw [num, value_append, hpow, value_cons, value_nil, mul_zero, add_zero]
    rfl
  unfold freezeTurn
  rw [bind_of_eq_some hrun]
  dsimp only
  rw [hread]
  unfold num at *
  rcases lt_or_ge last 0 with hneg | hpos
  · -- the difference is negative, so the number stays
    have hborrow : last / radix = -1 := by
      rw [hradix]
      omega
    have hzero : (1 : ℤ) - and64 (shr64 last 16) 1 = 0 := by
      rw [borrow_eq (.inr hborrow), hborrow]
      rfl
    rw [hzero, sel25519_zero hloose hloose']
    refine ⟨t, low ++ [last], rfl, hlen, hloose'.length, ht, ?_⟩
    rw [if_pos (by omega)]
  · have hborrow : last / radix = 0 := by
      rw [hradix]
      omega
    have hone : (1 : ℤ) - and64 (shr64 last 16) 1 = 1 := by
      rw [borrow_eq (.inl hborrow), hborrow]
      rfl
    rw [hone, sel25519_one hloose hloose']
    refine ⟨low ++ [last], t, rfl, hloose'.length, hlen, fun x hx => ?_, ?_⟩
    · rcases mem_append.mp hx with hx | hx
      · exact hdigits x hx
      · rw [mem_singleton.mp hx]
        omega
    · rw [if_neg (by omega), hvalue, hnum]

end

lemma leNat_flatMap {l : List ℤ} (hl : Digits radix l) :
    (leNat (l.flatMap fun x => [lowByte x, lowByte (shr64 x 8)]) : ℤ) = num l := by
  induction l with
  | nil => rfl
  | cons x xs ih =>
    obtain ⟨hx, hx'⟩ := hl x mem_cons_self
    have hradix : radix = 2 ^ 16 := rfl
    have hrest := ih fun y hy => hl y (mem_cons_of_mem x hy)
    have hlow : ((lowByte x).toNat : ℤ) = x % 256 := by
      rw [lowByte, BitVec.toNat_ofInt]
      omega
    have hhigh : ((lowByte (shr64 x 8)).toNat : ℤ) = x / 256 % 256 := by
      rw [lowByte, BitVec.toNat_ofInt, shr64]
      omega
    rw [num, value_cons, ← num, ← hrest, flatMap_cons, cons_append, cons_append,
      nil_append, leNat_cons, leNat_cons, hradix]
    push_cast
    rw [hlow, hhigh]
    omega

lemma pack25519_spec {n : Gf} (hn : Tight n) : pack25519 n = some (leBytes 32 (element n).val) := by
  obtain ⟨t, hcar, hlen, ht, c, hnum⟩ := car25519_tight hn
  obtain ⟨t₁, m₁, hfreeze₁, hlength₁, hm₁, ht₁, hnum₁⟩ :=
    freezeTurn_spec hlen ht (m := replicate 16 0) length_replicate
  obtain ⟨t₂, m₂, hfreeze₂, hlength₂, hm₂, ht₂, hnum₂⟩ := freezeTurn_spec hlength₁ ht₁ hm₁
  obtain ⟨hlow, hhigh⟩ := value_digits radix_pos ht
  have hpow : radix ^ t.length = 2 ^ 256 := by
    rw [hlen]
    rfl
  have hprime : (prime : ℤ) = 2 ^ 255 - 19 := by decide
  have hmod : num t₂ = num n % prime := by
    have hcongr : num n % prime = num t % prime := by
      have hdouble : c * (2 ^ 256 - 38) = 2 * c * prime := by
        rw [hprime]
        ring
      rw [← hnum, hdouble, Int.add_mul_emod_self_right]
    rw [hpow] at hhigh
    rw [hcongr, hnum₂, hnum₁]
    -- the number is below twice the prime and 38
    unfold num
    rw [hprime]
    split_ifs <;> omega
  have hval : ((element n).val : ℤ) = num t₂ := by rw [hmod, element, ZMod.val_intCast]
  have hbytes : ((range 16).flatMap fun i =>
      [lowByte (t₂.getD i 0), lowByte (shr64 (t₂.getD i 0) 8)]) = leBytes 32 (element n).val := by
    have hlist : ((range 16).flatMap fun i =>
        [lowByte (t₂.getD i 0), lowByte (shr64 (t₂.getD i 0) 8)]) =
        t₂.flatMap fun x => [lowByte x, lowByte (shr64 x 8)] := by
      conv_rhs => rw [← map_getD hlength₂, flatMap_map]
    have hcount : (t₂.flatMap fun x => [lowByte x, lowByte (shr64 x 8)]).length = 32 := by
      simp [length_flatMap, hlength₂]
    have hvalue := leNat_flatMap ht₂
    rw [← hval] at hvalue
    rw [hlist, ← Int.ofNat.inj hvalue, ← hcount, leBytes_leNat]
  unfold pack25519
  rw [bind_of_eq_some hcar, bind_of_eq_some (car25519_digits hlen ht),
    bind_of_eq_some (car25519_digits hlen ht), bind_of_eq_some hfreeze₁,
    bind_of_eq_some hfreeze₂]
  exact congrArg some hbytes

end

lemma tight_zeroGf : Tight zeroGf := ⟨rfl, by decide, by unfold Digits; decide⟩
lemma tight_oneGf : Tight oneGf := ⟨rfl, by decide, by unfold Digits; decide⟩

lemma element_zeroGf : element zeroGf = 0 := by
  have hnum : num zeroGf = 0 := by decide
  rw [element, hnum, Int.cast_zero]

lemma element_oneGf : element oneGf = 1 := by
  have hnum : num oneGf = 1 := by decide
  rw [element, hnum, Int.cast_one]

lemma ladder_spec (z : List Byte) {x1 : Gf} (hx1 : Tight x1) :
    ∃ s, (range 255).foldlM (fun s n => ladderTurn z x1 s (254 - n))
        ⟨oneGf, zeroGf, x1, oneGf, 0⟩ = some s ∧
      Simulates s ((range 255).foldl
        (fun p n => montgomeryTurn (leNat z) (element x1) p (254 - n)) ⟨1, 0, element x1, 1, 0⟩) := by
  refine foldlM_range (fun n s => Simulates s ((range n).foldl
    (fun p n => montgomeryTurn (leNat z) (element x1) p (254 - n)) ⟨1, 0, element x1, 1, 0⟩)) ?_ ?_
  · exact ⟨⟨⟨tight_oneGf, tight_zeroGf⟩, ⟨hx1, tight_oneGf⟩, element_oneGf, element_zeroGf, rfl,
      element_oneGf, rfl⟩, Nat.zero_lt_two⟩
  intro n _ s hs
  rw [range_succ, foldl_append]
  exact ladderTurn_spec z hs hx1 (254 - n)

/-- The code computes the function of RFC 7748, and nothing overflows on the way. -/
theorem kosX25519_correct (scalar base : List Byte) :
    kosX25519 scalar base =
      some (leBytes 32 (x25519 (leNat (scalar.take 32)) (leNat (base.take 32))).val) := by
  obtain ⟨hx1, hnum⟩ := unpack25519_spec base
  have helement : element (unpack25519 base) = (leNat (base.take 32) % 2 ^ 255 : ℕ) := by
    rw [element, hnum, Int.cast_natCast]
  obtain ⟨s, hrun, hsimulates⟩ := ladder_spec (clampScalar scalar) hx1
  rw [leNat_clampScalar, helement] at hsimulates
  have hswap : s.swap < 2 := hsimulates.represents.swap ▸ hsimulates.swap_lt
  have hlast := represents_swapPoints hsimulates.represents hswap
  obtain ⟨inverse, hinverse, htight, hvalue⟩ := inv25519_element hlast.tight2.2
  obtain ⟨x2, hproduct, htight', hvalue'⟩ := M_element hlast.tight2.1.loose htight.loose
  unfold kosX25519
  rw [bind_of_eq_some hrun, bind_of_eq_some hinverse, bind_of_eq_some hproduct,
    pack25519_spec htight', hvalue', hvalue, hlast.x2, hlast.z2, hsimulates.represents.swap]
  rfl

end KosKernel.X25519
