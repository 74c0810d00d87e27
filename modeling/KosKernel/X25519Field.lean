import Mathlib.Algebra.Order.Ring.Abs
import KosKernel.SignedLimbs
import KosKernel.X25519State

/-! The field operations of X25519: the number that the limbs stand for modulo `2 ^ 255 - 19`, and
the bounds that keep every word from overflowing. -/
namespace KosKernel.X25519
open CheckedArithmetic SignedLimbs List Option

def radix : ℤ := 2 ^ 16

lemma radix_pos : 0 < radix := by decide

def num (l : List ℤ) : ℤ := value radix l

variable {l : List ℤ} {x : ℤ}

lemma getD_set_self {i : ℕ} (hi : i < l.length) (x : ℤ) : (l.set i x).getD i 0 = x := by
  simp [getD_eq_getElem?_getD, hi]

lemma getD_set_ne {i j : ℕ} (hij : i ≠ j) (x : ℤ) : (l.set i x).getD j 0 = l.getD j 0 := by
  simp [getD_eq_getElem?_getD, getElem?_set_ne hij]

/-- The limb that a turn carries to, and the factor with which it does so. -/
def carryTarget (i : ℕ) : ℕ := (i + 1) * if i < 15 then 1 else 0
def carryFactor (i : ℕ) : ℤ := 1 + 37 * if i = 15 then 1 else 0

/-- One turn: the limb is brought into range, and the carry goes to the next limb. -/
lemma carTurn_eq {o : Gf} {i : ℕ} (hi : i < o.length) (hne : carryTarget i ≠ i)
    (hx : |o.getD i 0| ≤ 2 ^ 55) (hy : |o.getD (carryTarget i) 0| ≤ 2 ^ 55) :
    carTurn o i = some ((o.set (carryTarget i)
      (o.getD (carryTarget i) 0 + carryFactor i * (o.getD i 0 / radix))).set i
        (o.getD i 0 % radix)) := by
  have hset : ∀ x y z, ((o.set i x).set (carryTarget i) y).set i z =
      (o.set (carryTarget i) y).set i z := by
    intro x y z
    rw [set_comm _ _ hne.symm, set_set]
  have hread : ∀ x y, ((o.set i x).set (carryTarget i) y).getD i 0 = x := by
    intro x y
    rw [getD_set_ne hne, getD_set_self hi]
  have hother : ∀ x, (o.set i x).getD (carryTarget i) 0 = o.getD (carryTarget i) 0 :=
    fun x => getD_set_ne hne.symm x
  have hflag : (if i = 15 then (1 : ℤ) else 0) = 0 ∨ (if i = 15 then (1 : ℤ) else 0) = 1 := by
    split <;> simp
  have htarget : ((i + 1) * if i < 15 then 1 else 0) = carryTarget i := rfl
  unfold carTurn carryFactor
  simp only [htarget]
  generalize (if i = 15 then (1 : ℤ) else 0) = w at hflag ⊢
  generalize o.getD i 0 = x at *
  generalize o.getD (carryTarget i) 0 = y at *
  have hx' := abs_le.mp hx
  have hy' := abs_le.mp hy
  have hquotient : -2 ^ 39 ≤ x / radix ∧ x / radix ≤ 2 ^ 39 := by
    rw [radix]
    omega
  have hmod : x + 2 ^ 16 - (x / radix + 1) * 2 ^ 16 = x % radix := by
    rw [radix]
    omega
  have h0 : add64 x (2 ^ 16) = some (x + 2 ^ 16) := add64_eq (by rw [abs_le]; omega)
  have hshift : shr64 (x + 2 ^ 16) 16 = x / radix + 1 := by
    rw [shr64, radix]
    omega
  generalize x / radix = q at *
  have h1 : sub64 (q + 1) 1 = some q := by
    rw [sub64_eq (by rw [abs_le]; omega), add_sub_cancel_right]
  have h2 : mul64 37 q = some (37 * q) := mul64_eq (by rw [abs_le]; omega)
  have hprod : -2 ^ 45 ≤ 37 * q * w ∧ 37 * q * w ≤ 2 ^ 45 := by
    rcases hflag with rfl | rfl <;> omega
  have hfactor : 37 * q * w + q = (1 + 37 * w) * q := by ring
  have h3 : mul64 (37 * q) w = some (37 * q * w) := mul64_eq (by rw [abs_le]; omega)
  have h4 : add64 q (37 * q * w) = some (q + 37 * q * w) := add64_eq (by rw [abs_le]; omega)
  have h5 : add64 y (q + 37 * q * w) = some (y + (1 + 37 * w) * q) := by
    rw [add64_eq (by rw [abs_le]; omega), add_comm q, hfactor]
  have h6 : shl64 (q + 1) 16 = some ((q + 1) * 2 ^ 16) := shl64_eq (by rw [abs_le]; omega)
  have h7 : sub64 (x + 2 ^ 16) ((q + 1) * 2 ^ 16) = some (x % radix) := by
    rw [sub64_eq (by rw [abs_le]; omega), hmod]
  simp only [h0, bind_eq_bind, bind_some, hshift, h1, h2, h3, h4, hother, h5, h6, hread, h7, hset]
  rfl

lemma getD_append_cons (pre : List ℤ) (x : ℤ) (rest : List ℤ) :
    (pre ++ x :: rest).getD pre.length 0 = x := by
  simp [getD_eq_getElem?_getD]

lemma set_append_cons (pre : List ℤ) (x y : ℤ) (rest : List ℤ) :
    (pre ++ x :: rest).set pre.length y = pre ++ y :: rest := by
  simp [set_append_right]

lemma set_append_cons_cons (pre : List ℤ) (x y z : ℤ) (rest : List ℤ) :
    (pre ++ x :: y :: rest).set (pre.length + 1) z = pre ++ x :: z :: rest := by
  simp [set_append_right]

lemma carTurn_inner (pre : List ℤ) {y : ℤ} (rest : List ℤ) (hpre : pre.length < 15)
    (hx : |x| ≤ 2 ^ 55) (hy : |y| ≤ 2 ^ 55) :
    carTurn (pre ++ x :: y :: rest) pre.length =
      some (pre ++ x % radix :: (y + x / radix) :: rest) := by
  have htarget : carryTarget pre.length = pre.length + 1 := by
    rw [carryTarget, if_pos hpre, mul_one]
  have hfactor : carryFactor pre.length = 1 := by
    rw [carryFactor, if_neg (by omega)]
    rfl
  have hread : (pre ++ x :: y :: rest).getD (pre.length + 1) 0 = y := by
    simp [getD_eq_getElem?_getD]
  rw [carTurn_eq (by simp) (by omega) (by rwa [getD_append_cons]) (by rwa [htarget, hread]), htarget,
    hfactor, hread, getD_append_cons, set_append_cons_cons, set_append_cons, one_mul]

lemma carTurn_last (first : ℤ) {pre : List ℤ} (hpre : pre.length = 14)
    (hfirst : |first| ≤ 2 ^ 55) (hx : |x| ≤ 2 ^ 55) :
    carTurn (first :: pre ++ [x]) 15 = some ((first + 38 * (x / radix)) :: pre ++ [x % radix]) := by
  have hlen : (first :: pre).length = 15 := by rw [length_cons, hpre]
  have hread : (first :: pre ++ [x]).getD 15 0 = x := by
    rw [← hlen]
    exact getD_append_cons _ _ _
  have hwrite : ∀ y z, (y :: pre ++ [x]).set 15 z = y :: pre ++ [z] := by
    intro y z
    have hlength' : (y :: pre).length = 15 := by rw [length_cons, hpre]
    rw [← hlength']
    exact set_append_cons _ _ _ _
  have h := carTurn_eq (o := first :: pre ++ [x]) (i := 15) (by simp [hpre]) (by decide)
    (by rwa [hread]) hfirst
  rw [h, hread]
  exact congrArg some (hwrite _ _)

def bump (k : ℤ) : List ℤ → List ℤ
  | [] => []
  | x :: xs => (x + k) :: xs

@[simp] lemma bump_cons (k x : ℤ) (xs : List ℤ) : bump k (x :: xs) = (x + k) :: xs := rfl

lemma num_bump (h : 0 < l.length) (k : ℤ) : num (bump k l) = num l + k := by
  cases l with
  | nil => cases h
  | cons x xs =>
    rw [bump_cons, num, num, value_cons, value_cons]
    ring

lemma abs_carry_le (hl : ∀ x ∈ l, |x| ≤ 2 ^ 54) : |(ripple radix 0 l).2| ≤ 2 ^ 40 := by
  refine abs_ripple_le (fun x hx k hk => ?_) (by decide)
  have hx' := abs_le.mp (hl x hx)
  have hk' := abs_le.mp hk
  rw [abs_le, radix]
  omega

/-- After two carries the limbs are in range, but for a last carry to the first one. -/
structure Tight (l : Gf) : Prop where
  length : l.length = 16
  first : -38 ≤ l.getD 0 0 ∧ l.getD 0 0 < 2 ^ 16 + 38
  rest : Digits radix l.tail

/-- Limbs that may be multiplied. -/
structure Loose (l : Gf) : Prop where
  length : l.length = 16
  bound : ∀ x ∈ l, |x| ≤ 2 ^ 18

lemma Tight.bound {l : Gf} (h : Tight l) : ∀ x ∈ l, |x| ≤ 2 ^ 16 + 38 := by
  have hradix : radix = 2 ^ 16 := rfl
  obtain ⟨hlen, hfirst, hrest⟩ := h
  cases l with
  | nil => cases hlen
  | cons y ys =>
    rintro x (_ | ⟨_, hx⟩)
    · rw [getD_cons_zero] at hfirst
      rw [abs_le]
      omega
    have hdigit := hrest x hx
    rw [abs_le]
    omega

lemma Tight.loose {l : Gf} (h : Tight l) : Loose l :=
  ⟨h.length, fun x hx => (h.bound x hx).trans (by decide)⟩

lemma abs_digit_add_le {k bound : ℤ} (hx : 0 ≤ x ∧ x < radix) (hk : |k| ≤ bound) :
    |(x + k) / radix| ≤ bound / radix + 1 := by
  have hk' := abs_le.mp hk
  rw [radix] at *
  rw [abs_le]
  omega

lemma abs_carry_digits_le (hlen : 2 ≤ l.length) (hl : Digits radix l) {k : ℤ}
    (hk : |k| ≤ 2 ^ 30) : |(ripple radix k l).2| ≤ 1 := by
  match l, hlen with
  | x :: y :: l, _ =>
    have hx := abs_digit_add_le (hl x (by simp)) hk
    have hy := abs_digit_add_le (hl y (by simp)) (hx.trans (show _ ≤ (2 : ℤ) ^ 15 by decide))
    have hsmall : |(y + (x + k) / radix) / radix| ≤ 1 := hy.trans (by decide)
    rw [ripple, ripple]
    refine abs_ripple_le (fun z hz k hk => ?_) hsmall
    exact (abs_digit_add_le (hl z (by simp [hz])) hk).trans (by decide)

lemma num_carried {l : Gf} (hlen : l.length = 16) :
    num (bump (38 * (ripple radix 0 l).2) (ripple radix 0 l).1) +
      (ripple radix 0 l).2 * (2 ^ 256 - 38) = num l := by
  have hvalue := value_ripple radix 0 l
  have hpow : radix ^ l.length = 2 ^ 256 := by
    rw [hlen]
    rfl
  rw [num_bump (by rw [length_ripple]; omega), num, num]
  rw [hpow] at hvalue
  linarith

lemma length_bump (k : ℤ) (l : List ℤ) : (bump k l).length = l.length := by
  cases l <;> rfl

section
variable {l : Gf} (hlen : l.length = 16) (hl : ∀ x ∈ l, |x| ≤ 2 ^ 54)
include hlen hl

lemma carTurns_eq :
    (range 15).foldlM carTurn l =
      some ((ripple radix 0 (l.take 15)).1 ++ bump (ripple radix 0 (l.take 15)).2 (l.drop 15)) := by
  have hrun := foldlM_range (f := carTurn) (n := 15) (s := l)
    (fun n o => o = (ripple radix 0 (l.take n)).1 ++ bump (ripple radix 0 (l.take n)).2 (l.drop n))
    ?_ ?_
  · obtain ⟨o, hrun, rfl⟩ := hrun
    exact hrun
  · cases l with
    | nil => rfl
    | cons x xs => simp [ripple]
  rintro i hi o rfl
  have htake : l.take (i + 1) = l.take i ++ [l[i]] := (take_concat_get' l i (by omega)).symm
  have hdrop : l.drop i = l[i] :: l[i + 1] :: l.drop (i + 2) := by
    rw [drop_eq_getElem_cons (by omega), drop_eq_getElem_cons (by omega)]
  have hcarry := abs_carry_le fun x hx => hl x (mem_of_mem_take (i := i) hx)
  have hpre : (ripple radix 0 (l.take i)).1.length = i := by
    rw [length_ripple, length_take]
    omega
  have hx := hl l[i] (getElem_mem _)
  have hy := hl l[i + 1] (getElem_mem _)
  have hcarry' := abs_le.mp hcarry
  have hx' := abs_le.mp hx
  have hturn := carTurn_inner (ripple radix 0 (l.take i)).1 (l.drop (i + 2)) (by rw [hpre]; exact hi)
    (show |l[i] + (ripple radix 0 (l.take i)).2| ≤ 2 ^ 55 by rw [abs_le]; omega)
    (hy.trans (by decide))
  rw [hpre] at hturn
  rw [htake, ripple_concat, hdrop, bump_cons]
  refine ⟨_, hturn, ?_⟩
  rw [drop_eq_getElem_cons (show i + 1 < l.length by omega), bump_cons, append_assoc]
  rfl

lemma car25519_eq : car25519 l = some (bump (38 * (ripple radix 0 l).2) (ripple radix 0 l).1) := by
  have hrange : range 16 = range 15 ++ [15] := rfl
  have hlast : l.drop 15 = [l[15]] := by
    rw [drop_eq_getElem_cons (by omega), drop_of_length_le (by omega)]
  have hsplit : l = l.take 15 ++ [l[15]] := by rw [← hlast, take_append_drop]
  have hcarry := abs_le.mp (abs_carry_le fun x hx => hl x (mem_of_mem_take (i := 15) hx))
  have hx := abs_le.mp (hl l[15] (getElem_mem _))
  have hpre : (ripple radix 0 (l.take 15)).1.length = 15 := by
    rw [length_ripple, length_take]
    omega
  have hdigits := digits_ripple radix_pos 0 (l.take 15)
  have hres := ripple_concat radix 0 (l.take 15) l[15]
  rw [← hsplit] at hres
  rw [car25519, hrange, foldlM_append, carTurns_eq hlen hl, hlast, hres, bump_cons]
  generalize (ripple radix 0 (l.take 15)).2 = k at *
  generalize (ripple radix 0 (l.take 15)).1 = pre at *
  cases pre with
  | nil => cases hpre
  | cons first pre =>
    have hfirst := hdigits first mem_cons_self
    have hradix : radix = 2 ^ 16 := rfl
    have hturn := carTurn_last first (Nat.succ.inj hpre)
      (show |first| ≤ 2 ^ 55 by rw [abs_le]; omega)
      (show |l[15] + k| ≤ 2 ^ 55 by rw [abs_le]; omega)
    simp only [bind_eq_bind, bind_some, foldlM_cons, foldlM_nil, hturn]
    rfl


lemma abs_carried_le :
    ∃ first rest, bump (38 * (ripple radix 0 l).2) (ripple radix 0 l).1 = first :: rest ∧
      rest.length = 15 ∧ |first| ≤ 2 ^ 46 ∧ Digits radix rest := by
  have hcarry := abs_le.mp (abs_carry_le hl)
  have hdigits := digits_ripple radix_pos 0 l
  have hlength' := length_ripple radix 0 l
  have hradix : radix = 2 ^ 16 := rfl
  generalize (ripple radix 0 l).1 = r at *
  cases r with
  | nil =>
    rw [hlen] at hlength'
    cases hlength'
  | cons first rest =>
    have hfirst := hdigits first mem_cons_self
    refine ⟨_, rest, rfl, ?_, ?_, fun x hx => hdigits x (mem_cons_of_mem _ hx)⟩
    · rw [hlen, length_cons] at hlength'
      omega
    · rw [abs_le]
      omega

lemma car_car_spec :
    ∃ o, (car25519 l).bind car25519 = some o ∧ Tight o ∧
      ∃ c, num o + c * (2 ^ 256 - 38) = num l := by
  obtain ⟨first, rest, hshape, hrest, hfirst, hdigits⟩ := abs_carried_le hlen hl
  have hnum := num_carried hlen
  rw [hshape] at hnum
  have hradix : radix = 2 ^ 16 := rfl
  have hlength' : (first :: rest).length = 16 := by rw [length_cons, hrest]
  have hbound : ∀ x ∈ first :: rest, |x| ≤ 2 ^ 54 := by
    rintro x (_ | ⟨_, hx⟩)
    · exact hfirst.trans (by decide)
    have hdigit := hdigits x hx
    rw [abs_le]
    omega
  have hnum' := num_carried hlength'
  have hcarry : |(ripple radix 0 (first :: rest)).2| ≤ 1 := by
    rw [ripple]
    refine abs_carry_digits_le (by omega) hdigits ?_
    have hfirst' := abs_le.mp hfirst
    rw [abs_le, radix]
    omega
  have hres := digits_ripple radix_pos 0 (first :: rest)
  have hlength'' := length_ripple radix 0 (first :: rest)
  refine ⟨bump (38 * (ripple radix 0 (first :: rest)).2) (ripple radix 0 (first :: rest)).1, ?_, ?_,
    (ripple radix 0 (first :: rest)).2 + (ripple radix 0 l).2, ?_⟩
  · rw [car25519_eq hlen hl, hshape, bind_some, car25519_eq hlength' hbound]
  · have hcarry' := abs_le.mp hcarry
    generalize (ripple radix 0 (first :: rest)).1 = r at *
    cases r with
    | nil =>
      rw [hlength'] at hlength''
      cases hlength''
    | cons x xs =>
      have hx := hres x mem_cons_self
      refine ⟨hlength''.trans hlength', ?_, fun y hy => hres y (mem_cons_of_mem _ hy)⟩
      rw [bump_cons, getD_cons_zero]
      omega
  · linarith

end

variable {a b : Gf} {bound sum : ℤ} {l t : List ℤ} {i : ℕ}

lemma getD_abs_le (hbound : 0 ≤ bound) (h : ∀ x ∈ l, |x| ≤ bound) (i : ℕ) :
    |l.getD i 0| ≤ bound := by
  rw [getD_eq_getElem?_getD]
  cases hi : l[i]? with
  | none => simpa using hbound
  | some x => exact h x (mem_of_getElem? hi)

/-- The words while the products are added up: their number, their bound and the number that they
stand for. -/
structure Accumulated (t : List ℤ) (bound sum : ℤ) : Prop where
  length : t.length = 31
  bound : ∀ i, |t.getD i 0| ≤ bound
  sum : num t = sum

lemma Accumulated.set (h : Accumulated t bound sum) (hi : i < 31) {extra : ℤ} (hx : |x| ≤ extra) :
    Accumulated (t.set i (t.getD i 0 + x)) (bound + extra) (sum + radix ^ i * x) := by
  have hextra : 0 ≤ extra := (abs_nonneg x).trans hx
  refine ⟨by rw [length_set, h.length], fun j => ?_, ?_⟩
  · by_cases hij : i = j
    · rw [← hij, getD_set_self (by rw [h.length]; exact hi)]
      exact (abs_add_le _ _).trans (add_le_add (h.bound i) hx)
    · rw [getD_set_ne hij]
      linarith [h.bound j]
  · rw [num, value_set _ (by rw [h.length]; exact hi), ← h.sum, num]
    ring

lemma productTurn_spec (ha : Loose a) (hb : Loose b) {j : ℕ} (hi : i < 16) (hj : j < 16)
    (h : Accumulated t bound sum) (hbound : bound ≤ 2 ^ 60) :
    ∃ t', productTurn a b i t j = some t' ∧ Accumulated t' (bound + 2 ^ 36)
      (sum + radix ^ (i + j) * (a.getD i 0 * b.getD j 0)) := by
  have hprod : |a.getD i 0 * b.getD j 0| ≤ 2 ^ 36 := by
    rw [abs_mul]
    calc |a.getD i 0| * |b.getD j 0|
        ≤ 2 ^ 18 * 2 ^ 18 := mul_le_mul (getD_abs_le (by decide) ha.bound i)
          (getD_abs_le (by decide) hb.bound j) (abs_nonneg _) (by decide)
      _ = 2 ^ 36 := by norm_num
  have hsum : |t.getD (i + j) 0 + a.getD i 0 * b.getD j 0| ≤ 2 ^ 62 := by
    have hadd := abs_add_le (t.getD (i + j) 0) (a.getD i 0 * b.getD j 0)
    linarith [h.bound (i + j)]
  refine ⟨_, ?_, h.set (by omega) hprod⟩
  unfold productTurn
  rw [mul64_eq (hprod.trans (by decide))]
  simp only [bind_eq_bind, bind_some, add64_eq hsum]
  rfl

lemma take_succ_getD (hi : i < l.length) : l.take (i + 1) = l.take i ++ [l.getD i 0] := by
  rw [take_add_one, getD_eq_getElem?_getD, getElem?_eq_getElem hi]
  rfl

lemma num_take_succ (hi : i < l.length) :
    num (l.take (i + 1)) = num (l.take i) + radix ^ i * l.getD i 0 := by
  rw [take_succ_getD hi, num, value_append, length_take, min_eq_left hi.le, value_cons,
    value_nil, num, mul_zero, add_zero]

lemma productRow_spec (ha : Loose a) (hb : Loose b) (hi : i < 16) (h : Accumulated t bound sum)
    (hbound : bound ≤ 2 ^ 50) :
    ∃ t', (range 16).foldlM (productTurn a b i) t = some t' ∧
      Accumulated t' (bound + 16 * 2 ^ 36) (sum + radix ^ i * a.getD i 0 * num b) := by
  have hstart : Accumulated t (bound + (0 : ℕ) * 2 ^ 36)
      (sum + radix ^ i * a.getD i 0 * num (b.take 0)) := by
    simpa [num] using h
  have hstep : ∀ j : ℕ, j < 16 → ∀ t, Accumulated t (bound + j * 2 ^ 36)
      (sum + radix ^ i * a.getD i 0 * num (b.take j)) →
      ∃ t', productTurn a b i t j = some t' ∧ Accumulated t' (bound + (j + 1 : ℕ) * 2 ^ 36)
        (sum + radix ^ i * a.getD i 0 * num (b.take (j + 1))) := by
    intro j hj t hinv
    obtain ⟨t', hturn, hinv'⟩ := productTurn_spec ha hb hi hj hinv (by linarith)
    refine ⟨t', hturn, ?_⟩
    rw [num_take_succ (by rw [hb.length]; exact hj)]
    convert hinv' using 1
    · push_cast
      ring
    · rw [pow_add]
      ring
  obtain ⟨t', hrun, hinv⟩ := foldlM_range (fun j t => Accumulated t (bound + j * 2 ^ 36)
    (sum + radix ^ i * a.getD i 0 * num (b.take j))) hstart hstep
  rw [take_of_length_le hb.length.le] at hinv
  exact ⟨t', hrun, hinv⟩

lemma products_spec (ha : Loose a) (hb : Loose b) :
    ∃ t, products a b = some t ∧ Accumulated t (16 * (16 * 2 ^ 36)) (num a * num b) := by
  have hstart : Accumulated (replicate 31 0) ((0 : ℕ) * (16 * 2 ^ 36))
      (num (a.take 0) * num b) := by
    refine ⟨length_replicate, fun i => ?_, ?_⟩
    · refine (getD_abs_le le_rfl (fun x hx => ?_) i).trans (by simp)
      rw [eq_of_mem_replicate hx, abs_zero]
    · rw [num, value_replicate_zero]
      simp [num]
  have hstep : ∀ i : ℕ, i < 16 → ∀ t, Accumulated t (i * (16 * 2 ^ 36)) (num (a.take i) * num b) →
      ∃ t', (range 16).foldlM (productTurn a b i) t = some t' ∧
        Accumulated t' ((i + 1 : ℕ) * (16 * 2 ^ 36)) (num (a.take (i + 1)) * num b) := by
    intro i hi t hinv
    obtain ⟨t', hrow, hinv'⟩ := productRow_spec ha hb hi hinv (by linarith)
    refine ⟨t', hrow, ?_⟩
    rw [num_take_succ (by rw [ha.length]; exact hi)]
    convert hinv' using 1
    · push_cast
      ring
    · ring
  obtain ⟨t, hrun, hinv⟩ := foldlM_range
    (fun i t => Accumulated t (i * (16 * 2 ^ 36)) (num (a.take i) * num b)) hstart hstep
  rw [take_of_length_le ha.length.le] at hinv
  exact ⟨t, hrun, hinv⟩

lemma foldTurn_spec (h : Accumulated t bound sum) {upper : List ℤ} (hupper : t.drop 16 = upper)
    (hbound : ∀ x ∈ upper, |x| ≤ 2 ^ 44) (hlimit : bound ≤ 2 ^ 60) (hi : i < 15) :
    ∃ t', foldTurn t i = some t' ∧ t'.drop 16 = upper ∧
      Accumulated t' (bound + 38 * 2 ^ 44) (sum + radix ^ i * (38 * upper.getD i 0)) := by
  have hread : t.getD (i + 16) 0 = upper.getD i 0 := by
    rw [← hupper, getD_eq_getElem?_getD, getD_eq_getElem?_getD, getElem?_drop, Nat.add_comm]
  have hword := getD_abs_le (by decide) hbound i
  have hprod : |38 * upper.getD i 0| ≤ 38 * 2 ^ 44 := by
    rw [abs_mul]
    exact mul_le_mul_of_nonneg_left hword (by decide)
  have hsum : |t.getD i 0 + 38 * upper.getD i 0| ≤ 2 ^ 62 := by
    have hadd := abs_add_le (t.getD i 0) (38 * upper.getD i 0)
    linarith [h.bound i]
  refine ⟨_, ?_, ?_, h.set (by omega) hprod⟩
  · unfold foldTurn
    rw [hread, mul64_eq (hprod.trans (by decide))]
    simp only [bind_eq_bind, bind_some, add64_eq hsum]
    rfl
  · rw [drop_set_of_lt (by omega), hupper]

/-- The upper half counts 38 times in the lower one, as `2 ^ 256` is 38. -/
lemma folded_spec (h : Accumulated t (16 * (16 * 2 ^ 36)) sum) :
    ∃ t', (range 15).foldlM foldTurn t = some t' ∧ t'.length = 31 ∧ (∀ i, |t'.getD i 0| ≤ 2 ^ 54) ∧
      num (t'.take 16) + num (t.drop 16) * (2 ^ 256 - 38) = sum := by
  have hbound : ∀ x ∈ t.drop 16, |x| ≤ 2 ^ 44 := by
    intro x hx
    obtain ⟨i, hi, rfl⟩ := mem_iff_getElem.mp (mem_of_mem_drop hx)
    have hword := h.bound i
    rw [getD_eq_getElem?_getD, getElem?_eq_getElem hi] at hword
    exact hword.trans (by decide)
  have hstart : t.drop 16 = t.drop 16 ∧ Accumulated t (2 ^ 44 + (0 : ℕ) * (38 * 2 ^ 44))
      (sum + 38 * num ((t.drop 16).take 0)) := by
    refine ⟨rfl, h.length, fun i => (h.bound i).trans (by norm_num), ?_⟩
    rw [h.sum]
    simp [num]
  have hstep : ∀ i : ℕ, i < 15 → ∀ t', t'.drop 16 = t.drop 16 ∧
      Accumulated t' (2 ^ 44 + i * (38 * 2 ^ 44)) (sum + 38 * num ((t.drop 16).take i)) →
      ∃ t'', foldTurn t' i = some t'' ∧ t''.drop 16 = t.drop 16 ∧
        Accumulated t'' (2 ^ 44 + (i + 1 : ℕ) * (38 * 2 ^ 44))
          (sum + 38 * num ((t.drop 16).take (i + 1))) := by
    rintro i hi t' ⟨hupper, hinv⟩
    obtain ⟨t'', hturn, hupper', hinv'⟩ := foldTurn_spec hinv hupper hbound (by linarith) hi
    refine ⟨t'', hturn, hupper', ?_⟩
    rw [num_take_succ (by rw [length_drop, h.length]; omega)]
    convert hinv' using 1
    · push_cast
      ring
    · ring
  obtain ⟨t', hrun, hupper, hinv⟩ := foldlM_range
    (fun i t' => t'.drop 16 = t.drop 16 ∧ Accumulated t' (2 ^ 44 + i * (38 * 2 ^ 44))
      (sum + 38 * num ((t.drop 16).take i))) hstart hstep
  refine ⟨t', hrun, hinv.length, fun i => (hinv.bound i).trans (by norm_num), ?_⟩
  have hsplit := value_append radix (t'.take 16) (t'.drop 16)
  have hsum := hinv.sum
  have hpow : radix ^ (t'.take 16).length = 2 ^ 256 := by
    rw [length_take, hinv.length]
    rfl
  rw [take_append_drop, hupper, hpow] at hsplit
  rw [take_of_length_le (by rw [length_drop, h.length])] at hsum
  unfold num at hsum ⊢
  linarith

lemma M_spec (ha : Loose a) (hb : Loose b) :
    ∃ o, M a b = some o ∧ Tight o ∧ ∃ c, num o + c * (2 ^ 256 - 38) = num a * num b := by
  obtain ⟨t, hproducts, haccumulated⟩ := products_spec ha hb
  obtain ⟨t', hfold, hlen, hbound, hnum⟩ := folded_spec haccumulated
  have hlength' : (t'.take 16).length = 16 := by
    rw [length_take, hlen]
    rfl
  have hbound' : ∀ x ∈ t'.take 16, |x| ≤ 2 ^ 54 := by
    intro x hx
    obtain ⟨i, hi, rfl⟩ := mem_iff_getElem.mp (mem_of_mem_take hx)
    have hword := hbound i
    rwa [getD_eq_getElem?_getD, getElem?_eq_getElem hi] at hword
  obtain ⟨o, hcarries, htight, c, hred⟩ := car_car_spec hlength' hbound'
  refine ⟨o, ?_, htight, c + num (t.drop 16), by linarith⟩
  have hM : M a b = (products a b).bind fun t => ((range 15).foldlM foldTurn t).bind
      fun t => (car25519 (t.take 16)).bind car25519 := rfl
  rw [hM, hproducts, bind_some, hfold, bind_some]
  exact hcarries

end KosKernel.X25519
