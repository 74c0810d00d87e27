import KosKernel.LittleEndian

/-! Stream ciphers that make their key stream block by block from a state, and xor it to an input.
The output is written into a buffer, turn by turn. -/
namespace KosKernel.CounterMode
open LittleEndian List

def overwrite (buffer : List Byte) (offset : ℕ) (bytes : List Byte) : List Byte :=
  buffer.take offset ++ bytes ++ buffer.drop (offset + bytes.length)

def xorBytes (xs ys : List Byte) : List Byte := zipWith (· ^^^ ·) xs ys

def sameBytes (count : ℕ) (xs ys : List Byte) : Bool :=
  (range count).foldl (fun mismatch i => mismatch ||| xs.getD i 0 ^^^ ys.getD i 0) (0 : Byte) == 0

section
variable {σ : Type} (block : σ → List Byte) (step : σ → σ) (width : ℕ)

def turns : ℕ → ℕ → σ → List Byte → List Byte → List Byte
  | 0, _, _, _, output => output
  | count + 1, offset, s, input, output =>
    turns count (offset + width) (step s) input
      (overwrite output offset (xorBytes ((input.drop offset).take width) (block s)))

def crypt (s : σ) (input output : List Byte) : List Byte :=
  turns block step width ((input.length + width - 1) / width) 0 s input output

def keystream : ℕ → σ → List Byte
  | 0, _ => []
  | count + 1, s => block s ++ keystream count (step s)

end

variable {xs ys : List Byte}

section
lemma xorBytes_nil_left (ys : List Byte) : xorBytes [] ys = [] := rfl

lemma length_xorBytes (xs ys : List Byte) : (xorBytes xs ys).length = min xs.length ys.length := by
  rw [xorBytes, length_zipWith]

lemma xorBytes_xorBytes (h : xs.length ≤ ys.length) : xorBytes (xorBytes xs ys) ys = xs := by
  induction xs generalizing ys with
  | nil => rfl
  | cons x xs ih =>
    cases ys with
    | nil => cases h
    | cons y ys =>
      have hrest := ih (Nat.le_of_succ_le_succ h)
      have hbyte : x ^^^ y ^^^ y = x := by rw [BitVec.xor_assoc, BitVec.xor_self, BitVec.xor_zero]
      unfold xorBytes at hrest ⊢
      rw [zipWith_cons_cons, zipWith_cons_cons, hrest, hbyte]

lemma xorBytes_append {zs ws : List Byte} (h : xs.length = ys.length) :
    xorBytes (xs ++ zs) (ys ++ ws) = xorBytes xs ys ++ xorBytes zs ws :=
  zipWith_append h

lemma xorBytes_append_right (h : xs.length ≤ ys.length) (zs : List Byte) :
    xorBytes xs (ys ++ zs) = xorBytes xs ys := by
  induction xs generalizing ys with
  | nil => rfl
  | cons x xs ih =>
    cases ys with
    | nil => cases h
    | cons y ys =>
      have hrest := ih (Nat.le_of_succ_le_succ h)
      unfold xorBytes at hrest ⊢
      rw [cons_append, zipWith_cons_cons, zipWith_cons_cons, hrest]

end

section
lemma or_eq_zero {x y : Byte} : x ||| y = 0 ↔ x = 0 ∧ y = 0 := BitVec.or_eq_zero_iff

lemma mismatch_eq_zero_iff (count : ℕ) (xs ys : List Byte) :
    (range count).foldl (fun mismatch i => mismatch ||| xs.getD i 0 ^^^ ys.getD i 0)
      (0 : Byte) = 0 ↔ ∀ i < count, xs.getD i 0 = ys.getD i 0 := by
  induction count with
  | zero => simp
  | succ count ih =>
    rw [range_succ, foldl_append, foldl_cons, foldl_nil, or_eq_zero, ih, Nat.forall_lt_succ_right]
    exact and_congr_right' BitVec.xor_eq_zero_iff

lemma sameBytes_iff {count : ℕ} (hx : xs.length = count)
    (hy : ys.length = count) : sameBytes count xs ys = true ↔ xs = ys := by
  rw [sameBytes, beq_iff_eq, mismatch_eq_zero_iff]
  constructor
  · intro h
    refine ext_getElem (hx.trans hy.symm) fun i hi hi' => ?_
    have hbyte := h i (hx ▸ hi)
    simpa [getD_eq_getElem?_getD, hi, hi'] using hbyte
  · rintro rfl i -
    rfl

end

variable {σ : Type} {block : σ → List Byte} {step : σ → σ} {width : ℕ}

lemma length_keystream (hblock : ∀ s, (block s).length = width) (count : ℕ) (s : σ) :
    (keystream block step count s).length = count * width := by
  induction count generalizing s with
  | zero => rw [Nat.zero_mul]; rfl
  | succ count ih => rw [keystream, length_append, hblock, ih, Nat.succ_mul, Nat.add_comm]

variable {input output : List Byte}

section
variable (hblock : ∀ s, (block s).length = width) (s : σ) (offset : ℕ)
  (hlen : output.length = input.length)
include hblock s offset hlen

/-- One turn up to its end: the buffer before it, and the block of the input xor the stream. -/
lemma overwrite_take :
    (overwrite output offset (xorBytes ((input.drop offset).take width) (block s))).take
        (offset + width) =
      output.take offset ++ xorBytes ((input.drop offset).take width) (block s) := by
  have hchunk : (xorBytes ((input.drop offset).take width) (block s)).length =
      min width (input.length - offset) := by
    rw [length_xorBytes, length_take, length_drop, hblock]
    omega
  rw [overwrite]
  generalize xorBytes ((input.drop offset).take width) (block s) = chunk at hchunk ⊢
  rcases le_or_gt (offset + width) input.length with hinside | hend
  · rw [take_left' (by rw [length_append, length_take, hchunk]; omega)]
  · rw [drop_of_length_le (by rw [hchunk]; omega), append_nil, take_of_length_le]
    rw [length_append, length_take, hchunk]
    omega

lemma length_overwrite :
    (overwrite output offset (xorBytes ((input.drop offset).take width) (block s))).length =
      input.length := by
  rw [overwrite, length_append, length_append, length_take, length_drop,
    length_xorBytes, length_take, length_drop, hblock]
  omega

end

lemma turns_eq (hblock : ∀ s, (block s).length = width) (count : ℕ) {offset : ℕ} (s : σ)
    (hlen : output.length = input.length) (hcount : input.length ≤ offset + count * width) :
    turns block step width count offset s input output =
      output.take offset ++ xorBytes (input.drop offset) (keystream block step count s) := by
  induction count generalizing offset s output with
  | zero =>
    have hend : input.length ≤ offset := by omega
    rw [turns, drop_of_length_le hend, xorBytes_nil_left, append_nil, take_of_length_le (by omega)]
  | succ count ih =>
    have hstep := length_overwrite hblock s offset hlen
    have hrest : input.drop (offset + width) = (input.drop offset).drop width := by rw [drop_drop]
    have hsplit : xorBytes (input.drop offset) (block s ++ keystream block step count (step s)) =
        xorBytes ((input.drop offset).take width) (block s) ++
          xorBytes ((input.drop offset).drop width) (keystream block step count (step s)) := by
      rcases le_or_gt width (input.drop offset).length with hinside | hend
      · rw [← xorBytes_append (by rw [length_take, hblock]; omega), take_append_drop]
      · rw [drop_of_length_le hend.le, xorBytes_nil_left, append_nil,
          take_of_length_le hend.le, xorBytes_append_right (by rw [hblock]; omega)]
    rw [turns, ih (step s) hstep (by rw [Nat.succ_mul] at hcount; omega),
      overwrite_take hblock s offset hlen, keystream, hsplit, hrest, append_assoc]

lemma le_turns_mul {n : ℕ} (hwidth : 0 < width) : n ≤ (n + width - 1) / width * width := by
  have h := Nat.div_add_mod (n + width - 1) width
  have hmod := Nat.mod_lt (n + width - 1) hwidth
  rw [Nat.mul_comm] at h
  omega

/-- The loop writes the input xor the stream, whatever was in the buffer. -/
lemma crypt_eq (hblock : ∀ s, (block s).length = width) (hwidth : 0 < width) (s : σ)
    (hlen : output.length = input.length) :
    crypt block step width s input output = xorBytes input
      (keystream block step ((input.length + width - 1) / width) s) := by
  rw [crypt, turns_eq hblock _ s hlen (by rw [Nat.zero_add]; exact le_turns_mul hwidth)]
  rfl

lemma length_crypt (step : σ → σ) (hblock : ∀ s, (block s).length = width) (hwidth : 0 < width)
    (s : σ) (hlen : output.length = input.length) :
    (crypt block step width s input output).length = input.length := by
  have hcover : input.length ≤ (input.length + width - 1) / width * width := le_turns_mul hwidth
  rw [crypt_eq hblock hwidth s hlen, length_xorBytes, length_keystream hblock]
  exact min_eq_left hcover

theorem crypt_crypt (hblock : ∀ s, (block s).length = width) (hwidth : 0 < width) (s : σ)
    {buf : List Byte} (hout : output.length = input.length)
    (hbuf : buf.length = input.length) :
    crypt block step width s (crypt block step width s input output) buf = input := by
  have hlen := length_crypt step hblock hwidth s hout
  rw [crypt_eq hblock hwidth s (hbuf.trans hlen.symm), hlen,
    crypt_eq hblock hwidth s hout, xorBytes_xorBytes]
  rw [length_keystream hblock]
  exact le_turns_mul hwidth

end KosKernel.CounterMode
