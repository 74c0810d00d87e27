import KosKernel.KeyDerivation

/-! HMAC and HKDF of `lib/crypto.c` over SHA-256. The local arrays have the sizes of the source, and
an access behind the end of one ends the call. Pointers are not null. -/
namespace KosKernel.Hkdf
open KeyDerivation List

/-- The call returns false, or it leaves a local array. -/
inductive Stop
  | refused
  | pastEnd
deriving DecidableEq

/-- `array[pos++] = b` in an array of `size` bytes, which is written from its start to `pos`. -/
def put (size : ℕ) (written : Bytes) (b : BitVec 8) : Except Stop Bytes :=
  if written.length < size then .ok (written ++ [b]) else .error .pastEnd

def putAll (size : ℕ) (written bytes : Bytes) : Except Stop Bytes := bytes.foldlM (put size) written

/-- A loop that reads the first bytes of an array. -/
def getFirst (array : Bytes) (n : ℕ) : Except Stop Bytes :=
  if n ≤ array.length then .ok (array.take n) else .error .pastEnd

/-- A local array with an initial part; the source sets the rest to zero. -/
def zeroFilled (size : ℕ) (bytes : Bytes) : Bytes := bytes ++ replicate (size - bytes.length) 0

section
variable (sha256 : Hash 64 32) (prk info : Bytes)

/-- The hash context digests what its updates are given, one behind the other. -/
def kosHmacSha256 (key data : Bytes) : Except Stop Bytes := do
  let k ← putAll 64 [] (if 64 < key.length then sha256.digest key else key)
  let inner := (zeroFilled 64 k).map (· ^^^ 0x36)
  let outer := (zeroFilled 64 k).map (· ^^^ 0x5C)
  let innerDigest := sha256.digest (inner ++ data)
  return sha256.digest (outer ++ innerDigest)

/-- The loop over the blocks, with the bytes that are left to produce; each turn produces some. -/
def expandLoop : (turns : ℕ) → (previous : Bytes) → (counter : BitVec 8) → (left : ℕ) →
    Except Stop Bytes
  | 0, _, _, _ => .ok []
  | turns + 1, previous, counter, left =>
    if 0 < left then do
      let block ← putAll (32 + 256) [] (if counter ≠ 1 then previous else [])
      let block ← putAll (32 + 256) block info
      let block ← put (32 + 256) block counter
      let previous ← kosHmacSha256 sha256 prk block
      let amount := if left < 32 then left else 32
      let rest ← expandLoop turns previous (counter + 1) (left - amount)
      return previous.take amount ++ rest
    else .ok []

def kosHkdfExpandSha256 (outputSize : ℕ) : Except Stop Bytes :=
  if 255 * 32 < outputSize then .error .refused
  else expandLoop sha256 prk info outputSize (replicate 32 0) 1 outputSize

/-- The characters `tls13 `. -/
def labelPrefix : Bytes := [0x74, 0x6C, 0x73, 0x31, 0x33, 0x20]

/-- `label` has the characters in front of the terminating zero. -/
def kosHkdfExpandLabelSha256 (secret label context : Bytes) (length : ℕ) : Except Stop Bytes := do
  -- the copy stops at the end of the array, the length does not
  let fullLabel := zeroFilled 64 (labelPrefix ++ label.take (64 - 6))
  let fullLabelLen := (6 + label.length) % 2 ^ 8
  let hkdfLabel ← putAll 512 [] [BitVec.ofNat 8 (length >>> 8), BitVec.ofNat 8 length,
    BitVec.ofNat 8 fullLabelLen]
  let hkdfLabel ← putAll 512 hkdfLabel (← getFirst fullLabel fullLabelLen)
  let hkdfLabel ← put 512 hkdfLabel (BitVec.ofNat 8 context.length)
  let hkdfLabel ← putAll 512 hkdfLabel context
  kosHkdfExpandSha256 sha256 secret hkdfLabel length

end

section
variable {size : ℕ} {written bytes : Bytes}

lemma ok_bind {a : Bytes} (f : Bytes → Except Stop Bytes) : (Except.ok a >>= f) = f a := rfl

lemma put_eq {b : BitVec 8} (h : written.length < size) :
    put size written b = .ok (written ++ [b]) :=
  if_pos h

lemma putAll_eq (h : written.length + bytes.length ≤ size) :
    putAll size written bytes = .ok (written ++ bytes) := by
  induction bytes generalizing written with
  | nil => exact congrArg Except.ok (append_nil written).symm
  | cons b bytes ih =>
    rw [length_cons] at h
    have hrest : putAll size (written ++ [b]) bytes = .ok (written ++ [b] ++ bytes) :=
      ih (by rw [length_append, length_singleton]; omega)
    rw [append_assoc, singleton_append] at hrest
    rw [putAll, foldlM_cons, put_eq (by omega)]
    exact hrest

end

section
variable (sha256 : Hash 64 32) {prk info : Bytes}

lemma kosHmacSha256_eq (key data : Bytes) :
    kosHmacSha256 sha256 key data = .ok (sha256.hmac key data) := by
  have hfits : (if 64 < key.length then sha256.digest key else key).length ≤ 64 := by
    split_ifs with hlong
    · rw [sha256.length_digest]
      decide
    · omega
  rw [kosHmacSha256, putAll_eq (by simpa using hfits)]
  rfl

lemma blockStart_eq {i : ℕ} (hi : i < 255) {previous : Bytes}
    (hblock : i ≠ 0 → previous = sha256.expandBlock prk info i) :
    (if BitVec.ofNat 8 (i + 1) ≠ 1 then previous else []) = sha256.expandBlock prk info i := by
  by_cases hzero : i = 0
  · subst hzero
    rfl
  · have hcounter : BitVec.ofNat 8 (i + 1) ≠ 1 := by
      intro heq
      have := congrArg BitVec.toNat heq
      simp at this
      omega
    rw [if_pos hcounter, hblock hzero]

/-- The loop in front of the block `i + 1`. The counter does not start over, because there are at
most 255 blocks. -/
lemma expandLoop_eq {turns i n left : ℕ} (hinfo : info.length ≤ 255) (hturns : left ≤ turns)
    (hn : left ≤ n * 32) (hi : i + n ≤ 255) {previous : Bytes}
    (hblock : i ≠ 0 → previous = sha256.expandBlock prk info i) :
    expandLoop sha256 prk info turns previous (BitVec.ofNat 8 (i + 1)) left =
      .ok ((sha256.expandBlocks prk info (i + 1) n).take left) := by
  induction turns generalizing i n left previous with
  | zero =>
    obtain rfl : left = 0 := by omega
    rfl
  | succ turns ih =>
    by_cases hpos : 0 < left
    · obtain ⟨n, rfl⟩ : ∃ m, n = m + 1 := Nat.exists_eq_succ_of_ne_zero (by omega)
      have hlength := sha256.length_expandBlock_le prk info i
      have hamount : (if left < 32 then left else 32) = min left 32 := by split_ifs <;> omega
      have hnext : BitVec.ofNat 8 (i + 1) + 1 = BitVec.ofNat 8 (i + 1 + 1) := by
        rw [BitVec.ofNat_add (i + 1)]
        rfl
      have hrest := @ih (i + 1) n (left - min left 32) (by omega) (by omega) (by omega) _
        fun _ => rfl
      rw [expandLoop, if_pos hpos, blockStart_eq sha256 (by omega) hblock, hamount, hnext,
        sha256.take_expandBlocks, putAll_eq (by rw [length_nil]; omega), ok_bind, nil_append,
        putAll_eq (by omega), ok_bind, put_eq (by rw [length_append]; omega), ok_bind,
        kosHmacSha256_eq, ok_bind]
      change (expandLoop sha256 prk info turns (sha256.expandBlock prk info (i + 1)) _ _ >>= _) = _
      rw [hrest]
      rfl
    · obtain rfl : left = 0 := by omega
      rfl

lemma kosHkdfExpandSha256_eq {length : ℕ} (hinfo : info.length ≤ 255)
    (hlength : length ≤ 255 * 32) :
    kosHkdfExpandSha256 sha256 prk info length = .ok (sha256.expand prk info length) := by
  rw [kosHkdfExpandSha256, if_neg (by omega)]
  exact expandLoop_eq sha256 (i := 0) hinfo le_rfl (Hash.le_blocks (by decide) length) (by omega)
    fun h => absurd rfl h

lemma kosHkdfExpandLabelSha256_eq (secret : Bytes) {label context : Bytes} {length : ℕ}
    (hlabel : label.length ≤ 57) (hinfo : 10 + label.length + context.length ≤ 255)
    (hlength : length ≤ 255 * 32) : kosHkdfExpandLabelSha256 sha256 secret label context length =
      .ok (sha256.expandLabel secret (labelPrefix ++ label) context length) := by
  have hlen : (6 + label.length) % 2 ^ 8 = (labelPrefix ++ label).length := by
    rw [length_append]
    exact Nat.mod_eq_of_lt (by omega)
  have hsix : labelPrefix.length = 6 := rfl
  have hget : getFirst (zeroFilled 64 (labelPrefix ++ label.take (64 - 6)))
      (labelPrefix ++ label).length = .ok (labelPrefix ++ label) := by
    rw [take_of_length_le (by omega), getFirst, zeroFilled, if_pos (by simp), take_left]
  rw [kosHkdfExpandLabelSha256, hlen, putAll_eq (by simp), ok_bind, hget, ok_bind,
    putAll_eq (by simp [hsix]; omega), ok_bind, put_eq (by simp [hsix]; omega), ok_bind,
    putAll_eq (by simp [hsix]; omega), ok_bind,
    kosHkdfExpandSha256_eq sha256 (by simp [hsix]; omega) hlength]
  rw [Nat.shiftRight_eq_div_pow]
  rfl

end

/-- The labels of `net/tls.c`. -/
def callerLabels : List String :=
  ["derived", "c hs traffic", "s hs traffic", "c ap traffic", "s ap traffic", "key", "iv",
    "finished"]

/-- The keyed hash and the expansion of labels are those of the standards, inside the local arrays,
for everything that the callers with contexts of at most 32 bytes ask for. -/
theorem hmac_and_expandLabel_follow_standards (sha256 : Hash 64 32) :
    (∀ key data, kosHmacSha256 sha256 key data = .ok (sha256.hmac key data)) ∧
    (∀ secret label context length, secret.length = 32 → label.length ≤ 57 →
      10 + label.length + context.length ≤ 255 → length ≤ 8160 →
        ∃ output, kosHkdfExpandLabelSha256 sha256 secret label context length = .ok output ∧
          output = sha256.expandLabel secret (labelPrefix ++ label) context length ∧
          output.length = length) ∧
    ∀ label ∈ callerLabels, label.length ≤ 57 ∧ 10 + label.length + 32 ≤ 255 := by
  refine ⟨kosHmacSha256_eq sha256, ?_, by decide⟩
  intro secret label context length _ hlabel hinfo hlength
  exact ⟨_, kosHkdfExpandLabelSha256_eq sha256 secret hlabel hinfo hlength, rfl,
    sha256.length_expand _ _ (by decide) length⟩

def sumHash : Hash 64 32 :=
  ⟨fun bytes => replicate 32 (bytes.foldl (· + ·) 0), fun _ => length_replicate⟩

/-- The label `key` and a context of two bytes, expanded to more than one block. -/
theorem hmac_and_expandLabel_sample :
    ∃ output, kosHkdfExpandLabelSha256 sumHash (replicate 32 1) [0x6B, 0x65, 0x79] [1, 2] 40 =
        .ok output ∧
      output = sumHash.expandLabel (replicate 32 1) (labelPrefix ++ [0x6B, 0x65, 0x79]) [1, 2] 40 ∧
      output.length = 40 :=
  (hmac_and_expandLabel_follow_standards sumHash).2.1 _ _ _ _ length_replicate (by decide)
    (by decide) (by decide)

end KosKernel.Hkdf
