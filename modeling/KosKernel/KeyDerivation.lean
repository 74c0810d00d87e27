import Mathlib.Data.BitVec
import Mathlib.Data.List.Range
import Mathlib.Tactic.Common

/-! HMAC (RFC 2104), HKDF-Expand (RFC 5869) and the labels that TLS 1.3 puts into it (RFC 8446,
section 7.1), over an arbitrary hash function. -/
namespace KosKernel.KeyDerivation
open List

abbrev Bytes := List (BitVec 8)

/-- A hash function with its block size and the size of its digests. -/
structure Hash (blockSize size : ℕ) where
  digest : Bytes → Bytes
  length_digest : ∀ bytes, (digest bytes).length = size

namespace Hash
variable {blockSize size : ℕ} (H : Hash blockSize size) (prk info : Bytes)

/-- A key of one block: hashed if it is longer, filled up with zeros if it is shorter. -/
def keyBlock (key : Bytes) : Bytes :=
  let k := if blockSize < key.length then H.digest key else key
  k ++ replicate (blockSize - k.length) 0

def hmac (key message : Bytes) : Bytes :=
  H.digest ((H.keyBlock key).map (· ^^^ 0x5C) ++
    H.digest ((H.keyBlock key).map (· ^^^ 0x36) ++ message))

/-- The block T(i) of the expansion. -/
def expandBlock : ℕ → Bytes
  | 0 => []
  | i + 1 => H.hmac prk (expandBlock i ++ info ++ [BitVec.ofNat 8 (i + 1)])

def expandBlocks (i n : ℕ) : Bytes := (range' i n).flatMap (H.expandBlock prk info)

def expand (length : ℕ) : Bytes :=
  (H.expandBlocks prk info 1 ((length + size - 1) / size)).take length

def labelInfo (label context : Bytes) (length : ℕ) : Bytes :=
  [BitVec.ofNat 8 (length / 256), BitVec.ofNat 8 length] ++ [BitVec.ofNat 8 label.length] ++
    label ++ [BitVec.ofNat 8 context.length] ++ context

def expandLabel (secret label context : Bytes) (length : ℕ) : Bytes :=
  H.expand secret (labelInfo label context length) length

lemma length_expandBlock (i : ℕ) : (H.expandBlock prk info (i + 1)).length = size :=
  H.length_digest _

lemma length_expandBlock_le (i : ℕ) : (H.expandBlock prk info i).length ≤ size := by
  cases i with
  | zero => exact Nat.zero_le _
  | succ i => exact (H.length_expandBlock prk info i).le

lemma length_expandBlocks (i n : ℕ) : (H.expandBlocks prk info (i + 1) n).length = n * size := by
  induction n generalizing i with
  | zero => simp [expandBlocks]
  | succ n ih =>
    have hrest := ih (i + 1)
    unfold expandBlocks at hrest ⊢
    rw [range'_succ, flatMap_cons, length_append, hrest, length_expandBlock, Nat.succ_mul,
      Nat.add_comm]

lemma take_expandBlocks (i n left : ℕ) : (H.expandBlocks prk info (i + 1) (n + 1)).take left =
    (H.expandBlock prk info (i + 1)).take (min left size) ++
      (H.expandBlocks prk info (i + 1 + 1) n).take (left - min left size) := by
  have hblock := H.length_expandBlock prk info i
  have hleft : left - size = left - min left size := by omega
  unfold expandBlocks
  rw [range'_succ, flatMap_cons, take_append, hblock, hleft, take_eq_take_min, hblock]

lemma le_blocks (hsize : 0 < size) (length : ℕ) :
    length ≤ (length + size - 1) / size * size := by
  have := Nat.div_add_mod' (length + size - 1) size
  have := Nat.mod_lt (length + size - 1) hsize
  omega

lemma length_expand (hsize : 0 < size) (length : ℕ) :
    (H.expand prk info length).length = length := by
  rw [expand, length_take, length_expandBlocks, Nat.min_eq_left (le_blocks hsize length)]

end Hash

end KosKernel.KeyDerivation
