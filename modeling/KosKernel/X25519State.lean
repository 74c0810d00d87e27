import KosKernel.CheckedArithmetic

/-! X25519 as in `lib/crypto.c`: sixteen signed limbs of 16 bits in words of 64 bits. Every addition,
subtraction, multiplication and left shift is checked; a computation that overflows has no result. -/
namespace KosKernel.X25519
open LittleEndian CheckedArithmetic List

abbrev Gf := List ℤ

section
def carTurn (o : Gf) (i : ℕ) : Option Gf := do
  let x ← add64 (o.getD i 0) (2 ^ 16)
  let o := o.set i x
  let c := shr64 x 16
  let d ← sub64 c 1
  let e ← mul64 37 d
  let f ← mul64 e (if i = 15 then 1 else 0)
  let g ← add64 d f
  let j := (i + 1) * (if i < 15 then 1 else 0)
  let y ← add64 (o.getD j 0) g
  let o := o.set j y
  let h ← shl64 c 16
  let z ← sub64 (o.getD i 0) h
  return o.set i z

def car25519 (o : Gf) : Option Gf := (range 16).foldlM carTurn o

/-- The limbs are exchanged under a mask of ones, and kept under a mask of zeros. -/
def sel25519 (p q : Gf) (b : ℤ) : Gf × Gf :=
  let c := not64 (b - 1)
  ((range 16).map fun i =>
      xor64 (p.getD i 0) (and64 c (xor64 (p.getD i 0) (q.getD i 0))),
    (range 16).map fun i =>
      xor64 (q.getD i 0) (and64 c (xor64 (p.getD i 0) (q.getD i 0))))

def A (a b : Gf) : Option Gf := (range 16).mapM fun i => add64 (a.getD i 0) (b.getD i 0)
def Z (a b : Gf) : Option Gf := (range 16).mapM fun i => sub64 (a.getD i 0) (b.getD i 0)

def productTurn (a b : Gf) (i : ℕ) (t : List ℤ) (j : ℕ) : Option (List ℤ) := do
  let x ← mul64 (a.getD i 0) (b.getD j 0)
  let y ← add64 (t.getD (i + j) 0) x
  return t.set (i + j) y

def products (a b : Gf) : Option (List ℤ) :=
  (range 16).foldlM (fun t i => (range 16).foldlM (productTurn a b i) t)
    (replicate 31 0)

def foldTurn (t : List ℤ) (i : ℕ) : Option (List ℤ) := do
  let x ← mul64 38 (t.getD (i + 16) 0)
  let y ← add64 (t.getD i 0) x
  return t.set i y

def M (a b : Gf) : Option Gf := do
  let t ← products a b
  let t ← (range 15).foldlM foldTurn t
  let o ← car25519 (t.take 16)
  car25519 o

def S (a : Gf) : Option Gf := M a a

/-- One turn of `inv25519`; `a` runs from 253 down to 0. -/
def invTurn (i c : Gf) (a : ℕ) : Option Gf := do
  let c ← S c
  if a ≠ 2 ∧ a ≠ 4 then M c i else return c

def inv25519 (i : Gf) : Option Gf :=
  (range 254).foldlM (fun c n => invTurn i c (253 - n)) i

end

section
def unpack25519 (n : List Byte) : Gf :=
  let o := (range 16).map fun i =>
    or64 (n.getD (2 * i) 0).toNat ((n.getD (2 * i + 1) 0).toNat * 2 ^ 8)
  o.set 15 (and64 (o.getD 15 0) 0x7fff)

/-- A limb less the limb of the prime and the borrow of the limb before, which is cut to its range
after that. -/
def borrowLimb (t m : Gf) (i : ℕ) (p : ℤ) : Option Gf := do
  let x ← sub64 (t.getD i 0) p
  let x ← sub64 x (and64 (shr64 (m.getD (i - 1) 0) 16) 1)
  return (m.set i x).set (i - 1) (and64 ((m.set i x).getD (i - 1) 0) 0xffff)

def subtractPrime (t m : Gf) : Option Gf := do
  let x ← sub64 (t.getD 0 0) 0xffed
  let m ← (range 14).foldlM (fun m n => borrowLimb t m (n + 1) 0xffff) (m.set 0 x)
  borrowLimb t m 15 0x7fff

def freezeTurn (tm : Gf × Gf) : Option (Gf × Gf) := do
  let m ← subtractPrime tm.1 tm.2
  let c := and64 (shr64 (m.getD 15 0) 16) 1
  return sel25519 tm.1 m (1 - c)

def lowByte (x : ℤ) : Byte := BitVec.ofInt 8 x

def pack25519 (n : Gf) : Option (List Byte) := do
  let t ← car25519 n
  let t ← car25519 t
  let t ← car25519 t
  let tm ← freezeTurn (t, replicate 16 0)
  let tm ← freezeTurn tm
  return (range 16).flatMap fun i =>
    [lowByte (tm.1.getD i 0), lowByte (shr64 (tm.1.getD i 0) 8)]

end

def zeroGf : Gf := replicate 16 0
def oneGf : Gf := zeroGf.set 0 1
def a24 : Gf := [0xDB41, 1, 0, 0, 0, 0, 0, 0, 0, 0, 0, 0, 0, 0, 0, 0]

structure Ladder where
  x2 : Gf
  z2 : Gf
  x3 : Gf
  z3 : Gf
  swap : ℕ

def swapPoints (s : Ladder) (b : ℕ) : Ladder :=
  let x := sel25519 s.x2 s.x3 b
  let z := sel25519 s.z2 s.z3 b
  ⟨x.1, z.1, x.2, z.2, s.swap⟩

def ladderStep (x1 : Gf) (s : Ladder) : Option Ladder := do
  let a ← A s.x2 s.z2
  let aa ← S a
  let b ← Z s.x2 s.z2
  let bb ← S b
  let e ← Z aa bb
  let c ← A s.x3 s.z3
  let d ← Z s.x3 s.z3
  let da ← M d a
  let cb ← M c b
  let x3 ← A da cb
  let x3 ← S x3
  let z3 ← Z da cb
  let z3 ← S z3
  let z3 ← M z3 x1
  let x2 ← M aa bb
  let z2 ← M e a24
  let z2 ← A z2 aa
  let z2 ← M e z2
  return ⟨x2, z2, x3, z3, s.swap⟩

def scalarBit (z : List Byte) (pos : ℕ) : ℕ := (z.getD (pos / 8) 0).toNat / 2 ^ (pos % 8) % 2

def ladderTurn (z : List Byte) (x1 : Gf) (s : Ladder) (pos : ℕ) : Option Ladder :=
  let bit := scalarBit z pos
  ladderStep x1 { swapPoints s (s.swap ^^^ bit) with swap := bit }

/-- The scalar with its lowest bits cleared and its highest ones fixed. -/
def clampScalar (scalar : List Byte) : List Byte :=
  (range 32).map fun i =>
    let byte := scalar.getD i 0
    if i = 0 then byte &&& 248 else if i = 31 then byte &&& 127 ||| 64 else byte

def kosX25519 (scalar base : List Byte) : Option (List Byte) := do
  let z := clampScalar scalar
  let x1 := unpack25519 base
  let s ← (range 255).foldlM (fun s n => ladderTurn z x1 s (254 - n))
    ⟨oneGf, zeroGf, x1, oneGf, 0⟩
  let s := swapPoints s s.swap
  let inverse ← inv25519 s.z2
  let x2 ← M s.x2 inverse
  pack25519 x2

end KosKernel.X25519
