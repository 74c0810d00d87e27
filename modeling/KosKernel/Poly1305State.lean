import KosKernel.MachineWords

/-! Poly1305 as in `lib/crypto.c`: limbs of 26 bits in words of 32 bits, products in words of 64. -/
namespace KosKernel.Poly1305
open LittleEndian MachineWords

abbrev Word := BitVec 32
abbrev Wide := BitVec 64

@[ext] structure Limbs where
  l0 : Word
  l1 : Word
  l2 : Word
  l3 : Word
  l4 : Word
  deriving DecidableEq

/-- The buffer is the list of its bytes in use, `leftover` is its length. -/
structure Poly1305Ctx where
  r : Limbs
  h : Limbs
  pad0 : Word
  pad1 : Word
  pad2 : Word
  pad3 : Word
  buffer : List Byte

def limbMask : Word := 0x3ffffff

def poly1305Init (key : List Byte) : Poly1305Ctx where
  r := ⟨loadShifted key 0 0 &&& 0x3ffffff, loadShifted key 3 2 &&& 0x3ffff03,
    loadShifted key 6 4 &&& 0x3ffc0ff, loadShifted key 9 6 &&& 0x3f03fff,
    loadShifted key 12 8 &&& 0x00fffff⟩
  h := ⟨0, 0, 0, 0, 0⟩
  pad0 := load32 key 16
  pad1 := load32 key 20
  pad2 := load32 key 24
  pad3 := load32 key 28
  buffer := []

section
def addBlock (h : Limbs) (m : List Byte) (hibit : Word) : Limbs :=
  let t0 := load32 m 0
  let t1 := load32 m 4
  let t2 := load32 m 8
  let t3 := load32 m 12
  ⟨h.l0 + (t0 &&& limbMask), h.l1 + ((t0 >>> 26 ||| t1 <<< 6) &&& limbMask),
    h.l2 + ((t1 >>> 20 ||| t2 <<< 12) &&& limbMask),
    h.l3 + ((t2 >>> 14 ||| t3 <<< 18) &&& limbMask), h.l4 + (t3 >>> 8 ||| hibit)⟩

def wideMul (a b : Word) : Wide := a.setWidth 64 * b.setWidth 64

structure Products where
  d0 : Wide
  d1 : Wide
  d2 : Wide
  d3 : Wide
  d4 : Wide

def multiply (h r : Limbs) : Products where
  d0 := wideMul h.l0 r.l0 + wideMul h.l1 (5 * r.l4) + wideMul h.l2 (5 * r.l3) +
    wideMul h.l3 (5 * r.l2) + wideMul h.l4 (5 * r.l1)
  d1 := wideMul h.l0 r.l1 + wideMul h.l1 r.l0 + wideMul h.l2 (5 * r.l4) +
    wideMul h.l3 (5 * r.l3) + wideMul h.l4 (5 * r.l2)
  d2 := wideMul h.l0 r.l2 + wideMul h.l1 r.l1 + wideMul h.l2 r.l0 +
    wideMul h.l3 (5 * r.l4) + wideMul h.l4 (5 * r.l3)
  d3 := wideMul h.l0 r.l3 + wideMul h.l1 r.l2 + wideMul h.l2 r.l1 +
    wideMul h.l3 r.l0 + wideMul h.l4 (5 * r.l4)
  d4 := wideMul h.l0 r.l4 + wideMul h.l1 r.l3 + wideMul h.l2 r.l2 +
    wideMul h.l3 r.l1 + wideMul h.l4 r.l0

def lowLimb (d : Wide) : Word := d.setWidth 32 &&& limbMask
def carryOf (d : Wide) : Word := (d >>> 26).setWidth 32

def propagate (p : Products) : Limbs :=
  let d1 := p.d1 + (carryOf p.d0).setWidth 64
  let d2 := p.d2 + (carryOf d1).setWidth 64
  let d3 := p.d3 + (carryOf d2).setWidth 64
  let d4 := p.d4 + (carryOf d3).setWidth 64
  let h0 := lowLimb p.d0 + carryOf d4 * 5
  ⟨h0 &&& limbMask, lowLimb d1 + h0 >>> 26, lowLimb d2, lowLimb d3, lowLimb d4⟩

def poly1305Block (r h : Limbs) (m : List Byte) (hibit : Word) : Limbs :=
  propagate (multiply (addBlock h m hibit) r)

/-- The bit above the block; the last block has it in its bytes. -/
def hibitOf (isFinal : Bool) : Word := if isFinal then 0 else 1 <<< 24

def poly1305Blocks (r h : Limbs) (m : List Byte) (isFinal : Bool) : Limbs :=
  (List.range (m.length / 16)).foldl
    (fun h i => poly1305Block r h (m.drop (16 * i)) (hibitOf isFinal)) h

end

section
/-- Bytes from before are filled up to sixteen, and are a block then. -/
def fillBuffer (ctx : Poly1305Ctx) (m : List Byte) : Poly1305Ctx :=
  let buffer := ctx.buffer ++ m.take (16 - ctx.buffer.length)
  if buffer.length = 16 then
    { ctx with h := poly1305Blocks ctx.r ctx.h buffer false, buffer := [] }
  else { ctx with buffer := buffer }

/-- The blocks of the message are taken as they are, and the rest is kept for later. -/
def takeBlocks (ctx : Poly1305Ctx) (m : List Byte) : Poly1305Ctx :=
  let count := m.length / 16 * 16
  { ctx with
    h := if 16 ≤ m.length then poly1305Blocks ctx.r ctx.h (m.take count) false else ctx.h
    buffer := ctx.buffer ++ m.drop count }

def poly1305Update (ctx : Poly1305Ctx) (m : List Byte) : Poly1305Ctx :=
  if 0 < ctx.buffer.length then
    takeBlocks (fillBuffer ctx m) (m.drop (16 - ctx.buffer.length))
  else takeBlocks ctx m

end

def finalBlock (ctx : Poly1305Ctx) : Limbs :=
  if 0 < ctx.buffer.length then
    poly1305Blocks ctx.r ctx.h
      (ctx.buffer ++ 1 :: List.replicate (15 - ctx.buffer.length) 0) true
  else ctx.h

def carryLimbs (h : Limbs) : Limbs :=
  let h2 := h.l2 + h.l1 >>> 26
  let h3 := h.l3 + h2 >>> 26
  let h4 := h.l4 + h3 >>> 26
  let h0 := h.l0 + (h4 >>> 26) * 5
  ⟨h0 &&& limbMask, (h.l1 &&& limbMask) + h0 >>> 26, h2 &&& limbMask, h3 &&& limbMask,
    h4 &&& limbMask⟩

/-- The accumulator plus 5 less `2 ^ 130`, in words. -/
def addFive (h : Limbs) : Limbs :=
  let g0 := h.l0 + 5
  let g1 := h.l1 + g0 >>> 26
  let g2 := h.l2 + g1 >>> 26
  let g3 := h.l3 + g2 >>> 26
  ⟨g0 &&& limbMask, g1 &&& limbMask, g2 &&& limbMask, g3 &&& limbMask,
    h.l4 + g3 >>> 26 - 1 <<< 26⟩

/-- The words of `g` where the mask has ones, else those of `h`. -/
def selectLimb (mask h g : Word) : Word := h &&& ~~~mask ||| g &&& mask

def subtractPrime (h : Limbs) : Limbs :=
  let g := addFive h
  let mask := g.l4 >>> 31 - 1
  ⟨selectLimb mask h.l0 g.l0, selectLimb mask h.l1 g.l1, selectLimb mask h.l2 g.l2,
    selectLimb mask h.l3 g.l3, selectLimb mask h.l4 g.l4⟩

def wide (x : Word) : Wide := x.setWidth 64

def lowTag (h : Limbs) (ctx : Poly1305Ctx) : Wide :=
  (wide h.l0 ||| wide h.l1 <<< 26) + wide ctx.pad0 + wide ctx.pad1 <<< 32

def highTag (h : Limbs) (ctx : Poly1305Ctx) : Wide :=
  (wide h.l2 >>> 12 ||| wide h.l3 <<< 14 ||| wide h.l4 <<< 40) + wide ctx.pad2 +
    wide ctx.pad3 <<< 32

def storeWide (f : Wide) : List Byte := (List.range 8).map fun i => (f >>> (i * 8)).setWidth 8

def poly1305Finish (ctx : Poly1305Ctx) : List Byte :=
  let h := subtractPrime (carryLimbs (finalBlock ctx))
  storeWide (lowTag h ctx) ++ storeWide (highTag h ctx)

end KosKernel.Poly1305
