import KosKernel.CounterMode
import KosKernel.Poly1305State

/-! ChaCha20-Poly1305 as in `lib/crypto.c`. -/
namespace KosKernel.ChaChaPoly
open LittleEndian MachineWords CounterMode Poly1305

section
def chachaRotl (v : Word) (c : ℕ) : Word := v <<< c ||| v >>> (32 - c)

def chachaQr (x : List Word) (ia ib ic id : ℕ) : List Word :=
  let a := x.getD ia 0
  let b := x.getD ib 0
  let c := x.getD ic 0
  let d := x.getD id 0
  let a := a + b
  let d := chachaRotl (d ^^^ a) 16
  let c := c + d
  let b := chachaRotl (b ^^^ c) 12
  let a := a + b
  let d := chachaRotl (d ^^^ a) 8
  let c := c + d
  let b := chachaRotl (b ^^^ c) 7
  (((x.set ia a).set ib b).set ic c).set id d

def doubleRound (x : List Word) : List Word :=
  let x := chachaQr x 0 4 8 12
  let x := chachaQr x 1 5 9 13
  let x := chachaQr x 2 6 10 14
  let x := chachaQr x 3 7 11 15
  let x := chachaQr x 0 5 10 15
  let x := chachaQr x 1 6 11 12
  let x := chachaQr x 2 7 8 13
  chachaQr x 3 4 9 14

def storeWord (res : Word) : List Byte :=
  [res.setWidth 8, (res >>> 8).setWidth 8, (res >>> 16).setWidth 8, (res >>> 24).setWidth 8]

def chacha20Block (state : List Word) : List Byte :=
  let x := doubleRound^[10] state
  (List.range 16).flatMap fun i => storeWord (x.getD i 0 + state.getD i 0)

def initialState (key nonce : List Byte) (counter : Word) : List Word :=
  [0x61707865, 0x3320646e, 0x79622d32, 0x6b206574] ++
    (List.range 8).map (fun i => load32 key (i * 4)) ++ [counter] ++
    (List.range 3).map fun i => load32 nonce (i * 4)

def nextState (state : List Word) : List Word := state.set 12 (state.getD 12 0 + 1)

/-- Without an input the stream itself is written, as if the input were zeros. -/
def chacha20Crypt (key nonce : List Byte) (counter : Word) (input : Option (List Byte)) (size : ℕ)
    (output : List Byte) : List Byte :=
  crypt chacha20Block nextState 64 (initialState key nonce counter)
    (input.getD (List.replicate size 0)) output

end

/-- A part of the authenticated data, filled up to whole blocks. -/
def updatePadded (ctx : Poly1305Ctx) (bytes : List Byte) : Poly1305Ctx :=
  if 0 < bytes.length then
    let ctx := poly1305Update ctx bytes
    if bytes.length % 16 ≠ 0 then
      poly1305Update ctx (List.replicate (16 - bytes.length % 16) 0)
    else ctx
  else ctx

def chachaTag (key nonce aad ciphertext : List Byte) : List Byte :=
  let polyKey := chacha20Crypt key nonce 0 none 64 (List.replicate 64 0)
  let ctx := updatePadded (updatePadded (poly1305Init polyKey) aad) ciphertext
  poly1305Finish (poly1305Update ctx (leBytes 8 aad.length ++ leBytes 8 ciphertext.length))

def kosChacha20Poly1305Encrypt (key nonce aad plaintext ciphertext : List Byte) :
    List Byte × List Byte :=
  let ciphertext := chacha20Crypt key nonce 1 (some plaintext) plaintext.length ciphertext
  (ciphertext, chachaTag key nonce aad ciphertext)

def kosChacha20Poly1305Decrypt (key nonce aad ciphertext tag plaintext : List Byte) :
    Bool × List Byte :=
  if sameBytes 16 (chachaTag key nonce aad ciphertext) tag then
    (true, chacha20Crypt key nonce 1 (some ciphertext) ciphertext.length plaintext)
  else (false, plaintext)

end KosKernel.ChaChaPoly
