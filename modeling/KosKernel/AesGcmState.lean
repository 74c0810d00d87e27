import KosKernel.CounterMode

/-! AES-GCM as in `lib/crypto.c`, with the byte substitution computed in the field of 256 elements
and the hash multiplied bit by bit. -/
namespace KosKernel.AesGcm
open LittleEndian CounterMode

section
/-- One turn of the multiplication: the result, the first factor doubled, the second one halved. -/
def gfMulTurn (state : Byte × Byte × Byte) : Byte × Byte × Byte :=
  let (result, a, b) := state
  (if b &&& 1 ≠ 0 then result ^^^ a else result,
    if a &&& 0x80 ≠ 0 then a <<< 1 ^^^ 0x1b else a <<< 1, b >>> 1)

def aesGfMul (a b : Byte) : Byte := (gfMulTurn^[8] (0, a, b)).1

def aesSbox (value : Byte) : Byte :=
  if value = 0 then 0x63
  else
    let inverse := (fun power => aesGfMul power value)^[254] 1
    inverse ^^^ (inverse <<< 1 ||| inverse >>> 7) ^^^ (inverse <<< 2 ||| inverse >>> 6) ^^^
      (inverse <<< 3 ||| inverse >>> 5) ^^^ (inverse <<< 4 ||| inverse >>> 4) ^^^ 0x63

/-- The word that starts a new round key: rotated and substituted, with the round constant. -/
def rotateWord (word : List Byte) (rcon : Byte) : List Byte :=
  [aesSbox (word.getD 1 0) ^^^ rcon, aesSbox (word.getD 2 0), aesSbox (word.getD 3 0),
    aesSbox (word.getD 0 0)]

/-- The last word of the round keys, and the new word made from it. -/
def lastWord (roundKeys : List Byte) : List Byte := roundKeys.drop (roundKeys.length - 4)

def appendWord (keyLen : ℕ) (roundKeys word : List Byte) : List Byte :=
  roundKeys ++ xorBytes ((roundKeys.drop (roundKeys.length - keyLen)).take 4) word

def expand128Turn (state : List Byte × Byte) : List Byte × Byte :=
  let (roundKeys, rcon) := state
  if roundKeys.length % 16 = 0 then
    (appendWord 16 roundKeys (rotateWord (lastWord roundKeys) rcon), aesGfMul rcon 2)
  else (appendWord 16 roundKeys (lastWord roundKeys), rcon)

def aes128ExpandKey (key : List Byte) : List Byte := (expand128Turn^[40] (key, 1)).1

/-- One turn of `aes256_expand_key`: every other key starts with a word that is only
substituted. -/
def expand256Turn (state : List Byte × Byte) : List Byte × Byte :=
  let (roundKeys, rcon) := state
  if roundKeys.length % 32 = 0 then
    (appendWord 32 roundKeys (rotateWord (lastWord roundKeys) rcon), aesGfMul rcon 2)
  else if roundKeys.length % 32 = 16 then
    (appendWord 32 roundKeys ((lastWord roundKeys).map aesSbox), rcon)
  else (appendWord 32 roundKeys (lastWord roundKeys), rcon)

def aes256ExpandKey (key : List Byte) : List Byte := (expand256Turn^[52] (key, 1)).1

def blockOf (f : ℕ → Byte) : List Byte := (List.range 16).map f

def addRoundKey (roundKeys : List Byte) (round : ℕ) (state : List Byte) : List Byte :=
  blockOf fun i => state.getD i 0 ^^^ roundKeys.getD (round * 16 + i) 0

/-- Byte `row + 4 * column` comes from the column further to the right by its row. -/
def shiftRows (substituted : List Byte) : List Byte :=
  blockOf fun i => substituted.getD (i % 4 + 4 * ((i / 4 + i % 4) % 4)) 0

def mixColumns (state : List Byte) : List Byte :=
  blockOf fun i =>
    let a := state.getD (4 * (i / 4)) 0
    let b := state.getD (4 * (i / 4) + 1) 0
    let c := state.getD (4 * (i / 4) + 2) 0
    let d := state.getD (4 * (i / 4) + 3) 0
    match i % 4 with
    | 0 => aesGfMul a 2 ^^^ aesGfMul b 3 ^^^ c ^^^ d
    | 1 => a ^^^ aesGfMul b 2 ^^^ aesGfMul c 3 ^^^ d
    | 2 => a ^^^ b ^^^ aesGfMul c 2 ^^^ aesGfMul d 3
    | _ => aesGfMul a 3 ^^^ b ^^^ c ^^^ aesGfMul d 2

def aesRound (roundKeys : List Byte) (rounds : ℕ) (state : List Byte) (round : ℕ) : List Byte :=
  let shifted := shiftRows (state.map aesSbox)
  addRoundKey roundKeys round (if round ≠ rounds then mixColumns shifted else shifted)

def aesEncryptBlockRounds (roundKeys : List Byte) (rounds : ℕ) (input : List Byte) : List Byte :=
  (List.range rounds).foldl (fun state i => aesRound roundKeys rounds state (i + 1))
    (addRoundKey roundKeys 0 input)

end

section
/-- One turn of `gcm_multiply` for a bit of the first factor: the product so far, and the second
factor shifted by one bit. -/
def multiplyTurn (x : List Byte) (state : List Byte × List Byte) (bit : ℕ) :
    List Byte × List Byte :=
  let (z, v) := state
  let shifted := blockOf fun i =>
    if i = 0 then v.getD 0 0 >>> 1 else v.getD i 0 >>> 1 ||| v.getD (i - 1) 0 <<< 7
  (if x.getD (bit / 8) 0 &&& 0x80 >>> (bit % 8) ≠ 0 then xorBytes z v else z,
    if v.getD 15 0 &&& 1 ≠ 0 then xorBytes shifted (0xe1 :: List.replicate 15 0) else shifted)

def gcmMultiply (x y : List Byte) : List Byte :=
  ((List.range 128).foldl (multiplyTurn x) (List.replicate 16 0, y)).1

def gcmGhashBlock (hashKey accumulator block : List Byte) : List Byte :=
  gcmMultiply (xorBytes accumulator block) hashKey

def paddedBlock (bytes : List Byte) (offset : ℕ) : List Byte :=
  blockOf fun i => bytes.getD (offset + i) 0

def gcmGhashBlocks (hashKey bytes accumulator : List Byte) : List Byte :=
  (List.range ((bytes.length + 15) / 16)).foldl
    (fun accumulator i => gcmGhashBlock hashKey accumulator (paddedBlock bytes (16 * i))) accumulator

def lengthBytes (size : ℕ) : List Byte := (leBytes 8 (size * 8)).reverse

def gcmGhash (hashKey aad ciphertext : List Byte) : List Byte :=
  gcmGhashBlock hashKey
    (gcmGhashBlocks hashKey ciphertext (gcmGhashBlocks hashKey aad (List.replicate 16 0)))
    (lengthBytes aad.length ++ lengthBytes ciphertext.length)

end

/-- The last four bytes are counted up, with the carry from right to left. -/
def incrementFrom : ℕ → List Byte → List Byte
  | 0, counter => counter
  | count + 1, counter =>
    let i := 12 + count
    let byte := counter.getD i 0 + 1
    if byte ≠ 0 then counter.set i byte else incrementFrom count (counter.set i byte)

def gcmIncrementCounter (counter : List Byte) : List Byte := incrementFrom 4 counter

def firstCounter (nonce : List Byte) : List Byte :=
  blockOf fun i => if i < 12 then nonce.getD i 0 else if i = 15 then 1 else 0

def gcmCrypt (roundKeys : List Byte) (rounds : ℕ) (nonce input output : List Byte) : List Byte :=
  crypt (fun counter => aesEncryptBlockRounds roundKeys rounds (gcmIncrementCounter counter))
    gcmIncrementCounter 16 (firstCounter nonce) input output

def gcmTag (roundKeys : List Byte) (rounds : ℕ) (nonce aad ciphertext : List Byte) : List Byte :=
  let hashKey := aesEncryptBlockRounds roundKeys rounds (List.replicate 16 0)
  xorBytes (aesEncryptBlockRounds roundKeys rounds (firstCounter nonce))
    (gcmGhash hashKey aad ciphertext)

def gcmEncrypt (roundKeys : List Byte) (rounds : ℕ) (nonce aad plaintext ciphertext : List Byte) :
    List Byte × List Byte :=
  let ciphertext := gcmCrypt roundKeys rounds nonce plaintext ciphertext
  (ciphertext, gcmTag roundKeys rounds nonce aad ciphertext)

def gcmDecrypt (roundKeys : List Byte) (rounds : ℕ)
    (nonce aad ciphertext tag plaintext : List Byte) : Bool × List Byte :=
  if sameBytes 16 (gcmTag roundKeys rounds nonce aad ciphertext) tag then
    (true, gcmCrypt roundKeys rounds nonce ciphertext plaintext)
  else (false, plaintext)

def kosAes128GcmEncrypt (key : List Byte) := gcmEncrypt (aes128ExpandKey key) 10
def kosAes128GcmDecrypt (key : List Byte) := gcmDecrypt (aes128ExpandKey key) 10
def kosAes256GcmEncrypt (key : List Byte) := gcmEncrypt (aes256ExpandKey key) 14
def kosAes256GcmDecrypt (key : List Byte) := gcmDecrypt (aes256ExpandKey key) 14

end KosKernel.AesGcm
