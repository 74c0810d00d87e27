import KosKernel.ByteMemory

/-! DER elements as the certificate code reads them. Buffers are addresses in memory with a
32-bit size, address zero is the null pointer, and offsets are 32-bit sums. -/
namespace KosKernel.X509
open ByteMemory

abbrev Byte := BitVec 8

def bytesAt (m : Memory) (data length : ℕ) : List Byte :=
  (List.range length).map fun i => m (data + i)

@[simp] lemma length_bytesAt (m : Memory) (data length : ℕ) :
    (bytesAt m data length).length = length := by
  simp [bytesAt]

lemma bytesAt_succ (m : Memory) (data length : ℕ) :
    bytesAt m data (length + 1) = m data :: bytesAt m (data + 1) length := by
  simp only [bytesAt, List.range_succ_eq_map, List.map_cons, List.map_map, Nat.add_zero,
    Function.comp_def]
  congr 2
  funext i
  congr 1
  omega

def loaded (base : ℕ) (bytes : List Byte) : Memory := fun a => bytes.getD (a - base) 0

def tagBoolean : Byte := 0x01
def tagInteger : Byte := 0x02
def tagBitString : Byte := 0x03
def tagOctetString : Byte := 0x04
def tagObjectId : Byte := 0x06
def tagUtcTime : Byte := 0x17
def tagGeneralizedTime : Byte := 0x18
def tagSequence : Byte := 0x30
def tagSet : Byte := 0x31
def tagContext0 : Byte := 0xA0
def tagContext3 : Byte := 0xA3

structure Asn1Element where
  tag : Byte
  constructed : Bool
  data : ℕ
  length : ℕ
  headerLength : ℕ
deriving DecidableEq

/-- Number of header bytes and the length they announce. At most four octets are joined, so
the shifts of the loop lose nothing. -/
def asn1Length (m : Memory) (buffer bufferSize : ℕ) : Option (ℕ × ℕ) :=
  let lenByte := (m (buffer + 1)).toNat
  if lenByte < 128 then some (2, lenByte)
  else
    let numOctets := lenByte % 128
    if numOctets = 0 ∨ 4 < numOctets then none
    else if bufferSize < 2 + numOctets then none
    else if m (buffer + 2) = 0 then none
    else
      let length := (bytesAt m (buffer + 2) numOctets).foldl (fun n b => n * 256 + b.toNat) 0
      if length < 128 then none else some (2 + numOctets, length)

def asn1ParseElement (m : Memory) (buffer bufferSize : ℕ) : Option Asn1Element :=
  if buffer = 0 ∨ bufferSize < 2 then none
  else
    match asn1Length m buffer bufferSize with
    | none => none
    | some (offset, length) =>
      -- the sum is a 32-bit one: a length close to 2^32 passes the test
      if bufferSize < (offset + length) % 2 ^ 32 then none
      else some
        { tag := m buffer
          constructed := m buffer &&& 0x20 ≠ 0
          data := buffer + offset
          length
          headerLength := offset }

/-- What the callers add to their offset to step over an element. -/
def Asn1Element.extent (elem : Asn1Element) : ℕ := (elem.headerLength + elem.length) % 2 ^ 32

def Asn1Element.bytes (m : Memory) (elem : Asn1Element) : List Byte :=
  bytesAt m elem.data elem.length

def elementAt (m : Memory) (container : Asn1Element) (offset : ℕ) : Option Asn1Element :=
  asn1ParseElement m (container.data + offset) (container.length - offset)

def asn1GetTagged (m : Memory) (buffer bufferSize : ℕ) (tag : Byte) : Option Asn1Element :=
  (asn1ParseElement m buffer bufferSize).filter fun elem => elem.tag = tag

def asn1GetSequence (m : Memory) (buffer bufferSize : ℕ) : Option Asn1Element :=
  asn1GetTagged m buffer bufferSize tagSequence

def asn1GetOid (m : Memory) (buffer bufferSize : ℕ) : Option Asn1Element :=
  (asn1GetTagged m buffer bufferSize tagObjectId).filter fun elem => elem.length ≠ 0

def oidRsaEncryption : List Byte := [0x2A, 0x86, 0x48, 0x86, 0xF7, 0x0D, 0x01, 0x01, 0x01]
def oidSha256WithRsa : List Byte := [0x2A, 0x86, 0x48, 0x86, 0xF7, 0x0D, 0x01, 0x01, 0x0B]
def oidRsaPss : List Byte := [0x2A, 0x86, 0x48, 0x86, 0xF7, 0x0D, 0x01, 0x01, 0x0A]
def oidEcPublicKey : List Byte := [0x2A, 0x86, 0x48, 0xCE, 0x3D, 0x02, 0x01]
def oidEcdsaWithSha256 : List Byte := [0x2A, 0x86, 0x48, 0xCE, 0x3D, 0x04, 0x03, 0x02]
def oidCommonName : List Byte := [0x55, 0x04, 0x03]
def oidOrganization : List Byte := [0x55, 0x04, 0x0A]
def oidSubjectAltName : List Byte := [0x55, 0x1D, 0x11]
def oidBasicConstraints : List Byte := [0x55, 0x1D, 0x13]

def asn1MatchOid (m : Memory) (oid : Asn1Element) (expected : List Byte) : Bool :=
  oid.length = expected.length && oid.bytes m == expected

lemma asn1ParseElement_data_pos {m : Memory} {buf bufferSize : ℕ} {elem : Asn1Element}
    (h : asn1ParseElement m buf bufferSize = some elem) : 0 < elem.data := by
  unfold asn1ParseElement at h
  split at h
  · cases h
  rename_i hbuf
  split at h
  · cases h
  split at h
  · cases h
  · cases h
    dsimp only
    omega

end KosKernel.X509
