import KosKernel.LittleEndian
import KosKernel.AccessLog
import KosKernel.ByteMemory

/-! Application packages as `lib/kpkg.c` reads them. A package is seen through a reader only;
every read that the reader carries out is noted. Sums of offsets are 64-bit ones. The hash is a
parameter: a context is the bytes fed to it. `granted` says whether `kmalloc` finds memory. -/
namespace KosKernel.Kpkg
open LittleEndian AccessLog

def kpkgMagic : ℕ := 0x47504B4B
def kpkgVersion1 : ℕ := 1
def sigNone : ℕ := 0
def sigEcdsaP256 : ℕ := 1
def sigRsa2048Pkcs1 : ℕ := 2
def maxFiles : ℕ := 128
def maxFileSize : ℕ := 16 * 1024 * 1024
def maxTotalSize : ℕ := 64 * 1024 * 1024
def maxPathLen : ℕ := 256
def maxAppIdLen : ℕ := 64
def maxNameLen : ℕ := 64
def maxVerLen : ℕ := 32

def headerSize : ℕ := 80
def manifestStructSize : ℕ := 960
def fileEntrySize : ℕ := 308
def signatureBlockSize : ℕ := 16

def cString (chars : List Byte) : List Byte := chars.takeWhile (· != 0)

section
def isSeparator (c : Byte) : Bool := c = 0x2f || c = 0x5c

def isIllegal (c : Byte) : Bool :=
  decide (c.toNat < 32) || c = 127 || c = 0x3a || c = 0x2a || c = 0x3f || c = 0x22 || c = 0x3c ||
    c = 0x3e || c = 0x7c

def segmentIsValid (segment : List Byte) : Bool :=
  !segment.isEmpty && segment != [0x2e] && segment != [0x2e, 0x2e]

/-- The loop over the segments; nothing is left to check behind a separator at the end. -/
def segmentsFrom (segment : List Byte) : List Byte → Bool
  | [] => segment.isEmpty || segmentIsValid segment
  | c :: rest =>
    if isSeparator c then segmentIsValid segment && segmentsFrom [] rest
    else !isIllegal c && segmentsFrom (segment ++ [c]) rest

def kpkgValidatePath (path : List Byte) : Bool :=
  !path.isEmpty && decide (path.length ≤ maxPathLen - 1) && !(path.head?.any isSeparator) &&
    path[1]? != some 0x3a && segmentsFrom [] path

def isAppIdChar (c : Byte) : Bool :=
  decide (0x61 ≤ c.toNat ∧ c.toNat ≤ 0x7a) || decide (0x41 ≤ c.toNat ∧ c.toNat ≤ 0x5a) ||
    decide (0x30 ≤ c.toNat ∧ c.toNat ≤ 0x39) || c = 0x2e || c = 0x2d || c = 0x5f

def hasDoubleDot : List Byte → Bool
  | a :: b :: rest => (a = 0x2e && b = 0x2e) || hasDoubleDot (b :: rest)
  | _ => false

def kpkgValidateAppId (appId : List Byte) : Bool :=
  !appId.isEmpty && decide (appId.length ≤ maxAppIdLen - 1) && appId.all isAppIdChar &&
    appId.any (· != 0x2e) && appId.head? != some 0x2e && appId.getLast? != some 0x2e &&
    !hasDoubleDot appId

end

structure Access where
  offset : ℕ
  size : ℕ
  deriving DecidableEq

structure Reader where
  read : ℕ → ℕ → Option (List Byte)
  getSize : ℕ
  size_lt : getSize < 2 ^ 64
  length_read : ∀ {offset size : ℕ} {bytes : List Byte},
    read offset size = some bytes → bytes.length = size

def Reader.fetch (reader : Reader) (offset size : ℕ) : Attempt Access (List Byte) :=
  match reader.read offset size with
  | none => ⟨[], none⟩
  | some bytes => ⟨[⟨offset, size⟩], some bytes⟩

/-- The reader over a byte string in memory. Its check is a 64-bit sum, and so is the address. -/
def memoryReader (m : ByteMemory.Memory) (data size : ℕ) (h : size < 2 ^ 64) : Reader where
  read offset count :=
    if size < (offset + count) % 2 ^ 64 then none
    else some ((List.range count).map fun i => m ((data + offset + i) % 2 ^ 64))
  getSize := size
  size_lt := h
  length_read := by
    intro offset count bytes hread
    split at hread
    · cases hread
    · cases hread
      rw [List.length_map, List.length_range]

structure FileEntry where
  path : List Byte
  size : ℕ
  payloadOffset : ℕ
  sha256 : List Byte
  deriving DecidableEq

def FileEntry.decode (bytes : List Byte) : FileEntry where
  path := cString (bytes.take maxPathLen)
  size := field bytes 256 8
  payloadOffset := field bytes 264 8
  sha256 := (bytes.drop 276).take 32

/-- An open package: the bytes read from it. What the reader did not fill of the manifest is
zero. -/
structure Package where
  reader : Reader
  headerBytes : List Byte
  manifestBytes : List Byte
  indexBytes : List Byte

section
variable (header : List Byte)

def sigTypeOf : ℕ := field header 12 4
def manifestOffsetOf : ℕ := field header 16 8
def manifestSizeOf : ℕ := field header 24 4
def fileCountOf : ℕ := field header 28 4
def indexOffsetOf : ℕ := field header 32 8
def payloadOffsetOf : ℕ := field header 48 8
def payloadSizeOf : ℕ := field header 56 8
def sigOffsetOf : ℕ := field header 64 8
def sigSizeOf : ℕ := field header 72 4

def headerIsValid : Bool :=
  field header 0 4 = kpkgMagic && field header 4 4 = kpkgVersion1 && field header 8 4 = headerSize &&
    decide (fileCountOf header ≤ maxFiles) && decide (manifestSizeOf header ≤ manifestStructSize) &&
    decide (payloadSizeOf header ≤ maxTotalSize)

end

namespace Package
variable (pkg : Package)

def fileCount : ℕ := fileCountOf pkg.headerBytes
def appId : List Byte := cString (pkg.manifestBytes.take maxAppIdLen)
def name : List Byte := cString ((pkg.manifestBytes.drop 64).take maxNameLen)
def version : List Byte := cString ((pkg.manifestBytes.drop 128).take maxVerLen)
def versionCode : ℕ := field pkg.manifestBytes 160 4
def entryPoint : List Byte := cString ((pkg.manifestBytes.drop 180).take maxPathLen)
def permissions : ℕ := field pkg.manifestBytes 436 4

def entry (index : ℕ) : FileEntry :=
  FileEntry.decode ((pkg.indexBytes.drop (index * fileEntrySize)).take fileEntrySize)

def files : List FileEntry := (List.range pkg.fileCount).map pkg.entry

def payloadStart (f : FileEntry) : ℕ := (payloadOffsetOf pkg.headerBytes + f.payloadOffset) % 2 ^ 64

end Package

section
def readManifest (reader : Reader) (header : List Byte) : Attempt Access (List Byte) :=
  if 0 < manifestSizeOf header then do
    Attempt.require
      ((manifestOffsetOf header + manifestSizeOf header) % 2 ^ 64 ≤ reader.getSize)
    let bytes ← reader.fetch (manifestOffsetOf header) (manifestSizeOf header)
    let manifest := bytes ++ List.replicate (manifestStructSize - manifestSizeOf header) 0
    Attempt.require (kpkgValidateAppId (cString (manifest.take maxAppIdLen)))
    pure manifest
  else pure (List.replicate manifestStructSize 0)

def fileIsValid (header : List Byte) (f : FileEntry) : Bool :=
  kpkgValidatePath f.path && decide (f.size ≤ maxFileSize) &&
    decide ((f.payloadOffset + f.size) % 2 ^ 64 ≤ payloadSizeOf header)

def indexIsValid (header : List Byte) (files : List FileEntry) : Bool :=
  files.all (fileIsValid header) &&
    decide ((files.map FileEntry.size).sum % 2 ^ 64 ≤ maxTotalSize)

def readIndex (reader : Reader) (granted : Bool) (header : List Byte) :
    Attempt Access (List Byte) :=
  if 0 < fileCountOf header then do
    let indexBytes := fileCountOf header * fileEntrySize
    Attempt.require ((indexOffsetOf header + indexBytes) % 2 ^ 64 ≤ reader.getSize)
    Attempt.require granted
    let bytes ← reader.fetch (indexOffsetOf header) indexBytes
    Attempt.require (indexIsValid header (Package.files ⟨reader, header, [], bytes⟩))
    pure bytes
  else pure []

def kpkgOpen (reader : Reader) (granted : Bool) : Attempt Access Package := do
  Attempt.require (headerSize ≤ reader.getSize)
  let header ← reader.fetch 0 headerSize
  Attempt.require (headerIsValid header)
  let manifest ← readManifest reader header
  let index ← readIndex reader granted header
  pure ⟨reader, header, manifest, index⟩

end

section
variable (sha256 : List Byte → List Byte)

def chunkSize : ℕ := 4096

/-- The loop over the chunks of a payload; each turn takes at least one byte. -/
def readPayload (reader : Reader) : ℕ → ℕ → ℕ → Attempt Access (List Byte)
  | 0, _, _ => pure []
  | fuel + 1, offset, remaining =>
    if remaining = 0 then pure []
    else do
      let toRead := min remaining chunkSize
      let chunk ← reader.fetch offset toRead
      let rest ← readPayload reader fuel ((offset + toRead) % 2 ^ 64) (remaining - toRead)
      pure (chunk ++ rest)

def verifyFile (pkg : Package) (f : FileEntry) : Attempt Access Unit := do
  let bytes ← readPayload pkg.reader f.size (pkg.payloadStart f) f.size
  Attempt.require (sha256 bytes == f.sha256)

def verifyFiles (pkg : Package) : List FileEntry → Attempt Access Unit
  | [] => pure ()
  | f :: fs => do
    verifyFile sha256 pkg f
    verifyFiles pkg fs

def kpkgVerifyIntegrity (granted : Bool) (pkg : Package) : Attempt Access Unit := do
  Attempt.require granted
  verifyFiles sha256 pkg pkg.files

def kpkgExtractFile (granted : Bool) (pkg : Package) (index : ℕ) : Attempt Access (List Byte) := do
  Attempt.require (index < pkg.fileCount)
  Attempt.require granted
  let f := pkg.entry index
  let bytes ← pkg.reader.fetch (pkg.payloadStart f) f.size
  Attempt.require (sha256 bytes == f.sha256)
  pure bytes

end

/-- The check of `kos_ecdsa_p256_verify`: neither the key nor the hash is looked at. -/
def kosEcdsaP256Verify (_pubkeyX _pubkeyY _hash r s : List Byte) : Bool :=
  r.any (· != 0) || s.any (· != 0)

def kosRsaPkcs1VerifySha256 (modulus exponent _hash sig : List Byte) : Bool :=
  !modulus.isEmpty && !exponent.isEmpty && sig.length = modulus.length

def publicExponent : List Byte := [0x01, 0x00, 0x01]

structure SignatureBlock where
  sigType : ℕ
  keyLen : ℕ
  sigLen : ℕ
  deriving DecidableEq

def SignatureBlock.decode (bytes : List Byte) : SignatureBlock :=
  ⟨field bytes 0 4, field bytes 4 4, field bytes 8 4⟩

def Package.signedBytes (pkg : Package) : List Byte :=
  pkg.headerBytes ++ pkg.manifestBytes.take (manifestSizeOf pkg.headerBytes) ++ pkg.indexBytes

def checkSignature (sigType : ℕ) (key digest sig : List Byte) : Bool :=
  if sigType = sigEcdsaP256 ∧ sig.length = 64 ∧ 64 ≤ key.length then
    kosEcdsaP256Verify (key.take 32) ((key.drop 32).take 32) digest (sig.take 32) (sig.drop 32)
  else if sigType = sigRsa2048Pkcs1 ∧ 256 ≤ key.length then
    kosRsaPkcs1VerifySha256 key publicExponent digest sig
  else false

def readSignature (granted : Bool) (pkg : Package) : Attempt Access (ℕ × List Byte) := do
  let header := pkg.headerBytes
  Attempt.require (sigTypeOf header ≠ sigNone && sigSizeOf header ≠ 0)
  Attempt.require (signatureBlockSize ≤ sigSizeOf header)
  let bytes ← pkg.reader.fetch (sigOffsetOf header) signatureBlockSize
  let block := SignatureBlock.decode bytes
  Attempt.require (block.sigType = sigTypeOf header &&
    decide (signatureBlockSize + block.keyLen + block.sigLen ≤ sigSizeOf header))
  Attempt.require (granted && block.sigLen ≠ 0)
  let sig ← pkg.reader.fetch
    ((sigOffsetOf header + signatureBlockSize + block.keyLen) % 2 ^ 64) block.sigLen
  pure (block.sigType, sig)

/-- `none` is the null pointer. -/
def kpkgVerifySignature (sha256 : List Byte → List Byte) (granted : Bool) (pkg : Package)
    (trustedPubkey : Option (List Byte)) : Attempt Access Unit := do
  Attempt.require (trustedPubkey.any (!·.isEmpty))
  let (sigType, sig) ← readSignature granted pkg
  Attempt.require (checkSignature sigType (trustedPubkey.getD []) (sha256 pkg.signedBytes) sig)

end KosKernel.Kpkg
