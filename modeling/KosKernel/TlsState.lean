import KosKernel.Programs
import KosKernel.X509Chain

/-! TLS client: sessions, the record layer and the key schedule. The cryptographic primitives
are parameters, and the transcript context is the bytes hashed so far. -/
namespace KosKernel.Tls
open X509

inductive Aead
  | aes128Gcm | chacha20Poly1305 | aes256Gcm
deriving DecidableEq

structure Crypto extends Primitives where
  selfTest : Bool
  hmacSha256 : (key message : List Byte) → List Byte
  hkdfExtractSha256 : (salt ikm : List Byte) → List Byte
  hkdfExpandLabelSha256 : (secret : List Byte) → (label : String) → (context : List Byte) →
    (length : ℕ) → List Byte
  x25519 : (scalar point : List Byte) → List Byte
  x25519Base : List Byte → List Byte
  /-- Ciphertext and tag. -/
  aeadEncrypt : Aead → (key nonce aad plaintext : List Byte) → Option (List Byte × List Byte)
  aeadDecrypt : Aead → (key nonce aad ciphertext tag : List Byte) → Option (List Byte)

def tlsAes128GcmSha256 : BitVec 16 := 0x1301
def tlsAes256GcmSha384 : BitVec 16 := 0x1302
def tlsChacha20Poly1305Sha256 : BitVec 16 := 0x1303

def aeadOf (suite : BitVec 16) : Option Aead :=
  if suite = tlsAes128GcmSha256 then some .aes128Gcm
  else if suite = tlsChacha20Poly1305Sha256 then some .chacha20Poly1305
  else if suite = tlsAes256GcmSha384 then some .aes256Gcm
  else none

def recordChangeCipherSpec : Byte := 20
def recordAlert : Byte := 21
def recordHandshake : Byte := 22
def recordApplicationData : Byte := 23

def hsClientHello : Byte := 1
def hsServerHello : Byte := 2
def hsEncryptedExtensions : Byte := 8
def hsCertificate : Byte := 11
def hsCertificateVerify : Byte := 15
def hsFinished : Byte := 20

def groupX25519 : ℕ := 0x001D

def recordBufferSize : ℕ := 4096

def u16Bytes (n : ℕ) : List Byte := [BitVec.ofNat 8 (n / 256), BitVec.ofNat 8 n]

def constructNonce (iv : List Byte) (seq : BitVec 64) : List Byte :=
  (List.range 12).map fun j =>
    if j < 4 then iv.getD j 0 else iv.getD j 0 ^^^ (seq >>> ((11 - j) * 8)).setWidth 8

/-- Header of an encrypted record with a payload of plaintext and type. -/
def recordHeader (payloadLen : ℕ) : List Byte :=
  [recordApplicationData, 0x03, 0x03] ++ u16Bytes (payloadLen + 16)

def encryptRecord (crypto : Crypto) (suite : BitVec 16) (key iv : List Byte) (seq : BitVec 64)
    (innerType : Byte) (plaintext : List Byte) : Option (List Byte) :=
  let payload := plaintext ++ [innerType]
  let header := recordHeader payload.length
  if recordBufferSize < payload.length then none
  else
    match aeadOf suite with
    | none => none
    | some aead =>
      match crypto.aeadEncrypt aead key (constructNonce iv seq) header payload with
      | none => none
      | some (ciphertext, tag) => some (header ++ ciphertext ++ tag)

def u16 (bytes : List Byte) (i : ℕ) : ℕ := (bytes.getD i 0).toNat * 256 + (bytes.getD (i + 1) 0).toNat

/-- Content and type of a decrypted payload: the type is its last non-zero byte. -/
def innerContent (payload : List Byte) : Option (List Byte × Byte) :=
  let trimmed := payload.rdropWhile fun b => b = 0
  trimmed.getLast?.map fun innerType => (trimmed.dropLast, innerType)

def decryptRecord (crypto : Crypto) (suite : BitVec 16) (key iv : List Byte) (seq : BitVec 64)
    (record : List Byte) : Option (List Byte × Byte) :=
  if record.length < 5 + 16 + 1 then none
  else
    let encLen := u16 record 3
    if record.length ≠ 5 + encLen then none
    else
      let ctLen := encLen - 16
      if recordBufferSize < ctLen then none
      else
        match aeadOf suite with
        | none => none
        | some aead =>
          (crypto.aeadDecrypt aead key (constructNonce iv seq) (record.take 5)
            ((record.drop 5).take ctLen) (record.drop (5 + ctLen))).bind innerContent

inductive TlsError
  | none | unsupportedCipher | invalidCertificateChain | hostnameMismatch | handshakeTimeout
  | unsupportedProtocol | noEntropy | notImplemented | recordOverflow | decryptFailed
  | badFinished | ioFailure | peerClosed
deriving DecidableEq

inductive TlsState
  | idle | clientHello | serverHello | encryptedExtensions | certificate | certificateVerify
  | finished | established | failed | closed
deriving DecidableEq

structure Session where
  state : TlsState := .idle
  error : TlsError := .none
  insecure : Bool
  serverName : List Byte
  cipherSuite : BitVec 16 := 0
  clientPrivateKey : List Byte := []
  clientPublicKey : List Byte := []
  serverPublicKey : List Byte := []
  sharedSecret : List Byte := []
  transcript : List Byte := []
  clientHandshakeKey : List Byte := []
  clientHandshakeIv : List Byte := []
  serverHandshakeKey : List Byte := []
  serverHandshakeIv : List Byte := []
  clientHandshakeTrafficSecret : List Byte := []
  serverHandshakeTrafficSecret : List Byte := []
  clientAppKey : List Byte := []
  clientAppIv : List Byte := []
  serverAppKey : List Byte := []
  serverAppIv : List Byte := []
  masterSecret : List Byte := []
  clientAppTrafficSecret : List Byte := []
  serverAppTrafficSecret : List Byte := []
  clientRecordSeq : BitVec 64 := 0
  serverRecordSeq : BitVec 64 := 0
  peerCerts : ℕ → Certificate := fun _ => {}
  peerCount : ℕ := 0

def netTlsSessionInitialize (serverName : List Byte) (insecure : Bool) : Session :=
  { insecure, serverName := (cString serverName).take 127 }

def zeroSalt : List Byte := List.replicate 32 0

def earlySecret (crypto : Crypto) : List Byte := crypto.hkdfExtractSha256 zeroSalt zeroSalt

def handshakeSecret (crypto : Crypto) (s : Session) : List Byte :=
  let derived := crypto.hkdfExpandLabelSha256 (earlySecret crypto) "derived" (crypto.sha256 []) 32
  crypto.hkdfExtractSha256 derived s.sharedSecret

def keyLength (s : Session) : ℕ := if s.cipherSuite = tlsAes128GcmSha256 then 16 else 32

def deriveHandshakeSecrets (crypto : Crypto) (s : Session) : Session :=
  let secret := handshakeSecret crypto s
  let thash := crypto.sha256 s.transcript
  let client := crypto.hkdfExpandLabelSha256 secret "c hs traffic" thash 32
  let server := crypto.hkdfExpandLabelSha256 secret "s hs traffic" thash 32
  { s with
    clientHandshakeTrafficSecret := client
    serverHandshakeTrafficSecret := server
    clientHandshakeKey := crypto.hkdfExpandLabelSha256 client "key" [] (keyLength s)
    clientHandshakeIv := crypto.hkdfExpandLabelSha256 client "iv" [] 12
    serverHandshakeKey := crypto.hkdfExpandLabelSha256 server "key" [] (keyLength s)
    serverHandshakeIv := crypto.hkdfExpandLabelSha256 server "iv" [] 12 }

def deriveApplicationSecrets (crypto : Crypto) (s : Session) : Session :=
  let derived := crypto.hkdfExpandLabelSha256 (handshakeSecret crypto s) "derived"
    (crypto.sha256 []) 32
  let master := crypto.hkdfExtractSha256 derived zeroSalt
  let thash := crypto.sha256 s.transcript
  let client := crypto.hkdfExpandLabelSha256 master "c ap traffic" thash 32
  let server := crypto.hkdfExpandLabelSha256 master "s ap traffic" thash 32
  { s with
    masterSecret := master
    clientAppTrafficSecret := client
    serverAppTrafficSecret := server
    clientAppKey := crypto.hkdfExpandLabelSha256 client "key" [] (keyLength s)
    clientAppIv := crypto.hkdfExpandLabelSha256 client "iv" [] 12
    serverAppKey := crypto.hkdfExpandLabelSha256 server "key" [] (keyLength s)
    serverAppIv := crypto.hkdfExpandLabelSha256 server "iv" [] 12 }

/-- What the kernel's entropy source gives for one handshake. -/
structure Entropy where
  clientRandom : List Byte
  privateKey : List Byte
  sessionId : List Byte

def serverNameExtension (name : List Byte) : List Byte :=
  if name.length = 0 then []
  else [0x00, 0x00] ++ u16Bytes (name.length + 5) ++ u16Bytes (name.length + 3) ++ [0x00] ++
    u16Bytes name.length ++ name

def clientExtensions (s : Session) : List Byte :=
  serverNameExtension s.serverName ++
    [0x00, 0x2B, 0x00, 0x03, 0x02, 0x03, 0x04] ++
    [0x00, 0x0A, 0x00, 0x06, 0x00, 0x04, 0x00, 0x1D, 0x00, 0x17] ++
    [0x00, 0x0D, 0x00, 0x08, 0x00, 0x06, 0x08, 0x04, 0x04, 0x03, 0x04, 0x01] ++
    [0x00, 0x33, 0x00, 0x26, 0x00, 0x24, 0x00, 0x1D, 0x00, 0x20] ++ s.clientPublicKey

/-- The message with its header. Its buffer of 1024 bytes is large enough, so the length test
of the function is not met. -/
def buildClientHello (s : Session) (entropy : Entropy) : List Byte :=
  let extensions := clientExtensions s
  let body := [0x03, 0x03] ++ entropy.clientRandom ++ [32] ++ entropy.sessionId ++
    [0x00, 0x06, 0x13, 0x01, 0x13, 0x03, 0x13, 0x02] ++ [0x01, 0x00] ++
    u16Bytes extensions.length ++ extensions
  [hsClientHello, BitVec.ofNat 8 (body.length / 65536)] ++ u16Bytes body.length ++ body

end KosKernel.Tls
