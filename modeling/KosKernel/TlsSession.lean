import KosKernel.TlsHandshake

/-! Sending, receiving and closing on an established session. -/
namespace KosKernel.Tls
open ByteMemory X509

section
variable (crypto : Crypto)

def Link.established (l : Link) : Bool := l.session.state = .established

/-- Encrypts a record under the application key; the sequence number counts also when that
fails. -/
def sealNext (innerType : Byte) (plaintext : List Byte) (l : Link) : Option (List Byte) × Link :=
  let s := l.session
  (encryptRecord crypto s.cipherSuite s.clientAppKey s.clientAppIv s.clientRecordSeq innerType
      plaintext,
    { l with
      session := { s with clientRecordSeq := s.clientRecordSeq + 1 }
      log := l.log ++ [.encrypted .application (constructNonce s.clientAppIv s.clientRecordSeq)] })

def socketWriteExact (bytes : List Byte) (l : Link) : Bool × Link :=
  (l.accepts.headD false, { l with accepts := l.accepts.tail, log := l.log ++ [.sent bytes] })

def sendRecord (innerType : Byte) (plaintext : List Byte) (l : Link) : Bool × Link :=
  match sealNext crypto innerType plaintext l with
  | (none, l) => (false, l)
  | (some record, l) => socketWriteExact record l

def chunkSize : ℕ := 1400

/-- The chunks of the data, one record each, until a record fails. -/
def sendLoop : ℕ → List Byte → Link → Bool × Link
  | 0, _, l => (true, l)
  | turns + 1, data, l =>
    if 0 < data.length then
      match sendRecord crypto recordApplicationData (data.take chunkSize) l with
      | (false, l) => (false, l)
      | (true, l) => sendLoop turns (data.drop chunkSize) l
    else (true, l)

def netTlsSend (data : List Byte) (l : Link) : ℤ × Link :=
  if l.established = false then (-1, l)
  else
    match sendLoop crypto data.length data l with
    | (false, l) => (-1, l)
    | (true, l) => (Int.bmod data.length (2 ^ 32), l)

/-- A record has been read into `enc_rec` and given to `decrypt_record`. -/
def Link.received (l : Link) (hdr bytes : List Byte) (rest : List (Option Byte)) : Link :=
  { l with
    incoming := rest
    session := { l.session with serverRecordSeq := l.session.serverRecordSeq + 1 }
    log := l.log ++ [.access .encRec 0 5, .access .encRec 5 bytes.length,
      .access .encRec 0 (hdr ++ bytes).length,
      .decrypted .application
        (constructNonce l.session.serverAppIv l.session.serverRecordSeq)] }

/-- The caller gets the beginning of the plaintext, and nothing of an alert, which closes the
session. -/
def deliver (capacity : ℕ) (l : Link) : Option (List Byte × Byte) → Option (List Byte) × Link
  | none => (none, l)
  | some (plaintext, innerType) =>
    let l := l.note [.access .decBuf 0 plaintext.length]
    if innerType = recordAlert then
      (some [], { l with session := { l.session with state := .closed } })
    else (some (plaintext.take capacity), l)

/-- `none` is the return value -1, otherwise the bytes copied to the caller. -/
def netTlsRecv (capacity : ℕ) (l : Link) : Option (List Byte) × Link :=
  if l.established = false ∨ capacity = 0 then (none, l)
  else
    match socketReadExact 5 l.incoming with
    | (false, _, rest) => (some [], { l with incoming := rest })
    | (true, hdr, rest) =>
      match socketReadExact (u16 hdr 3) rest with
      | (false, bytes, rest) =>
        (none, { l with incoming := rest }.note
          [.access .encRec 0 5, .access .encRec 5 bytes.length])
      | (true, bytes, rest) =>
        deliver capacity (l.received hdr bytes rest)
          (decryptRecord crypto l.session.cipherSuite l.session.serverAppKey
            l.session.serverAppIv l.session.serverRecordSeq (hdr ++ bytes))

def netTlsClose (l : Link) : Link :=
  if l.established = false then l
  else
    let l := (sendRecord crypto recordAlert [0x01, 0x00] l).2
    { l with session := { l.session with state := .closed } }

inductive SessionCall
  | send (data : List Byte)
  | recv (capacity : ℕ)
  | close

def Link.call (l : Link) : SessionCall → Link
  | .send data => (netTlsSend crypto data l).2
  | .recv capacity => (netTlsRecv crypto capacity l).2
  | .close => netTlsClose crypto l

end

def newLink (serverName : List Byte) (insecure : Bool) (incoming : List (Option Byte))
    (accepts : List Bool) (hsBuf memory : Memory) : Link :=
  { session := netTlsSessionInitialize serverName insecure, incoming, accepts, hsBuf, memory }

/-- Cryptography that hides nothing: empty digests and keys, and ciphertexts that are their
plaintexts. -/
def plainCrypto : Crypto where
  toPrimitives := refusing
  selfTest := true
  hmacSha256 := fun _ _ => []
  hkdfExtractSha256 := fun _ _ => []
  hkdfExpandLabelSha256 := fun _ _ _ _ => []
  x25519 := fun _ _ => []
  x25519Base := fun _ => []
  aeadEncrypt := fun _ _ _ _ plaintext => some (plaintext, List.replicate 16 0)
  aeadDecrypt := fun _ _ _ _ ciphertext _ => some ciphertext

def noEntropy : Entropy := ⟨[], [], []⟩

/-- A ServerHello with AES-128-GCM and one X25519 share, in its record. -/
def plainServerHello : List Byte :=
  [recordHandshake, 0x03, 0x03, 0, 84, hsServerHello, 0, 0, 80, 0x03, 0x03] ++
    List.replicate 32 0 ++ [0, 0x13, 0x01, 0, 0, 40, 0, 0x33, 0, 36, 0, 0x1D, 0, 0x20] ++
    List.replicate 32 0

def plainRecord (innerType : Byte) (content : List Byte) : List Byte :=
  recordHeader (content.length + 1) ++ content ++ [innerType] ++ List.replicate 16 0

def plainFinished : List Byte := [hsFinished, 0, 0, 32] ++ List.replicate 32 0

/-- The session with a peer that sends its ServerHello, these records and nothing else. -/
def plainLink (insecure : Bool) (records : List (List Byte)) : Link :=
  newLink [0x61] insecure ((plainServerHello ++ records.flatten).map some)
    (List.replicate 8 true) (fun _ => 0) fun _ => 0

def plainHandshake (insecure : Bool) (records : List (List Byte)) : Option (TlsError × Link) :=
  netTlsClientHandshake plainCrypto noEntropy 4 0 (plainLink insecure records)

def plainSession (insecure : Bool) (records : List (List Byte)) : Link :=
  match plainHandshake insecure records with
  | some (_, l) => l
  | none => plainLink insecure records

lemma plainHandshake_eq {insecure : Bool} {records : List (List Byte)} {error : TlsError}
    (h : (plainHandshake insecure records).map Prod.fst = some error) :
    plainHandshake insecure records = some (error, plainSession insecure records) := by
  unfold plainSession
  generalize plainHandshake insecure records = result at h ⊢
  cases result with
  | none => cases h
  | some pair =>
    cases h
    rfl

end KosKernel.Tls
