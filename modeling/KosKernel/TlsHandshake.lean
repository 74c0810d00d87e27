import KosKernel.TlsState

/-! The client handshake, step by step. What it reads from the peer is a list of bytes with
pauses longer than the timeout in between; what it does to its buffers and what it checks is
recorded in a log. -/
namespace KosKernel.Tls
open ByteMemory X509 Programs

inductive Buffer
  | hsBuf | ccsBuf | encryptedRec | decryptedBuf | encRec | decBuf
deriving DecidableEq

def Buffer.size : Buffer → ℕ
  | .hsBuf => 1024
  | .ccsBuf => 16
  | .encryptedRec => 4096
  | .decryptedBuf => 4096
  | .encRec => 4096
  | .decBuf => 4096

inductive KeyKind
  | handshake | application
deriving DecidableEq

/-- A check on the peer's identity: its chain for a host, or a signature over the transcript
under the key of its leaf. -/
inductive PeerCheck
  | chain (host : List Byte) (result : VerifyResult)
  | transcript (leaf : Certificate) (content signature : List Byte) (answer : Bool)

inductive Event
  /-- Indices `start` to `start + count` of a buffer are used. -/
  | access (buffer : Buffer) (start count : ℕ)
  | sent (bytes : List Byte)
  | message (type : Byte)
  | checked (check : PeerCheck)
  | encrypted (key : KeyKind) (nonce : List Byte)
  | decrypted (key : KeyKind) (nonce : List Byte)

/-- A session with its socket and the buffers of the handshake. `none` in `incoming` is a pause
longer than the timeout, `accepts` are the answers to the coming writes, and `memory` holds
`decrypted_buf`, into which parsed certificates keep pointing. -/
structure Link where
  session : Session
  incoming : List (Option Byte)
  accepts : List Bool
  hsBuf : Memory
  memory : Memory
  log : List Event := []

def Link.note (l : Link) (events : List Event) : Link := { l with log := l.log ++ events }

def decryptedBase : ℕ := 0x10000

abbrev Handshake := Program Link TlsError

def updateSession (f : Session → Session) : Handshake Unit :=
  Program.modify fun l => { l with session := f l.session }

def note (events : List Event) : Handshake Unit :=
  Program.modify fun l => { l with log := l.log ++ events }

def failWith {A : Type} (error : TlsError) : Handshake A := fun l =>
  .ended error { l with session := { l.session with state := .failed, error } }

/-- Success flag, the bytes stored and what is left. A read that meets a pause or the end fails
with what it has stored. -/
def socketReadExact : ℕ → List (Option Byte) → Bool × List Byte × List (Option Byte)
  | 0, incoming => (true, [], incoming)
  | _ + 1, [] => (false, [], [])
  | _ + 1, none :: incoming => (false, [], incoming)
  | n + 1, some b :: incoming =>
    let (ok, bytes, rest) := socketReadExact n incoming
    (ok, b :: bytes, rest)

def readExact (n : ℕ) : Handshake (Bool × List Byte) := fun l =>
  let (ok, bytes, rest) := socketReadExact n l.incoming
  .going (ok, bytes) { l with incoming := rest }

def writeExact (bytes : List Byte) : Handshake Bool := fun l =>
  .going (l.accepts.headD false) { l with accepts := l.accepts.tail, log := l.log ++ [.sent bytes] }

def storeBytes (m : Memory) (base : ℕ) (bytes : List Byte) : Memory := fun a =>
  if base ≤ a ∧ a < base + bytes.length then bytes.getD (a - base) 0 else m a

def u16At (m : Memory) (a : ℕ) : ℕ := (m a).toNat * 256 + (m (a + 1)).toNat

def u24At (m : Memory) (a : ℕ) : ℕ :=
  (m a).toNat * 65536 + (m (a + 1)).toNat * 256 + (m (a + 2)).toNat

variable (crypto : Crypto) (entropy : Entropy)

def sendClientHello : Handshake Unit := do
  updateSession fun s => { s with state := .clientHello, error := .none }
  if crypto.selfTest = false then failWith .unsupportedCipher
  else
    updateSession fun s => { s with
      clientPrivateKey := entropy.privateKey
      clientPublicKey := crypto.x25519Base entropy.privateKey }
    let l ← Program.read
    let hello := buildClientHello l.session entropy
    note [.access .hsBuf 0 hello.length]
    Program.modify fun l => { l with hsBuf := storeBytes l.hsBuf 0 hello }
    updateSession fun s => { s with transcript := s.transcript ++ hello }
    let ok ← writeExact ([recordHandshake, 0x03, 0x01] ++ u16Bytes hello.length ++ hello)
    if ok = false then failWith .ioFailure else pure ()

/-- The key share among the extensions from `off` on; the last one counts. Each turn advances
by at least four bytes. -/
def extensionLoop (buf : Memory) (extEnd : ℕ) : ℕ → ℕ → Option (List Byte) × List Event
  | 0, _ => (none, [])
  | fuel + 1, off =>
    if off + 4 ≤ extEnd then
      let eType := u16At buf off
      let eLen := u16At buf (off + 2)
      let body := off + 4
      let share := eType = 0x0033 ∧ 36 ≤ eLen
      let known := u16At buf body = groupX25519
      let (later, accesses) := extensionLoop buf extEnd fuel (body + eLen)
      (later.or (if share ∧ known then some (bytesAt buf (body + 4) 32) else none),
        .access .hsBuf off 4 ::
          ((if share then [.access .hsBuf body 2] else []) ++
            (if share ∧ known then [.access .hsBuf (body + 4) 32] else []) ++ accesses))
    else (none, [])

def suiteOffset (buf : Memory) : ℕ := 39 + (buf 38).toNat

def serverExtensions (buf : Memory) : Option (List Byte) × List Event :=
  let off := suiteOffset buf + 5
  let extEnd := off + u16At buf (suiteOffset buf + 3)
  extensionLoop buf extEnd extEnd off

/-- What the parsing of the ServerHello uses of its buffer before the extensions. -/
def serverHelloAccesses (buf : Memory) : List Event :=
  [.access .hsBuf 0 4, .access .hsBuf 0 (u24At buf 1 + 4), .access .hsBuf 38 1,
    .access .hsBuf (suiteOffset buf) 2, .access .hsBuf (suiteOffset buf + 3) 2]

/-- The server's key share, if there is one, gives the handshake secrets. -/
def agreeKeys : Option (List Byte) → Handshake Unit
  | none => failWith .unsupportedCipher
  | some share => do
    updateSession fun s => { s with
      serverPublicKey := share
      sharedSecret := crypto.x25519 s.clientPrivateKey share }
    updateSession (deriveHandshakeSecrets crypto)
    updateSession fun s => { s with serverRecordSeq := 0, clientRecordSeq := 0 }

def parseServerHello : Handshake Unit := do
  let l ← Program.read
  let buf := l.hsBuf
  if buf 0 ≠ hsServerHello then do
    note [.access .hsBuf 0 1]
    failWith .unsupportedProtocol
  else
    note (serverHelloAccesses buf ++ (serverExtensions buf).2)
    updateSession fun s => { s with
      transcript := s.transcript ++ bytesAt buf 0 (u24At buf 1 + 4)
      cipherSuite := BitVec.ofNat 16 (u16At buf (suiteOffset buf)) }
    agreeKeys crypto (serverExtensions buf).1

def readServerHello : Handshake Unit := do
  updateSession fun s => { s with state := .serverHello }
  let (ok, hdr) ← readExact 5
  if ok = false then failWith .handshakeTimeout
  else if 1024 < u16 hdr 3 then failWith .recordOverflow
  else do
    let (ok, bytes) ← readExact (u16 hdr 3)
    note [.access .hsBuf 0 bytes.length]
    Program.modify fun l => { l with hsBuf := storeBytes l.hsBuf 0 bytes }
    if ok = false then failWith .ioFailure else parseServerHello crypto

/-- The bytes of a message of the decrypted record go into the transcript. -/
def hashMessage (offset mLen : ℕ) : Handshake Unit := do
  note [.access .decryptedBuf offset (4 + mLen)]
  Program.modify fun l => { l with session := { l.session with
    transcript := l.session.transcript ++ bytesAt l.memory (decryptedBase + offset) (4 + mLen) } }

def Session.listed (s : Session) (cert : Certificate) : Session :=
  { s with peerCerts := Function.update s.peerCerts s.peerCount cert, peerCount := s.peerCount + 1 }

def keepCertificate : Except Failure Certificate → Handshake Unit
  | .ok cert => updateSession fun s => s.listed cert
  | .error (.refused cert) => updateSession fun s => s.listed cert
  | .error .running => Program.unfinished

def storeCertificate (fuel cOff certLen : ℕ) : Handshake Unit := do
  let l ← Program.read
  keepCertificate (x509ParseCertificate fuel l.memory (decryptedBase + cOff) certLen
    (l.session.peerCerts l.session.peerCount))

/-- The loop over the certificate list, for at most as many certificates as there is room. -/
def certificateLoop (fuel listEnd : ℕ) : ℕ → ℕ → Handshake Unit
  | 0, _ => pure ()
  | room + 1, cOff => do
    if cOff + 3 < listEnd then
      let l ← Program.read
      let certLen := u24At l.memory (decryptedBase + cOff)
      let behind := cOff + 3 + certLen
      note [.access .decryptedBuf cOff 3, .access .decryptedBuf (cOff + 3) certLen]
      storeCertificate fuel (cOff + 3) certLen
      note [.access .decryptedBuf behind 2]
      certificateLoop fuel listEnd room (behind + 2 + u16At l.memory (decryptedBase + behind))
    else pure ()

def handleCertificate (fuel offset : ℕ) : Handshake Unit := do
  let l ← Program.read
  let listOff := offset + 5 + (l.memory (decryptedBase + offset + 4)).toNat
  let listEnd := listOff + 3 + u24At l.memory (decryptedBase + listOff)
  note [.access .decryptedBuf (offset + 4) 1, .access .decryptedBuf listOff 3]
  updateSession fun s => { s with peerCount := 0 }
  certificateLoop fuel listEnd maxChainDepth (listOff + 3)

def finishedMac (trafficSecret transcript : List Byte) : List Byte :=
  crypto.hmacSha256 (crypto.hkdfExpandLabelSha256 trafficSecret "finished" [] 32)
    (crypto.sha256 transcript)

/-- First byte at which the message differs from the expected code. -/
def macMismatch (m : Memory) (offset : ℕ) (expected : List Byte) : Option ℕ :=
  (List.range 32).find? fun i => m (decryptedBase + offset + 4 + i) ≠ expected.getD i 0

def handleFinished (offset mLen : ℕ) : Handshake Unit := do
  updateSession fun s => { s with state := .finished }
  let l ← Program.read
  match macMismatch l.memory offset
      (finishedMac crypto l.session.serverHandshakeTrafficSecret l.session.transcript) with
  | some i => do
    note [.access .decryptedBuf (offset + 4) (i + 1)]
    failWith .badFinished
  | none => do
    note [.access .decryptedBuf (offset + 4) 32]
    hashMessage offset mLen

/-- One message of a record; the answer says whether the handshake is done. -/
def handleMessage (fuel offset : ℕ) (isDone : Bool) : Handshake Bool := do
  let l ← Program.read
  let mType := l.memory (decryptedBase + offset)
  let mLen := u24At l.memory (decryptedBase + offset + 1)
  note [.access .decryptedBuf offset 4, .message mType]
  if mType = hsEncryptedExtensions then do
    updateSession fun s => { s with state := .encryptedExtensions }
    hashMessage offset mLen
    pure isDone
  else if mType = hsCertificate then do
    updateSession fun s => { s with state := .certificate }
    hashMessage offset mLen
    handleCertificate fuel offset
    pure isDone
  else if mType = hsCertificateVerify then do
    updateSession fun s => { s with state := .certificateVerify }
    hashMessage offset mLen
    pure isDone
  else if mType = hsFinished then do
    handleFinished crypto offset mLen
    pure true
  else pure isDone

/-- The messages of a record from an offset on; each turn advances by at least four bytes. -/
def messageLoop (fuel ptLen : ℕ) : ℕ → ℕ → Bool → Handshake Bool
  | 0, _, isDone => pure isDone
  | turns + 1, offset, isDone => do
    if offset < ptLen then
      let l ← Program.read
      let mLen := u24At l.memory (decryptedBase + offset + 1)
      let isDone ← handleMessage crypto fuel offset isDone
      messageLoop fuel ptLen turns (offset + 4 + mLen) isDone
    else pure isDone

def storePlaintext : Option (List Byte × Byte) → Handshake ℕ
  | none => failWith .decryptFailed
  | some (plaintext, _) => do
    note [.access .decryptedBuf 0 plaintext.length]
    Program.modify fun l => { l with memory := storeBytes l.memory decryptedBase plaintext }
    pure plaintext.length

def openRecord (record : List Byte) : Handshake ℕ := do
  let l ← Program.read
  let s := l.session
  note [.access .encryptedRec 0 record.length,
    .decrypted .handshake (constructNonce s.serverHandshakeIv s.serverRecordSeq)]
  updateSession fun s => { s with serverRecordSeq := s.serverRecordSeq + 1 }
  storePlaintext (decryptRecord crypto s.cipherSuite s.serverHandshakeKey s.serverHandshakeIv
    s.serverRecordSeq record)

/-- One turn of the record loop; the answer says whether the handshake is done. -/
def recordTurn (fuel : ℕ) : Handshake Bool := do
  let (ok, hdr) ← readExact 5
  if ok = false then failWith .handshakeTimeout
  else if hdr.getD 0 0 = recordChangeCipherSpec then do
    let (_, bytes) ← readExact (u16 hdr 3)
    note [.access .ccsBuf 0 bytes.length]
    pure false
  else do
    let (ok, bytes) ← readExact (u16 hdr 3)
    note [.access .encryptedRec 0 5, .access .encryptedRec 5 bytes.length]
    if ok = false then failWith .ioFailure
    else do
      let ptLen ← openRecord crypto (hdr ++ bytes)
      messageLoop crypto fuel ptLen ptLen 0 false

def recordLoop (fuel : ℕ) : ℕ → Handshake Unit
  | 0 => Program.unfinished
  | turns + 1 => do
    let isDone ← recordTurn crypto fuel
    if isDone = true then pure () else recordLoop fuel turns

def peerChain (s : Session) : List Certificate := (List.range s.peerCount).map s.peerCerts

def verifyPeer (now : ℕ) : Handshake Unit := do
  let l ← Program.read
  let s := l.session
  if s.insecure = false ∧ 0 < s.peerCount then
    let host := cString s.serverName
    let result := x509VerifyChain crypto.toPrimitives l.memory (peerChain s) (some host) now
    note [.checked (.chain host result)]
    match result with
    | .ok => pure ()
    | .hostnameMismatch => failWith .hostnameMismatch
    | _ => failWith .invalidCertificateChain
  else pure ()

/-- The Finished record is sent and the counters start over with the application keys. -/
def transmitFinished : Option (List Byte) → Handshake Unit
  | none => failWith .decryptFailed
  | some record => do
    let ok ← writeExact record
    if ok = false then failWith .ioFailure
    else updateSession fun s => { s with
      clientRecordSeq := 0, serverRecordSeq := 0, state := .established, error := .none }

def sendFinished : Handshake Unit := do
  updateSession (deriveApplicationSecrets crypto)
  let l ← Program.read
  let s := l.session
  let finished := [hsFinished, 0x00, 0x00, 32] ++
    finishedMac crypto s.clientHandshakeTrafficSecret s.transcript
  note [.encrypted .handshake (constructNonce s.clientHandshakeIv s.clientRecordSeq)]
  updateSession fun s => { s with clientRecordSeq := s.clientRecordSeq + 1 }
  transmitFinished (encryptRecord crypto s.cipherSuite s.clientHandshakeKey s.clientHandshakeIv
    s.clientRecordSeq recordHandshake finished)

/-- The fuel bounds the loops of the certificate parser; the number of bytes that come in
bounds the turns of the record loop. -/
def clientHandshake (fuel now : ℕ) : Handshake Unit := do
  sendClientHello crypto entropy
  readServerHello crypto
  let l ← Program.read
  recordLoop crypto fuel (l.incoming.length + 1)
  verifyPeer crypto now
  sendFinished crypto

/-- The value returned and the session left behind, if the handshake returns. -/
def netTlsClientHandshake (fuel now : ℕ) (l : Link) : Option (TlsError × Link) :=
  match clientHandshake crypto entropy fuel now l with
  | .running => none
  | .ended error l => some (error, l)
  | .going () l => some (.none, l)

/-- After the call of `decrypt_record`, before its answer is looked at. -/
def Link.opened (l : Link) (record : List Byte) : Link :=
  { l with
    session := { l.session with serverRecordSeq := l.session.serverRecordSeq + 1 }
    log := l.log ++ [.access .encryptedRec 0 record.length, .decrypted .handshake
      (constructNonce l.session.serverHandshakeIv l.session.serverRecordSeq)] }

lemma openRecord_eq (record : List Byte) (l : Link) :
    openRecord crypto record l = storePlaintext (decryptRecord crypto l.session.cipherSuite
      l.session.serverHandshakeKey l.session.serverHandshakeIv l.session.serverRecordSeq record)
      (l.opened record) := rfl

end KosKernel.Tls
