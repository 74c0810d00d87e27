import KosKernel.Asn1Elements

/-! Certificates: the record `x509_parse_certificate` fills in and the parser itself. The
loops of the parser step by `header_length + length` modulo 2^32, which may be zero, so they
take fuel. -/
namespace KosKernel.X509
open ByteMemory

def parse2digits (m : Memory) (p : ℕ) : ℕ :=
  ((((m p).toNat : ℤ) - 48) * 10 + ((m (p + 1)).toNat - 48) : ℤ) % 2 ^ 32 |>.toNat

def isLeapYear (year : ℕ) : Bool := (year % 4 = 0 ∧ year % 100 ≠ 0) ∨ year % 400 = 0

def daysBeforeMonth : List ℕ := [0, 31, 59, 90, 120, 151, 181, 212, 243, 273, 304, 334]

/-- Days of the years from 1970 on, the loop over `y`. -/
def daysBeforeYear (year : ℕ) : ℕ :=
  ((List.range (year - 1970)).map fun y => if isLeapYear (1970 + y) then 366 else 365).sum

def calendarToEpochSeconds (year month day hour min sec : ℕ) : ℕ :=
  if year < 1970 ∨ month < 1 ∨ 12 < month ∨ day < 1 ∨ 31 < day then 0
  else
    let days := daysBeforeYear year + daysBeforeMonth.getD (month - 1) 0 +
      (if 2 < month ∧ isLeapYear year then 1 else 0) + (day - 1)
    days * 86400 + hour * 3600 + min * 60 + sec

/-- The optional seconds: read when the buffer is long enough and they start with a digit. -/
def secondsAt (m : Memory) (p : ℕ) (present : Bool) : ℕ :=
  if present ∧ 0x30 ≤ (m p).toNat ∧ (m p).toNat ≤ 0x39 then parse2digits m p else 0

def asn1ParseTime (m : Memory) (buffer bufferSize : ℕ) (tag : Byte) : Option ℕ :=
  if buffer = 0 then none
  else if tag = tagUtcTime then
    if bufferSize < 11 then none
    else
      let yy := parse2digits m buffer
      let year := if 50 ≤ yy then (1900 + yy) % 2 ^ 32 else 2000 + yy
      some (calendarToEpochSeconds year (parse2digits m (buffer + 2)) (parse2digits m (buffer + 4))
        (parse2digits m (buffer + 6)) (parse2digits m (buffer + 8))
        (secondsAt m (buffer + 10) (13 ≤ bufferSize)))
  else if tag = tagGeneralizedTime then
    if bufferSize < 13 then none
    else
      let year := (parse2digits m buffer * 100 + parse2digits m (buffer + 2)) % 2 ^ 32
      some (calendarToEpochSeconds year (parse2digits m (buffer + 4)) (parse2digits m (buffer + 6))
        (parse2digits m (buffer + 8)) (parse2digits m (buffer + 10))
        (secondsAt m (buffer + 12) (15 ≤ bufferSize)))
  else none

inductive PubkeyType
  | unknown | rsa | ecdsaP256
deriving DecidableEq

inductive SigAlgo
  | unknown | rsaSha256 | rsaPssSha256 | ecdsaSha256
deriving DecidableEq

def maxSanNames : ℕ := 16
def maxNameLen : ℕ := 128
def maxChainDepth : ℕ := 8

/-- The zeroed record of the parser. Character arrays are the bytes copied into them, `san_count`
is the number of names. -/
structure Certificate where
  rawDer : ℕ := 0
  rawLen : ℕ := 0
  tbsDer : ℕ := 0
  tbsLen : ℕ := 0
  version : ℕ := 0
  serial : ℕ := 0
  serialLen : ℕ := 0
  signatureAlgo : SigAlgo := .unknown
  issuerCn : List Byte := []
  issuerOrg : List Byte := []
  issuerRaw : ℕ := 0
  issuerRawLen : ℕ := 0
  subjectCn : List Byte := []
  subjectOrg : List Byte := []
  subjectRaw : ℕ := 0
  subjectRawLen : ℕ := 0
  notBefore : ℕ := 0
  notAfter : ℕ := 0
  pubkeyType : PubkeyType := .unknown
  rsaModulus : ℕ := 0
  rsaModulusLen : ℕ := 0
  rsaExponent : ℕ := 0
  rsaExponentLen : ℕ := 0
  ecPubkeyX : List Byte := List.replicate 32 0
  ecPubkeyY : List Byte := List.replicate 32 0
  isCa : Bool := false
  sanDnsNames : List (List Byte) := []
  signature : ℕ := 0
  signatureLen : ℕ := 0
deriving DecidableEq

/-- Why a parse yields no certificate: the function returns false and leaves the record as it
is, or a loop is still running when the fuel is used up. -/
inductive Failure
  | refused (left : Certificate)
  | running
deriving DecidableEq

lemma bind_eq_ok {α β : Type} {x : Except Failure α} {f : α → Except Failure β} {b : β} :
    x >>= f = .ok b ↔ ∃ a, x = .ok a ∧ f a = .ok b := by
  cases x with
  | error e => simp [bind, Except.bind]
  | ok a => simp [bind, Except.bind]

def orRefuse {α : Type} (cert : Certificate) : Option α → Except Failure α
  | some a => .ok a
  | none => .error (.refused cert)

lemma orRefuse_eq_ok {α : Type} {cert : Certificate} {x : Option α} {a : α} :
    orRefuse cert x = .ok a ↔ x = some a := by
  cases x <;> simp [orRefuse]

/-- A loop `while (offset < length)` over the elements of a container. The body says how the
state changes and whether the loop breaks off. -/
def elementLoop {σ : Type} (m : Memory) (container : Asn1Element)
    (body : Asn1Element → σ → Except Failure (σ × Bool)) : ℕ → ℕ → σ → Except Failure σ
  | 0, _, _ => .error .running
  | fuel + 1, offset, s =>
    if offset < container.length then
      match elementAt m container offset with
      | none => .ok s
      | some elem => do
        let (s', stop) ← body elem s
        if stop then .ok s'
        else elementLoop m container body fuel (offset + elem.extent) s'
    else .ok s

/-- Common and organisation name of a distinguished name. -/
structure Names where
  cn : List Byte := []
  org : List Byte := []
deriving DecidableEq

def copyString (m : Memory) (elem : Asn1Element) : List Byte :=
  bytesAt m elem.data (min elem.length (maxNameLen - 1))

def emptyString (s : List Byte) : Bool := s.headD 0 = 0

def nameAttribute (m : Memory) (attr : Asn1Element) (names : Names) : Names :=
  if attr.tag ≠ tagSequence then names
  else
    match asn1GetOid m attr.data attr.length with
    | none => names
    | some oid =>
      let oidTotalLen := (2 + oid.length) % 2 ^ 32
      if oidTotalLen < attr.length then
        match elementAt m attr oidTotalLen with
        | none => names
        | some val =>
          if asn1MatchOid m oid oidCommonName then
            if emptyString names.cn then { names with cn := copyString m val } else names
          else if asn1MatchOid m oid oidOrganization then
            if emptyString names.org then { names with org := copyString m val } else names
          else names
      else names

def parseNameSequence (fuel : ℕ) (m : Memory) (name : Asn1Element) : Except Failure Names :=
  elementLoop m name (fun set names =>
    if set.tag ≠ tagSet then .ok (names, false)
    else do
      let names ← elementLoop m set (fun attr names => .ok (nameAttribute m attr names, false))
        fuel 0 names
      .ok (names, false)) fuel 0 {}

/-- The loop over the alternative names also ends when sixteen are recorded. -/
def parseSanExtension (fuel : ℕ) (m : Memory) (ext : Asn1Element) (cert : Certificate) :
    Except Failure Certificate :=
  match asn1GetSequence m ext.data ext.length with
  | none => .ok cert
  | some seq =>
    elementLoop m seq (fun name cert =>
      if maxSanNames ≤ cert.sanDnsNames.length then .ok (cert, true)
      else if name.tag = 0x82 then
        .ok ({ cert with sanDnsNames := cert.sanDnsNames ++ [copyString m name] }, false)
      else .ok (cert, false)) fuel 0 cert

def parseBasicConstraints (m : Memory) (ext : Asn1Element) (cert : Certificate) : Certificate :=
  match asn1GetSequence m ext.data ext.length with
  | none => cert
  | some bc =>
    if 0 < bc.length ∧ m bc.data = tagBoolean ∧ m (bc.data + 1) = 1 then
      { cert with isCa := m (bc.data + 2) ≠ 0 }
    else cert

/-- The payload of one extension: its first OCTET STRING after the identifier. -/
def parseExtension (fuel : ℕ) (m : Memory) (item oid : Asn1Element) (cert : Certificate) :
    Except Failure Certificate :=
  elementLoop m item (fun sub cert =>
    if sub.tag ≠ tagOctetString then .ok (cert, false)
    else if asn1MatchOid m oid oidSubjectAltName then do
      let cert ← parseSanExtension fuel m sub cert
      .ok (cert, true)
    else if asn1MatchOid m oid oidBasicConstraints then
      .ok (parseBasicConstraints m sub cert, true)
    else .ok (cert, true)) fuel ((2 + oid.length) % 2 ^ 32) cert

def parseExtensions (fuel : ℕ) (m : Memory) (exts : Asn1Element) (cert : Certificate) :
    Except Failure Certificate :=
  match asn1GetSequence m exts.data exts.length with
  | none => .ok cert
  | some seq =>
    elementLoop m seq (fun item cert =>
      if item.tag ≠ tagSequence then .ok (cert, false)
      else
        match asn1GetOid m item.data item.length with
        | none => .ok (cert, false)
        | some oid => do
          let cert ← parseExtension fuel m item oid cert
          .ok (cert, false)) fuel 0 cert

def signatureAlgoOf (m : Memory) (algorithm : Asn1Element) : SigAlgo :=
  match asn1GetOid m algorithm.data algorithm.length with
  | none => .unknown
  | some oid =>
    if asn1MatchOid m oid oidSha256WithRsa then .rsaSha256
    else if asn1MatchOid m oid oidRsaPss then .rsaPssSha256
    else if asn1MatchOid m oid oidEcdsaWithSha256 then .ecdsaSha256
    else .unknown

def pubkeyTypeOf (m : Memory) (algorithm : Asn1Element) : PubkeyType :=
  match asn1GetOid m algorithm.data algorithm.length with
  | none => .unknown
  | some oid =>
    if asn1MatchOid m oid oidRsaEncryption then .rsa
    else if asn1MatchOid m oid oidEcPublicKey then .ecdsaP256
    else .unknown

/-- Both times of the validity; a time that is missing or does not parse leaves its zero. -/
def parseValidity (m : Memory) (validity : Asn1Element) (cert : Certificate) : Certificate :=
  let first := elementAt m validity 0
  let offset := (first.map Asn1Element.extent).getD 0
  let second := if offset < validity.length then elementAt m validity offset else none
  { cert with
    notBefore := (first.bind fun t => asn1ParseTime m t.data t.length t.tag).getD cert.notBefore
    notAfter := (second.bind fun t => asn1ParseTime m t.data t.length t.tag).getD cert.notAfter }

def parseRsaKey (m : Memory) (keyBytes keyLen : ℕ) (cert : Certificate) : Certificate :=
  match asn1GetSequence m keyBytes keyLen with
  | none => cert
  | some rsa =>
    let modulus := (elementAt m rsa 0).filter fun elem => elem.tag = tagInteger
    let strip := modulus.any fun elem => 0 < elem.length ∧ m elem.data = 0
    let cert := match modulus with
      | none => cert
      | some elem => { cert with
          rsaModulus := elem.data + if strip then 1 else 0
          rsaModulusLen := elem.length - if strip then 1 else 0 }
    let offset := (modulus.map Asn1Element.extent).getD 0
    let exponent := if offset < rsa.length then
        (elementAt m rsa offset).filter fun elem => elem.tag = tagInteger
      else none
    match exponent with
    | none => cert
    | some elem => { cert with rsaExponent := elem.data, rsaExponentLen := elem.length }

def parseEcKey (m : Memory) (keyBytes keyLen : ℕ) (cert : Certificate) : Certificate :=
  if 65 ≤ keyLen ∧ m keyBytes = 0x04 then
    { cert with
      ecPubkeyX := bytesAt m (keyBytes + 1) 32
      ecPubkeyY := bytesAt m (keyBytes + 33) 32 }
  else cert

def parsePublicKey (m : Memory) (spki : Asn1Element) (cert : Certificate) : Certificate :=
  let algorithm := (elementAt m spki 0).filter fun elem => elem.tag = tagSequence
  let offset := (algorithm.map Asn1Element.extent).getD 0
  let cert := { cert with pubkeyType := (algorithm.map (pubkeyTypeOf m)).getD .unknown }
  let bits := if offset < spki.length then
      (elementAt m spki offset).filter fun elem => elem.tag = tagBitString
    else none
  match bits with
  | none => cert
  | some bits =>
    let keyLen := (bits.length + 2 ^ 32 - 1) % 2 ^ 32
    match cert.pubkeyType with
    | .rsa => parseRsaKey m (bits.data + 1) keyLen cert
    | .ecdsaP256 => parseEcKey m (bits.data + 1) keyLen cert
    | .unknown => cert

/-- The element of the TBS certificate at an offset, which must carry the tag. -/
def tbsField (cert : Certificate) (m : Memory) (tbs : Asn1Element) (offset : ℕ) (tag : Byte) :
    Except Failure Asn1Element :=
  orRefuse cert ((elementAt m tbs offset).filter fun elem => elem.tag = tag)

/-- Version number and the offset of the serial number behind it. -/
def parseVersion (cert : Certificate) (m : Memory) (tbs : Asn1Element) :
    Except Failure (ℕ × ℕ) := do
  let elem ← orRefuse cert (elementAt m tbs 0)
  if elem.tag = tagContext0 then
    let version := if 0 < elem.length ∧ m elem.data = tagInteger ∧ m (elem.data + 1) = 1 then
      (m (elem.data + 2)).toNat + 1 else 0
    .ok (version, elem.extent)
  else .ok (1, 0)

/-- Signature value of the outer sequence, behind the TBS certificate and the algorithm. -/
def parseSignature (m : Memory) (root tbs : Asn1Element) (cert : Certificate) : Certificate :=
  let algorithm := if tbs.extent < root.length then elementAt m root tbs.extent else none
  let offset := tbs.extent + (algorithm.map Asn1Element.extent).getD 0
  let bits := if offset < root.length then
      (elementAt m root offset).filter fun elem => elem.tag = tagBitString ∧ 1 < elem.length
    else none
  match bits with
  | none => cert
  | some elem => { cert with signature := elem.data + 1, signatureLen := elem.length - 1 }

/-- Without bytes the record keeps what it held, otherwise it starts from zeros. -/
def x509ParseCertificate (fuel : ℕ) (m : Memory) (der derLen : ℕ) (held : Certificate) :
    Except Failure Certificate := do
  if der = 0 ∨ derLen = 0 then .error (.refused held)
  let cert : Certificate := { rawDer := der, rawLen := derLen }
  let root ← orRefuse cert (asn1GetSequence m der derLen)
  let tbs ← orRefuse cert (asn1GetSequence m root.data root.length)
  let cert := { cert with tbsDer := root.data, tbsLen := tbs.extent }
  let (version, serialOffset) ← parseVersion cert m tbs
  let cert := { cert with version }
  let serial ← tbsField cert m tbs serialOffset tagInteger
  let cert := { cert with serial := serial.data, serialLen := serial.length }
  let algorithmOffset := serialOffset + serial.extent
  let algorithm ← tbsField cert m tbs algorithmOffset tagSequence
  let cert := { cert with signatureAlgo := signatureAlgoOf m algorithm }
  let issuerOffset := algorithmOffset + algorithm.extent
  let issuer ← tbsField cert m tbs issuerOffset tagSequence
  let names ← parseNameSequence fuel m issuer
  let cert := { cert with
    issuerRaw := tbs.data + issuerOffset
    issuerRawLen := issuer.extent
    issuerCn := names.cn
    issuerOrg := names.org }
  let validityOffset := issuerOffset + issuer.extent
  let validity ← tbsField cert m tbs validityOffset tagSequence
  let cert := parseValidity m validity cert
  let subjectOffset := validityOffset + validity.extent
  let subject ← tbsField cert m tbs subjectOffset tagSequence
  let names ← parseNameSequence fuel m subject
  let cert := { cert with
    subjectRaw := tbs.data + subjectOffset
    subjectRawLen := subject.extent
    subjectCn := names.cn
    subjectOrg := names.org }
  let spkiOffset := subjectOffset + subject.extent
  let spki ← tbsField cert m tbs spkiOffset tagSequence
  let cert := parsePublicKey m spki cert
  let cert ← elementLoop m tbs (fun elem cert =>
    if elem.tag = tagContext3 then do
      let cert ← parseExtensions fuel m elem cert
      .ok (cert, false)
    else .ok (cert, false)) fuel (spkiOffset + spki.extent) cert
  .ok (parseSignature m root tbs cert)

end KosKernel.X509
