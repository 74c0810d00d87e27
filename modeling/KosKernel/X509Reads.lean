import KosKernel.FuelledRuns
import KosKernel.X509State

/-! The bytes the certificate parser looks at. -/
namespace KosKernel.X509
open ByteMemory FuelledRuns Traced

inductive Event
  | read (address count : ℕ)
  /-- A loop steps by nothing over an element that does not bring it nearer to its end. -/
  | standstill
deriving DecidableEq

abbrev Scan := Traced Event Failure

structure Region where
  data : ℕ
  size : ℕ
deriving DecidableEq

namespace Region

def drop (w : Region) (offset : ℕ) : Region := ⟨w.data + offset, w.size - offset⟩

def read (w : Region) (offset count : ℕ) : Event := .read (w.data + offset) count

@[simp] lemma drop_zero (w : Region) : w.drop 0 = w := rfl

lemma drop_drop (w : Region) (a b : ℕ) : (w.drop a).drop b = w.drop (a + b) := by
  simp only [drop, mk.injEq]
  omega

end Region

def Asn1Element.contents (e : Asn1Element) : Region := ⟨e.data, e.length⟩

/-- The key of a BIT STRING: what follows the count of unused bits. Of an empty string it has
the length 2^32 - 1. -/
def Asn1Element.key (e : Asn1Element) : Region := ⟨e.data + 1, (e.length + 2 ^ 32 - 1) % 2 ^ 32⟩

def partAt (m : Memory) (w : Region) : Option Asn1Element := asn1ParseElement m w.data w.size

def taggedPart (m : Memory) (w : Region) (tag : Byte) : Option Asn1Element :=
  (partAt m w).filter fun e => e.tag = tag

def oidPart (m : Memory) (w : Region) : Option Asn1Element :=
  (taggedPart m w tagObjectId).filter fun e => e.length ≠ 0

/-- What the code takes for the offset behind an identifier: its header may be longer. -/
def oidTotalLen (oid : Asn1Element) : ℕ := (2 + oid.length) % 2 ^ 32

/-- What `asn1_parse_element` reads of a buffer. -/
def elementReads (m : Memory) (w : Region) : List Event :=
  if w.data = 0 ∨ w.size < 2 then []
  else
    let lenByte := (m (w.data + 1)).toNat
    let numOctets := lenByte % 128
    w.read 0 1 :: w.read 1 1 ::
      if lenByte < 128 ∨ numOctets = 0 ∨ 4 < numOctets ∨ w.size < 2 + numOctets then []
      else w.read 2 1 :: if m (w.data + 2) = 0 then [] else [w.read 2 numOctets]

/-- Parses the element at the start of a region and goes on with it. -/
def visit (m : Memory) (w : Region) (next : Asn1Element → List Event) : List Event :=
  elementReads m w ++ ((partAt m w).map next).getD []

/-- The comparison with an identifier ends at the first difference. -/
def compareReads (m : Memory) (w : Region) : ℕ → List Byte → List Event
  | _, [] => []
  | i, b :: bs => w.read i 1 :: if m (w.data + i) = b then compareReads m w (i + 1) bs else []

def matchReads (m : Memory) (oid : Asn1Element) (expected : List Byte) : List Event :=
  if oid.length = expected.length then compareReads m oid.contents 0 expected else []

/-- The identifiers of a chain of `else if`, up to the one that matches. -/
def matchAnyReads (m : Memory) (oid : Asn1Element) : List (List Byte) → List Event
  | [] => []
  | expected :: rest => matchReads m oid expected ++
      if asn1MatchOid m oid expected then [] else matchAnyReads m oid rest

def copyReads (p : Asn1Element) : List Event :=
  [p.contents.read 0 (min p.length (maxNameLen - 1))]

/-- The three bytes of a short value, read one after the other as long as they match. -/
def shortValueReads (m : Memory) (w : Region) (tag : Byte) : List Event :=
  if 0 < w.size then
    w.read 0 1 :: if m w.data = tag then
      w.read 1 1 :: if m (w.data + 1) = 1 then [w.read 2 1] else []
    else []
  else []

def nameAttributeReads (m : Memory) (attr : Asn1Element) (names : Names) : List Event :=
  if attr.tag ≠ tagSequence then []
  else elementReads m attr.contents ++
    match oidPart m attr.contents with
    | none => []
    | some oid =>
      if oidTotalLen oid < attr.length then
        visit m (attr.contents.drop (oidTotalLen oid)) fun val =>
          matchAnyReads m oid [oidCommonName, oidOrganization] ++
          if asn1MatchOid m oid oidCommonName then
            if emptyString names.cn then copyReads val else []
          else if asn1MatchOid m oid oidOrganization then
            if emptyString names.org then copyReads val else []
          else []
      else []

def secondsReads (m : Memory) (w : Region) (offset : ℕ) (present : Bool) : List Event :=
  if present then
    w.read offset 1 ::
      if 0x30 ≤ (m (w.data + offset)).toNat ∧ (m (w.data + offset)).toNat ≤ 0x39 then
        [w.read offset 2] else []
  else []

def timeReads (m : Memory) (t : Asn1Element) : List Event :=
  let w := t.contents
  if w.data = 0 then []
  else if t.tag = tagUtcTime then
    if w.size < 11 then [] else w.read 0 10 :: secondsReads m w 10 (13 ≤ w.size)
  else if t.tag = tagGeneralizedTime then
    if w.size < 13 then [] else w.read 0 12 :: secondsReads m w 12 (15 ≤ w.size)
  else []

def stepOver (p : Option Asn1Element) : ℕ := (p.map fun p => p.extent).getD 0

def validityReads (m : Memory) (validity : Asn1Element) : List Event :=
  let w := validity.contents
  let offset := stepOver (partAt m w)
  visit m w (timeReads m) ++
    if offset < w.size then visit m (w.drop offset) (timeReads m) else []

def algorithmReads (m : Memory) (algorithm : Asn1Element) (known : List (List Byte)) : List Event :=
  elementReads m algorithm.contents ++
    match oidPart m algorithm.contents with
    | none => []
    | some oid => matchAnyReads m oid known

def rsaKeyReads (m : Memory) (key : Region) : List Event :=
  elementReads m key ++
    match taggedPart m key tagSequence with
    | none => []
    | some rsa =>
      let w := rsa.contents
      let offset := stepOver (taggedPart m w tagInteger)
      visit m w (fun p =>
        if p.tag = tagInteger ∧ 0 < p.length then [p.contents.read 0 1] else []) ++
      if offset < w.size then elementReads m (w.drop offset) else []

def ecKeyReads (m : Memory) (key : Region) : List Event :=
  if 65 ≤ key.size then
    key.read 0 1 :: if m key.data = 0x04 then [key.read 1 32, key.read 33 32] else []
  else []

def publicKeyReads (m : Memory) (spki : Asn1Element) : List Event :=
  let w := spki.contents
  let algorithm := taggedPart m w tagSequence
  let offset := stepOver algorithm
  visit m w (fun p => if p.tag = tagSequence then
      algorithmReads m p [oidRsaEncryption, oidEcPublicKey] else []) ++
    if offset < w.size then
      visit m (w.drop offset) fun bits =>
        if bits.tag ≠ tagBitString then []
        else match (algorithm.map fun p => pubkeyTypeOf m p).getD .unknown with
          | .rsa => rsaKeyReads m bits.key
          | .ecdsaP256 => ecKeyReads m bits.key
          | .unknown => []
    else []

def versionReads (m : Memory) (tbs : Asn1Element) : List Event :=
  visit m tbs.contents fun p =>
    if p.tag = tagContext0 then shortValueReads m p.contents tagInteger else []

def signatureReads (m : Memory) (root tbs : Asn1Element) : List Event :=
  let w := root.contents
  let first := tbs.extent
  let offset := first + if first < w.size then stepOver (partAt m (w.drop first)) else 0
  (if first < w.size then elementReads m (w.drop first) else []) ++
    if offset < w.size then elementReads m (w.drop offset) else []

/-- A loop over the elements of a region; `guard` is what its condition asks for besides the
offset, `idle` tells by the tag which elements the body leaves without effect on that. -/
def elementWalk {σ : Type} (m : Memory) (w : Region) (guard : σ → Bool) (idle : Byte → Bool) :
    Walk Event Asn1Element σ where
  fetch offset s :=
    if offset < w.size ∧ guard s then (elementReads m (w.drop offset), partAt m (w.drop offset))
    else ([], none)
  width p := p.extent
  idle p := idle p.tag

/-- Loops whose condition is about the offset alone and whose body never breaks off. -/
def scanAll {σ : Type} (m : Memory) (w : Region) (body : Asn1Element → σ → Scan σ) (fuel offset : ℕ)
    (s : σ) : Scan σ :=
  (elementWalk m w (fun _ => true) (fun _ => true)).loop .running .standstill
    (fun p s => do
      let s ← body p s
      pure (s, false)) fuel offset s

def scanNameSequence (fuel : ℕ) (m : Memory) (name : Asn1Element) : Scan Names :=
  scanAll m name.contents (fun set names =>
    if set.tag ≠ tagSet then pure names
    else scanAll m set.contents (fun attr names => do
      note (nameAttributeReads m attr names)
      pure (nameAttribute m attr names)) fuel 0 names) fuel 0 {}

def scanSanExtension (fuel : ℕ) (m : Memory) (ext : Asn1Element) (cert : Certificate) :
    Scan Certificate := do
  note (elementReads m ext.contents)
  match taggedPart m ext.contents tagSequence with
  | none => pure cert
  | some seq =>
    (elementWalk m seq.contents (fun cert : Certificate => cert.sanDnsNames.length < maxSanNames)
      (· ≠ 0x82)).loop .running .standstill (fun name cert =>
        if name.tag = 0x82 then do
          note (copyReads name)
          pure ({ cert with sanDnsNames := cert.sanDnsNames ++ [copyString m name] }, false)
        else pure (cert, false)) fuel 0 cert

def basicConstraintsReads (m : Memory) (ext : Asn1Element) : List Event :=
  visit m ext.contents fun bc =>
    if bc.tag = tagSequence then shortValueReads m bc.contents tagBoolean else []

def scanExtension (fuel : ℕ) (m : Memory) (item oid : Asn1Element) (cert : Certificate) :
    Scan Certificate :=
  (elementWalk m item.contents (fun _ => true) (· ≠ tagOctetString)).loop .running .standstill
    (fun sub cert =>
      if sub.tag ≠ tagOctetString then pure (cert, false)
      else do
        note (matchAnyReads m oid [oidSubjectAltName, oidBasicConstraints])
        if asn1MatchOid m oid oidSubjectAltName then do
          let cert ← scanSanExtension fuel m sub cert
          pure (cert, true)
        else if asn1MatchOid m oid oidBasicConstraints then do
          note (basicConstraintsReads m sub)
          pure (parseBasicConstraints m sub cert, true)
        else pure (cert, true)) fuel (oidTotalLen oid) cert

def scanExtensions (fuel : ℕ) (m : Memory) (exts : Asn1Element) (cert : Certificate) :
    Scan Certificate := do
  note (elementReads m exts.contents)
  match taggedPart m exts.contents tagSequence with
  | none => pure cert
  | some seq =>
    scanAll m seq.contents (fun item cert =>
      if item.tag ≠ tagSequence then pure cert
      else do
        note (elementReads m item.contents)
        match oidPart m item.contents with
        | none => pure cert
        | some oid => scanExtension fuel m item oid cert) fuel 0 cert

def scanTagged (cert : Certificate) (m : Memory) (w : Region) (tag : Byte) : Scan Asn1Element := do
  note (elementReads m w)
  silent (orRefuse cert (taggedPart m w tag))

/-- The parser with its reads, statement by statement `x509ParseCertificate`. -/
def scanCertificate (fuel : ℕ) (m : Memory) (der derLen : ℕ) (held : Certificate) :
    Scan Certificate :=
  if der = 0 ∨ derLen = 0 then silent (.error (.refused held))
  else do
    let cert : Certificate := { rawDer := der, rawLen := derLen }
    let root ← scanTagged cert m ⟨der, derLen⟩ tagSequence
    let tbs ← scanTagged cert m root.contents tagSequence
    let w := tbs.contents
    let cert := { cert with tbsDer := root.data, tbsLen := tbs.extent }
    note (versionReads m tbs)
    let (version, serialOffset) ← silent (parseVersion cert m tbs)
    let cert := { cert with version }
    let serial ← scanTagged cert m (w.drop serialOffset) tagInteger
    let cert := { cert with serial := serial.data, serialLen := serial.length }
    let algorithmOffset := serialOffset + serial.extent
    let algorithm ← scanTagged cert m (w.drop algorithmOffset) tagSequence
    note (algorithmReads m algorithm [oidSha256WithRsa, oidRsaPss, oidEcdsaWithSha256])
    let cert := { cert with signatureAlgo := signatureAlgoOf m algorithm }
    let issuerOffset := algorithmOffset + algorithm.extent
    let issuer ← scanTagged cert m (w.drop issuerOffset) tagSequence
    let names ← scanNameSequence fuel m issuer
    let cert := { cert with
      issuerRaw := tbs.data + issuerOffset
      issuerRawLen := issuer.extent
      issuerCn := names.cn
      issuerOrg := names.org }
    let validityOffset := issuerOffset + issuer.extent
    let validity ← scanTagged cert m (w.drop validityOffset) tagSequence
    note (validityReads m validity)
    let cert := parseValidity m validity cert
    let subjectOffset := validityOffset + validity.extent
    let subject ← scanTagged cert m (w.drop subjectOffset) tagSequence
    let names ← scanNameSequence fuel m subject
    let cert := { cert with
      subjectRaw := tbs.data + subjectOffset
      subjectRawLen := subject.extent
      subjectCn := names.cn
      subjectOrg := names.org }
    let spkiOffset := subjectOffset + subject.extent
    let spki ← scanTagged cert m (w.drop spkiOffset) tagSequence
    note (publicKeyReads m spki)
    let cert := parsePublicKey m spki cert
    let cert ← scanAll m w (fun p cert =>
      if p.tag = tagContext3 then scanExtensions fuel m p cert else pure cert)
      fuel (spkiOffset + spki.extent) cert
    note (signatureReads m root tbs)
    pure (parseSignature m root tbs cert)

end KosKernel.X509
