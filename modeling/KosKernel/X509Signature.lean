import KosKernel.X509State

/-! Signature of a certificate under its issuer's key. The primitives are parameters; the model
records each call of one with its arguments and its answer. -/
namespace KosKernel.X509
open ByteMemory

structure Primitives where
  sha256 : List Byte → List Byte
  rsaPkcs1VerifySha256 : (modulus exponent hash signature : List Byte) → Bool
  rsaPssVerifySha256 : (modulus exponent hash signature : List Byte) → Bool
  ecdsaP256Verify : (x y hash r s : List Byte) → Bool

inductive Call
  | rsaPkcs1 (modulus exponent hash signature : List Byte) (answer : Bool)
  | rsaPss (modulus exponent hash signature : List Byte) (answer : Bool)
  | ecdsaP256 (x y hash r s : List Byte) (answer : Bool)
deriving DecidableEq

inductive VerifyResult
  | ok | parseFailed | expired | notYetValid | signatureInvalid | untrustedRoot
  | hostnameMismatch | invalidChain
deriving DecidableEq

def Certificate.tbs (m : Memory) (c : Certificate) : List Byte := bytesAt m c.tbsDer c.tbsLen

def Certificate.modulus (m : Memory) (c : Certificate) : List Byte :=
  bytesAt m c.rsaModulus c.rsaModulusLen

def Certificate.exponent (m : Memory) (c : Certificate) : List Byte :=
  bytesAt m c.rsaExponent c.rsaExponentLen

def Certificate.signatureBytes (m : Memory) (c : Certificate) : List Byte :=
  bytesAt m c.signature c.signatureLen

def integerAt (m : Memory) (container : Asn1Element) (offset : ℕ) : Option Asn1Element :=
  (elementAt m container offset).filter fun elem => elem.tag = tagInteger

def leadingZero (m : Memory) (elem : Asn1Element) : ℕ :=
  if 0 < elem.length ∧ m elem.data = 0 then 1 else 0

/-- The octets of an integer behind its leading zero, right-aligned in 32 bytes. -/
def fixedInteger (m : Memory) (elem : Asn1Element) : List Byte :=
  List.replicate (32 - (elem.length - leadingZero m elem)) 0 ++
    bytesAt m (elem.data + leadingZero m elem) (elem.length - leadingZero m elem)

/-- The integers `r` and `s` of an ECDSA signature, when both are found. -/
def ecdsaIntegers (m : Memory) (cert : Certificate) : Option (Asn1Element × Asn1Element) :=
  match asn1GetSequence m cert.signature cert.signatureLen with
  | none => none
  | some sig =>
    let r := integerAt m sig 0
    let off := (r.map Asn1Element.extent).getD 0
    let s := if off < sig.length then integerAt m sig off else none
    match r, s with
    | some r, some s => if r.data ≠ 0 ∧ s.data ≠ 0 then some (r, s) else none
    | _, _ => none

def checkSignature (p : Primitives) (m : Memory) (cert issuer : Certificate) : List Call :=
  let hash := p.sha256 (cert.tbs m)
  match issuer.pubkeyType with
  | .rsa =>
    let modulus := issuer.modulus m
    let exponent := issuer.exponent m
    let signature := cert.signatureBytes m
    if cert.signatureAlgo = .rsaPssSha256 then
      [.rsaPss modulus exponent hash signature
        (p.rsaPssVerifySha256 modulus exponent hash signature)]
    else
      [.rsaPkcs1 modulus exponent hash signature
        (p.rsaPkcs1VerifySha256 modulus exponent hash signature)]
  | .ecdsaP256 =>
    match ecdsaIntegers m cert with
    | none => []
    | some (r, s) =>
      if r.length - leadingZero m r ≤ 32 ∧ s.length - leadingZero m s ≤ 32 then
        [.ecdsaP256 issuer.ecPubkeyX issuer.ecPubkeyY hash (fixedInteger m r) (fixedInteger m s)
          (p.ecdsaP256Verify issuer.ecPubkeyX issuer.ecPubkeyY hash (fixedInteger m r)
            (fixedInteger m s))]
      else []
  | .unknown => []

def Call.answer : Call → Bool
  | .rsaPkcs1 _ _ _ _ answer => answer
  | .rsaPss _ _ _ _ answer => answer
  | .ecdsaP256 _ _ _ _ _ answer => answer

/-- Result and the calls made on the way. The function returns an error as soon as a primitive
refuses and success when it reaches its end. -/
def x509VerifyCertSignature (p : Primitives) (m : Memory) (cert issuer : Certificate) :
    VerifyResult × List Call :=
  if cert.tbsDer = 0 ∨ cert.tbsLen = 0 ∨ cert.signature = 0 then (.signatureInvalid, [])
  else
    let calls := checkSignature p m cert issuer
    (if calls.all Call.answer then .ok else .signatureInvalid, calls)

def bigEndianValue (bytes : List Byte) : ℕ := bytes.foldl (fun n b => n * 256 + b.toNat) 0

def SignatureOf (m : Memory) (cert : Certificate) (r s : Asn1Element) : Prop :=
  ∃ sig, asn1GetSequence m cert.signature cert.signatureLen = some sig ∧
    integerAt m sig 0 = some r ∧ r.extent < sig.length ∧ integerAt m sig r.extent = some s

/-- A call that checks the issuer's signature on the hash of the certificate's TBS bytes. -/
def Call.Attests (p : Primitives) (m : Memory) (cert issuer : Certificate) : Call → Prop
  | .rsaPkcs1 modulus exponent hash signature answer =>
    issuer.pubkeyType = .rsa ∧ modulus = issuer.modulus m ∧ exponent = issuer.exponent m ∧
      hash = p.sha256 (cert.tbs m) ∧ signature = cert.signatureBytes m ∧
      answer = p.rsaPkcs1VerifySha256 modulus exponent hash signature ∧ answer = true
  | .rsaPss modulus exponent hash signature answer =>
    issuer.pubkeyType = .rsa ∧ modulus = issuer.modulus m ∧ exponent = issuer.exponent m ∧
      hash = p.sha256 (cert.tbs m) ∧ signature = cert.signatureBytes m ∧
      answer = p.rsaPssVerifySha256 modulus exponent hash signature ∧ answer = true
  | .ecdsaP256 x y hash r s answer =>
    issuer.pubkeyType = .ecdsaP256 ∧ x = issuer.ecPubkeyX ∧ y = issuer.ecPubkeyY ∧
      hash = p.sha256 (cert.tbs m) ∧
      (∃ er es, SignatureOf m cert er es ∧ r.length = 32 ∧ s.length = 32 ∧
        bigEndianValue r = bigEndianValue (er.bytes m) ∧
        bigEndianValue s = bigEndianValue (es.bytes m)) ∧
      answer = p.ecdsaP256Verify x y hash r s ∧ answer = true

/-- Keys and signatures for which there is a primitive to call: RSA keys, and P-256 keys with a
signature of two integers of at most 32 octets behind their leading zero. -/
def Checkable (m : Memory) (cert issuer : Certificate) : Prop :=
  issuer.pubkeyType = .rsa ∨ issuer.pubkeyType = .ecdsaP256 ∧ ∃ r s, SignatureOf m cert r s ∧
    r.length - leadingZero m r ≤ 32 ∧ s.length - leadingZero m s ≤ 32

lemma integerAt_data {m : Memory} {container elem : Asn1Element} {offset : ℕ}
    (h : integerAt m container offset = some elem) : elem.data ≠ 0 := by
  rw [integerAt, Option.filter_eq_some_iff] at h
  have hpos := asn1ParseElement_data_pos h.1
  omega

lemma ecdsaIntegers_eq_some {m : Memory} {cert : Certificate} {r s : Asn1Element} :
    ecdsaIntegers m cert = some (r, s) ↔ SignatureOf m cert r s := by
  unfold ecdsaIntegers SignatureOf
  cases hsig : asn1GetSequence m cert.signature cert.signatureLen with
  | none => simp
  | some sig =>
    simp only [Option.some.injEq, exists_eq_left']
    cases hr : integerAt m sig 0 with
    | none => simp
    | some r' =>
      simp only [Option.map_some, Option.getD_some, Option.some.injEq]
      by_cases hoff : r'.extent < sig.length
      · rw [if_pos hoff]
        cases hs : integerAt m sig r'.extent with
        | none =>
          simp only [reduceCtorEq, false_iff, not_and]
          rintro rfl _ hs'
          rw [hs] at hs'
          cases hs'
        | some s' =>
          have hnull : r'.data ≠ 0 ∧ s'.data ≠ 0 := ⟨integerAt_data hr, integerAt_data hs⟩
          simp only [if_pos hnull, Option.some.injEq, Prod.mk.injEq]
          constructor
          · rintro ⟨rfl, rfl⟩
            exact ⟨rfl, hoff, hs⟩
          rintro ⟨rfl, _, hs'⟩
          rw [hs, Option.some.injEq] at hs'
          exact ⟨rfl, hs'⟩
      · rw [if_neg hoff]
        simp only [reduceCtorEq, false_iff, not_and]
        rintro rfl hoff'
        exact absurd hoff' hoff

lemma bigEndianValue_zero_cons (bytes : List Byte) :
    bigEndianValue (0 :: bytes) = bigEndianValue bytes := by
  simp [bigEndianValue]

lemma bigEndianValue_padded (n : ℕ) (bytes : List Byte) :
    bigEndianValue (List.replicate n 0 ++ bytes) = bigEndianValue bytes := by
  induction n with
  | zero => rfl
  | succ n ih => rw [List.replicate_succ, List.cons_append, bigEndianValue_zero_cons, ih]

/-- Skipping the leading zero and padding in front keep the value of an integer. -/
lemma bigEndianValue_fixedInteger (m : Memory) (elem : Asn1Element) :
    bigEndianValue (fixedInteger m elem) = bigEndianValue (elem.bytes m) := by
  rw [fixedInteger, bigEndianValue_padded]
  unfold leadingZero
  split
  · rename_i hzero
    obtain ⟨n, hn⟩ := Nat.exists_eq_succ_of_ne_zero hzero.1.ne'
    rw [Asn1Element.bytes, hn, bytesAt_succ, hzero.2, bigEndianValue_zero_cons]
    rfl
  · rfl

lemma length_fixedInteger {m : Memory} {elem : Asn1Element}
    (h : elem.length - leadingZero m elem ≤ 32) : (fixedInteger m elem).length = 32 := by
  simp only [fixedInteger, List.length_append, List.length_replicate, length_bytesAt]
  omega

section
variable {p : Primitives} {m : Memory} {cert issuer : Certificate}

/-- A call made for a checkable pair is about the issuer's key and the certificate's bytes. -/
lemma checkSignature_checkable (h : Checkable m cert issuer) :
    ∃ call ∈ checkSignature p m cert issuer, call.answer = true → call.Attests p m cert issuer := by
  rcases h with hkey | ⟨hkey, r, s, hsig, hr, hs⟩
  · by_cases halgo : cert.signatureAlgo = .rsaPssSha256
    · simp only [checkSignature, hkey, if_pos halgo, List.mem_singleton, exists_eq_left]
      intro hanswer
      exact ⟨hkey, rfl, rfl, rfl, rfl, rfl, hanswer⟩
    simp only [checkSignature, hkey, if_neg halgo, List.mem_singleton, exists_eq_left]
    intro hanswer
    exact ⟨hkey, rfl, rfl, rfl, rfl, rfl, hanswer⟩
  · simp only [checkSignature, hkey, ecdsaIntegers_eq_some.mpr hsig, if_pos (And.intro hr hs),
      List.mem_singleton, exists_eq_left]
    intro hanswer
    refine ⟨hkey, rfl, rfl, rfl, ⟨r, s, hsig, length_fixedInteger hr, length_fixedInteger hs, ?_, ?_⟩,
      rfl, hanswer⟩
    · exact bigEndianValue_fixedInteger m r
    · exact bigEndianValue_fixedInteger m s

lemma checkSignature_uncheckable (h : ¬Checkable m cert issuer) :
    checkSignature p m cert issuer = [] := by
  rw [Checkable, not_or, not_and] at h
  unfold checkSignature
  cases hkey : issuer.pubkeyType with
  | unknown => rfl
  | rsa => exact absurd hkey h.1
  | ecdsaP256 =>
    dsimp only
    split
    · rfl
    rename_i r s hsig
    rw [if_neg]
    intro hlen
    exact h.2 hkey ⟨r, s, ecdsaIntegers_eq_some.mp hsig, hlen⟩

/-- A signature of the certificate was checked under the issuer's key. -/
def Signed (p : Primitives) (m : Memory) (cert issuer : Certificate) : Prop :=
  ∃ call ∈ (x509VerifyCertSignature p m cert issuer).2, call.Attests p m cert issuer

lemma signed_iff_checkable (h : (x509VerifyCertSignature p m cert issuer).1 = .ok) :
    Signed p m cert issuer ↔ Checkable m cert issuer := by
  unfold Signed
  unfold x509VerifyCertSignature at h ⊢
  split at h
  · cases h
  rename_i hpres
  have hall : (checkSignature p m cert issuer).all Call.answer = true := by
    by_contra hall
    dsimp only at h
    rw [if_neg hall] at h
    cases h
  rw [if_neg hpres]
  by_cases hcheck : Checkable m cert issuer
  · simp only [hcheck, iff_true]
    obtain ⟨call, hmem, hattests⟩ := checkSignature_checkable (p := p) hcheck
    exact ⟨call, hmem, hattests (List.all_eq_true.mp hall call hmem)⟩
  · simp [hcheck, checkSignature_uncheckable hcheck]

/-- Accepted signatures were checked exactly for the checkable pairs. -/
theorem accepted_signature_checked (h : (x509VerifyCertSignature p m cert issuer).1 = .ok) :
    (∃ call ∈ (x509VerifyCertSignature p m cert issuer).2, call.Attests p m cert issuer) ↔
      Checkable m cert issuer :=
  signed_iff_checkable h

end

/-- RSA without padding and hash, for keys of a few bits. -/
def textbookRsa : Primitives where
  sha256 := id
  rsaPkcs1VerifySha256 := fun modulus exponent hash signature =>
    bigEndianValue signature ^ bigEndianValue exponent % bigEndianValue modulus =
      bigEndianValue hash % bigEndianValue modulus
  rsaPssVerifySha256 := fun _ _ _ _ => false
  ecdsaP256Verify := fun _ _ _ _ _ => false

/-- Key (33, 3) with the signature 2 of the message 8. -/
theorem accepted_signature_checked_rsa :
    ∃ call ∈ (x509VerifyCertSignature textbookRsa (loaded 64 [33, 3, 8, 2])
        { tbsDer := 66, tbsLen := 1, signature := 67, signatureLen := 1 }
        { pubkeyType := .rsa, rsaModulus := 64, rsaModulusLen := 1, rsaExponent := 65,
          rsaExponentLen := 1 }).2,
      call.Attests textbookRsa (loaded 64 [33, 3, 8, 2])
        { tbsDer := 66, tbsLen := 1, signature := 67, signatureLen := 1 }
        { pubkeyType := .rsa, rsaModulus := 64, rsaModulusLen := 1, rsaExponent := 65,
          rsaExponentLen := 1 } :=
  (accepted_signature_checked (by decide +kernel)).mpr (.inl rfl)

/-- The smallest certificate the parser takes: empty names, validity and key, one signature
byte. -/
def bareCertificate : List Byte :=
  [0x30, 0x15, 0x30, 0x0D, 0x02, 0x01, 0x01, 0x30, 0x00, 0x30, 0x00, 0x30, 0x00, 0x30, 0x00,
   0x30, 0x00, 0x30, 0x00, 0x03, 0x02, 0x00, 0x05]

def bareEcCertificate : List Byte :=
  [0x30, 0x20, 0x30, 0x18, 0x02, 0x01, 0x01, 0x30, 0x00, 0x30, 0x00, 0x30, 0x00, 0x30, 0x00,
   0x30, 0x0B, 0x30, 0x09, 0x06, 0x07, 0x2A, 0x86, 0x48, 0xCE, 0x3D, 0x02, 0x01,
   0x30, 0x00, 0x03, 0x02, 0x00, 0x05]

def refusing : Primitives where
  sha256 := id
  rsaPkcs1VerifySha256 := fun _ _ _ _ => false
  rsaPssVerifySha256 := fun _ _ _ _ => false
  ecdsaP256Verify := fun _ _ _ _ _ => false

def verifyBare (bytes : List Byte) : Except Failure (VerifyResult × List Call) := do
  let cert ← x509ParseCertificate 2 (loaded 64 bytes) 64 bytes.length {}
  .ok (x509VerifyCertSignature refusing (loaded 64 bytes) cert cert)

/-- An unknown key, and a P-256 key with a signature that is not a DER sequence: both are
accepted with primitives that accept nothing. -/
theorem unchecked_signature_accepted :
    verifyBare bareCertificate = .ok (.ok, []) ∧ verifyBare bareEcCertificate = .ok (.ok, []) := by
  constructor <;> rfl

end KosKernel.X509
