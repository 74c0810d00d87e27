import KosKernel.X509Signature
import KosKernel.X509Times

/-! Verification of a certificate chain: host name of the leaf, dates and signatures along the
chain. Nothing else is looked at, in particular no trust store. -/
namespace KosKernel.X509
open ByteMemory Calendar List

/-- A character array as a string: the bytes before the first NUL. -/
def cString (s : List Byte) : List Byte := s.takeWhile fun b => b ≠ 0

def toLower (c : Byte) : Byte := if 0x41 ≤ c.toNat ∧ c.toNat ≤ 0x5A then c + 0x20 else c

def strEqCaseInsensitive : List Byte → List Byte → Bool
  | a :: as, b :: bs => if toLower a ≠ toLower b then false else strEqCaseInsensitive as bs
  | [], [] => true
  | _, _ => false

def star : Byte := 0x2A
def dot : Byte := 0x2E

def matchDomainPattern (pattern hostname : List Byte) : Bool :=
  if strEqCaseInsensitive pattern hostname then true
  else if pattern.getD 0 0 = star ∧ pattern.getD 1 0 = dot then
    let suffix := pattern.drop 1
    let sLen := suffix.length
    let hLen := hostname.length
    if sLen < hLen ∧ strEqCaseInsensitive (hostname.drop (hLen - sLen)) suffix then
      (hostname.take (hLen - sLen)).all fun c => c ≠ dot
    else false
  else false

def x509VerifyHostname (cert : Certificate) (hostname : List Byte) : Bool :=
  if 0 < cert.sanDnsNames.length then
    cert.sanDnsNames.any fun name => matchDomainPattern (cString name) hostname
  else if ¬emptyString cert.subjectCn then matchDomainPattern (cString cert.subjectCn) hostname
  else false

def checkDates (currentTime : ℕ) (c : Certificate) : Option VerifyResult :=
  if 0 < currentTime then
    if 0 < c.notBefore ∧ currentTime < c.notBefore then some .notYetValid
    else if 0 < c.notAfter ∧ c.notAfter < currentTime then some .expired
    else none
  else none

def checkLinks (p : Primitives) (m : Memory) : List Certificate → VerifyResult
  | c :: issuer :: rest =>
    match (x509VerifyCertSignature p m c issuer).1 with
    | .ok => checkLinks p m (issuer :: rest)
    | res => res
  | _ => .ok

def x509VerifyChain (p : Primitives) (m : Memory) (chain : List Certificate)
    (hostname : Option (List Byte)) (currentTime : ℕ) : VerifyResult :=
  match chain with
  | [] => .invalidChain
  | leaf :: _ =>
    if hostname.any fun host => !x509VerifyHostname leaf host then .hostnameMismatch
    else (chain.findSome? (checkDates currentTime)).getD (checkLinks p m chain)

/-- A name of the certificate covers a host: the same letters, or a star in place of the host's
first label. -/
def CoversHost (pattern host : List Byte) : Prop :=
  pattern.map toLower = host.map toLower ∨
    ∃ rest label tail, pattern = star :: dot :: rest ∧ host = label ++ tail ∧ label ≠ [] ∧
      dot ∉ label ∧ tail.map toLower = (dot :: rest).map toLower

/-- The host is covered by an alternative name or, without any, by the common name. -/
def NamesHost (cert : Certificate) (host : List Byte) : Prop :=
  (∃ name ∈ cert.sanDnsNames, CoversHost (cString name) host) ∨
    cert.sanDnsNames = [] ∧ cString cert.subjectCn ≠ [] ∧ CoversHost (cString cert.subjectCn) host

def Certificate.issuerName (m : Memory) (c : Certificate) : List Byte :=
  bytesAt m c.issuerRaw c.issuerRawLen

def Certificate.subjectName (m : Memory) (c : Certificate) : List Byte :=
  bytesAt m c.subjectRaw c.subjectRawLen

def Dated (m : Memory) (c : Certificate) (notBefore notAfter : Time) : Prop :=
  ∃ first second, notBeforeOf m c.rawDer c.rawLen = some first ∧
    notAfterOf m c.rawDer c.rawLen = some second ∧
    EncodesTime first.tag (first.bytes m) notBefore ∧
    EncodesTime second.tag (second.bytes m) notAfter

/-- The part of validity that the verification looks at. -/
structure CheckedChain (p : Primitives) (m : Memory) (chain : List Certificate) (host : List Byte)
    (t : ℕ) : Prop where
  dates : ∀ c ∈ chain, ∃ notBefore notAfter, Dated m c notBefore notAfter ∧
    notBefore.seconds ≤ t ∧ (t : ℤ) ≤ notAfter.seconds
  signatures : chain.IsChain (Signed p m)
  leaf : ∃ c ∈ chain.head?, NamesHost c host

structure ValidChain (p : Primitives) (m : Memory) (trusted : Certificate → Prop)
    (chain : List Certificate) (host : List Byte) (t : ℕ) : Prop
    extends CheckedChain p m chain host t where
  authorities : ∀ c ∈ chain.tail, c.isCa = true
  names : chain.IsChain fun c issuer => c.issuerName m = issuer.subjectName m
  anchor : ∃ root ∈ chain.getLast?, trusted root

/-- Both dates are written down, and the second is after the start of 1970. -/
def WrittenDates (m : Memory) (c : Certificate) : Prop :=
  ∃ notBefore notAfter, Dated m c notBefore notAfter ∧ 0 < notAfter.seconds

/-- The certificate with another authority flag and other names. -/
def Certificate.relabel (isCa : Bool) (issuer subject : ℕ × ℕ) (c : Certificate) : Certificate :=
  { c with
    isCa := isCa
    issuerRaw := issuer.1
    issuerRawLen := issuer.2
    subjectRaw := subject.1
    subjectRawLen := subject.2 }

lemma strEqCaseInsensitive_iff (a b : List Byte) :
    strEqCaseInsensitive a b = true ↔ a.map toLower = b.map toLower := by
  induction a generalizing b with
  | nil => cases b <;> simp [strEqCaseInsensitive]
  | cons x a ih =>
    cases b with
    | nil => simp [strEqCaseInsensitive]
    | cons y b =>
      by_cases hxy : toLower x = toLower y
      · simp [strEqCaseInsensitive, hxy, ih]
      · simp [strEqCaseInsensitive, hxy]

lemma suffix_split (suffix host : List Byte) :
    (suffix.length < host.length ∧
        (host.drop (host.length - suffix.length)).map toLower = suffix.map toLower) ∧
      dot ∉ host.take (host.length - suffix.length) ↔
    ∃ label tail, host = label ++ tail ∧ label ≠ [] ∧ dot ∉ label ∧
      tail.map toLower = suffix.map toLower := by
  constructor
  · rintro ⟨⟨hlen, hsuffix⟩, hdot⟩
    refine ⟨_, _, (take_append_drop (host.length - suffix.length) host).symm, ?_, hdot, hsuffix⟩
    rw [← length_pos_iff, length_take]
    omega
  rintro ⟨label, tail, rfl, hlabel, hdot, htail⟩
  have hlen : tail.length = suffix.length := by simpa using congrArg length htail
  have hpos := length_pos_iff.mpr hlabel
  have hsplit : (label ++ tail).length - suffix.length = label.length := by
    rw [length_append]
    omega
  rw [hsplit, drop_left, take_left, length_append]
  exact ⟨⟨by omega, htail⟩, hdot⟩

lemma wildcard_iff (pattern : List Byte) :
    pattern.getD 0 0 = star ∧ pattern.getD 1 0 = dot ↔ ∃ rest, pattern = star :: dot :: rest := by
  match pattern with
  | [] => simp [star]
  | [_] => simp [dot]
  | a :: b :: rest => simp

lemma matchDomainPattern_iff (pattern host : List Byte) :
    matchDomainPattern pattern host = true ↔ CoversHost pattern host := by
  unfold matchDomainPattern CoversHost
  rw [← strEqCaseInsensitive_iff]
  by_cases hsame : strEqCaseInsensitive pattern host = true
  · simp [hsame]
  rw [if_neg hsame]
  simp only [hsame, false_or, Bool.false_eq_true]
  by_cases hstar : ∃ rest, pattern = star :: dot :: rest
  · rw [if_pos ((wildcard_iff pattern).mpr hstar)]
    obtain ⟨rest, rfl⟩ := hstar
    simp only [cons.injEq, true_and, exists_and_left, exists_eq_left', drop_succ_cons,
      drop_zero, strEqCaseInsensitive_iff]
    rw [← suffix_split (dot :: rest) host]
    split
    · rename_i hsuffix
      simp only [hsuffix, true_and, all_eq_true, decide_eq_true_eq]
      constructor
      · intro hall hdot
        exact hall dot hdot rfl
      · rintro hdot c hc rfl
        exact hdot hc
    · rename_i hsuffix
      simp only [Bool.false_eq_true, false_iff]
      exact fun h => hsuffix h.1
  · rw [if_neg fun h => hstar ((wildcard_iff pattern).mp h)]
    simp only [Bool.false_eq_true, false_iff]
    rintro ⟨rest, _, _, hpattern, -⟩
    exact hstar ⟨rest, hpattern⟩

lemma emptyString_iff (s : List Byte) : emptyString s = true ↔ cString s = [] := by
  cases s with
  | nil => simp [emptyString, cString]
  | cons b s => by_cases hb : b = 0 <;> simp [emptyString, cString, hb]

lemma x509VerifyHostname_iff (cert : Certificate) (host : List Byte) :
    x509VerifyHostname cert host = true ↔ NamesHost cert host := by
  unfold x509VerifyHostname NamesHost
  split
  · rename_i hnames
    have hne : cert.sanDnsNames ≠ [] := length_pos_iff.mp hnames
    simp [hne, matchDomainPattern_iff]
  rename_i hnames
  have hnil : cert.sanDnsNames = [] := length_eq_zero_iff.mp (by omega)
  split
  · rename_i hcn
    rw [emptyString_iff] at hcn
    simp [hnil, hcn, matchDomainPattern_iff]
  rename_i hcn
  rw [not_not, emptyString_iff] at hcn
  simp [hnil, hcn]

section
variable {m : Memory} {c : Certificate} {notBefore notAfter : Time}

lemma elementAt_data {container elem : Asn1Element} {offset : ℕ}
    (h : elementAt m container offset = some elem) : elem.data ≠ 0 :=
  (asn1ParseElement_data_pos h).ne'

lemma Dated.recorded (hdated : Dated m c notBefore notAfter)
    (hparsed : ∃ fuel der derLen held, x509ParseCertificate fuel m der derLen held = .ok c) :
    c.notBefore = notBefore.seconds.toNat ∧ c.notAfter = notAfter.seconds.toNat := by
  obtain ⟨fuel, der, derLen, held, hparse⟩ := hparsed
  obtain ⟨validity, hvalidity, -, -, hbefore, hafter⟩ := x509ParseCertificate_dates hparse
  obtain ⟨first, second, hfirst, hsecond, hencFirst, hencSecond⟩ := hdated
  rw [notBeforeOf, hvalidity, Option.bind_some] at hfirst
  rw [notAfterOf, hvalidity, Option.bind_some, hfirst, Option.bind_some] at hsecond
  have hat : elementAt m validity first.extent = some second := by
    split at hsecond
    · exact hsecond
    · cases hsecond
  have htimeFirst := asn1ParseTime_eq (elementAt_data hfirst) hencFirst
  have htimeSecond := asn1ParseTime_eq (elementAt_data hat) hencSecond
  simp only [parseValidity, hfirst, Option.map_some, Option.getD_some, hsecond, Option.bind_some,
    htimeFirst, htimeSecond] at hbefore hafter
  exact ⟨hbefore, hafter⟩

lemma checkDates_iff {t : ℕ} (ht : 0 < t) (hdated : Dated m c notBefore notAfter)
    (hparsed : ∃ fuel der derLen held, x509ParseCertificate fuel m der derLen held = .ok c)
    (hcheck : checkDates t c = none) :
    (notBefore.seconds ≤ t ∧ (t : ℤ) ≤ notAfter.seconds) ↔ 0 < notAfter.seconds := by
  obtain ⟨hbefore, hafter⟩ := hdated.recorded hparsed
  rw [checkDates, if_pos ht, hbefore, hafter] at hcheck
  split at hcheck
  · cases hcheck
  split at hcheck
  · cases hcheck
  · omega

end

variable {p : Primitives} {m : Memory}

lemma checkLinks_iff (chain : List Certificate) : checkLinks p m chain = .ok ↔
      chain.IsChain fun c issuer => (x509VerifyCertSignature p m c issuer).1 = .ok := by
  induction chain with
  | nil => simp [checkLinks]
  | cons c chain ih =>
    cases chain with
    | nil => simp [checkLinks]
    | cons issuer rest =>
      rw [checkLinks, isChain_cons_cons, ← ih]
      cases hres : (x509VerifyCertSignature p m c issuer).1 <;> simp

lemma signatures_iff {chain : List Certificate}
    (h : chain.IsChain fun c issuer => (x509VerifyCertSignature p m c issuer).1 = .ok) :
    chain.IsChain (Signed p m) ↔ chain.IsChain (Checkable m) := by
  induction chain with
  | nil => simp
  | cons c chain ih =>
    cases chain with
    | nil => simp
    | cons issuer rest =>
      rw [isChain_cons_cons] at h
      rw [isChain_cons_cons, isChain_cons_cons, signed_iff_checkable h.1, ih h.2]

lemma x509VerifyChain_ok {chain : List Certificate}
    {host : List Byte} {t : ℕ} (h : x509VerifyChain p m chain (some host) t = .ok) :
    (∃ c ∈ chain.head?, NamesHost c host) ∧ (∀ c ∈ chain, checkDates t c = none) ∧
      chain.IsChain fun c issuer => (x509VerifyCertSignature p m c issuer).1 = .ok := by
  unfold x509VerifyChain at h
  split at h
  · cases h
  rename_i leaf rest
  split at h
  · cases h
  rename_i hhost
  simp only [Option.any_some, Bool.not_eq_true', Bool.not_eq_false] at hhost
  cases hfind : (leaf :: rest).findSome? (checkDates t) with
  | none =>
    rw [hfind, Option.getD_none, checkLinks_iff] at h
    refine ⟨⟨leaf, rfl, (x509VerifyHostname_iff leaf host).mp hhost⟩, ?_, h⟩
    exact findSome?_eq_none_iff.mp hfind
  | some res =>
    rw [hfind, Option.getD_some] at h
    obtain ⟨c, -, hc⟩ := exists_of_findSome?_eq_some hfind
    subst h
    unfold checkDates at hc
    split_ifs at hc <;> cases hc

section
variable (isCa : Certificate → Bool) (issuer subject : Certificate → ℕ × ℕ)

def relabelAll (chain : List Certificate) : List Certificate :=
  chain.map fun c => c.relabel (isCa c) (issuer c) (subject c)

lemma checkLinks_relabelAll (chain : List Certificate) :
    checkLinks p m (relabelAll isCa issuer subject chain) = checkLinks p m chain := by
  induction chain with
  | nil => rfl
  | cons c chain ih =>
    cases chain with
    | nil => rfl
    | cons next rest =>
      have hsame : x509VerifyCertSignature p m (c.relabel (isCa c) (issuer c) (subject c))
          (next.relabel (isCa next) (issuer next) (subject next)) =
            x509VerifyCertSignature p m c next := rfl
      unfold relabelAll at ih ⊢
      rw [map_cons] at ih
      rw [map_cons, map_cons, checkLinks, checkLinks, hsame, ih]

/-- The verdict does not depend on who is an authority, nor on the names along the chain. -/
lemma x509VerifyChain_relabelAll (chain : List Certificate) (host : Option (List Byte)) (t : ℕ) :
    x509VerifyChain p m (relabelAll isCa issuer subject chain) host t =
      x509VerifyChain p m chain host t := by
  cases chain with
  | nil => rfl
  | cons leaf rest =>
    have hdates : (relabelAll isCa issuer subject (leaf :: rest)).findSome? (checkDates t) =
        (leaf :: rest).findSome? (checkDates t) := by
      rw [relabelAll, findSome?_map]
      rfl
    have hlinks := checkLinks_relabelAll (p := p) (m := m) isCa issuer subject (leaf :: rest)
    unfold x509VerifyChain
    rw [hdates, hlinks]
    rfl

end

def undatedCertificate : List Byte :=
  [0x30, 0x21, 0x30, 0x19, 0x02, 0x01, 0x01, 0x30, 0x00, 0x30, 0x00, 0x30, 0x00,
   0x30, 0x0C, 0x31, 0x0A, 0x30, 0x08, 0x06, 0x03, 0x55, 0x04, 0x03, 0x0C, 0x01, 0x61,
   0x30, 0x00, 0x30, 0x00, 0x03, 0x02, 0x00, 0x05]

/-- Issued to `a` by `b`, valid from 2020 to 2040. -/
def leafCertificate : List Byte :=
  [0x30, 0x4B, 0x30, 0x43, 0x02, 0x01, 0x01, 0x30, 0x00,
   0x30, 0x0C, 0x31, 0x0A, 0x30, 0x08, 0x06, 0x03, 0x55, 0x04, 0x03, 0x0C, 0x01, 0x62, 0x30, 0x1E,
   0x17, 0x0D, 0x32, 0x30, 0x30, 0x31, 0x30, 0x31, 0x30, 0x30, 0x30, 0x30, 0x30, 0x30, 0x5A,
   0x17, 0x0D, 0x34, 0x30, 0x30, 0x31, 0x30, 0x31, 0x30, 0x30, 0x30, 0x30, 0x30, 0x30, 0x5A,
   0x30, 0x0C, 0x31, 0x0A, 0x30, 0x08, 0x06, 0x03, 0x55, 0x04, 0x03, 0x0C, 0x01, 0x61,
   0x30, 0x00, 0x30, 0x00, 0x03, 0x02, 0x00, 0x02]

/-- The authority `b`, with the RSA key (33, 3). -/
def rootCertificate : List Byte :=
  [0x30, 0x75, 0x30, 0x6D, 0x02, 0x01, 0x01, 0x30, 0x00,
   0x30, 0x0C, 0x31, 0x0A, 0x30, 0x08, 0x06, 0x03, 0x55, 0x04, 0x03, 0x0C, 0x01, 0x62, 0x30, 0x1E,
   0x17, 0x0D, 0x32, 0x30, 0x30, 0x31, 0x30, 0x31, 0x30, 0x30, 0x30, 0x30, 0x30, 0x30, 0x5A,
   0x17, 0x0D, 0x34, 0x30, 0x30, 0x31, 0x30, 0x31, 0x30, 0x30, 0x30, 0x30, 0x30, 0x30, 0x5A,
   0x30, 0x0C, 0x31, 0x0A, 0x30, 0x08, 0x06, 0x03, 0x55, 0x04, 0x03, 0x0C, 0x01, 0x62,
   0x30, 0x18, 0x30, 0x0B, 0x06, 0x09, 0x2A, 0x86, 0x48, 0x86, 0xF7, 0x0D, 0x01, 0x01, 0x01,
   0x03, 0x09, 0x00, 0x30, 0x06, 0x02, 0x01, 0x21, 0x02, 0x01, 0x03,
   0xA3, 0x10, 0x30, 0x0E, 0x30, 0x0C, 0x06, 0x03, 0x55, 0x1D, 0x13, 0x04, 0x05,
   0x30, 0x03, 0x01, 0x01, 0xFF, 0x30, 0x00, 0x03, 0x02, 0x00, 0x15]

def chainMemory : Memory := loaded 64 (leafCertificate ++ rootCertificate)

def recordAt (m : Memory) (der derLen : ℕ) : Certificate :=
  match x509ParseCertificate 3 m der derLen {} with
  | .ok cert => cert
  | .error _ => {}

def sampleChain : List Certificate :=
  [recordAt chainMemory 64 77, recordAt chainMemory 141 119]

/-- The dates of both certificates are at the same place. -/
lemma sampleChain_dates {c : Certificate} (hc : c ∈ sampleChain) : WrittenDates chainMemory c := by
  have hencodes : ∀ der ∈ [64, 141], EncodesTime 0x17 (bytesAt chainMemory (der + 27) 13)
      ⟨2020, 1, 1, 0, 0, 0⟩ ∧ EncodesTime 0x17 (bytesAt chainMemory (der + 42) 13)
      ⟨2040, 1, 1, 0, 0, 0⟩ := by
    intro der hder
    have hbytes : ∀ der ∈ [64, 141],
        bytesAt chainMemory (der + 27) 13 = bytesAt chainMemory 91 13 ∧
          bytesAt chainMemory (der + 42) 13 = bytesAt chainMemory 106 13 := by decide +kernel
    rw [(hbytes der hder).1, (hbytes der hder).2]
    exact ⟨⟨⟨by decide, by decide, by decide, by decide, by decide⟩, _, Or.inl rfl,
      Or.inl ⟨rfl, by decide, by decide, by decide +kernel⟩⟩,
      ⟨⟨by decide, by decide, by decide, by decide, by decide⟩, _, Or.inl rfl,
      Or.inl ⟨rfl, by decide, by decide, by decide +kernel⟩⟩⟩
  have hfound : ∀ c ∈ sampleChain, c.rawDer ∈ [64, 141] ∧
      notBeforeOf chainMemory c.rawDer c.rawLen = some ⟨0x17, false, c.rawDer + 27, 13, 2⟩ ∧
      notAfterOf chainMemory c.rawDer c.rawLen = some ⟨0x17, false, c.rawDer + 42, 13, 2⟩ := by
    decide +kernel
  obtain ⟨hder, hbefore, hafter⟩ := hfound c hc
  exact ⟨_, _, ⟨_, _, hbefore, hafter, hencodes _ hder⟩, by decide +kernel⟩

end KosKernel.X509
