import KosKernel.KpkgBounds

/-! What a signature of a package is, and what `kpkg_verify_signature` accepts instead. The
equations are stated on their own: ECDSA over P-256 and RSA with the PKCS#1 v1.5 padding. -/
namespace KosKernel.Kpkg
open LittleEndian AccessLog Attempt

def beNat (bytes : List Byte) : ℕ := leNat bytes.reverse

section
def p256Prime : ℕ := 2 ^ 256 - 2 ^ 224 + 2 ^ 192 + 2 ^ 96 - 1
def p256Order : ℕ := 0xFFFFFFFF00000000FFFFFFFFFFFFFFFFBCE6FAADA7179E84F3B9CAC2FC632551

abbrev Coordinate := ZMod p256Prime

def p256B : Coordinate := 0x5AC635D8AA3A93E7B3EBBD55769886BC651D06B0CC53B0F63BCE3C3E27D2604B

inductive Point
  | infinity
  | affine (x y : Coordinate)

def OnCurve (x y : Coordinate) : Prop := y ^ 2 = x ^ 3 - 3 * x + p256B

def Point.third (slope x₁ y₁ x₂ : Coordinate) : Point :=
  let x := slope ^ 2 - x₁ - x₂
  .affine x (slope * (x₁ - x) - y₁)

def Point.add : Point → Point → Point
  | .infinity, q => q
  | p, .infinity => p
  | .affine x₁ y₁, .affine x₂ y₂ =>
    if x₁ ≠ x₂ then .third ((y₂ - y₁) * (x₂ - x₁)⁻¹) x₁ y₁ x₂
    else if y₁ + y₂ = 0 then .infinity
    else .third ((3 * x₁ ^ 2 - 3) * (2 * y₁)⁻¹) x₁ y₁ x₂

def Point.multiple (p : Point) : ℕ → Point
  | 0 => .infinity
  | n + 1 => (p.multiple n).add p

def p256Base : Point :=
  .affine 0x6B17D1F2E12C4247F8BCE6E563A440F277037D812DEB33A0F4A13945D898C296
    0x4FE342E2FE1A7F9B8EE7EB4A7C0F9E162BCE33576B315ECECBB6406837BF51F5

/-- The equation of ECDSA: the point `(e/s) G + (r/s) Q` has the first coordinate `r`. -/
def EcdsaEquation (qx qy e r s : ℕ) : Prop :=
  (qx < p256Prime ∧ qy < p256Prime ∧ OnCurve qx qy) ∧
  (0 < r ∧ r < p256Order ∧ 0 < s ∧ s < p256Order) ∧
  ∃ w x y, w * s % p256Order = 1 ∧
    (p256Base.multiple (e * w % p256Order)).add
      ((Point.affine qx qy).multiple (r * w % p256Order)) = .affine x y ∧
    x.val % p256Order = r

end

section
def sha256DigestInfo : List Byte :=
  [0x30, 0x31, 0x30, 0x0d, 0x06, 0x09, 0x60, 0x86, 0x48, 0x01, 0x65, 0x03, 0x04, 0x02, 0x01, 0x05,
    0x00, 0x04, 0x20]

def pkcs1Encode (length : ℕ) (digest : List Byte) : List Byte :=
  [0x00, 0x01] ++ List.replicate (length - 3 - (sha256DigestInfo.length + digest.length)) 0xFF ++
    [0x00] ++ sha256DigestInfo ++ digest

def RsaEquation (modulus exponent digest sig : List Byte) : Prop :=
  sig.length = modulus.length ∧ beNat sig < beNat modulus ∧
    beNat sig ^ beNat exponent % beNat modulus = beNat (pkcs1Encode modulus.length digest)

end

section
variable (sha256 : List Byte → List Byte) (granted : Bool) (pkg : Package) (key : List Byte)

/-- The equation of the signature's type for the digest of the signed bytes. -/
def SignatureEquation (sigType : ℕ) (sig : List Byte) : Prop :=
  (sigType = sigEcdsaP256 ∧
    EcdsaEquation (beNat (key.take 32)) (beNat ((key.drop 32).take 32))
      (beNat (sha256 pkg.signedBytes)) (beNat (sig.take 32)) (beNat (sig.drop 32))) ∨
  (sigType = sigRsa2048Pkcs1 ∧ RsaEquation key publicExponent (sha256 pkg.signedBytes) sig)

/-- The package holds these signature bytes, behind a block that fits the header. -/
def HoldsSignature (pkg : Package) (sig : List Byte) : Prop :=
  ∃ block, HasSignature pkg block ∧ block.sigLen ≠ 0 ∧
    pkg.reader.read ((sigOffsetOf pkg.headerBytes + signatureBlockSize + block.keyLen) % 2 ^ 64)
      block.sigLen = some sig

/-- The package with other bytes in its manifest or index that have another digest, still under
the old signature: the section that the header names for it reads the same. -/
structure Tampered (pkg' : Package) : Prop where
  opened : ∃ granted, (kpkgOpen pkg'.reader granted).result = some pkg'
  header : pkg'.headerBytes = pkg.headerBytes
  signature : ∀ skip size, skip + size ≤ sigSizeOf pkg.headerBytes →
    pkg'.reader.read ((sigOffsetOf pkg.headerBytes + skip) % 2 ^ 64) size =
      pkg.reader.read ((sigOffsetOf pkg.headerBytes + skip) % 2 ^ 64) size
  digest : sha256 pkg'.signedBytes ≠ sha256 pkg.signedBytes

/-- A verified package carries a signature of its bytes, and of no others. -/
structure Authentic : Prop where
  equation : (kpkgVerifySignature sha256 granted pkg (some key)).result = some () →
    ∃ sig, HoldsSignature pkg sig ∧
      SignatureEquation sha256 pkg key (sigTypeOf pkg.headerBytes) sig
  binding : (kpkgVerifySignature sha256 granted pkg (some key)).result = some () →
    ∀ pkg', Tampered sha256 pkg pkg' →
      (kpkgVerifySignature sha256 granted pkg' (some key)).result = none

/-- What the primitives let through: 64 bytes that are not all zero, or as many bytes as the key
has. -/
def LetThrough (sigType : ℕ) (sig : List Byte) : Prop :=
  (sigType = sigEcdsaP256 ∧ sig.length = 64 ∧ 64 ≤ key.length ∧ ∃ b ∈ sig, b ≠ 0) ∨
  (sigType = sigRsa2048Pkcs1 ∧ 256 ≤ key.length ∧ sig.length = key.length)

variable {key}

lemma checkSignature_iff {sigType : ℕ} {digest sig : List Byte} :
    checkSignature sigType key digest sig = true ↔ LetThrough key sigType sig := by
  have hsplit : sig.any (· != 0) = ((sig.take 32).any (· != 0) || (sig.drop 32).any (· != 0)) := by
    rw [← List.any_append, List.take_append_drop]
  unfold checkSignature LetThrough
  split
  · rename_i h
    rw [kosEcdsaP256Verify, ← hsplit]
    simp [h, sigEcdsaP256, sigRsa2048Pkcs1]
  rename_i h
  split
  · rename_i hrsa
    have hkey : key ≠ [] := List.ne_nil_of_length_pos (by omega)
    simp [kosRsaPkcs1VerifySha256, hrsa, hkey, publicExponent, sigEcdsaP256, sigRsa2048Pkcs1]
  rename_i hrsa
  simp only [Bool.false_eq_true, false_iff, not_or]
  exact ⟨fun hcase => h ⟨hcase.1, hcase.2.1, hcase.2.2.1⟩,
    fun hcase => hrsa ⟨hcase.1, hcase.2.1⟩⟩

lemma readSignature_eq_some {granted : Bool} {pkg : Package} {sigType : ℕ} {sig : List Byte} :
    (readSignature granted pkg).result = some (sigType, sig) ↔
      granted = true ∧ sigTypeOf pkg.headerBytes ≠ sigNone ∧ sigType = sigTypeOf pkg.headerBytes ∧
        HoldsSignature pkg sig := by
  have hpositive : 0 < signatureBlockSize := by decide
  unfold readSignature
  constructor
  · intro h
    obtain ⟨_, htype, h⟩ := result_bind_eq_some.mp h
    obtain ⟨_, -, h⟩ := result_bind_eq_some.mp h
    obtain ⟨bytes, hbytes, h⟩ := result_bind_eq_some.mp h
    obtain ⟨_, hchecks, h⟩ := result_bind_eq_some.mp h
    obtain ⟨_, hmem, h⟩ := result_bind_eq_some.mp h
    obtain ⟨sig', hsig, h⟩ := result_bind_eq_some.mp h
    cases h
    simp only [result_require, Bool.and_eq_true, decide_eq_true_eq] at htype hchecks hmem
    exact ⟨hmem.1, htype.1, hchecks.1, _, ⟨⟨bytes, result_fetch.symm.trans hbytes, rfl⟩, hchecks⟩,
      hmem.2, result_fetch.symm.trans hsig⟩
  · rintro ⟨hgrant, htype, rfl, _, ⟨⟨bytes, hbytes, rfl⟩, htypes, hsizes⟩, hlen, hsig⟩
    refine result_bind_eq_some.mpr ⟨(), ?_, ?_⟩
    · simp [htype]
      omega
    refine result_bind_eq_some.mpr ⟨(), ?_, ?_⟩
    · simp
      omega
    refine result_bind_eq_some.mpr ⟨bytes, result_fetch.trans hbytes, ?_⟩
    refine result_bind_eq_some.mpr ⟨(), by simp [htypes, hsizes], ?_⟩
    refine result_bind_eq_some.mpr ⟨(), by simp [hgrant, hlen], ?_⟩
    refine result_bind_eq_some.mpr ⟨sig, result_fetch.trans hsig, ?_⟩
    rw [htypes]
    rfl

/-- The package holds a signature that the primitives let through. Neither its manifest nor its
index matters. -/
def Accepted (granted : Bool) (pkg : Package) (key : List Byte) : Prop :=
  granted = true ∧ sigTypeOf pkg.headerBytes ≠ sigNone ∧
  ∃ sig, HoldsSignature pkg sig ∧ LetThrough key (sigTypeOf pkg.headerBytes) sig

lemma accepted_iff {granted : Bool} {pkg : Package} :
    Accepted granted pkg key ↔ ∃ sigType sig,
      (readSignature granted pkg).result = some (sigType, sig) ∧ LetThrough key sigType sig := by
  simp only [readSignature_eq_some]
  constructor
  · rintro ⟨hgrant, htype, sig, hsig, hthrough⟩
    exact ⟨_, sig, ⟨hgrant, htype, rfl, hsig⟩, hthrough⟩
  · rintro ⟨_, sig, ⟨hgrant, htype, rfl, hsig⟩, hthrough⟩
    exact ⟨hgrant, htype, sig, hsig, hthrough⟩

lemma verifySignature_iff :
    (kpkgVerifySignature sha256 granted pkg (some key)).result = some () ↔
      Accepted granted pkg key := by
  rw [accepted_iff]
  unfold kpkgVerifySignature
  rw [result_bind_eq_some]
  constructor
  · rintro ⟨_, -, h⟩
    obtain ⟨⟨sigType, sig⟩, hread, h⟩ := result_bind_eq_some.mp h
    rw [result_require] at h
    exact ⟨sigType, sig, hread, checkSignature_iff.mp h⟩
  rintro ⟨sigType, sig, hread, h⟩
  have hkey : key ≠ [] := by
    refine List.ne_nil_of_length_pos ?_
    rcases h with ⟨-, -, hlength, -⟩ | ⟨-, hlength, -⟩ <;> omega
  refine ⟨(), result_require.mpr (by simpa using hkey), ?_⟩
  refine result_bind_eq_some.mpr ⟨(sigType, sig), hread, ?_⟩
  exact result_require.mpr (checkSignature_iff.mpr h)

variable {sha256 granted pkg}

lemma Tampered.holdsSignature {pkg' : Package} (htampered : Tampered sha256 pkg pkg')
    {sig : List Byte} (h : HoldsSignature pkg sig) : HoldsSignature pkg' sig := by
  obtain ⟨block, ⟨⟨bytes, hbytes, hblock⟩, htype, hsizes⟩, hlen, hread⟩ := h
  have hoffset : sigOffsetOf pkg.headerBytes < 2 ^ 64 := field_lt _ _ _
  have hstart := htampered.signature 0 signatureBlockSize (by omega)
  rw [Nat.add_zero, Nat.mod_eq_of_lt hoffset] at hstart
  have hrest := htampered.signature (signatureBlockSize + block.keyLen) block.sigLen hsizes
  rw [← Nat.add_assoc] at hrest
  unfold HoldsSignature HasSignature
  rw [htampered.header]
  exact ⟨block, ⟨⟨bytes, hstart.trans hbytes, hblock⟩, htype, hsizes⟩, hlen, hrest.trans hread⟩

lemma accepted_of_tampered {pkg' : Package} (htampered : Tampered sha256 pkg pkg')
    (h : Accepted granted pkg key) : Accepted granted pkg' key := by
  obtain ⟨hgrant, htype, sig, hsig, hthrough⟩ := h
  unfold Accepted
  rw [htampered.header]
  exact ⟨hgrant, htype, sig, htampered.holdsSignature hsig, hthrough⟩

/-- Of a package in which something can be changed, the signature means something exactly when it is
refused. -/
theorem authentic_iff (hchange : ∃ pkg', Tampered sha256 pkg pkg') :
    Authentic sha256 granted pkg key ↔ ¬ Accepted granted pkg key := by
  obtain ⟨pkg', htampered⟩ := hchange
  constructor
  · intro h haccepted
    have hverified := (verifySignature_iff sha256 granted pkg).mpr haccepted
    have hrefused := h.binding hverified pkg' htampered
    rw [(verifySignature_iff sha256 granted pkg').mpr (accepted_of_tampered htampered haccepted)]
      at hrefused
    cases hrefused
  · intro h
    have hrefused : (kpkgVerifySignature sha256 granted pkg (some key)).result ≠ some () :=
      fun hverified => h ((verifySignature_iff sha256 granted pkg).mp hverified)
    exact ⟨fun hverified => absurd hverified hrefused, fun hverified => absurd hverified hrefused⟩

end

def forgedPackage (renamed : Bool) : List Byte :=
  (sampleHeader 80 2 0 0 0 0).take 12 ++ leBytes 4 sigEcdsaP256 ++
    ((sampleHeader 80 2 0 0 0 0).drop 16).take 48 ++ leBytes 8 82 ++ leBytes 8 80 ++
    [if renamed then 0x62 else 0x61, 0] ++
    leBytes 4 sigEcdsaP256 ++ leBytes 4 0 ++ leBytes 4 64 ++ leBytes 4 0 ++ List.replicate 64 1

lemma forgedPackage_fits (renamed : Bool) : (forgedPackage renamed).length < 2 ^ 64 := by
  cases renamed <;> decide +kernel

def openForged (renamed : Bool) : Option Package :=
  openSample (forgedPackage renamed) (forgedPackage_fits renamed)

def zeroKey : List Byte := List.replicate 64 0

lemma not_onCurve_zero : ¬ OnCurve 0 0 := by
  unfold OnCurve
  decide +kernel

lemma no_equation_zeroKey {sha256 : List Byte → List Byte} {pkg : Package} {sig : List Byte} :
    ¬ SignatureEquation sha256 pkg zeroKey sigEcdsaP256 sig := by
  have hzero : beNat (zeroKey.take 32) = 0 ∧ beNat ((zeroKey.drop 32).take 32) = 0 := by decide
  rintro (⟨-, ⟨-, -, hcurve⟩, -⟩ | ⟨htype, -⟩)
  · rw [hzero.1, hzero.2, Nat.cast_zero] at hcurve
    exact not_onCurve_zero hcurve
  · exact absurd htype (by decide)

lemma openForged_signature (renamed : Bool) : ∃ pkg, openForged renamed = some pkg ∧
    pkg.appId = [if renamed then 0x62 else 0x61] ∧ pkg.headerBytes = (forgedPackage false).take 80 ∧
    (readSignature true pkg).result = some (sigEcdsaP256, List.replicate 64 1) := by
  have hchecks : (openForged renamed).map (fun pkg =>
      (pkg.appId, pkg.headerBytes, (readSignature true pkg).result)) =
        some ([if renamed then 0x62 else 0x61], (forgedPackage false).take 80,
          some (sigEcdsaP256, List.replicate 64 1)) := by
    cases renamed <;> decide +kernel
  obtain ⟨pkg, hpkg, heq⟩ := Option.map_eq_some_iff.mp hchecks
  obtain ⟨hname, hrest⟩ := Prod.ext_iff.mp heq
  obtain ⟨hhead, hsig⟩ := Prod.ext_iff.mp hrest
  exact ⟨pkg, hpkg, hname, hhead, hsig⟩

/-- From the signature section on, the two packages are the same bytes. -/
lemma forgedPackage_getD {i : ℕ} (h : 82 ≤ i) :
    (forgedPackage true).getD i 0 = (forgedPackage false).getD i 0 := by
  have hdrop : (forgedPackage true).drop 82 = (forgedPackage false).drop 82 := by decide +kernel
  have hat := congrArg (fun bytes => bytes.getD (i - 82) 0) hdrop
  simpa [List.getD_eq_getElem?_getD, Nat.add_sub_cancel' h] using hat

lemma openForged_tampered : ∃ pkg pkg', openForged false = some pkg ∧ openForged true = some pkg' ∧
    Tampered id pkg pkg' := by
  have hlength : (forgedPackage true).length = (forgedPackage false).length := by decide +kernel
  have hfields : sigOffsetOf ((forgedPackage false).take 80) = 82 ∧
      sigSizeOf ((forgedPackage false).take 80) = 80 := by decide +kernel
  obtain ⟨pkg, hopen, -, hheader, -⟩ := openForged_signature false
  obtain ⟨pkg', hopen', -, hheader', -⟩ := openForged_signature true
  have hdigest : (openForged true).map Package.signedBytes ≠
      (openForged false).map Package.signedBytes := by decide +kernel
  have hreader := (opened_of_result hopen).reader_eq
  have hreader' := (opened_of_result hopen').reader_eq
  refine ⟨pkg, pkg', hopen, hopen', ⟨true, ?_⟩, hheader'.trans hheader.symm, fun skip size hsize => ?_,
    fun heq => hdigest ?_⟩
  · rw [hreader']
    exact hopen'
  · rw [hheader, hfields.2] at hsize
    rw [hreader, hreader', hheader, hfields.1, Nat.mod_eq_of_lt (by omega)]
    dsimp only [memoryReader]
    rw [hlength]
    refine congrArg (ite _ none) (congrArg some (List.map_congr_left fun i hi => ?_))
    have hi := List.mem_range.mp hi
    have haddress : (1000 + (82 + skip) + i) % 2 ^ 64 = 1082 + skip + i := by
      rw [Nat.mod_eq_of_lt (by omega)]
      omega
    rw [haddress, sampleMemory, sampleMemory, if_neg (by omega), if_neg (by omega)]
    exact forgedPackage_getD (by omega)
  · rw [hopen, hopen']
    exact congrArg some heq

/-- A key that is one byte short refuses the forged package; the full one takes it, and its signature
means nothing. -/
theorem authentic_iff_forged : ∃ pkg, openForged false = some pkg ∧
    Authentic id true pkg (zeroKey.drop 1) ∧ ¬ Authentic id true pkg zeroKey := by
  obtain ⟨pkg, pkg', hopen, -, htampered⟩ := openForged_tampered
  obtain ⟨pkg₁, hopen₁, -, -, hsig⟩ := openForged_signature false
  obtain rfl : pkg₁ = pkg := Option.some.inj (hopen₁.symm.trans hopen)
  have hthrough : LetThrough zeroKey sigEcdsaP256 (List.replicate 64 1) :=
    .inl ⟨rfl, by decide, by decide, 1, by decide, by decide⟩
  refine ⟨pkg₁, hopen, (authentic_iff ⟨pkg', htampered⟩).mpr fun haccepted => ?_, fun h => ?_⟩
  · obtain ⟨-, -, sig, -, ⟨-, -, hlong, -⟩ | ⟨-, hlong, -⟩⟩ := haccepted
    · exact absurd hlong (by decide)
    · exact absurd hlong (by decide)
  · exact (authentic_iff ⟨pkg', htampered⟩).mp h (accepted_iff.mpr ⟨_, _, hsig, hthrough⟩)

/-- Both packages are accepted whatever the hash is, with one signature that satisfies no
equation. -/
theorem forged_packages_accepted : ∃ pkg pkg',
    openForged false = some pkg ∧ openForged true = some pkg' ∧
    pkg.headerBytes = pkg'.headerBytes ∧ pkg.appId ≠ pkg'.appId ∧
    (readSignature true pkg).result = (readSignature true pkg').result ∧
    ∀ sha256, (kpkgVerifySignature sha256 true pkg (some zeroKey)).result = some () ∧
      (kpkgVerifySignature sha256 true pkg' (some zeroKey)).result = some () ∧
      ∀ sigType sig, (readSignature true pkg).result = some (sigType, sig) →
        ¬ SignatureEquation sha256 pkg zeroKey sigType sig := by
  obtain ⟨pkg, hopen, hname, hheader, hsig⟩ := openForged_signature false
  obtain ⟨pkg', hopen', hname', hheader', hsig'⟩ := openForged_signature true
  have hthrough : LetThrough zeroKey sigEcdsaP256 (List.replicate 64 1) :=
    .inl ⟨rfl, by decide, by decide, 1, by decide, by decide⟩
  refine ⟨pkg, pkg', hopen, hopen', hheader.trans hheader'.symm, ?_, hsig.trans hsig'.symm,
    fun sha256 => ⟨?_, ?_, fun sigType sig hread => ?_⟩⟩
  · rw [hname, hname']
    decide
  · exact (verifySignature_iff _ _ _).mpr (accepted_iff.mpr ⟨_, _, hsig, hthrough⟩)
  · exact (verifySignature_iff _ _ _).mpr (accepted_iff.mpr ⟨_, _, hsig', hthrough⟩)
  rw [hsig] at hread
  cases hread
  exact no_equation_zeroKey

end KosKernel.Kpkg
