import KosKernel.AeadRoundTrip
import KosKernel.TlsRecords

/-! The record layer over the ciphers of the kernel. -/
namespace KosKernel.Tls
open AesGcm X509 List

def kosAead : Aead → KosKernel.Aead.Cipher
  | .aes128Gcm => KosKernel.Aead.aes128Gcm
  | .chacha20Poly1305 => KosKernel.Aead.chacha20Poly1305
  | .aes256Gcm => KosKernel.Aead.aes256Gcm

def kosAuthenticated : ∀ aead, KosKernel.Aead.Authenticated (kosAead aead)
  | .aes128Gcm => KosKernel.Aead.gcmAuthenticated aes128ExpandKey 10
  | .chacha20Poly1305 => KosKernel.Aead.chachaAuthenticated
  | .aes256Gcm => KosKernel.Aead.gcmAuthenticated aes256ExpandKey 14

/-- The kernel's ciphers. What their output buffers hold before is given by `fill`. -/
def Crypto.withCiphers (crypto : Crypto) (fill : ℕ → Byte) : Crypto :=
  { crypto with
    aeadEncrypt := fun aead key nonce aad plain =>
      some ((kosAead aead).encrypt key nonce aad plain ((range plain.length).map fill))
    aeadDecrypt := fun aead key nonce aad cipher tag =>
      let (ok, plain) :=
        (kosAead aead).decrypt key nonce aad cipher tag ((range cipher.length).map fill)
      if ok then some plain else none }

variable {crypto : Crypto} {fill : ℕ → Byte}

lemma withCiphers_lawful : (crypto.withCiphers fill).Lawful where
  sizes {aead key nonce aad plain cipher tag} h := by
    have hcipher := kosAuthenticated aead
    simp only [Crypto.withCiphers, hcipher.encrypt_eq, Option.some.injEq, Prod.mk.injEq] at h
    obtain ⟨rfl, rfl⟩ := h
    exact ⟨hcipher.length_loop _ _ _ _ (by simp), hcipher.length_mac _ _ _ _⟩
  inverts {aead key nonce aad plain cipher tag} h := by
    have hcipher := kosAuthenticated aead
    simp only [Crypto.withCiphers, Option.some.injEq] at h
    have hlen : cipher.length = plain.length := by
      rw [hcipher.encrypt_eq] at h
      cases h
      exact hcipher.length_loop _ _ _ _ (by simp)
    have hinverts := hcipher.sound.roundTrip key nonce aad plain
      ((range plain.length).map fill) ((range cipher.length).map fill) (by simp) (by simp [hlen])
    rw [h] at hinverts
    simp [Crypto.withCiphers, hinverts]

lemma decryptRecord_length {suite : BitVec 16} {key iv : List Byte} {seq : BitVec 64}
    {record : List Byte} {out : List Byte × Byte}
    (h : decryptRecord (crypto.withCiphers fill) suite key iv seq record = some out) :
    out.1.length ≤ recordBufferSize := by
  simp only [decryptRecord] at h
  split_ifs at h with hshort hlen hsize
  cases haead : aeadOf suite with
  | none => simp [haead] at h
  | some aead =>
    simp only [haead, Option.bind_eq_some_iff] at h
    obtain ⟨payload, hdecrypt, hinner⟩ := h
    have hcipher := kosAuthenticated aead
    have hpayload : payload.length ≤ recordBufferSize := by
      simp only [Crypto.withCiphers, hcipher.decrypt_eq] at hdecrypt
      split_ifs at hdecrypt
      · cases hdecrypt
        rw [hcipher.length_loop _ _ _ _ (by simp), length_take]
        omega
      · contradiction
    simp only [innerContent, Option.map_eq_some_iff] at hinner
    obtain ⟨innerType, -, rfl⟩ := hinner
    exact (dropLast_sublist _).length_le.trans (( rdropWhile_prefix _ _).length_le.trans hpayload)

theorem record_round_trip (crypto : Crypto) (fill : ℕ → Byte) {suite : BitVec 16}
    (hsuite : suite ∈ [tlsAes128GcmSha256, tlsAes256GcmSha384, tlsChacha20Poly1305Sha256])
    (key iv : List Byte) (seq : BitVec 64) {innerType : Byte} (htype : innerType ≠ 0)
    {plain : List Byte} (hsize : plain.length ≤ 4095) :
    (∃ record, encryptRecord (crypto.withCiphers fill) suite key iv seq innerType plain =
        some record ∧ decryptRecord (crypto.withCiphers fill) suite key iv seq record =
          some (plain, innerType)) ∧
      ∀ record out, decryptRecord (crypto.withCiphers fill) suite key iv seq record = some out →
        out.1.length ≤ 4096 := by
  refine ⟨?_, fun record out h => decryptRecord_length h⟩
  obtain ⟨aead, haead⟩ : ∃ aead, aeadOf suite = some aead := by
    fin_cases hsuite <;> exact ⟨_, rfl⟩
  let r : PeerRecord := ⟨innerType, plain, 0⟩
  have hpayload : r.payload = plain ++ [innerType] := append_nil _
  have hle : r.payload.length ≤ recordBufferSize := by
    rw [hpayload, length_append]
    exact Nat.succ_le_succ hsize
  refine ⟨_, ?_, decryptRecord_sealed ⟨aead, _, _, haead, rfl, rfl⟩ withCiphers_lawful htype hle⟩
  rw [encryptRecord, ← hpayload, if_neg hle.not_gt, haead]
  rfl

def sampleKey : List Byte := (range 32).map (BitVec.ofNat 8)

def sampleIv : List Byte := (range 12).map fun i => BitVec.ofNat 8 (200 + i)

theorem record_round_trip_sample :
    (∃ record, encryptRecord (plainCrypto.withCiphers fun _ => 0xaa) tlsAes256GcmSha384 sampleKey
        sampleIv 7 recordApplicationData [1, 2, 0, 0] = some record ∧
      decryptRecord (plainCrypto.withCiphers fun _ => 0xaa) tlsAes256GcmSha384 sampleKey sampleIv 7
        record = some ([1, 2, 0, 0], recordApplicationData)) ∧
    ∃ record, encryptRecord (plainCrypto.withCiphers fun _ => 0xaa) tlsChacha20Poly1305Sha256
        sampleKey sampleIv 7 recordApplicationData [1, 2, 0, 0] = some record ∧
      decryptRecord (plainCrypto.withCiphers fun _ => 0xaa) tlsChacha20Poly1305Sha256 sampleKey
        sampleIv 7 record = some ([1, 2, 0, 0], recordApplicationData) :=
  ⟨(record_round_trip plainCrypto (fun _ => 0xaa) (by decide) sampleKey sampleIv 7 (by decide)
      (by decide)).1,
    (record_round_trip plainCrypto (fun _ => 0xaa) (by decide) sampleKey sampleIv 7 (by decide)
      (by decide)).1⟩

end KosKernel.Tls
