import KosKernel.TlsSession

/-! Records as a peer makes them, and reading them back. -/
namespace KosKernel.Tls
open X509 List

/-- What is asked of the authenticated encryption: ciphertexts are as long as their plaintexts,
tags have sixteen bytes, and decryption undoes encryption. -/
structure Crypto.Lawful (crypto : Crypto) : Prop where
  sizes : ∀ {aead key nonce aad plaintext ciphertext tag},
    crypto.aeadEncrypt aead key nonce aad plaintext = some (ciphertext, tag) →
      ciphertext.length = plaintext.length ∧ tag.length = 16
  inverts : ∀ {aead key nonce aad plaintext ciphertext tag},
    crypto.aeadEncrypt aead key nonce aad plaintext = some (ciphertext, tag) →
      crypto.aeadDecrypt aead key nonce aad ciphertext tag = some plaintext

lemma plainCrypto_lawful : plainCrypto.Lawful where
  sizes h := by
    cases h
    exact ⟨rfl, rfl⟩
  inverts h := by
    cases h
    rfl

/-- Content, type and padding of a record. -/
structure PeerRecord where
  innerType : Byte
  content : List Byte
  padding : ℕ := 0

def PeerRecord.payload (r : PeerRecord) : List Byte :=
  r.content ++ [r.innerType] ++ replicate r.padding 0

/-- The record has a type and fits into the client's buffer. -/
structure PeerRecord.Fits (r : PeerRecord) : Prop where
  type : r.innerType ≠ 0
  size : 5 + r.payload.length + 16 ≤ recordBufferSize

lemma PeerRecord.Fits.payload_le {r : PeerRecord} (h : r.Fits) :
    r.payload.length ≤ recordBufferSize := by
  have := h.size
  omega

def Sealed (crypto : Crypto) (suite : BitVec 16) (key iv : List Byte) (seq : BitVec 64)
    (r : PeerRecord) (bytes : List Byte) : Prop :=
  ∃ aead ciphertext tag, aeadOf suite = some aead ∧
    crypto.aeadEncrypt aead key (constructNonce iv seq) (recordHeader r.payload.length) r.payload =
      some (ciphertext, tag) ∧
    bytes = recordHeader r.payload.length ++ ciphertext ++ tag

lemma length_recordHeader (n : ℕ) : (recordHeader n).length = 5 := rfl

variable {n : ℕ}

lemma u16_u16Bytes (hn : n < 65536) (front back : List Byte) :
    u16 (front ++ u16Bytes n ++ back) front.length = n := by
  have hfirst : (front ++ u16Bytes n ++ back).getD front.length 0 = BitVec.ofNat 8 (n / 256) := by
    simp [u16Bytes]
  have hsecond : (front ++ u16Bytes n ++ back).getD (front.length + 1) 0 = BitVec.ofNat 8 n := by
    simp [u16Bytes, getD_eq_getElem?_getD]
  rw [u16, hfirst, hsecond, BitVec.toNat_ofNat, BitVec.toNat_ofNat]
  omega

lemma u16_recordHeader (hn : n + 16 < 65536) (rest : List Byte) :
    u16 (recordHeader n ++ rest) 3 = n + 16 :=
  u16_u16Bytes hn [recordApplicationData, 0x03, 0x03] rest

variable {r : PeerRecord}

lemma innerContent_payload (h : r.innerType ≠ 0) :
    innerContent r.payload = some (r.content, r.innerType) := by
  have htrim : ∀ n, (r.content ++ [r.innerType] ++ replicate n 0).rdropWhile
      (fun b => decide (b = 0)) = r.content ++ [r.innerType] := by
    intro n
    induction n with
    | zero =>
      rw [replicate_zero, append_nil, rdropWhile_concat_neg]
      simpa using h
    | succ n ih =>
      rw [replicate_succ', ← append_assoc, rdropWhile_concat_pos _ _ _ (by simp)]
      exact ih
  simp only [innerContent, PeerRecord.payload, htrim]
  simp

section
variable {C : Crypto} {suite : BitVec 16} {key iv : List Byte} {seq : BitVec 64}
  {r : PeerRecord} {bytes : List Byte}

section
variable (h : Sealed C suite key iv seq r bytes)
include h

lemma Sealed.length (hlawful : C.Lawful) : bytes.length = 5 + (r.payload.length + 16) := by
  obtain ⟨aead, ciphertext, tag, -, hseal, rfl⟩ := h
  obtain ⟨hct, htag⟩ := hlawful.sizes hseal
  simp only [length_append, length_recordHeader, hct, htag]
  omega

lemma Sealed.header (hsize : r.payload.length ≤ recordBufferSize) :
    u16 (bytes.take 5) 3 = r.payload.length + 16 ∧
      bytes.take 5 = recordHeader r.payload.length := by
  unfold recordBufferSize at hsize
  obtain ⟨aead, ciphertext, tag, -, -, rfl⟩ := h
  have htake : (recordHeader r.payload.length ++ ciphertext ++ tag).take 5 =
      recordHeader r.payload.length := by
    rw [append_assoc, ← length_recordHeader r.payload.length, take_left]
  have hlen := u16_recordHeader (n := r.payload.length) (by omega) []
  rw [append_nil] at hlen
  rw [htake]
  exact ⟨hlen, rfl⟩

lemma decryptRecord_sealed (hlawful : C.Lawful) (htype : r.innerType ≠ 0)
    (hsize : r.payload.length ≤ recordBufferSize) :
    decryptRecord C suite key iv seq bytes = some (r.content, r.innerType) := by
  have hlength := h.length hlawful
  have htake := (h.header hsize).2
  unfold recordBufferSize at hsize
  have hpayload : 1 ≤ r.payload.length := by
    simp only [PeerRecord.payload, length_append, length_singleton]
    omega
  obtain ⟨aead, ciphertext, tag, haead, hseal, rfl⟩ := h
  obtain ⟨hct, htag⟩ := hlawful.sizes hseal
  have hu16 : u16 (recordHeader r.payload.length ++ ciphertext ++ tag) 3 =
      r.payload.length + 16 := by
    rw [append_assoc]
    exact u16_recordHeader (by omega) _
  have hbody : ((recordHeader r.payload.length ++ ciphertext ++ tag).drop 5).take r.payload.length =
      ciphertext := by
    rw [append_assoc, ← length_recordHeader r.payload.length, drop_left]
    exact take_left' hct
  have htagged : (recordHeader r.payload.length ++ ciphertext ++ tag).drop (5 + r.payload.length) =
      tag := by
    have hfront : (recordHeader r.payload.length ++ ciphertext).length = 5 + r.payload.length := by
      rw [length_append, length_recordHeader, hct]
    rw [← hfront, drop_left]
  rw [decryptRecord, if_neg (by omega)]
  simp only [hu16, Nat.add_sub_cancel]
  rw [if_neg (by omega), if_neg (by unfold recordBufferSize; omega), haead]
  simp only [htake, hbody, htagged, hlawful.inverts hseal, Option.bind_some]
  exact innerContent_payload htype

end
end

lemma socketReadExact_append (bytes : List Byte) (rest : List (Option Byte)) :
    socketReadExact bytes.length (bytes.map some ++ rest) = (true, bytes, rest) := by
  induction bytes with
  | nil => rfl
  | cons b bytes ih => simp [socketReadExact, ih]

variable {bytes : List Byte}

lemma socketReadExact_take (hn : n ≤ bytes.length) (rest : List (Option Byte)) :
    socketReadExact n (bytes.map some ++ rest) =
      (true, bytes.take n, (bytes.drop n).map some ++ rest) := by
  have hsplit : bytes.map some ++ rest =
      (bytes.take n).map some ++ ((bytes.drop n).map some ++ rest) := by
    rw [← append_assoc, ← map_append, take_append_drop]
  have hlen : (bytes.take n).length = n := by simp [hn]
  rw [hsplit]
  nth_rewrite 1 [← hlen]
  exact socketReadExact_append _ _

def WholeRecord (bytes : List Byte) : Prop := bytes.length = 5 + u16 (bytes.take 5) 3

lemma WholeRecord.read (h : WholeRecord bytes) (rest : List (Option Byte)) :
    socketReadExact 5 (bytes.map some ++ rest) =
        (true, bytes.take 5, (bytes.drop 5).map some ++ rest) ∧
      socketReadExact (u16 (bytes.take 5) 3) ((bytes.drop 5).map some ++ rest) =
        (true, bytes.drop 5, rest) := by
  unfold WholeRecord at h
  have hrest : (bytes.drop 5).length = u16 (bytes.take 5) 3 := by
    rw [length_drop]
    omega
  refine ⟨socketReadExact_take (by omega) _, ?_⟩
  rw [← hrest]
  exact socketReadExact_append _ _

variable {suite : BitVec 16}

lemma Sealed.whole {C : Crypto} {key iv : List Byte} {seq : BitVec 64} (h : Sealed C suite key iv seq r bytes)
    (hlawful : C.Lawful) (hfits : r.Fits) : WholeRecord bytes := by
  rw [WholeRecord, (h.header hfits.payload_le).1, h.length hlawful]

/-- The bytes on the wire of a sequence of records, numbered from `n` on. -/
inductive Sends (crypto : Crypto) (suite : BitVec 16) (key iv : List Byte) :
    ℕ → List PeerRecord → List Byte → Prop
  | nil (n : ℕ) : Sends crypto suite key iv n [] []
  | cons {n : ℕ} {r : PeerRecord} {records : List PeerRecord} {bytes wire : List Byte} :
    Sealed crypto suite key iv (BitVec.ofNat 64 n) r bytes →
    Sends crypto suite key iv (n + 1) records wire →
    Sends crypto suite key iv n (r :: records) (bytes ++ wire)

lemma sends_plain {crypto : Crypto} (haead : crypto.aeadEncrypt = plainCrypto.aeadEncrypt)
    (hsuite : aeadOf suite = some .aes128Gcm) (key iv : List Byte)
    (n : ℕ) {records : List PeerRecord} (hrecs : ∀ r ∈ records, r.padding = 0) :
    Sends crypto suite key iv n records
      (records.flatMap fun r => plainRecord r.innerType r.content) := by
  induction records generalizing n with
  | nil => exact .nil n
  | cons r records ih =>
    rw [forall_mem_cons] at hrecs
    refine .cons ⟨.aes128Gcm, _, _, hsuite, by rw [haead]; rfl, ?_⟩ (ih (n + 1) hrecs.2)
    simp [plainRecord, PeerRecord.payload, hrecs.1]

end KosKernel.Tls
