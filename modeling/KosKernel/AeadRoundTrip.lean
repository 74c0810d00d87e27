import KosKernel.AesGcmState
import KosKernel.ChaChaPolyState

/-! What the three ciphers with authentication have in common: decryption undoes encryption, it
goes by the tag of encryption, and it leaves the buffer alone when the tag is another one. -/
namespace KosKernel.Aead
open LittleEndian CounterMode AesGcm ChaChaPoly Poly1305

/-- A cipher with authentication, with the buffer for its output as the last argument of each
call. -/
structure Cipher where
  encrypt : (key nonce aad plaintext buffer : List Byte) → List Byte × List Byte
  decrypt : (key nonce aad ciphertext tag buffer : List Byte) → Bool × List Byte

def aes128Gcm : Cipher := ⟨kosAes128GcmEncrypt, kosAes128GcmDecrypt⟩
def aes256Gcm : Cipher := ⟨kosAes256GcmEncrypt, kosAes256GcmDecrypt⟩
def chacha20Poly1305 : Cipher := ⟨kosChacha20Poly1305Encrypt, kosChacha20Poly1305Decrypt⟩

/-- Buffers have the length of the text, tags have sixteen bytes. -/
structure Cipher.Sound (a : Cipher) : Prop where
  roundTrip : ∀ key nonce aad plaintext buffer buffer' : List Byte,
    buffer.length = plaintext.length → buffer'.length = plaintext.length →
    a.decrypt key nonce aad (a.encrypt key nonce aad plaintext buffer).1
      (a.encrypt key nonce aad plaintext buffer).2 buffer' = (true, plaintext)
  tag : ∀ key nonce aad ciphertext buffer buffer' : List Byte,
    buffer.length = ciphertext.length → buffer'.length = ciphertext.length →
    ∃ plaintext, plaintext.length = ciphertext.length ∧
      (a.encrypt key nonce aad plaintext buffer).1 = ciphertext ∧
      ∀ tag, tag.length = 16 → ((a.decrypt key nonce aad ciphertext tag buffer').1 = true ↔
        tag = (a.encrypt key nonce aad plaintext buffer).2)
  failure : ∀ key nonce aad ciphertext tag buffer : List Byte,
    (a.decrypt key nonce aad ciphertext tag buffer).1 = false →
      (a.decrypt key nonce aad ciphertext tag buffer).2 = buffer

/-- A cipher of one loop for both directions and a tag over the ciphertext. -/
structure Authenticated (a : Cipher) where
  loop : (key nonce input buffer : List Byte) → List Byte
  mac : (key nonce aad ciphertext : List Byte) → List Byte
  involution : ∀ key nonce input buffer buffer', buffer.length = input.length →
    buffer'.length = input.length → loop key nonce (loop key nonce input buffer) buffer' = input
  length_loop : ∀ key nonce input buffer, buffer.length = input.length →
    (loop key nonce input buffer).length = input.length
  length_mac : ∀ key nonce aad ciphertext, (mac key nonce aad ciphertext).length = 16
  encrypt_eq : ∀ key nonce aad plaintext buffer, a.encrypt key nonce aad plaintext buffer =
    (loop key nonce plaintext buffer, mac key nonce aad (loop key nonce plaintext buffer))
  decrypt_eq : ∀ key nonce aad ciphertext tag buffer,
    a.decrypt key nonce aad ciphertext tag buffer =
      if sameBytes 16 (mac key nonce aad ciphertext) tag then
        (true, loop key nonce ciphertext buffer)
      else (false, buffer)

lemma Authenticated.sound {a : Cipher} (h : Authenticated a) : a.Sound := by
  refine ⟨?_, ?_, ?_⟩
  · intro key nonce aad plain buf buffer' hbuf hbuffer'
    have hsame : sameBytes 16 (h.mac key nonce aad (h.loop key nonce plain buf))
        (h.mac key nonce aad (h.loop key nonce plain buf)) = true :=
      (sameBytes_iff (h.length_mac _ _ _ _) (h.length_mac _ _ _ _)).mpr rfl
    rw [h.encrypt_eq, h.decrypt_eq, if_pos hsame, h.involution _ _ _ _ _ hbuf hbuffer']
  · intro key nonce aad ciphertext buf buffer' hbuf hbuffer'
    -- the plain is what the loop makes of the ciphertext
    have hplain := h.length_loop key nonce ciphertext buf hbuf
    have hcipher := h.involution key nonce ciphertext buf buf hbuf hbuf
    refine ⟨h.loop key nonce ciphertext buf, hplain, ?_, fun tag htag => ?_⟩
    · rw [h.encrypt_eq, hcipher]
    have hsame := sameBytes_iff (h.length_mac key nonce aad ciphertext) htag
    rw [h.encrypt_eq, h.decrypt_eq, hcipher, @eq_comm _ tag, ← hsame]
    cases sameBytes 16 (h.mac key nonce aad ciphertext) tag with
    | true => exact ⟨fun _ => rfl, fun _ => rfl⟩
    | false => exact ⟨(fun heq => nomatch heq), (fun heq => nomatch heq)⟩
  · intro key nonce aad ciphertext tag buf
    rw [h.decrypt_eq]
    split
    · exact fun hfalse => nomatch hfalse
    · exact fun _ => rfl

section
lemma length_blockOf (f : ℕ → Byte) : (blockOf f).length = 16 := by
  rw [blockOf, List.length_map, List.length_range]

lemma length_aesEncryptBlockRounds (roundKeys : List Byte) (rounds : ℕ) (input : List Byte) :
    (aesEncryptBlockRounds roundKeys rounds input).length = 16 := by
  unfold aesEncryptBlockRounds
  induction List.range rounds using List.reverseRecOn with
  | nil => exact length_blockOf _
  | append_singleton rest round _ =>
    rw [List.foldl_append]
    exact length_blockOf _

lemma length_multiplyTurn {x z v : List Byte} (hz : z.length = 16) (hv : v.length = 16) (bit : ℕ) :
    (multiplyTurn x (z, v) bit).1.length = 16 ∧ (multiplyTurn x (z, v) bit).2.length = 16 := by
  unfold multiplyTurn
  constructor
  · dsimp only
    split
    · rw [length_xorBytes, hz, hv]
      rfl
    · exact hz
  dsimp only
  split
  · rw [length_xorBytes, length_blockOf]
    rfl
  · exact length_blockOf _

lemma length_gcmMultiply (x : List Byte) {y : List Byte} (hy : y.length = 16) :
    (gcmMultiply x y).length = 16 := by
  have hrun : ∀ bits : List ℕ,
      (bits.foldl (multiplyTurn x) (List.replicate 16 0, y)).1.length = 16 ∧
        (bits.foldl (multiplyTurn x) (List.replicate 16 0, y)).2.length = 16 := by
    intro bits
    induction bits using List.reverseRecOn with
    | nil => exact ⟨List.length_replicate, hy⟩
    | append_singleton bits bit ih =>
      rw [List.foldl_append]
      exact length_multiplyTurn ih.1 ih.2 bit
  exact (hrun _).1

lemma length_gcmTag (roundKeys : List Byte) (rounds : ℕ) (nonce aad ciphertext : List Byte) :
    (gcmTag roundKeys rounds nonce aad ciphertext).length = 16 := by
  unfold gcmTag gcmGhash gcmGhashBlock
  dsimp only
  rw [length_xorBytes, length_aesEncryptBlockRounds,
    length_gcmMultiply _ (length_aesEncryptBlockRounds _ _ _)]
  rfl

def gcmAuthenticated (expand : List Byte → List Byte) (rounds : ℕ) : Authenticated
    ⟨fun key => gcmEncrypt (expand key) rounds, fun key => gcmDecrypt (expand key) rounds⟩ where
  loop key := gcmCrypt (expand key) rounds
  mac key := gcmTag (expand key) rounds
  involution _ _ _ _ _ hbuffer hbuffer' :=
    crypt_crypt (fun _ => length_aesEncryptBlockRounds _ _ _) (by decide) _ hbuffer hbuffer'
  length_loop _ _ _ _ hbuffer :=
    length_crypt _ (fun _ => length_aesEncryptBlockRounds _ _ _) (by decide) _ hbuffer
  length_mac _ _ _ _ := length_gcmTag _ _ _ _ _
  encrypt_eq _ _ _ _ _ := rfl
  decrypt_eq _ _ _ _ _ _ := rfl

end

section
lemma length_chacha20Block (state : List Word) : (chacha20Block state).length = 64 := by
  simp [chacha20Block, storeWord]

lemma length_poly1305Finish (ctx : Poly1305Ctx) : (poly1305Finish ctx).length = 16 := by
  simp [poly1305Finish, storeWide]

def chachaAuthenticated : Authenticated chacha20Poly1305 where
  loop key nonce input buffer := chacha20Crypt key nonce 1 (some input) input.length buffer
  mac := chachaTag
  involution _ _ _ _ _ hbuffer hbuffer' :=
    crypt_crypt length_chacha20Block (by decide) _ hbuffer hbuffer'
  length_loop _ _ _ _ hbuffer := length_crypt _ length_chacha20Block (by decide) _ hbuffer
  length_mac _ _ _ _ := length_poly1305Finish _
  encrypt_eq _ _ _ _ _ := rfl
  decrypt_eq _ _ _ _ _ _ := rfl

end

theorem aeads_sound : aes128Gcm.Sound ∧ aes256Gcm.Sound ∧ chacha20Poly1305.Sound :=
  ⟨(gcmAuthenticated aes128ExpandKey 10).sound, (gcmAuthenticated aes256ExpandKey 14).sound,
    chachaAuthenticated.sound⟩

end KosKernel.Aead
