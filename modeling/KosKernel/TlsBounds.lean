import KosKernel.TlsMessages
import KosKernel.TlsSession

/-! Which lengths sent by the peer keep the client inside its buffers. -/
namespace KosKernel.Tls
open ByteMemory X509 Programs List Buffer

def Event.Within : Event → Prop
  | .access buffer start count => ∀ i < count, start + i < buffer.size
  | _ => True

open Event

instance : DecidablePred Event.Within
  | .access buffer start count => inferInstanceAs (Decidable (∀ i < count, start + i < buffer.size))
  | .sent _ => isTrue trivial
  | .message _ => isTrue trivial
  | .checked _ => isTrue trivial
  | .encrypted _ _ => isTrue trivial
  | .decrypted _ _ => isTrue trivial

def Link.Within (l : Link) : Prop := ∀ e ∈ l.log, e.Within

instance (l : Link) : Decidable l.Within := inferInstanceAs (Decidable (∀ e ∈ l.log, e.Within))

lemma access_within_iff {buffer : Buffer} {start count : ℕ} (hcount : 0 < count) :
    (access buffer start count).Within ↔ start + count ≤ buffer.size := by
  constructor
  · intro h
    have hlast := h (count - 1) (by omega)
    omega
  · intro h i hi
    omega

@[simp] lemma message_within (type : Byte) : (message type).Within := trivial

@[simp] lemma sent_within (bytes : List Byte) : (sent bytes).Within := trivial

@[simp] lemma checked_within (check : PeerCheck) : (checked check).Within := trivial

@[simp] lemma encrypted_within (key : KeyKind) (nonce : List Byte) :
    (encrypted key nonce).Within := trivial

@[simp] lemma decrypted_within (key : KeyKind) (nonce : List Byte) :
    (decrypted key nonce).Within := trivial

lemma within_append_iff {l l' : Link} {events : List Event} (h : l'.log = l.log ++ events) :
    l'.Within ↔ l.Within ∧ ∀ e ∈ events, e.Within := by
  rw [Link.Within, h, forall_mem_append, Link.Within]

lemma within_congr {l l' : Link} (h : l'.log = l.log) : l'.Within ↔ l.Within ∧ True := by
  rw [Link.Within, h, and_true, Link.Within]

/-! Conditions on what the peer sends. -/

/-- The extensions that are visited, and the key shares among them, lie in `hs_buf`. -/
def ExtensionsFit (buf : Memory) (extEnd : ℕ) : ℕ → ℕ → Prop
  | 0, _ => True
  | fuel + 1, off =>
    off + 4 ≤ extEnd →
      off + 4 ≤ Buffer.hsBuf.size ∧
      (u16At buf off = 0x0033 ∧ 36 ≤ u16At buf (off + 2) →
        off + 6 ≤ Buffer.hsBuf.size ∧
          (u16At buf (off + 4) = groupX25519 → off + 40 ≤ Buffer.hsBuf.size)) ∧
      ExtensionsFit buf extEnd fuel (off + 4 + u16At buf (off + 2))

/-- The message and its extensions end in `hs_buf`, as their lengths have it. -/
def ServerHelloFits (buf : Memory) : Prop :=
  buf 0 = hsServerHello →
    u24At buf 1 + 4 ≤ Buffer.hsBuf.size ∧
      ExtensionsFit buf (suiteOffset buf + 5 + u16At buf (suiteOffset buf + 3))
        (suiteOffset buf + 5 + u16At buf (suiteOffset buf + 3)) (suiteOffset buf + 5)

/-- Each certificate that is visited, with the length behind it, lies in `decrypted_buf`. -/
def CertificatesFit (m : Memory) (listEnd : ℕ) : ℕ → ℕ → Prop
  | 0, _ => True
  | room + 1, cOff =>
    cOff + 3 < listEnd →
      let behind := cOff + 3 + u24At m (decryptedBase + cOff)
      behind + 2 ≤ Buffer.decryptedBuf.size ∧
        CertificatesFit m listEnd room (behind + 2 + u16At m (decryptedBase + behind))

def listOffset (m : Memory) (offset : ℕ) : ℕ := offset + 5 + (m (decryptedBase + offset + 4)).toNat

def CertificateListFits (m : Memory) (offset : ℕ) : Prop :=
  listOffset m offset + 3 ≤ Buffer.decryptedBuf.size ∧
    CertificatesFit m (listOffset m offset + 3 + u24At m (decryptedBase + listOffset m offset))
      maxChainDepth (listOffset m offset + 3)

section
variable (crypto : Crypto) (secret : List Byte) (m : Memory)

/-- First byte at which the Finished message at an offset differs from the code for the
transcript. -/
def firstMismatch (offset : ℕ) (transcript : List Byte) : Option ℕ :=
  macMismatch m offset (finishedMac crypto secret transcript)

/-- The message at an offset of `decrypted_buf` ends in it as its lengths have it. Of a message
of another type only the header is read, and a wrong Finished is read up to the first wrong
byte. -/
def MessageFits (offset : ℕ) (transcript : List Byte) : Prop :=
  let type := m (decryptedBase + offset)
  let behind := offset + 4 + messageLength m offset
  offset + 4 ≤ Buffer.decryptedBuf.size ∧
    (type = hsEncryptedExtensions ∨ type = hsCertificateVerify →
      behind ≤ Buffer.decryptedBuf.size) ∧
    (type = hsCertificate → behind ≤ Buffer.decryptedBuf.size ∧ CertificateListFits m offset) ∧
    (type = hsFinished →
      match firstMismatch crypto secret m offset transcript with
      | some i => offset + 5 + i ≤ Buffer.decryptedBuf.size
      | none => offset + 36 ≤ Buffer.decryptedBuf.size ∧ behind ≤ Buffer.decryptedBuf.size)

def transcriptAfter (offset : ℕ) (transcript : List Byte) : List Byte :=
  if m (decryptedBase + offset) ∈ hashedTypes then transcript ++ messageBytes m offset
  else transcript

def GoesOn (offset : ℕ) (transcript : List Byte) : Prop :=
  m (decryptedBase + offset) = hsFinished →
    firstMismatch crypto secret m offset transcript = none

def MessagesFit (ptLen : ℕ) : ℕ → ℕ → List Byte → Prop
  | 0, _, _ => True
  | turns + 1, offset, transcript =>
    offset < ptLen → MessageFits crypto secret m offset transcript ∧
      (GoesOn crypto secret m offset transcript →
        MessagesFit ptLen turns (offset + 4 + messageLength m offset)
          (transcriptAfter m offset transcript))

end

def HelloFits (l : Link) : Prop :=
  l.headerRead.1 = true → u16 l.headerRead.2.1 3 ≤ Buffer.hsBuf.size → l.bodyRead.1 = true →
    ServerHelloFits (storeBytes l.hsBuf 0 l.bodyRead.2.1)

def RecordFits (crypto : Crypto) (l : Link) : Prop :=
  let s := l.session
  l.headerRead.1 = true →
    if l.headerRead.2.1.getD 0 0 = recordChangeCipherSpec then
      l.bodyRead.2.1.length ≤ Buffer.ccsBuf.size
    else
      5 + l.bodyRead.2.1.length ≤ Buffer.encryptedRec.size ∧
        (l.bodyRead.1 = true → ∀ plaintext type,
          nextPlaintext crypto l = some (plaintext, type) →
          MessagesFit crypto s.serverHandshakeTrafficSecret
            (storeBytes l.memory decryptedBase plaintext) plaintext.length plaintext.length 0
            s.transcript)

def RecvFits (l : Link) : Prop :=
  l.headerRead.1 = true → 5 + l.bodyRead.2.1.length ≤ Buffer.encRec.size

def Turns (crypto : Crypto) (fuel : ℕ) : Link → Link → Prop :=
  Relation.ReflTransGen fun l l' => recordTurn crypto fuel l = .going false l'

/-- The condition on the whole handshake: on the ServerHello, and on the next record whenever
the record loop comes to it. -/
def HandshakeFits (crypto : Crypto) (entropy : Entropy) (fuel : ℕ) (l : Link) : Prop :=
  ∀ l₁, sendClientHello crypto entropy l = .going () l₁ →
    HelloFits l₁ ∧ ∀ l₂, readServerHello crypto l₁ = .going () l₂ →
      ∀ l₃, Turns crypto fuel l₂ l₃ → RecordFits crypto l₃

/-- Sizes of what the primitives and the entropy source fill in. -/
structure Crypto.Sized (crypto : Crypto) (entropy : Entropy) : Prop where
  decrypted : ∀ {aead key nonce aad ciphertext tag plaintext},
    crypto.aeadDecrypt aead key nonce aad ciphertext tag = some plaintext →
      plaintext.length = ciphertext.length
  publicKey : ∀ scalar, (crypto.x25519Base scalar).length ≤ 32
  random : entropy.clientRandom.length ≤ 32
  sessionId : entropy.sessionId.length ≤ 32

/-! The conditions are exact. -/

lemma extensionLoop_within (buf : Memory) (extEnd fuel off : ℕ) :
    (∀ e ∈ (extensionLoop buf extEnd fuel off).2, e.Within) ↔ ExtensionsFit buf extEnd fuel off := by
  induction fuel generalizing off with
  | zero => simp [extensionLoop, ExtensionsFit]
  | succ fuel ih =>
    by_cases h : off + 4 ≤ extEnd
    · have hheader : (access .hsBuf off 4).Within ↔ off + 4 ≤ hsBuf.size :=
        access_within_iff (by decide)
      have hgroup : (access .hsBuf (off + 4) 2).Within ↔ off + 6 ≤ hsBuf.size :=
        access_within_iff (by decide)
      have hshare : (access .hsBuf (off + 4 + 4) 32).Within ↔ off + 40 ≤ hsBuf.size :=
        access_within_iff (by decide)
      rw [extensionLoop, if_pos h, ExtensionsFit]
      simp only [forall_mem_cons, forall_mem_append, ih, hheader, h, forall_true_left]
      by_cases hkind : u16At buf off = 0x0033 ∧ 36 ≤ u16At buf (off + 2)
      · by_cases hknown : u16At buf (off + 4) = groupX25519
        · simp [hkind, hknown, hgroup, hshare]
        · simp [hkind, hknown, hgroup]
      · simp [hkind]
    · simp [extensionLoop, ExtensionsFit, h]

lemma length_socketReadExact (n : ℕ) (incoming : List (Option Byte)) :
    (socketReadExact n incoming).2.1.length ≤ n := by
  fun_induction socketReadExact n incoming with
  | case1 => simp
  | case2 => simp
  | case3 => simp
  | case4 n b incoming ok bytes rest heq ih =>
    rw [heq] at ih
    simpa using ih

lemma length_of_socketReadExact {n : ℕ} {incoming : List (Option Byte)}
    (h : (socketReadExact n incoming).1 = true) : (socketReadExact n incoming).2.1.length = n := by
  fun_induction socketReadExact n incoming with
  | case1 => rfl
  | case2 => cases h
  | case3 => cases h
  | case4 n b incoming ok bytes rest heq ih =>
    rw [heq] at ih
    simpa using ih h

lemma length_innerContent {payload plain : List Byte} {type : Byte}
    (h : innerContent payload = some (plain, type)) : plain.length ≤ payload.length := by
  simp only [innerContent, Option.map_eq_some_iff, Prod.mk.injEq] at h
  obtain ⟨_, -, rfl, -⟩ := h
  have htrim := (List.rdropWhile_prefix (fun b => decide (b = 0)) payload).length_le
  rw [length_dropLast]
  omega

lemma length_decryptRecord {C : Crypto} {entropy : Entropy} (hsized : C.Sized entropy)
    {suite : BitVec 16} {key iv : List Byte} {seq : BitVec 64} {record plain : List Byte}
    {type : Byte} (h : decryptRecord C suite key iv seq record = some (plain, type)) :
    plain.length ≤ recordBufferSize := by
  unfold decryptRecord at h
  dsimp only at h
  split_ifs at h with hshort hlen hsize
  cases haead : aeadOf suite with
  | none => simp [haead] at h
  | some aead =>
    simp only [haead, Option.bind_eq_some_iff] at h
    obtain ⟨payload, hopen, hinner⟩ := h
    have hpayload := hsized.decrypted hopen
    have hplain := length_innerContent hinner
    rw [length_take] at hpayload
    omega

section
variable {A B : Type} {f : Handshake A} {g : A → Handshake B} {a : A} {l l' : Link} {c : Prop}

lemma within_silent (h : f l = .going a l') (hlog : l'.log = l.log)
    (hg : KeepsIff Link.Within c (g a) l') : KeepsIff Link.Within c (f >>= g) l :=
  (keepsIff_step h (within_congr hlog) hg).congr (by rw [true_and])

lemma within_note (events : List Event) {g : Unit → Handshake B}
    (hg : KeepsIff Link.Within c (g ()) (l.note events)) :
    KeepsIff Link.Within ((∀ e ∈ events, e.Within) ∧ c) (note events >>= g) l :=
  keepsIff_step rfl (within_append_iff rfl) hg

lemma within_failWith (error : TlsError) : KeepsIff Link.Within True (failWith error : Handshake A) l :=
  keepsIff_ended rfl (within_congr rfl)

end

lemma storeCertificate_within (fuel cOff certLen : ℕ) (l : Link) :
    KeepsIff Link.Within True (storeCertificate fuel cOff certLen) l := by
  refine within_silent rfl rfl ?_
  unfold keepCertificate
  split
  · exact keepsIff_going rfl (within_congr rfl)
  · exact keepsIff_going rfl (within_congr rfl)
  · exact keepsIff_running rfl

lemma certificateLoop_within (fuel listEnd room cOff : ℕ) (l : Link) :
    KeepsIff Link.Within (CertificatesFit l.memory listEnd room cOff)
      (certificateLoop fuel listEnd room cOff) l := by
  induction room generalizing cOff l with
  | zero => exact keepsIff_going rfl (within_congr rfl)
  | succ room ih =>
    by_cases h : cOff + 3 < listEnd
    · let certLen := u24At l.memory (decryptedBase + cOff)
      let behind := cOff + 3 + certLen
      have hlater : ∀ l', Listed l l' → KeepsIff Link.Within
          ((∀ e ∈ [access .decryptedBuf behind 2], e.Within) ∧ CertificatesFit l.memory listEnd
            room (behind + 2 + u16At l.memory (decryptedBase + behind)))
          (note [.access .decryptedBuf behind 2] >>= fun _ => certificateLoop fuel listEnd room
            (behind + 2 + u16At l.memory (decryptedBase + behind))) l' := by
        rintro _ ⟨_, _, _, rfl⟩
        exact within_note _ (ih _ _)
      have hloop := within_note (l := l)
        [.access .decryptedBuf cOff 3, .access .decryptedBuf (cOff + 3) certLen]
        (g := fun _ => storeCertificate fuel (cOff + 3) certLen >>=
          fun _ => note [.access .decryptedBuf behind 2] >>= fun _ => certificateLoop fuel listEnd
            room (behind + 2 + u16At l.memory (decryptedBase + behind)))
        (keepsIff_bind (storeCertificate_within _ _ _ _)
          (fun _ l' hstore => hlater l' (IsTrans.trans _ _ _ ⟨_, _, _, rfl⟩
            ((storeCertificate_lists _ _ _).going hstore)))
          fun _ l' hstore => absurd hstore (storeCertificate_lists _ _ _).not_ended)
      rw [certificateLoop, if_pos h]
      refine KeepsIff.congr (within_silent rfl rfl hloop) ?_
      have hbehind : (access .decryptedBuf behind 2).Within ↔
          behind + 2 ≤ decryptedBuf.size := access_within_iff (by decide)
      simp only [CertificatesFit, h, forall_true_left, forall_mem_cons, not_mem_nil,
        false_imp_iff, implies_true, and_true, true_and, hbehind]
      -- what lies before the end of the entry is in the buffer when the end is
      refine and_iff_right_of_imp fun hfits => ⟨fun i hi => ?_, fun i hi => ?_⟩ <;>
        exact lt_of_lt_of_le (by omega) hfits.1
    · rw [certificateLoop, if_neg h]
      exact keepsIff_going rfl (by simp [CertificatesFit, h])

lemma handleCertificate_within (fuel offset : ℕ) (l : Link) :
    KeepsIff Link.Within (CertificateListFits l.memory offset) (handleCertificate fuel offset) l := by
  have hloop := within_note (l := l)
    [.access .decryptedBuf (offset + 4) 1, .access .decryptedBuf (listOffset l.memory offset) 3]
    (g := fun _ => updateSession (fun s => { s with peerCount := 0 }) >>= fun _ => certificateLoop fuel
        (listOffset l.memory offset + 3 + u24At l.memory (decryptedBase + listOffset l.memory offset))
        maxChainDepth (listOffset l.memory offset + 3))
    (within_silent rfl rfl (certificateLoop_within _ _ _ _ _))
  refine KeepsIff.congr (within_silent rfl rfl hloop) ?_
  have hcontext : (access .decryptedBuf (offset + 4) 1).Within ↔
      offset + 5 ≤ decryptedBuf.size := access_within_iff (by decide)
  have hlist : (access .decryptedBuf (listOffset l.memory offset) 3).Within ↔
      listOffset l.memory offset + 3 ≤ decryptedBuf.size := access_within_iff (by decide)
  have hle : offset + 5 ≤ listOffset l.memory offset := Nat.le_add_right _ _
  simp only [forall_mem_cons, not_mem_nil, false_imp_iff, implies_true, and_true,
    hcontext, hlist, CertificateListFits]
  refine and_congr_left fun _ => and_iff_right_of_imp fun hfits => ?_
  omega

section
variable (C : Crypto) (fuel offset : ℕ) (isDone : Bool) (l : Link)

lemma began_within_iff : (l.began offset).Within ↔ l.Within ∧ offset + 4 ≤ decryptedBuf.size := by
  have hheader : (access .decryptedBuf offset 4).Within ↔
      offset + 4 ≤ decryptedBuf.size := access_within_iff (by decide)
  rw [within_append_iff (l := l) rfl]
  simp [hheader]

lemma hashed_within_iff (state : TlsState) : (l.hashed state offset).Within ↔
    l.Within ∧ offset + 4 + messageLength l.memory offset ≤ decryptedBuf.size := by
  have hmsg : (access .decryptedBuf offset (4 + messageLength l.memory offset)).Within ↔
      offset + (4 + messageLength l.memory offset) ≤ decryptedBuf.size :=
    access_within_iff (by omega)
  rw [within_append_iff (l := l) rfl]
  simp [hmsg, Nat.add_assoc]

lemma handleMessage_within :
    KeepsIff Link.Within (MessageFits C l.session.serverHandshakeTrafficSecret l.memory offset
      l.session.transcript) (handleMessage C fuel offset isDone) l := by
  have hheader := began_within_iff offset l
  have hhashed : ∀ state, ((l.began offset).hashed state offset).Within ↔ l.Within ∧
      offset + 4 ≤ decryptedBuf.size ∧
      offset + 4 + messageLength l.memory offset ≤ decryptedBuf.size := by
    intro state
    rw [hashed_within_iff, hheader, and_assoc]
    rfl
  have hout := handleMessage_outcome C fuel offset isDone l
  rw [MessageFits]
  generalize hrun : handleMessage C fuel offset isDone l = outcome at hout
  cases hout with
  | hashed state htype =>
    refine keepsIff_going hrun ?_
    rw [hhashed]
    rcases htype with ⟨htype, -⟩ | ⟨htype, -⟩ <;>
      simp [htype, hsEncryptedExtensions, hsCertificateVerify, hsCertificate, hsFinished]
  | @certificate l' htype hlist =>
    have hcert := handleCertificate_within fuel offset ((l.began offset).hashed .certificate offset)
    rw [KeepsIff, hlist] at hcert
    have hiff : l'.Within ↔ ((l.began offset).hashed .certificate offset).Within ∧
        CertificateListFits l.memory offset := hcert
    refine keepsIff_going hrun (hiff.trans ?_)
    rw [hhashed]
    simp [htype, and_assoc, hsEncryptedExtensions, hsCertificateVerify, hsCertificate, hsFinished]
  | unfinished => exact keepsIff_running hrun
  | @mismatch i htype hmac =>
    have hcompared : (access .decryptedBuf (offset + 4) (i + 1)).Within ↔
        offset + 5 + i ≤ decryptedBuf.size := by
      rw [access_within_iff (by omega)]
      omega
    have hfirst : firstMismatch C l.session.serverHandshakeTrafficSecret l.memory offset
        l.session.transcript = some i := hmac
    refine keepsIff_ended hrun ?_
    rw [within_append_iff (l := l.began offset) rfl, hheader, hfirst]
    simp [htype, hcompared, and_assoc, hsEncryptedExtensions, hsCertificateVerify, hsCertificate,
      hsFinished]
  | finished htype hmac =>
    have hcompared : (access .decryptedBuf (offset + 4) 32).Within ↔
        offset + 36 ≤ decryptedBuf.size := access_within_iff (by omega)
    have hfirst : firstMismatch C l.session.serverHandshakeTrafficSecret l.memory offset
        l.session.transcript = none := hmac
    have hnote : ((l.began offset).note [.access .decryptedBuf (offset + 4) 32]).memory =
        l.memory := rfl
    refine keepsIff_going hrun ?_
    rw [hashed_within_iff, within_append_iff (l := l.began offset) rfl, hheader, hfirst, hnote]
    simp [htype, hcompared, and_assoc, hsEncryptedExtensions, hsCertificateVerify, hsCertificate,
      hsFinished]
  | other htype =>
    simp only [hashedTypes, mem_cons, not_mem_nil, or_false, not_or] at htype
    refine keepsIff_going hrun ?_
    rw [hheader]
    simp [htype]

/-- Behind a message the buffer and the secret are the same, and the transcript has grown. -/
structure Behind (offset : ℕ) (l l' : Link) : Prop where
  memory : l'.memory = l.memory
  secret : l'.session.serverHandshakeTrafficSecret = l.session.serverHandshakeTrafficSecret
  transcript : l'.session.transcript = transcriptAfter l.memory offset l.session.transcript

lemma handleMessage_behind {l l' : Link} {done : Bool}
    (h : handleMessage C fuel offset isDone l = .going done l') :
    Behind offset l l' ∧
      GoesOn C l.session.serverHandshakeTrafficSecret l.memory offset l.session.transcript := by
  have hgrown : l.memory (decryptedBase + offset) ∈ hashedTypes →
      transcriptAfter l.memory offset l.session.transcript =
        l.session.transcript ++ messageBytes l.memory offset := fun htype => if_pos htype
  have hout := handleMessage_outcome C fuel offset isDone l
  rw [h] at hout
  unfold GoesOn
  cases hout with
  | hashed state htype =>
    rcases htype with ⟨htype, -⟩ | ⟨htype, -⟩ <;> rw [htype] at hgrown ⊢ <;>
      exact ⟨⟨rfl, rfl, (hgrown (by decide)).symm⟩, fun hfin => absurd hfin (by decide)⟩
  | certificate htype hlist =>
    obtain ⟨_, _, _, rfl⟩ := (handleCertificate_lists fuel offset).going hlist
    rw [htype] at hgrown ⊢
    exact ⟨⟨rfl, rfl, (hgrown (by decide)).symm⟩, fun hfin => absurd hfin (by decide)⟩
  | finished htype hmac =>
    rw [htype] at hgrown
    exact ⟨⟨rfl, rfl, (hgrown (by decide)).symm⟩, fun _ => hmac⟩
  | other htype =>
    refine ⟨⟨rfl, rfl, (if_neg htype).symm⟩, fun hfin => ?_⟩
    rw [hfin] at htype
    exact absurd (by decide) htype

lemma handleMessage_stops {l l' : Link} {error : TlsError}
    (h : handleMessage C fuel offset isDone l = .ended error l') :
    ¬GoesOn C l.session.serverHandshakeTrafficSecret l.memory offset l.session.transcript := by
  have hout := handleMessage_outcome C fuel offset isDone l
  rw [h] at hout
  cases hout with
  | mismatch htype hmac =>
    intro hgoes
    have hnone : finishedMismatch C offset l = none := hgoes htype
    rw [hnone] at hmac
    cases hmac

lemma messageLoop_within (ptLen turns : ℕ) :
    KeepsIff Link.Within (MessagesFit C l.session.serverHandshakeTrafficSecret l.memory ptLen
      turns offset l.session.transcript) (messageLoop C fuel ptLen turns offset isDone) l := by
  induction turns generalizing offset isDone l with
  | zero => exact keepsIff_going rfl (within_congr rfl)
  | succ turns ih =>
    by_cases h : offset < ptLen
    · rw [messageLoop, if_pos h]
      have hloop := keepsIff_bind (g := fun done => messageLoop C fuel ptLen turns
          (offset + 4 + messageLength l.memory offset) done)
        (d := GoesOn C l.session.serverHandshakeTrafficSecret l.memory offset
            l.session.transcript → MessagesFit C l.session.serverHandshakeTrafficSecret l.memory
          ptLen turns (offset + 4 + messageLength l.memory offset)
          (transcriptAfter l.memory offset l.session.transcript))
        (handleMessage_within C fuel offset isDone l) (fun done l' hout => ?_)
        fun error l' hout hgoes => absurd hgoes (handleMessage_stops C fuel offset isDone hout)
      · refine KeepsIff.congr (within_silent rfl rfl hloop) ?_
        simp only [MessagesFit, h, forall_true_left]
      obtain ⟨hbehind, hgoes⟩ := handleMessage_behind C fuel offset isDone hout
      have hih := ih (offset + 4 + messageLength l.memory offset) done l'
      rw [hbehind.memory, hbehind.secret, hbehind.transcript] at hih
      exact hih.congr (by simp [hgoes])
    · rw [messageLoop, if_neg h]
      exact keepsIff_going rfl (by simp [MessagesFit, h])

lemma recordRead_within_iff : l.recordRead.Within ↔
    l.Within ∧ 5 + l.bodyRead.2.1.length ≤ encryptedRec.size := by
  have hheader : (access .encryptedRec 0 5).Within ↔ 0 + 5 ≤ encryptedRec.size :=
    access_within_iff (by decide)
  have hrest : (access .encryptedRec 5 l.bodyRead.2.1.length).Within ↔
      5 + l.bodyRead.2.1.length ≤ encryptedRec.size := by
    rcases Nat.eq_zero_or_pos l.bodyRead.2.1.length with hzero | hpos
    · rw [hzero]
      simp [Event.Within, size]
    · exact access_within_iff hpos
  rw [within_append_iff (l := l) rfl]
  simp [hheader, hrest, size]

lemma opened_within_iff {record : List Byte} (hrecord : 0 < record.length) :
    (l.opened record).Within ↔ l.Within ∧ record.length ≤ encryptedRec.size := by
  have haccess : (access .encryptedRec 0 record.length).Within ↔
      0 + record.length ≤ encryptedRec.size := access_within_iff hrecord
  rw [within_append_iff (l := l) rfl]
  simp [haccess]

lemma stored_within_iff {plain : List Byte} (h : plain.length ≤ recordBufferSize) :
    (l.stored plain).Within ↔ l.Within ∧ True := by
  have haccess : (access .decryptedBuf 0 plain.length).Within := by
    intro i hi
    have hsize : decryptedBuf.size = recordBufferSize := rfl
    omega
  rw [within_append_iff (l := l) rfl]
  simp [haccess]

variable {l}

section
variable {entropy : Entropy} (hsized : C.Sized entropy)
include hsized

lemma recordTurn_within :
    KeepsIff Link.Within (RecordFits C l) (recordTurn C fuel) l := by
  cases hhead : l.headerRead.1 with
  | false =>
    refine keepsIff_ended (recordTurn_timeout C fuel hhead) ?_
    refine (within_congr (l := l) rfl).trans ?_
    simp [RecordFits, hhead]
  | true =>
    rw [RecordFits]
    simp only [hhead, forall_true_left]
    by_cases hccs : l.headerRead.2.1.getD 0 0 = recordChangeCipherSpec
    · refine keepsIff_going (recordTurn_changeCipherSpec C fuel hhead hccs) ?_
      rw [if_pos hccs, within_append_iff (l := l) rfl]
      rcases Nat.eq_zero_or_pos l.bodyRead.2.1.length with hzero | hpos
      · simp [hzero, Event.Within]
      · simp [access_within_iff hpos]
    rw [if_neg hccs]
    have hopened : (l.recordRead.opened (l.headerRead.2.1 ++ l.bodyRead.2.1)).Within ↔
        l.Within ∧ 5 + l.bodyRead.2.1.length ≤ encryptedRec.size := by
      have hlen : (l.headerRead.2.1 ++ l.bodyRead.2.1).length = 5 + l.bodyRead.2.1.length := by
        rw [length_append, Nat.add_right_cancel_iff]
        exact length_of_socketReadExact hhead
      rw [opened_within_iff _ (by omega), recordRead_within_iff, hlen]
      simp
    cases hbody : l.bodyRead.1 with
    | false =>
      refine keepsIff_ended (recordTurn_short C fuel hhead hccs hbody) ?_
      have hlog : (l.recordRead.failed .ioFailure).Within ↔ l.recordRead.Within ∧ True :=
        within_congr rfl
      rw [hlog, and_true, recordRead_within_iff]
      simp
    | true =>
      cases hplain : nextPlaintext C l with
      | none =>
        refine keepsIff_ended (recordTurn_refused C fuel hhead hccs hbody hplain) ?_
        refine (within_congr (l := l.recordRead.opened _) rfl).trans ?_
        rw [and_true, hopened]
        simp
      | some pair =>
        obtain ⟨plain, type⟩ := pair
        have hstored := stored_within_iff
          (l.recordRead.opened (l.headerRead.2.1 ++ l.bodyRead.2.1))
          (length_decryptRecord hsized hplain)
        rw [hopened, and_true] at hstored
        have hloop : KeepsIff Link.Within
            (MessagesFit C l.session.serverHandshakeTrafficSecret
              (storeBytes l.memory decryptedBase plain) plain.length plain.length 0
              l.session.transcript)
            (messageLoop C fuel plain.length plain.length 0 false)
            ((l.recordRead.opened (l.headerRead.2.1 ++ l.bodyRead.2.1)).stored plain) :=
          messageLoop_within C fuel 0 false _ _ _
        have hout := recordTurn_opened C fuel hhead hccs hbody hplain
        unfold KeepsIff at hloop ⊢
        rw [hout]
        simp only [hstored] at hloop
        simpa [and_assoc] using hloop

lemma recordLoop_within (turns : ℕ) (l : Link) :
    KeepsIff Link.Within (∀ l', Turns C fuel l l' → RecordFits C l')
      (recordLoop C fuel turns) l := by
  induction turns generalizing l with
  | zero => exact keepsIff_running rfl
  | succ turns ih =>
    have hturns : ∀ l', Turns C fuel l l' ↔
        l' = l ∨ ∃ l₁, recordTurn C fuel l = .going false l₁ ∧ Turns C fuel l₁ l' := by
      intro l'
      rw [Turns, Relation.ReflTransGen.cases_head_iff, eq_comm]
    have hloop := keepsIff_bind (g := fun isDone => if isDone = true then pure () else
        recordLoop C fuel turns)
      (d := ∀ l₁ l', recordTurn C fuel l = .going false l₁ → Turns C fuel l₁ l' →
        RecordFits C l')
      (recordTurn_within C fuel hsized (l := l)) (fun isDone l₁ hturn => ?_) (fun error l₁ hturn => ?_)
    · refine KeepsIff.congr (f := recordLoop C fuel (turns + 1)) hloop ?_
      simp only [hturns]
      constructor
      · rintro ⟨hfirst, hlater⟩ l' (rfl | ⟨l₁, hturn, hreach⟩)
        · exact hfirst
        · exact hlater l₁ l' hturn hreach
      · intro h
        exact ⟨h l (Or.inl rfl), fun l₁ l' hturn hreach => h l' (Or.inr ⟨l₁, hturn, hreach⟩)⟩
    · cases isDone with
      | true => exact keepsIff_going rfl (by simp [hturn])
      | false =>
        refine (ih l₁).congr ⟨fun h l₂ l' hgoing hreach => ?_, fun h l' => h l₁ l' hturn⟩
        rw [hturn] at hgoing
        cases hgoing
        exact h l' hreach
    · intro _ _ hgoing
      rw [hturn] at hgoing
      cases hgoing

end
end

section
variable (C : Crypto) (l : Link)

lemma verifyPeer_within (now : ℕ) : KeepsIff Link.Within True (verifyPeer C now) l := by
  refine within_silent rfl rfl ?_
  dsimp only
  split
  · refine KeepsIff.congr (within_note _ (c := True) ?_) (by simp)
    split
    · exact keepsIff_going rfl (within_congr rfl)
    · exact within_failWith _
    · exact within_failWith _
  · exact keepsIff_going rfl (within_congr rfl)

variable {l} in
lemma within_writeExact {B : Type} {bytes : List Byte} {g : Bool → Handshake B} {c : Prop}
    (hg : ∀ ok l', l'.log = l.log ++ [.sent bytes] → KeepsIff Link.Within c (g ok) l') :
    KeepsIff Link.Within c (writeExact bytes >>= g) l := by
  refine KeepsIff.congr (keepsIff_step (c := ∀ e ∈ [sent bytes], e.Within) rfl
    (within_append_iff rfl) (hg _ _ rfl)) ?_
  simp

lemma sendFinished_within : KeepsIff Link.Within True (sendFinished C) l := by
  refine within_silent rfl rfl (within_silent rfl rfl ?_)
  refine KeepsIff.congr (within_note _ (c := True) (within_silent rfl rfl ?_)) (by simp)
  generalize encryptRecord _ _ _ _ _ _ _ = record
  cases record with
  | none => exact within_failWith _
  | some record =>
    refine within_writeExact fun ok l' _ => ?_
    split
    · exact within_failWith _
    · exact keepsIff_going rfl (within_congr rfl)

section
variable {entropy : Entropy} (hsized : C.Sized entropy)
include hsized

lemma length_buildClientHello {s : Session} (hname : s.serverName.length ≤ 127)
    (hkey : s.clientPublicKey.length ≤ 32) : (buildClientHello s entropy).length ≤ 512 := by
  have hrandom := hsized.random
  have hid := hsized.sessionId
  have hserver : (serverNameExtension s.serverName).length ≤ 136 := by
    unfold serverNameExtension
    split
    · simp
    · simp [u16Bytes]
      omega
  simp [buildClientHello, clientExtensions, u16Bytes]
  omega

lemma sendClientHello_within (hname : l.session.serverName.length ≤ 127) :
    KeepsIff Link.Within True (sendClientHello C entropy) l := by
  refine within_silent rfl rfl ?_
  split
  · exact within_failWith _
  refine within_silent rfl rfl (within_silent rfl rfl ?_)
  refine KeepsIff.congr (within_note _ (c := True) (within_silent rfl rfl (within_silent rfl rfl ?_))) ?_
  · refine within_writeExact fun ok l' _ => ?_
    split
    · exact within_failWith _
    · exact keepsIff_going rfl (within_congr rfl)
  simp only [forall_mem_cons, not_mem_nil, false_imp_iff, implies_true, and_true, iff_true]
  intro i hi
  have hlen := length_buildClientHello C hsized (s := { l.session with
    state := .clientHello, error := .none, clientPrivateKey := entropy.privateKey
    clientPublicKey := C.x25519Base entropy.privateKey }) hname (hsized.publicKey _)
  have hsmall : i < 512 := lt_of_lt_of_le hi hlen
  simp only [size]
  omega

end

lemma serverHelloAccesses_within (buf : Memory) :
    (∀ e ∈ serverHelloAccesses buf, e.Within) ↔ u24At buf 1 + 4 ≤ hsBuf.size := by
  have hid := (buf 38).isLt
  have hmsg : (access .hsBuf 0 (u24At buf 1 + 4)).Within ↔
      0 + (u24At buf 1 + 4) ≤ hsBuf.size := access_within_iff (by omega)
  have hfixed : ∀ start count, start + count ≤ 300 → (access .hsBuf start count).Within := by
    intro start count h i hi
    simp only [size]
    omega
  have hsuite : suiteOffset buf ≤ 294 := by
    unfold suiteOffset
    omega
  simp only [serverHelloAccesses, forall_mem_cons, not_mem_nil, false_imp_iff,
    implies_true, and_true, hmsg, hfixed 0 4 (by omega), hfixed 38 1 (by omega),
    hfixed (suiteOffset buf) 2 (by omega), hfixed (suiteOffset buf + 3) 2 (by omega), true_and,
    Nat.zero_add]

lemma parseServerHello_within :
    KeepsIff Link.Within (ServerHelloFits l.hsBuf) (parseServerHello C) l := by
  refine within_silent rfl rfl ?_
  dsimp only
  by_cases htype : l.hsBuf 0 = hsServerHello
  · rw [if_neg (not_not.mpr htype)]
    refine KeepsIff.congr (within_note _ (c := True) (within_silent rfl rfl ?_)) ?_
    · unfold agreeKeys
      split
      · exact within_failWith _
      · exact within_silent rfl rfl (within_silent rfl rfl (keepsIff_going rfl (within_congr rfl)))
    rw [forall_mem_append, serverHelloAccesses_within, and_true]
    simp only [ServerHelloFits, htype, forall_true_left]
    exact and_congr_right fun _ => extensionLoop_within _ _ _ _
  · rw [if_pos htype]
    refine KeepsIff.congr (within_note _ (c := True) (within_failWith _)) ?_
    simp [ServerHelloFits, htype, Event.Within, size]

lemma readServerHello_within : KeepsIff Link.Within (HelloFits l) (readServerHello C) l := by
  refine within_silent rfl rfl (within_silent rfl rfl ?_)
  change KeepsIff Link.Within (HelloFits l) (if l.headerRead.1 = false then _ else _) _
  unfold HelloFits
  cases hhead : l.headerRead.1 with
  | false =>
    rw [if_pos rfl]
    exact (within_failWith _).congr (by simp)
  | true =>
    rw [if_neg (by decide)]
    by_cases hlong : 1024 < u16 l.headerRead.2.1 3
    · have hnot : ¬u16 l.headerRead.2.1 3 ≤ hsBuf.size := not_le.mpr hlong
      refine KeepsIff.congr (c := True) ?_ (by simp [hnot])
      change KeepsIff Link.Within True (if 1024 < u16 l.headerRead.2.1 3 then _ else _) _
      rw [if_pos hlong]
      exact within_failWith _
    have hfits : u16 l.headerRead.2.1 3 ≤ hsBuf.size := not_lt.mp hlong
    change KeepsIff Link.Within _ (if 1024 < u16 l.headerRead.2.1 3 then _ else _) _
    rw [if_neg hlong]
    have hshort : ∀ e ∈ [access .hsBuf 0 l.bodyRead.2.1.length], e.Within := by
      simp only [forall_mem_singleton]
      intro i hi
      have hread := length_socketReadExact (u16 l.headerRead.2.1 3) l.headerRead.2.2
      have hbody : l.bodyRead.2.1.length ≤ hsBuf.size := hread.trans hfits
      omega
    refine within_silent rfl rfl (KeepsIff.congr (within_note _ (within_silent rfl rfl ?_)) (c := (∀ e ∈
      [access .hsBuf 0 l.bodyRead.2.1.length], e.Within) ∧ (l.bodyRead.1 = true →
        ServerHelloFits (storeBytes l.hsBuf 0 l.bodyRead.2.1))) ?_)
    · change KeepsIff Link.Within _ (if l.bodyRead.1 = false then _ else _) _
      cases hbody : l.bodyRead.1 with
      | false =>
        rw [if_pos rfl]
        exact (within_failWith _).congr (by simp)
      | true =>
        rw [if_neg (by decide)]
        exact (parseServerHello_within C _).congr ⟨fun h _ => h, fun h => h rfl⟩
    · simp [hshort, hfits]

end

lemma clientHandshake_within {C : Crypto} {entropy : Entropy} (hsized : C.Sized entropy)
    (fuel now : ℕ) {l : Link} (hname : l.session.serverName.length ≤ 127) :
    KeepsIff Link.Within (HandshakeFits C entropy fuel l)
      (clientHandshake C entropy fuel now) l := by
  have hend : ∀ l₂, KeepsIff Link.Within (∀ l₃, Turns C fuel l₂ l₃ → RecordFits C l₃)
      (Program.read >>= fun l => recordLoop C fuel (l.incoming.length + 1) >>= fun _ =>
        verifyPeer C now >>= fun _ => sendFinished C) l₂ := by
    intro l₂
    refine within_silent rfl rfl (KeepsIff.congr (keepsIff_bind (d := True)
      (recordLoop_within C fuel hsized _ l₂) (fun _ l₃ _ => ?_) fun _ _ _ => trivial)
      (iff_of_eq (and_true _)))
    exact (keepsIff_bind (verifyPeer_within C l₃ now)
      (fun _ l₄ _ => sendFinished_within C l₄) fun _ _ _ => trivial).congr (iff_of_eq (and_true _))
  refine KeepsIff.congr (keepsIff_bind (d := HandshakeFits C entropy fuel l)
    (sendClientHello_within C l hsized hname) (fun _ l₁ hsend => ?_) fun _ l₁ hsend => ?_)
    (iff_of_eq (true_and _))
  · refine KeepsIff.congr (keepsIff_bind
      (d := ∀ l₂, readServerHello C l₁ = .going () l₂ → ∀ l₃, Turns C fuel l₂ l₃ →
        RecordFits C l₃) (readServerHello_within C l₁) (fun _ l₂ hread => ?_)
      fun _ l₂ hread => ?_) ?_
    · refine (hend l₂).congr ⟨fun h l₂' hgoing => ?_, fun h => h l₂ hread⟩
      rw [hread] at hgoing
      cases hgoing
      exact h
    · intro _ hgoing
      rw [hread] at hgoing
      cases hgoing
    refine ⟨fun h l₁' hgoing => ?_, fun h => h l₁ hsend⟩
    rw [hsend] at hgoing
    cases hgoing
    exact h
  · intro _ hgoing
    rw [hsend] at hgoing
    cases hgoing

lemma deliver_within {l : Link} (capacity : ℕ) {result : Option (List Byte × Byte)}
    (hres : ∀ plain type, result = some (plain, type) →
      plain.length ≤ recordBufferSize) : (deliver capacity l result).2.Within ↔ l.Within := by
  cases result with
  | none => rfl
  | some pair =>
    obtain ⟨plain, type⟩ := pair
    have hlen := hres plain type rfl
    have haccess : (access .decBuf 0 plain.length).Within := by
      intro i hi
      have hsize : decBuf.size = recordBufferSize := rfl
      omega
    have hnote : (l.note [.access .decBuf 0 plain.length]).Within ↔ l.Within := by
      rw [within_append_iff (l := l) rfl]
      simp [haccess]
    unfold deliver
    dsimp only
    split
    · exact hnote
    · exact hnote

lemma netTlsRecv_within {C : Crypto} {entropy : Entropy} (hsized : C.Sized entropy)
    {capacity : ℕ} {l : Link} (hopen : l.established = true) (hcap : 0 < capacity)
    (hl : l.Within) : (netTlsRecv C capacity l).2.Within ↔ RecvFits l := by
  have hcall : ¬(l.established = false ∨ capacity = 0) := by
    rw [hopen]
    simpa using hcap.ne'
  rw [netTlsRecv, if_neg hcall, RecvFits, Link.bodyRead, Link.headerRead]
  rcases hhead : socketReadExact 5 l.incoming with ⟨ok, hdr, rest⟩
  cases ok with
  | false => exact iff_of_true hl fun h => by cases h
  | true =>
    have hhdr : (socketReadExact 5 l.incoming).2.1.length = 5 :=
      length_of_socketReadExact (by rw [hhead])
    rw [hhead] at hhdr
    change hdr.length = 5 at hhdr
    simp only [forall_true_left]
    rcases hbody : socketReadExact (u16 hdr 3) rest with ⟨ok, bytes, rest'⟩
    have hheader : (access .encRec 0 5).Within ↔ 0 + 5 ≤ encRec.size :=
      access_within_iff (by decide)
    have hbytes : (access .encRec 5 bytes.length).Within ↔ 5 + bytes.length ≤ encRec.size := by
      rcases Nat.eq_zero_or_pos bytes.length with hzero | hpos
      · simp [hzero, Event.Within, size]
      · exact access_within_iff hpos
    cases ok with
    | false =>
      dsimp only
      rw [within_append_iff (l := l) rfl]
      simp [hl, hheader, hbytes, size]
    | true =>
      have hrecord : (access .encRec 0 (hdr.length + bytes.length)).Within ↔
          5 + bytes.length ≤ encRec.size := by
        rw [access_within_iff (by omega), hhdr, Nat.zero_add]
      have hrecv : (l.received hdr bytes rest').Within ↔ 5 + bytes.length ≤ encRec.size := by
        rw [within_append_iff (l := l) rfl]
        simp [hl, hheader, hbytes, hrecord, size]
      dsimp only
      rw [deliver_within capacity fun plain type => length_decryptRecord hsized, hrecv]

/-- The handshake and the receive calls stay inside their buffers exactly when the lengths that
the peer sends fit. -/
theorem accesses_within_iff {crypto : Crypto} {entropy : Entropy} (hsized : crypto.Sized entropy) :
    (∀ fuel now l error l', l.session.serverName.length ≤ 127 → l.Within →
      netTlsClientHandshake crypto entropy fuel now l = some (error, l') →
      (l'.Within ↔ HandshakeFits crypto entropy fuel l)) ∧
    ∀ capacity l, l.established = true → 0 < capacity → l.Within →
      ((netTlsRecv crypto capacity l).2.Within ↔ RecvFits l) := by
  refine ⟨fun fuel now l error l' hname hl hrun => ?_, fun capacity l hopen hcapacity hl =>
    netTlsRecv_within hsized hopen hcapacity hl⟩
  have hwithin := clientHandshake_within hsized fuel now hname
  rw [KeepsIff] at hwithin
  rw [netTlsClientHandshake] at hrun
  cases hout : clientHandshake crypto entropy fuel now l with
  | running => simp [hout] at hrun
  | ended error l₁ =>
    rw [hout] at hrun hwithin
    cases hrun
    have hiff : l'.Within ↔ l.Within ∧ HandshakeFits crypto entropy fuel l := hwithin
    simpa [hl] using hiff
  | going _ l₁ =>
    rw [hout] at hrun hwithin
    cases hrun
    have hiff : l'.Within ↔ l.Within ∧ HandshakeFits crypto entropy fuel l := hwithin
    simpa [hl] using hiff

lemma plainCrypto_sized : plainCrypto.Sized noEntropy where
  decrypted h := by
    cases h
    rfl
  publicKey _ := Nat.zero_le _
  random := Nat.zero_le _
  sessionId := Nat.zero_le _

def finishedFlight : List (List Byte) := [plainRecord recordHandshake plainFinished]

theorem accesses_within_iff_plain :
    (plainSession true finishedFlight).Within ∧
      HandshakeFits plainCrypto noEntropy 4 (plainLink true finishedFlight) := by
  have hwithin : (plainSession true finishedFlight).Within := by decide +kernel
  have hrun : plainHandshake true finishedFlight = some (.none, plainSession true finishedFlight) :=
    plainHandshake_eq (by decide +kernel)
  exact ⟨hwithin, ((accesses_within_iff plainCrypto_sized).1 4 0 _ _ _ (by decide +kernel)
    (by decide) hrun).mp hwithin⟩

def longSpecFlight : List (List Byte) :=
  ([recordChangeCipherSpec, 0x03, 0x03, 0, 17] ++ replicate 17 1) :: finishedFlight

/-- The handshake succeeds and has written the last byte behind `ccs_buf`. -/
theorem long_change_cipher_spec_overflows :
    plainHandshake true longSpecFlight = some (.none, plainSession true longSpecFlight) ∧
      ¬(plainSession true longSpecFlight).Within :=
  ⟨plainHandshake_eq (by decide +kernel), by decide +kernel⟩

end KosKernel.Tls
