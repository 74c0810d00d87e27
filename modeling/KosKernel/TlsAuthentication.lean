import KosKernel.TlsMessages
import KosKernel.TlsSession

/-! What a successful handshake says about the peer: the signature of its CertificateVerify
message is not looked at. -/
namespace KosKernel.Tls
open ByteMemory X509 Programs

def Link.messages (l : Link) : List Byte :=
  l.log.filterMap fun
    | .message type => some type
    | _ => none

/-- What the peer signs: padding, a context string and the hash of the transcript. -/
def certificateVerifyContent (transcriptHash : List Byte) : List Byte :=
  List.replicate 64 0x20 ++ "TLS 1.3, server CertificateVerify".toUTF8.toList.map UInt8.toBitVec ++
    [0] ++ transcriptHash

/-- The messages came in order, the chain was accepted for the server's name, and a signature
over the transcript was verified under the leaf's key. -/
structure Authenticated (crypto : Crypto) (l : Link) : Prop where
  order : List.Sublist [hsEncryptedExtensions, hsCertificate, hsCertificateVerify, hsFinished]
    l.messages
  chain : .checked (.chain (cString l.session.serverName) .ok) ∈ l.log
  signature : ∃ leaf ∈ (peerChain l.session).head?, ∃ hashed signature,
    hashed <+: l.session.transcript ∧
    .checked (.transcript leaf (certificateVerifyContent (crypto.sha256 hashed)) signature true) ∈
      l.log

/-- Events other than a check of a signature over the transcript. -/
def Event.Unsigned : Event → Prop
  | .checked (.transcript _ _ _ _) => False
  | _ => True

def Unsigned {A : Type} (f : Handshake A) : Prop :=
  Moves (Grows Event.Unsigned) (fun _ => True) f

instance (kind : Event → Prop) : IsPreorder Link (Grows kind) where
  refl _ := .of_eq rfl
  trans _ _ _ hab hbc := hab.trans hbc

lemma unsigned_update (f : Session → Session) : Unsigned (updateSession f) :=
  moves_modify fun _ => .of_eq rfl

lemma unsigned_note {events : List Event} (h : ∀ e ∈ events, e.Unsigned) : Unsigned (note events) :=
  moves_modify fun _ => ⟨events, rfl, h⟩

lemma unsigned_failWith {A : Type} (error : TlsError) : Unsigned (failWith error : Handshake A) :=
  fun _ => ⟨.of_eq rfl, trivial⟩

lemma unsigned_readExact (n : ℕ) : Unsigned (readExact n) := fun _ => Grows.of_eq rfl

lemma unsigned_writeExact (bytes : List Byte) : Unsigned (writeExact bytes) :=
  fun _ => ⟨[.sent bytes], rfl, by simp [Event.Unsigned]⟩

lemma unsigned_of_handles {A : Type} {f : Handshake A} (h : Handles f) : Unsigned f := by
  refine moves_mono h (fun l l' hhandled => hhandled.log.mono fun e he => ?_) fun _ _ => trivial
  cases e <;> simp_all [Event.OfMessages, Event.Unsigned]

lemma unsigned_of_hushed {A : Type} {f : Handshake A} (h : Hushed f) : Unsigned f := by
  refine moves_mono h (fun l l' hquiet => hquiet.log.mono fun e he => ?_) fun _ _ => trivial
  unfold Event.Plain at he
  unfold Event.Unsigned
  split at he <;> trivial

section
variable (crypto : Crypto)

lemma openRecord_unsigned (record : List Byte) : Unsigned (openRecord crypto record) := by
  refine moves_bind moves_read fun l => ?_
  refine moves_bind (unsigned_note (by simp [Event.Unsigned])) fun _ => ?_
  refine moves_bind (unsigned_update _) fun _ => ?_
  generalize decryptRecord crypto l.session.cipherSuite l.session.serverHandshakeKey
    l.session.serverHandshakeIv l.session.serverRecordSeq record = content
  cases content with
  | none => exact unsigned_failWith _
  | some content =>
    refine moves_bind (unsigned_note (by simp [Event.Unsigned])) fun _ => ?_
    exact moves_bind (moves_modify fun _ => Grows.of_eq rfl) fun _ => moves_pure _

lemma recordTurn_unsigned (fuel : ℕ) : Unsigned (recordTurn crypto fuel) := by
  refine moves_bind (unsigned_readExact _) fun hdr => ?_
  refine moves_ite (unsigned_failWith _) (moves_ite ?_ ?_)
  · refine moves_bind (unsigned_readExact _) fun body => ?_
    exact moves_bind (unsigned_note (by simp [Event.Unsigned])) fun _ => moves_pure _
  refine moves_bind (unsigned_readExact _) fun body => ?_
  refine moves_bind (unsigned_note (by simp [Event.Unsigned])) fun _ => ?_
  refine moves_ite (unsigned_failWith _) ?_
  exact moves_bind (openRecord_unsigned crypto _) fun ptLen =>
    unsigned_of_handles (messageLoop_handles crypto fuel ptLen ptLen 0 false)

lemma recordLoop_unsigned (fuel turns : ℕ) : Unsigned (recordLoop crypto fuel turns) := by
  induction turns with
  | zero => exact moves_unfinished
  | succ turns ih =>
    exact moves_bind (recordTurn_unsigned crypto fuel) fun _ => moves_ite (moves_pure ()) ih

lemma verifyPeer_unsigned (now : ℕ) : Unsigned (verifyPeer crypto now) := by
  refine moves_bind moves_read fun l => moves_ite ?_ (moves_pure ())
  refine moves_bind (unsigned_note (by simp [Event.Unsigned])) fun _ => ?_
  split
  · exact moves_pure ()
  · exact unsigned_failWith _
  · exact unsigned_failWith _

lemma sendFinished_unsigned : Unsigned (sendFinished crypto) := by
  refine moves_bind (unsigned_update _) fun _ => moves_bind moves_read fun l => ?_
  refine moves_bind (unsigned_note (by simp [Event.Unsigned])) fun _ => ?_
  refine moves_bind (unsigned_update _) fun _ => ?_
  generalize encryptRecord crypto l.session.cipherSuite l.session.clientHandshakeKey
    l.session.clientHandshakeIv l.session.clientRecordSeq recordHandshake _ = record
  cases record with
  | none => exact unsigned_failWith _
  | some record =>
    exact moves_bind (unsigned_writeExact _) fun _ =>
      moves_ite (unsigned_failWith _) (unsigned_update _)

lemma clientHandshake_unsigned (entropy : Entropy) (fuel now : ℕ) :
    Unsigned (clientHandshake crypto entropy fuel now) := by
  refine moves_bind (unsigned_of_hushed (sendClientHello_hushed crypto entropy)) fun _ => ?_
  refine moves_bind (unsigned_of_hushed (readServerHello_hushed crypto)) fun _ => ?_
  refine moves_bind moves_read fun l => ?_
  refine moves_bind (recordLoop_unsigned crypto fuel _) fun _ => ?_
  exact moves_bind (verifyPeer_unsigned crypto now) fun _ => sendFinished_unsigned crypto

end

lemma netTlsClientHandshake_unsigned {crypto : Crypto} {entropy : Entropy} {fuel now : ℕ}
    {l l' : Link} {error : TlsError} (hl : l.log = [])
    (h : netTlsClientHandshake crypto entropy fuel now l = some (error, l')) :
    ¬Authenticated crypto l' := by
  have hrun := clientHandshake_unsigned crypto entropy fuel now l
  unfold netTlsClientHandshake at h
  have hgrows : Grows Event.Unsigned l l' := by
    cases hout : clientHandshake crypto entropy fuel now l with
    | running =>
      rw [hout] at h
      cases h
    | ended e s =>
      rw [hout] at h hrun
      cases h
      exact hrun.1
    | going u s =>
      rw [hout] at h hrun
      cases h
      exact hrun
  obtain ⟨events, hlog, hkind⟩ := hgrows
  rintro ⟨-, -, leaf, -, hashed, signature, -, hmem⟩
  rw [hlog, hl, List.nil_append] at hmem
  exact hkind _ hmem

/-- No successful handshake of a session that asks for verification authenticates the peer. -/
theorem handshake_never_authenticates (crypto : Crypto) (entropy : Entropy) (fuel now : ℕ)
    (serverName : List Byte) (incoming : List (Option Byte)) (accepts : List Bool)
    (hsBuf memory : Memory) {l : Link} (h : netTlsClientHandshake crypto entropy fuel now
      (newLink serverName false incoming accepts hsBuf memory) = some (.none, l)) :
    ¬Authenticated crypto l :=
  netTlsClientHandshake_unsigned rfl h

def bareFinished : List (List Byte) := [plainRecord recordHandshake plainFinished]

lemma bareFinished_done :
    plainHandshake false bareFinished = some (.none, plainSession false bareFinished) :=
  plainHandshake_eq (by decide +kernel)

theorem handshake_never_authenticates_plain :
    ¬Authenticated plainCrypto (plainSession false bareFinished) :=
  handshake_never_authenticates plainCrypto noEntropy 4 0 [0x61] _ _ _ _ bareFinished_done

/-- Such a peer is taken for the server without any certificate. -/
theorem bare_finished_accepted :
    plainHandshake false bareFinished = some (.none, plainSession false bareFinished) ∧
      (plainSession false bareFinished).messages = [hsFinished] ∧
      (plainSession false bareFinished).session.peerCount = 0 ∧
      ¬Authenticated plainCrypto (plainSession false bareFinished) :=
  ⟨bareFinished_done, by decide +kernel, by decide +kernel,
    netTlsClientHandshake_unsigned rfl bareFinished_done⟩

end KosKernel.Tls
