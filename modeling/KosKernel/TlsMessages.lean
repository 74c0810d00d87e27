import KosKernel.TlsHandshake

/-! What the walk over the ServerHello's extensions and the handling of the messages of a
decrypted record can change. -/
namespace KosKernel.Tls
open ByteMemory X509 Programs

def Grows (kind : Event → Prop) (l l' : Link) : Prop :=
  ∃ events, l'.log = l.log ++ events ∧ ∀ e ∈ events, kind e

variable {kind : Event → Prop} {l l' : Link}

lemma Grows.of_eq (h : l'.log = l.log) : Grows kind l l' :=
  ⟨[], by rw [h, List.append_nil], by simp⟩

lemma Grows.trans {a b c : Link} (hab : Grows kind a b)
    (hbc : Grows kind b c) : Grows kind a c := by
  obtain ⟨es, hes, hkind⟩ := hab
  obtain ⟨fs, hfs, hkind'⟩ := hbc
  refine ⟨es ++ fs, by rw [hfs, hes, List.append_assoc], fun e he => ?_⟩
  rcases List.mem_append.mp he with he | he
  · exact hkind e he
  · exact hkind' e he

lemma Grows.mono {kind' : Event → Prop} (h : Grows kind l l')
    (hkind : ∀ e, kind e → kind' e) : Grows kind' l l' := by
  obtain ⟨events, hlog, hevents⟩ := h
  exact ⟨events, hlog, fun e he => hkind e (hevents e he)⟩

lemma extensionLoop_accesses (buf : Memory) (extEnd fuel off : ℕ) :
    ∀ e ∈ (extensionLoop buf extEnd fuel off).2, ∃ start count, e = .access .hsBuf start count := by
  induction fuel generalizing off with
  | zero => simp [extensionLoop]
  | succ fuel ih =>
    unfold extensionLoop
    split
    · intro e he
      simp only [List.mem_cons, List.mem_append] at he
      rcases he with rfl | (he | he) | he
      · exact ⟨_, _, rfl⟩
      · split at he <;> simp_all
      · split at he <;> simp_all
      · exact ih _ e he
    · simp

def Event.OfMessages : Event → Prop
  | .access .decryptedBuf _ _ => True
  | .message _ => True
  | _ => False

/-- Only the state, the transcript and the peer's certificates change, and the log grows by
events of the parsing. -/
structure Handled (l l' : Link) : Prop where
  rest : ∃ session log, l' = { l with session, log }
  session : ∃ state error transcript peerCerts peerCount,
    l'.session = { l.session with state, error, transcript, peerCerts, peerCount }
  log : Grows Event.OfMessages l l'

def Link.Failed (l : Link) : Prop := l.session.state = .failed

instance : IsPreorder Link Handled where
  refl _ := ⟨⟨_, _, rfl⟩, ⟨_, _, _, _, _, rfl⟩, Grows.of_eq rfl⟩
  trans a b c hab hbc := by
    obtain ⟨⟨_, _, rfl⟩, ⟨_, _, _, _, _, hb⟩, hlog⟩ := hab
    obtain ⟨⟨_, _, rfl⟩, ⟨_, _, _, _, _, hc⟩, hlog'⟩ := hbc
    exact ⟨⟨_, _, rfl⟩, ⟨_, _, _, _, _, by rw [hc, hb]⟩, hlog.trans hlog'⟩

def Handles {A : Type} (f : Handshake A) : Prop := Moves Handled Link.Failed f

lemma handles_note {events : List Event} (h : ∀ e ∈ events, e.OfMessages) : Handles (note events) :=
  moves_modify fun _ => ⟨⟨_, _, rfl⟩, ⟨_, _, _, _, _, rfl⟩, ⟨events, rfl, h⟩⟩

lemma handles_update {f : Session → Session} (h : ∀ s, ∃ state error transcript peerCerts peerCount,
      f s = { s with state, error, transcript, peerCerts, peerCount }) :
    Handles (updateSession f) :=
  moves_modify fun l => ⟨⟨_, _, rfl⟩, h l.session, Grows.of_eq rfl⟩

lemma handles_failWith {A : Type} (error : TlsError) : Handles (failWith error : Handshake A) :=
  fun _ => ⟨⟨⟨_, _, rfl⟩, ⟨_, _, _, _, _, rfl⟩, Grows.of_eq rfl⟩, rfl⟩

lemma hashMessage_handles (offset mLen : ℕ) : Handles (hashMessage offset mLen) := by
  refine moves_bind (handles_note (by simp [Event.OfMessages])) fun _ => ?_
  exact moves_modify fun _ => ⟨⟨_, _, rfl⟩, ⟨_, _, _, _, _, rfl⟩, Grows.of_eq rfl⟩

lemma storeCertificate_handles (fuel cOff certLen : ℕ) :
    Handles (storeCertificate fuel cOff certLen) := by
  refine moves_bind moves_read fun l => ?_
  unfold keepCertificate
  split
  · exact handles_update fun _ => ⟨_, _, _, _, _, rfl⟩
  · exact handles_update fun _ => ⟨_, _, _, _, _, rfl⟩
  · exact moves_unfinished

lemma certificateLoop_handles (fuel listEnd room cOff : ℕ) :
    Handles (certificateLoop fuel listEnd room cOff) := by
  induction room generalizing cOff with
  | zero => exact moves_pure ()
  | succ room ih =>
    refine moves_ite (moves_bind moves_read fun l => ?_) (moves_pure ())
    refine moves_bind (handles_note (by simp [Event.OfMessages])) fun _ => ?_
    refine moves_bind (storeCertificate_handles _ _ _) fun _ => ?_
    exact moves_bind (handles_note (by simp [Event.OfMessages])) fun _ => ih _

lemma handleCertificate_handles (fuel offset : ℕ) : Handles (handleCertificate fuel offset) := by
  refine moves_bind moves_read fun l => ?_
  refine moves_bind (handles_note (by simp [Event.OfMessages])) fun _ => ?_
  refine moves_bind (handles_update fun _ => ⟨_, _, _, _, _, rfl⟩) fun _ => ?_
  exact certificateLoop_handles _ _ _ _

section
variable (C : Crypto)

lemma handleFinished_handles (offset mLen : ℕ) : Handles (handleFinished C offset mLen) := by
  refine moves_bind (handles_update fun _ => ⟨_, _, _, _, _, rfl⟩) fun _ => ?_
  refine moves_bind moves_read fun l => ?_
  split
  · exact moves_bind (handles_note (by simp [Event.OfMessages])) fun _ => handles_failWith _
  · exact moves_bind (handles_note (by simp [Event.OfMessages])) fun _ => hashMessage_handles _ _

lemma handleMessage_handles (fuel offset : ℕ) (isDone : Bool) :
    Handles (handleMessage C fuel offset isDone) := by
  have hstate : ∀ state, Handles (updateSession fun s => { s with state }) := fun state =>
    handles_update fun _ => ⟨_, _, _, _, _, rfl⟩
  refine moves_bind moves_read fun l => ?_
  refine moves_bind (handles_note (by simp [Event.OfMessages])) fun _ => ?_
  refine moves_ite ?_ (moves_ite ?_ (moves_ite ?_ (moves_ite ?_ (moves_pure _))))
  · exact moves_bind (hstate _) fun _ => moves_bind (hashMessage_handles _ _) fun _ => moves_pure _
  · exact moves_bind (hstate _) fun _ => moves_bind (hashMessage_handles _ _) fun _ =>
      moves_bind (handleCertificate_handles _ _) fun _ => moves_pure _
  · exact moves_bind (hstate _) fun _ => moves_bind (hashMessage_handles _ _) fun _ => moves_pure _
  · exact moves_bind (handleFinished_handles _ _ _) fun _ => moves_pure _

lemma messageLoop_handles (fuel ptLen turns offset : ℕ) (isDone : Bool) :
    Handles (messageLoop C fuel ptLen turns offset isDone) := by
  induction turns generalizing offset isDone with
  | zero => exact moves_pure _
  | succ turns ih =>
    refine moves_ite (moves_bind moves_read fun l => ?_) (moves_pure _)
    exact moves_bind (handleMessage_handles _ _ _ _) fun _ => ih _ _

end

/-! The exchange of the hello messages. -/

/-- Events that use no key and check no signature. -/
def Event.Plain : Event → Prop
  | .access _ _ _ | .sent _ | .message _ | .checked (.chain _ _) => True
  | _ => False

/-- No key is used, and the settings and the number of certificates are as before. -/
structure Quiet (l l' : Link) : Prop where
  log : Grows Event.Plain l l'
  count : l'.session.peerCount = l.session.peerCount
  insecure : l'.session.insecure = l.session.insecure
  serverName : l'.session.serverName = l.session.serverName

lemma Quiet.of_log (h : Grows Event.Plain l l') (hses : l'.session = l.session) :
    Quiet l l' := ⟨h, by rw [hses], by rw [hses], by rw [hses]⟩

instance : IsPreorder Link Quiet where
  refl _ := .of_log (.of_eq rfl) rfl
  trans _ _ _ hab hbc := ⟨hab.log.trans hbc.log, hbc.count.trans hab.count,
    hbc.insecure.trans hab.insecure, hbc.serverName.trans hab.serverName⟩

def Hushed {A : Type} (f : Handshake A) : Prop := Moves Quiet Link.Failed f

lemma hushed_update {f : Session → Session} (h : ∀ s, (f s).peerCount = s.peerCount ∧
    (f s).insecure = s.insecure ∧ (f s).serverName = s.serverName) : Hushed (updateSession f) :=
  moves_modify fun l => ⟨.of_eq rfl, (h l.session).1, (h l.session).2.1, (h l.session).2.2⟩

lemma hushed_note {events : List Event} (h : ∀ e ∈ events, e.Plain) : Hushed (note events) :=
  moves_modify fun _ => .of_log ⟨events, rfl, h⟩ rfl

lemma hushed_store (bytes : List Byte) : Hushed (Program.modify fun l : Link =>
    { l with hsBuf := storeBytes l.hsBuf 0 bytes }) :=
  moves_modify fun _ => .of_log (.of_eq rfl) rfl

lemma hushed_failWith {A : Type} (error : TlsError) : Hushed (failWith error : Handshake A) :=
  fun _ => ⟨⟨.of_eq rfl, rfl, rfl, rfl⟩, rfl⟩

lemma hushed_readExact (n : ℕ) : Hushed (readExact n) := fun _ => Quiet.of_log (.of_eq rfl) rfl

lemma hushed_writeExact (bytes : List Byte) : Hushed (writeExact bytes) :=
  fun _ => Quiet.of_log ⟨[.sent bytes], rfl, by simp [Event.Plain]⟩ rfl

section
variable (C : Crypto)

lemma sendClientHello_hushed (entropy : Entropy) : Hushed (sendClientHello C entropy) := by
  refine moves_bind (hushed_update fun _ => ⟨rfl, rfl, rfl⟩) fun _ =>
    moves_ite (hushed_failWith _) ?_
  refine moves_bind (hushed_update fun _ => ⟨rfl, rfl, rfl⟩) fun _ => moves_bind moves_read fun l => ?_
  refine moves_bind (hushed_note (by simp [Event.Plain])) fun _ => moves_bind (hushed_store _) fun _ => ?_
  refine moves_bind (hushed_update fun _ => ⟨rfl, rfl, rfl⟩) fun _ =>
    moves_bind (hushed_writeExact _) fun _ => ?_
  exact moves_ite (hushed_failWith _) (moves_pure ())

lemma serverHello_plain (buf : Memory) :
    ∀ e ∈ serverHelloAccesses buf ++ (serverExtensions buf).2, e.Plain := by
  intro e he
  rcases List.mem_append.mp he with he | he
  · simp only [serverHelloAccesses, List.mem_cons, List.not_mem_nil, or_false] at he
    rcases he with rfl | rfl | rfl | rfl | rfl <;> trivial
  · obtain ⟨_, _, rfl⟩ := extensionLoop_accesses _ _ _ _ e he
    trivial

lemma parseServerHello_hushed : Hushed (parseServerHello C) := by
  refine moves_bind moves_read fun l => moves_ite ?_ ?_
  · exact moves_bind (hushed_note (by simp [Event.Plain])) fun _ => hushed_failWith _
  refine moves_bind (hushed_note (serverHello_plain _)) fun _ => ?_
  refine moves_bind (hushed_update fun _ => ⟨rfl, rfl, rfl⟩) fun _ => ?_
  unfold agreeKeys
  split
  · exact hushed_failWith _
  · refine moves_bind (hushed_update fun _ => ⟨rfl, rfl, rfl⟩) fun _ => ?_
    refine moves_bind (hushed_update fun _ => ⟨rfl, rfl, rfl⟩) fun _ => ?_
    exact hushed_update fun _ => ⟨rfl, rfl, rfl⟩

lemma readServerHello_hushed : Hushed (readServerHello C) := by
  refine moves_bind (hushed_update fun _ => ⟨rfl, rfl, rfl⟩) fun _ =>
    moves_bind (hushed_readExact _) fun hdr => ?_
  refine moves_ite (hushed_failWith _) (moves_ite (hushed_failWith _) ?_)
  refine moves_bind (hushed_readExact _) fun body => ?_
  refine moves_bind (hushed_note (by simp [Event.Plain])) fun _ => moves_bind (hushed_store _) fun _ => ?_
  exact moves_ite (hushed_failWith _) (parseServerHello_hushed C)

/-- The records are numbered from zero once the keys are agreed. -/
lemma readServerHello_counters : Triple (fun _ => True) (readServerHello C)
    (fun _ l => l.session.serverRecordSeq = 0 ∧ l.session.clientRecordSeq = 0) fun _ _ => True := by
  have hparse : Triple (fun _ => True) (parseServerHello C)
      (fun _ l => l.session.serverRecordSeq = 0 ∧ l.session.clientRecordSeq = 0)
      fun _ _ => True := by
    refine triple_bind triple_true fun l => triple_ite (fun _ => ?_) fun _ => ?_
    · exact triple_bind triple_true fun _ _ _ => trivial
    refine triple_bind triple_true fun _ => triple_bind triple_true fun _ => ?_
    unfold agreeKeys
    split
    · exact fun _ _ => trivial
    · exact triple_bind triple_true fun _ => triple_bind triple_true fun _ _ _ => ⟨rfl, rfl⟩
  refine triple_bind triple_true fun _ => triple_bind triple_true fun _ => ?_
  refine triple_ite (fun _ _ _ => trivial) fun _ => triple_ite (fun _ _ _ => trivial) fun _ => ?_
  refine triple_bind triple_true fun _ => triple_bind triple_true fun _ => ?_
  exact triple_bind triple_true fun _ => triple_ite (fun _ _ _ => trivial) fun _ => hparse

end

/-! The parsing of a certificate list. -/

/-- The parsing of a certificate list changes nothing but the peer's certificates. -/
def Listed (l l' : Link) : Prop :=
  ∃ peerCerts peerCount log, l' = { l with session := { l.session with peerCerts, peerCount }, log }

instance : IsPreorder Link Listed where
  refl _ := ⟨_, _, _, rfl⟩
  trans a b c hab hbc := by
    obtain ⟨_, _, _, rfl⟩ := hab
    obtain ⟨_, _, _, rfl⟩ := hbc
    exact ⟨_, _, _, rfl⟩

def Lists (f : Handshake Unit) : Prop := Moves Listed (fun _ => False) f

lemma storeCertificate_lists (fuel cOff certLen : ℕ) :
    Lists (storeCertificate fuel cOff certLen) := by
  refine moves_bind moves_read fun l => ?_
  unfold keepCertificate
  split
  · exact moves_modify fun _ => ⟨_, _, _, rfl⟩
  · exact moves_modify fun _ => ⟨_, _, _, rfl⟩
  · exact moves_unfinished

lemma certificateLoop_lists (fuel listEnd room cOff : ℕ) :
    Lists (certificateLoop fuel listEnd room cOff) := by
  have hnote : ∀ events, Lists (note events) := fun events => moves_modify fun _ => ⟨_, _, _, rfl⟩
  induction room generalizing cOff with
  | zero => exact moves_pure ()
  | succ room ih =>
    refine moves_ite (moves_bind moves_read fun l => ?_)
      (moves_pure ())
    refine moves_bind (hnote _) fun _ => ?_
    refine moves_bind (storeCertificate_lists _ _ _) fun _ => ?_
    exact moves_bind (hnote _) fun _ => ih _

lemma handleCertificate_lists (fuel offset : ℕ) : Lists (handleCertificate fuel offset) := by
  refine moves_bind moves_read fun l => ?_
  refine moves_bind (moves_modify fun _ => ⟨_, _, _, rfl⟩) fun _ => ?_
  refine moves_bind (moves_modify fun _ => ⟨_, _, _, rfl⟩) fun _ => ?_
  exact certificateLoop_lists _ _ _ _

lemma Lists.going {f : Handshake Unit} (h : Lists f) (hout : f l = .going () l') : Listed l l' := by
  have hl := h l
  rw [hout] at hl
  exact hl

lemma Lists.not_ended {f : Handshake Unit} {error : TlsError} (h : Lists f) :
    f l ≠ .ended error l' := by
  intro hout
  have hl := h l
  rw [hout] at hl
  exact hl.2

/-! The outcome of one message, by its type. -/

def messageLength (m : Memory) (offset : ℕ) : ℕ := u24At m (decryptedBase + offset + 1)

def messageBytes (m : Memory) (offset : ℕ) : List Byte :=
  bytesAt m (decryptedBase + offset) (4 + messageLength m offset)

def Link.began (l : Link) (offset : ℕ) : Link :=
  { l with
    log := l.log ++ [.access .decryptedBuf offset 4, .message (l.memory (decryptedBase + offset))] }

/-- The Finished message at an offset differs from the expected code at a byte. -/
def Link.refused (l : Link) (offset i : ℕ) : Link :=
  { l with
    session := { l.session with state := .failed, error := .badFinished }
    log := l.log ++ [.access .decryptedBuf (offset + 4) (i + 1)] }

def Link.hashed (l : Link) (state : TlsState) (offset : ℕ) : Link :=
  { l with
    session := { l.session with
      state, transcript := l.session.transcript ++ messageBytes l.memory offset }
    log := l.log ++ [.access .decryptedBuf offset (4 + messageLength l.memory offset)] }

section
variable (crypto : Crypto) (fuel offset : ℕ) (isDone : Bool) (l : Link)

/-- The code expected in the Finished message at an offset differs from it at this byte. -/
def finishedMismatch : Option ℕ :=
  macMismatch l.memory offset
    (finishedMac crypto l.session.serverHandshakeTrafficSecret l.session.transcript)

variable {l}

lemma handleMessage_encryptedExtensions
    (h : l.memory (decryptedBase + offset) = hsEncryptedExtensions) :
    handleMessage crypto fuel offset isDone l =
      .going isDone ((l.began offset).hashed .encryptedExtensions offset) := by
  unfold handleMessage
  change (if l.memory (decryptedBase + offset) = hsEncryptedExtensions then _ else _ :
    Handshake Bool) (l.began offset) = _
  rw [if_pos h]
  rfl

lemma handleMessage_certificateVerify
    (h : l.memory (decryptedBase + offset) = hsCertificateVerify) :
    handleMessage crypto fuel offset isDone l =
      .going isDone ((l.began offset).hashed .certificateVerify offset) := by
  unfold handleMessage
  change (if l.memory (decryptedBase + offset) = hsEncryptedExtensions then _
    else if l.memory (decryptedBase + offset) = hsCertificate then _
    else if l.memory (decryptedBase + offset) = hsCertificateVerify then _ else _ :
    Handshake Bool) (l.began offset) = _
  rw [if_neg (by rw [h]; decide), if_neg (by rw [h]; decide), if_pos h]
  rfl

lemma handleMessage_certificate (h : l.memory (decryptedBase + offset) = hsCertificate) :
    handleMessage crypto fuel offset isDone l =
      (handleCertificate fuel offset >>= fun _ => pure isDone)
        ((l.began offset).hashed .certificate offset) := by
  unfold handleMessage
  change (if l.memory (decryptedBase + offset) = hsEncryptedExtensions then _
    else if l.memory (decryptedBase + offset) = hsCertificate then _ else _ :
    Handshake Bool) (l.began offset) = _
  rw [if_neg (by rw [h]; decide), if_pos h]
  refine (Program.bind_going rfl).trans ?_
  exact Program.bind_going rfl

lemma handleMessage_finished (h : l.memory (decryptedBase + offset) = hsFinished) :
    handleMessage crypto fuel offset isDone l =
      match finishedMismatch crypto offset l with
      | some i => .ended .badFinished ((l.began offset).refused offset i)
      | none => .going true
          (((l.began offset).note [.access .decryptedBuf (offset + 4) 32]).hashed .finished offset) := by
  have heq : handleFinished crypto offset (messageLength l.memory offset) (l.began offset) =
      match finishedMismatch crypto offset l with
      | some i => .ended .badFinished ((l.began offset).refused offset i)
      | none => .going ()
          (((l.began offset).note [.access .decryptedBuf (offset + 4) 32]).hashed .finished offset) := by
    unfold handleFinished
    generalize hmac : finishedMismatch crypto offset l = mismatch
    change (match finishedMismatch crypto offset l with | some i => _ | none => _ : Handshake Unit) _ = _
    rw [hmac]
    cases mismatch <;> rfl
  unfold handleMessage
  change (if l.memory (decryptedBase + offset) = hsEncryptedExtensions then _
    else if l.memory (decryptedBase + offset) = hsCertificate then _
    else if l.memory (decryptedBase + offset) = hsCertificateVerify then _
    else if l.memory (decryptedBase + offset) = hsFinished then _ else _ :
    Handshake Bool) (l.began offset) = _
  rw [if_neg (by rw [h]; decide), if_neg (by rw [h]; decide), if_neg (by rw [h]; decide), if_pos h]
  change (handleFinished crypto offset (messageLength l.memory offset) >>= fun _ => pure true)
    (l.began offset) = _
  cases hmac : finishedMismatch crypto offset l with
  | none =>
    rw [hmac] at heq
    rw [Program.bind_going heq]
    rfl
  | some i =>
    rw [hmac] at heq
    exact Program.bind_ended heq

lemma handleMessage_other (hee : l.memory (decryptedBase + offset) ≠ hsEncryptedExtensions)
    (hcert : l.memory (decryptedBase + offset) ≠ hsCertificate)
    (hverify : l.memory (decryptedBase + offset) ≠ hsCertificateVerify)
    (hfin : l.memory (decryptedBase + offset) ≠ hsFinished) :
    handleMessage crypto fuel offset isDone l = .going isDone (l.began offset) := by
  unfold handleMessage
  change (if l.memory (decryptedBase + offset) = hsEncryptedExtensions then _
    else if l.memory (decryptedBase + offset) = hsCertificate then _
    else if l.memory (decryptedBase + offset) = hsCertificateVerify then _
    else if l.memory (decryptedBase + offset) = hsFinished then _ else _ :
    Handshake Bool) (l.began offset) = _
  rw [if_neg hee, if_neg hcert, if_neg hverify, if_neg hfin]
  rfl

def hashedTypes : List Byte :=
  [hsEncryptedExtensions, hsCertificate, hsCertificateVerify, hsFinished]

variable (l) in
inductive MessageOutcome : Outcome Link TlsError Bool → Prop
  | hashed (state : TlsState)
    (htype : l.memory (decryptedBase + offset) = hsEncryptedExtensions ∧
        state = .encryptedExtensions ∨
      l.memory (decryptedBase + offset) = hsCertificateVerify ∧ state = .certificateVerify) :
    MessageOutcome (.going isDone ((l.began offset).hashed state offset))
  | certificate {l' : Link} (htype : l.memory (decryptedBase + offset) = hsCertificate)
    (hlist : handleCertificate fuel offset ((l.began offset).hashed .certificate offset) =
      .going () l') : MessageOutcome (.going isDone l')
  | unfinished (htype : l.memory (decryptedBase + offset) = hsCertificate)
    (hlist : handleCertificate fuel offset ((l.began offset).hashed .certificate offset) =
      .running) : MessageOutcome .running
  | mismatch {i : ℕ} (htype : l.memory (decryptedBase + offset) = hsFinished)
    (hmac : finishedMismatch crypto offset l = some i) :
    MessageOutcome (.ended .badFinished ((l.began offset).refused offset i))
  | finished (htype : l.memory (decryptedBase + offset) = hsFinished)
    (hmac : finishedMismatch crypto offset l = none) :
    MessageOutcome (.going true
      (((l.began offset).note [.access .decryptedBuf (offset + 4) 32]).hashed .finished offset))
  | other (htype : l.memory (decryptedBase + offset) ∉ hashedTypes) :
    MessageOutcome (.going isDone (l.began offset))

variable (l) in
lemma handleMessage_outcome :
    MessageOutcome crypto fuel offset isDone l (handleMessage crypto fuel offset isDone l) := by
  by_cases hee : l.memory (decryptedBase + offset) = hsEncryptedExtensions
  · rw [handleMessage_encryptedExtensions crypto fuel offset isDone hee]
    exact .hashed _ (.inl ⟨hee, rfl⟩)
  by_cases hcert : l.memory (decryptedBase + offset) = hsCertificate
  · rw [handleMessage_certificate crypto fuel offset isDone hcert]
    cases hlist : handleCertificate fuel offset ((l.began offset).hashed .certificate offset) with
    | running =>
      rw [Program.bind_running hlist]
      exact .unfinished hcert hlist
    | ended error l' => exact absurd hlist (handleCertificate_lists fuel offset).not_ended
    | going _ l' =>
      rw [Program.bind_going hlist]
      exact .certificate hcert hlist
  by_cases hverify : l.memory (decryptedBase + offset) = hsCertificateVerify
  · rw [handleMessage_certificateVerify crypto fuel offset isDone hverify]
    exact .hashed _ (.inr ⟨hverify, rfl⟩)
  by_cases hfin : l.memory (decryptedBase + offset) = hsFinished
  · rw [handleMessage_finished crypto fuel offset isDone hfin]
    cases hmac : finishedMismatch crypto offset l with
    | none => exact .finished hfin hmac
    | some i => exact .mismatch hfin hmac
  · rw [handleMessage_other crypto fuel offset isDone hee hcert hverify hfin]
    exact .other (by simp [hashedTypes, hee, hcert, hverify, hfin])

end

/-! The outcome of one turn of the record loop. -/

def Link.headerRead (l : Link) : Bool × List Byte × List (Option Byte) :=
  socketReadExact 5 l.incoming

def Link.bodyRead (l : Link) : Bool × List Byte × List (Option Byte) :=
  socketReadExact (u16 l.headerRead.2.1 3) l.headerRead.2.2

/-- The next record is in `encrypted_rec`, as far as it was read. -/
def Link.recordRead (l : Link) : Link :=
  { l with
    incoming := l.bodyRead.2.2
    log := l.log ++ [.access .encryptedRec 0 5, .access .encryptedRec 5 l.bodyRead.2.1.length] }

def Link.stored (l : Link) (plaintext : List Byte) : Link :=
  { l with
    memory := storeBytes l.memory decryptedBase plaintext
    log := l.log ++ [.access .decryptedBuf 0 plaintext.length] }

def Link.failed (l : Link) (error : TlsError) : Link :=
  { l with session := { l.session with state := .failed, error } }

/-- What `decrypt_record` makes of the next record. -/
def nextPlaintext (crypto : Crypto) (l : Link) : Option (List Byte × Byte) :=
  decryptRecord crypto l.session.cipherSuite l.session.serverHandshakeKey
    l.session.serverHandshakeIv l.session.serverRecordSeq (l.headerRead.2.1 ++ l.bodyRead.2.1)

variable (crypto : Crypto) (fuel : ℕ) {l : Link}

lemma recordTurn_timeout (hhead : l.headerRead.1 = false) :
    recordTurn crypto fuel l =
      .ended .handshakeTimeout ({ l with incoming := l.headerRead.2.2 }.failed .handshakeTimeout) := by
  unfold recordTurn
  change (if l.headerRead.1 = false then _ else _ : Handshake Bool)
    { l with incoming := l.headerRead.2.2 } = _
  rw [if_pos hhead]
  rfl

lemma recordTurn_changeCipherSpec (hhead : l.headerRead.1 = true)
    (hccs : l.headerRead.2.1.getD 0 0 = recordChangeCipherSpec) :
    recordTurn crypto fuel l = .going false
      ({ l with incoming := l.bodyRead.2.2 }.note [.access .ccsBuf 0 l.bodyRead.2.1.length]) := by
  unfold recordTurn
  change (if l.headerRead.1 = false then _
    else if l.headerRead.2.1.getD 0 0 = recordChangeCipherSpec then _ else _ : Handshake Bool)
    { l with incoming := l.headerRead.2.2 } = _
  rw [if_neg (by simp [hhead]), if_pos hccs]
  rfl

section
variable (hhead : l.headerRead.1 = true) (hccs : l.headerRead.2.1.getD 0 0 ≠ recordChangeCipherSpec)
include hhead hccs

lemma recordTurn_record :
    recordTurn crypto fuel l = (if l.bodyRead.1 = false then failWith .ioFailure
        else openRecord crypto (l.headerRead.2.1 ++ l.bodyRead.2.1) >>= fun ptLen =>
          messageLoop crypto fuel ptLen ptLen 0 false) l.recordRead := by
  unfold recordTurn
  change (if l.headerRead.1 = false then _
    else if l.headerRead.2.1.getD 0 0 = recordChangeCipherSpec then _ else _ : Handshake Bool)
    { l with incoming := l.headerRead.2.2 } = _
  rw [if_neg (by simp [hhead]), if_neg hccs]
  rfl

lemma recordTurn_short (hbody : l.bodyRead.1 = false) :
    recordTurn crypto fuel l = .ended .ioFailure (l.recordRead.failed .ioFailure) := by
  rw [recordTurn_record crypto fuel hhead hccs, if_pos hbody]
  rfl

end

lemma openRecord_next (C : Crypto) (l : Link) :
    openRecord C (l.headerRead.2.1 ++ l.bodyRead.2.1) l.recordRead =
      storePlaintext (nextPlaintext C l)
        (l.recordRead.opened (l.headerRead.2.1 ++ l.bodyRead.2.1)) :=
  openRecord_eq _ _ _

variable (hhead : l.headerRead.1 = true) (hccs : l.headerRead.2.1.getD 0 0 ≠ recordChangeCipherSpec)
  (hbody : l.bodyRead.1 = true)
include hhead hccs hbody

lemma recordTurn_refused (hplain : nextPlaintext crypto l = none) :
    recordTurn crypto fuel l = .ended .decryptFailed
      ((l.recordRead.opened (l.headerRead.2.1 ++ l.bodyRead.2.1)).failed .decryptFailed) := by
  have hopen := openRecord_next crypto l
  rw [hplain] at hopen
  rw [recordTurn_record crypto fuel hhead hccs, if_neg (by simp [hbody])]
  exact Program.bind_ended hopen

lemma recordTurn_opened {plain : List Byte} {type : Byte}
    (hplain : nextPlaintext crypto l = some (plain, type)) :
    recordTurn crypto fuel l = messageLoop crypto fuel plain.length plain.length 0 false
      ((l.recordRead.opened (l.headerRead.2.1 ++ l.bodyRead.2.1)).stored plain) := by
  have hopen := openRecord_next crypto l
  rw [hplain] at hopen
  rw [recordTurn_record crypto fuel hhead hccs, if_neg (by simp [hbody])]
  exact Program.bind_going hopen

end KosKernel.Tls
