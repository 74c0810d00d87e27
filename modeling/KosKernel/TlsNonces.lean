import KosKernel.Runs
import KosKernel.TlsMessages
import KosKernel.TlsSession

/-! Nonces of the record layer: along a handshake and the calls after it no key is used twice
with one nonce. -/
namespace KosKernel.Tls
open ByteMemory X509 Programs List

lemma constructNonce_injective (iv : List Byte) : Function.Injective (constructNonce iv) := by
  intro a b h
  have hbyte : ∀ k < 8, (a >>> (k * 8)).setWidth 8 = (b >>> (k * 8)).setWidth 8 := by
    intro k hk
    have hget := congrArg (fun nonce => nonce.getD (11 - k) 0) h
    have hindex : 11 - (11 - k) = k := by omega
    simp only [constructNonce, getD_eq_getElem?_getD, getElem?_map,
      getElem?_range (show 11 - k < 12 by omega), Option.map_some, Option.getD_some,
      if_neg (show ¬11 - k < 4 by omega), hindex] at hget
    exact (BitVec.xor_right_inj _).mp hget
  refine BitVec.eq_of_getLsbD_eq fun i hi => ?_
  have hbit := congrArg (fun byte => byte.getLsbD (i % 8)) (hbyte (i / 8) (by omega))
  have hmod : i % 8 < 8 := Nat.mod_lt _ (by norm_num)
  simp only [BitVec.getLsbD_setWidth, hmod, decide_true, Bool.true_and,
    BitVec.getLsbD_ushiftRight, Nat.div_add_mod'] at hbit
  exact hbit

def Event.encryption : Event → Option (KeyKind × List Byte)
  | .encrypted key nonce => some (key, nonce)
  | _ => none

def Event.decryption : Event → Option (KeyKind × List Byte)
  | .decrypted key nonce => some (key, nonce)
  | _ => none

def Link.encryptions (l : Link) : List (KeyKind × List Byte) := l.log.filterMap Event.encryption

open Link

def Link.decryptions (l : Link) : List (KeyKind × List Byte) := l.log.filterMap Event.decryption

variable {events : List Event}

lemma filterMap_log {A : Type} {f : Event → Option A} {log : List Event}
    (h : events.filterMap f = []) : (log ++ events).filterMap f = log.filterMap f := by
  rw [filterMap_append, h, append_nil]

/-- The first records under a key: sequence numbers from zero on. -/
def keyUses (key : KeyKind) (iv : List Byte) (n : ℕ) : List (KeyKind × List Byte) :=
  (range n).map fun i => (key, constructNonce iv (BitVec.ofNat 64 i))

lemma keyUses_succ (key : KeyKind) (iv : List Byte) (n : ℕ) :
    keyUses key iv (n + 1) = keyUses key iv n ++ [(key, constructNonce iv (BitVec.ofNat 64 n))] := by
  simp [keyUses, range_succ]

variable {iv : List Byte}

lemma keyUses_nodup {key : KeyKind} {n : ℕ} (hn : n ≤ 2 ^ 64) : (keyUses key iv n).Nodup := by
  refine List.Nodup.map_on ?_ nodup_range
  intro i hi j hj h
  rw [mem_range] at hi hj
  have hseq := constructNonce_injective iv (Prod.mk.inj h).2
  have hnat := congrArg BitVec.toNat hseq
  rwa [BitVec.toNat_ofNat, BitVec.toNat_ofNat, Nat.mod_eq_of_lt (by omega),
    Nat.mod_eq_of_lt (by omega)] at hnat

lemma key_of_mem_keyUses {key : KeyKind} {n : ℕ} {use : KeyKind × List Byte}
    (h : use ∈ keyUses key iv n) : use.1 = key := by
  obtain ⟨i, -, rfl⟩ := mem_map.mp h
  rfl

lemma uses_nodup {iv' : List Byte} {n n' : ℕ}
    (h : (keyUses .handshake iv n ++ keyUses .application iv' n').length < 2 ^ 64) :
    (keyUses .handshake iv n ++ keyUses .application iv' n').Nodup := by
  simp only [length_append, keyUses, length_map, length_range] at h
  refine List.Nodup.append (keyUses_nodup (by omega)) (keyUses_nodup (by omega)) ?_
  intro use hhandshake happlication
  have hkey := (key_of_mem_keyUses hhandshake).symm.trans (key_of_mem_keyUses happlication)
  cases hkey

/-- While records are read: the server's handshake key is used with the numbers so far. -/
structure Reading (l : Link) : Prop where
  encryptions : l.encryptions = []
  decryptions : ∃ n, l.decryptions = keyUses .handshake l.session.serverHandshakeIv n ∧
    l.session.serverRecordSeq = BitVec.ofNat 64 n
  clientSeq : l.session.clientRecordSeq = 0

/-- After the handshake: each key was used with numbers from zero on, and an established
session goes on with the next ones. -/
def Numbered (l : Link) : Prop :=
  ∃ ivs ivs' n n' k k',
    l.encryptions = keyUses .handshake ivs n ++ keyUses .application l.session.clientAppIv n' ∧
    l.decryptions = keyUses .handshake ivs' k ++ keyUses .application l.session.serverAppIv k' ∧
    (l.session.state = .established → l.session.clientRecordSeq = BitVec.ofNat 64 n' ∧
      l.session.serverRecordSeq = BitVec.ofNat 64 k')

variable {l : Link}

lemma Reading.numbered (h : Reading l) (hfailed : l.Failed) : Numbered l := by
  obtain ⟨n, hn, -⟩ := h.decryptions
  refine ⟨[], _, 0, 0, n, 0, h.encryptions, by simpa [keyUses] using hn, fun hstate => ?_⟩
  rw [hfailed] at hstate
  cases hstate

variable {l' : Link}

lemma Reading.congr (h : Reading l) (henc : l'.encryptions = l.encryptions)
    (hdec : l'.decryptions = l.decryptions)
    (hiv : l'.session.serverHandshakeIv = l.session.serverHandshakeIv)
    (hserver : l'.session.serverRecordSeq = l.session.serverRecordSeq)
    (hclient : l'.session.clientRecordSeq = l.session.clientRecordSeq) : Reading l' where
  encryptions := henc.trans h.encryptions
  decryptions := by
    obtain ⟨n, hn, hseq⟩ := h.decryptions
    exact ⟨n, by rw [hdec, hn, hiv], hserver.trans hseq⟩
  clientSeq := hclient.trans h.clientSeq

lemma filterMap_encryption (h : ∀ e ∈ events, e.OfMessages) :
    events.filterMap Event.encryption = [] := by
  refine filterMap_eq_nil_iff.mpr fun e he => ?_
  have hof := h e he
  cases e <;> simp_all [Event.OfMessages, Event.encryption]

lemma filterMap_decryption (h : ∀ e ∈ events, e.OfMessages) :
    events.filterMap Event.decryption = [] := by
  refine filterMap_eq_nil_iff.mpr fun e he => ?_
  have hof := h e he
  cases e <;> simp_all [Event.OfMessages, Event.decryption]

lemma Handled.reading (l l' : Link) (hhandled : Handled l l') (h : Reading l) : Reading l' := by
  obtain ⟨events, hlog, hof⟩ := hhandled.log
  obtain ⟨_, _, _, _, _, hses⟩ := hhandled.session
  refine h.congr ?_ ?_ ?_ ?_ ?_
  · rw [encryptions, hlog, filterMap_log (filterMap_encryption hof)]
    rfl
  · rw [decryptions, hlog, filterMap_log (filterMap_decryption hof)]
    rfl
  all_goals rw [hses]

section
variable (C : Crypto)

/-- Early returns keep the invariant and mark the session as failed. -/
def ReadingFailed (_ : TlsError) (l : Link) : Prop := Reading l ∧ l.Failed

lemma failWith_reading {A : Type} (error : TlsError) {post : A → Link → Prop} :
    Triple Reading (failWith error : Handshake A) post ReadingFailed :=
  fun _ h => ⟨h.congr rfl rfl rfl rfl rfl, rfl⟩

lemma readExact_reading (n : ℕ) : Triple Reading (readExact n) (fun _ => Reading) ReadingFailed :=
  fun _ h => h.congr rfl rfl rfl rfl rfl

lemma note_reading (henc : events.filterMap Event.encryption = [])
    (hdec : events.filterMap Event.decryption = []) :
    Triple Reading (note events) (fun _ => Reading) ReadingFailed := by
  exact triple_modify fun l h => h.congr (filterMap_log henc) (filterMap_log hdec) rfl rfl rfl

lemma openRecord_reading (record : List Byte) :
    Triple Reading (openRecord C record) (fun _ => Reading) ReadingFailed := by
  intro l h
  obtain ⟨n, hn, hseq⟩ := h.decryptions
  have hnext : Reading (l.opened record) := by
    refine ⟨?_, ⟨n + 1, ?_, ?_⟩, h.clientSeq⟩
    · exact (filterMap_log rfl).trans h.encryptions
    · rw [keyUses_succ, decryptions, opened, filterMap_append]
      change l.decryptions ++ _ = _
      rw [hn, ← hseq]
      rfl
    · rw [opened, hseq, BitVec.ofNat_add]
      rfl
  rw [openRecord_eq]
  cases decryptRecord C l.session.cipherSuite l.session.serverHandshakeKey
      l.session.serverHandshakeIv l.session.serverRecordSeq record with
  | none => exact failWith_reading _ _ hnext
  | some content =>
    refine triple_bind (note_reading rfl rfl) (fun _ l h => ?_) _ hnext
    exact h.congr rfl rfl rfl rfl rfl

lemma recordTurn_reading (fuel : ℕ) :
    Triple Reading (recordTurn C fuel) (fun _ => Reading) ReadingFailed := by
  refine triple_bind (readExact_reading 5) fun read => ?_
  refine triple_ite (fun _ => failWith_reading _) fun _ => triple_ite (fun _ => ?_) fun _ => ?_
  · refine triple_bind (readExact_reading _) fun bytes => ?_
    exact triple_bind (note_reading rfl rfl) fun _ => triple_pure fun _ h => h
  refine triple_bind (readExact_reading _) fun bytes => ?_
  refine triple_bind (note_reading rfl rfl) fun _ => ?_
  refine triple_ite (fun _ => failWith_reading _) fun _ => ?_
  refine triple_bind (openRecord_reading C _) fun ptLen => ?_
  exact triple_of_moves (messageLoop_handles C fuel ptLen ptLen 0 false) Handled.reading

lemma recordLoop_reading (fuel turns : ℕ) :
    Triple Reading (recordLoop C fuel turns) (fun _ => Reading) ReadingFailed := by
  induction turns with
  | zero => exact triple_unfinished
  | succ turns ih =>
    refine triple_bind (recordTurn_reading C fuel) fun isDone => ?_
    exact triple_ite (fun _ => triple_pure fun _ h => h) fun _ => ih

lemma verifyPeer_reading (now : ℕ) :
    Triple Reading (verifyPeer C now) (fun _ => Reading) ReadingFailed := by
  refine triple_bind (triple_read fun _ h => h) fun l => ?_
  refine triple_ite (fun _ => ?_) fun _ => triple_pure fun _ h => h
  refine triple_bind (note_reading rfl rfl) fun _ => ?_
  split
  · exact triple_pure fun _ h => h
  · exact failWith_reading _
  · exact failWith_reading _

/-- Before the ServerHello is parsed no key has been used. -/
structure Unkeyed (l : Link) : Prop where
  encryptions : l.encryptions = []
  decryptions : l.decryptions = []

lemma Unkeyed.numbered (h : Unkeyed l) (hfailed : l.Failed) : Numbered l := by
  refine ⟨[], [], 0, 0, 0, 0, h.encryptions, h.decryptions, fun hstate => ?_⟩
  rw [hfailed] at hstate
  cases hstate

def UnkeyedFailed (_ : TlsError) (l : Link) : Prop := Unkeyed l ∧ l.Failed

lemma Quiet.unkeyed (l l' : Link) (hquiet : Quiet l l') (h : Unkeyed l) : Unkeyed l' := by
  obtain ⟨events, hlog, hplain⟩ := hquiet.log
  have hsilent : ∀ e ∈ events, e.encryption = none ∧ e.decryption = none := by
    intro e he
    have hkind := hplain e he
    cases e <;> simp_all [Event.Plain, Event.encryption, Event.decryption]
  constructor
  · rw [encryptions, hlog, filterMap_log (filterMap_eq_nil_iff.mpr fun e he => (hsilent e he).1)]
    exact h.encryptions
  · rw [decryptions, hlog, filterMap_log (filterMap_eq_nil_iff.mpr fun e he => (hsilent e he).2)]
    exact h.decryptions

lemma sendClientHello_unkeyed (entropy : Entropy) :
    Triple Unkeyed (sendClientHello C entropy) (fun _ => Unkeyed) UnkeyedFailed :=
  triple_of_moves (sendClientHello_hushed C entropy) Quiet.unkeyed

lemma readServerHello_reading :
    Triple Unkeyed (readServerHello C) (fun _ => Reading) UnkeyedFailed :=
  triple_weaken (triple_and (triple_of_moves (readServerHello_hushed C) Quiet.unkeyed)
    (readServerHello_counters C))
    (fun _ _ h => ⟨h.1.encryptions, ⟨0, h.1.decryptions, h.2.1⟩, h.2.2⟩) fun _ _ h => h

/-- The client's Finished is its only record under the handshake key. -/
def Finishing (l : Link) : Prop :=
  ∃ iv iv' k, l.encryptions = keyUses .handshake iv 1 ∧ l.decryptions = keyUses .handshake iv' k

lemma Finishing.numbered (h : Finishing l) (hstate : l.session.state = .established →
      l.session.clientRecordSeq = 0 ∧ l.session.serverRecordSeq = 0) : Numbered l := by
  obtain ⟨iv, iv', k, henc, hdec⟩ := h
  exact ⟨iv, iv', 1, 0, k, 0, by rw [henc]; rfl, by simpa [keyUses] using hdec, hstate⟩

lemma failWith_numbered {A : Type} (error : TlsError) {post : A → Link → Prop} :
    Triple Finishing (failWith error : Handshake A) post fun _ => Numbered := by
  intro l h
  refine Finishing.numbered (l := { l with session := { l.session with state := .failed, error } })
    h ?_
  intro hstate
  cases hstate

lemma transmitFinished_numbered (record : Option (List Byte)) :
    Triple Finishing (transmitFinished record) (fun _ => Numbered) fun _ => Numbered := by
  cases record with
  | none => exact failWith_numbered _
  | some record =>
    have hwrite : Triple Finishing (writeExact record) (fun _ => Finishing)
        (fun _ => Numbered) := by
      rintro l ⟨iv, iv', k, henc, hdec⟩
      exact ⟨iv, iv', k, (filterMap_log rfl).trans henc, (filterMap_log rfl).trans hdec⟩
    refine triple_bind hwrite fun ok => ?_
    refine triple_ite (fun _ => failWith_numbered _) fun _ l h => ?_
    exact Finishing.numbered (l := { l with session := { l.session with
      clientRecordSeq := 0, serverRecordSeq := 0, state := .established, error := .none } }) h
      fun _ => ⟨rfl, rfl⟩

lemma sendFinished_numbered :
    Triple Reading (sendFinished C) (fun _ => Numbered) fun _ => Numbered := by
  have hderive : Triple Reading (updateSession (deriveApplicationSecrets C))
      (fun _ => Reading) fun _ => Numbered := fun _ h => h.congr rfl rfl rfl rfl rfl
  refine triple_bind hderive fun _ l h => ?_
  have hseal : Finishing { l with
      session := { l.session with clientRecordSeq := l.session.clientRecordSeq + 1 }
      log := l.log ++ [.encrypted .handshake
        (constructNonce l.session.clientHandshakeIv l.session.clientRecordSeq)] } := by
    obtain ⟨k, hk, -⟩ := h.decryptions
    refine ⟨l.session.clientHandshakeIv, l.session.serverHandshakeIv, k, ?_, ?_⟩
    · rw [encryptions, filterMap_append]
      change l.encryptions ++ _ = _
      rw [h.encryptions, h.clientSeq]
      rfl
    · exact (filterMap_log rfl).trans hk
  exact transmitFinished_numbered _ _ hseal

lemma clientHandshake_numbered (entropy : Entropy) (fuel now : ℕ) :
    Triple Unkeyed (clientHandshake C entropy fuel now) (fun _ => Numbered)
      fun _ => Numbered := by
  have hunkeyed : ∀ (e : TlsError) l, UnkeyedFailed e l → Numbered l := fun _ _ h => h.1.numbered h.2
  have hreading : ∀ (e : TlsError) l, ReadingFailed e l → Numbered l := fun _ _ h => h.1.numbered h.2
  refine triple_bind (triple_weaken (sendClientHello_unkeyed C entropy) (fun _ _ h => h)
    hunkeyed) fun _ => ?_
  refine triple_bind (triple_weaken (readServerHello_reading C) (fun _ _ h => h) hunkeyed)
    fun _ => ?_
  refine triple_bind (triple_read fun _ h => h) fun l => ?_
  refine triple_bind (triple_weaken (recordLoop_reading C fuel _) (fun _ _ h => h) hreading)
    fun _ => ?_
  refine triple_bind (triple_weaken (verifyPeer_reading C now) (fun _ _ h => h) hreading)
    fun _ => ?_
  exact sendFinished_numbered C

lemma netTlsClientHandshake_numbered {entropy : Entropy} {fuel now : ℕ}
    {error : TlsError} (hl : Unkeyed l)
    (h : netTlsClientHandshake C entropy fuel now l = some (error, l')) : Numbered l' := by
  have hrun := clientHandshake_numbered C entropy fuel now l hl
  unfold netTlsClientHandshake at h
  cases hout : clientHandshake C entropy fuel now l with
  | running =>
    rw [hout] at h
    cases h
  | ended e s =>
    rw [hout] at h hrun
    cases h
    exact hrun
  | going u s =>
    rw [hout] at h hrun
    cases h
    exact hrun

end

section
variable (C : Crypto)

variable {l : Link}

lemma Numbered.congr (h : Numbered l) (henc : l'.encryptions = l.encryptions)
    (hdec : l'.decryptions = l.decryptions)
    (hclientIv : l'.session.clientAppIv = l.session.clientAppIv)
    (hserverIv : l'.session.serverAppIv = l.session.serverAppIv)
    (hstate : l'.session.state = .established → l.session.state = .established ∧
      l'.session.clientRecordSeq = l.session.clientRecordSeq ∧
      l'.session.serverRecordSeq = l.session.serverRecordSeq) : Numbered l' := by
  obtain ⟨iv, iv', n, n', k, k', hn, hk, hseq⟩ := h
  refine ⟨iv, iv', n, n', k, k', by rw [henc, hn, hclientIv], by rw [hdec, hk, hserverIv], ?_⟩
  intro hestablished
  obtain ⟨hold, hclient, hserver⟩ := hstate hestablished
  rw [hclient, hserver]
  exact hseq hold

section
variable (h : Numbered l) (hstate : l.session.state = .established)
include h hstate

lemma Numbered.sealNext (innerType : Byte) (plain : List Byte) :
    Numbered (sealNext C innerType plain l).2 := by
  obtain ⟨iv, iv', n, n', k, k', hn, hk, hseq⟩ := h
  obtain ⟨hclient, hserver⟩ := hseq hstate
  refine ⟨iv, iv', n, n' + 1, k, k', ?_, ?_, fun _ => ⟨?_, hserver⟩⟩
  · rw [keyUses_succ, ← append_assoc, encryptions, Tls.sealNext, filterMap_append]
    change l.encryptions ++ _ = _
    rw [hn, hclient]
    rfl
  · exact (filterMap_log rfl).trans hk
  change l.session.clientRecordSeq + 1 = _
  rw [hclient, BitVec.ofNat_add]
  rfl

lemma Numbered.sendRecord (innerType : Byte) (plain : List Byte) :
    Numbered (sendRecord C innerType plain l).2 ∧
      (sendRecord C innerType plain l).2.session.state = .established := by
  have hsealed := h.sealNext C hstate innerType plain
  have hkept : (Tls.sealNext C innerType plain l).2.session.state = .established := hstate
  unfold Tls.sendRecord
  generalize Tls.sealNext C innerType plain l = sealed at hsealed hkept ⊢
  obtain ⟨record, l'⟩ := sealed
  cases record with
  | none => exact ⟨hsealed, hkept⟩
  | some record =>
    exact ⟨hsealed.congr (filterMap_log rfl) (filterMap_log rfl) rfl rfl
      fun hs => ⟨hs, rfl, rfl⟩, hkept⟩

lemma Numbered.sendLoop (turns : ℕ) (data : List Byte) :
    Numbered (sendLoop C turns data l).2 := by
  induction turns generalizing data l with
  | zero => exact h
  | succ turns ih =>
    unfold Tls.sendLoop
    split
    · obtain ⟨hnext, hkept⟩ := h.sendRecord C hstate recordApplicationData
        (data.take chunkSize)
      generalize Tls.sendRecord C recordApplicationData (data.take chunkSize) l = sent
        at hnext hkept ⊢
      obtain ⟨ok, l'⟩ := sent
      cases ok with
      | false => exact hnext
      | true => exact ih hnext hkept _
    · exact h

end

lemma established_iff (l : Link) : l.established = false ↔ l.session.state ≠ .established := by
  simp [established]

section
variable (h : Numbered l)
include h

lemma Numbered.received (hstate : l.session.state = .established) (hdr bytes : List Byte)
    (rest : List (Option Byte)) : Numbered (l.received hdr bytes rest) := by
  obtain ⟨iv, iv', n, n', k, k', hn, hk, hseq⟩ := h
  obtain ⟨hclient, hserver⟩ := hseq hstate
  refine ⟨iv, iv', n, n', k, k' + 1, (filterMap_log rfl).trans hn, ?_, fun _ => ⟨hclient, ?_⟩⟩
  · rw [keyUses_succ, ← append_assoc, Link.decryptions, Link.received, filterMap_append]
    change l.decryptions ++ _ = _
    rw [hk, hserver]
    rfl
  change l.session.serverRecordSeq + 1 = _
  rw [hserver, BitVec.ofNat_add]
  rfl

lemma Numbered.deliver (cap : ℕ) (content : Option (List Byte × Byte)) :
    Numbered (deliver cap l content).2 := by
  cases content with
  | none => exact h
  | some content =>
    have hnoted : Numbered (l.note [.access .decBuf 0 content.1.length]) :=
      h.congr (filterMap_log rfl) (filterMap_log rfl) rfl rfl fun hs => ⟨hs, rfl, rfl⟩
    unfold Tls.deliver
    dsimp only
    split
    · exact hnoted.congr rfl rfl rfl rfl fun hs => by cases hs
    · exact hnoted

lemma Numbered.recv (cap : ℕ) : Numbered (netTlsRecv C cap l).2 := by
  unfold netTlsRecv
  split
  · exact h
  rename_i hopen
  rw [not_or, established_iff, not_not] at hopen
  split
  · exact h.congr rfl rfl rfl rfl fun hs => ⟨hs, rfl, rfl⟩
  split
  · exact h.congr (filterMap_log rfl) (filterMap_log rfl) rfl rfl fun hs => ⟨hs, rfl, rfl⟩
  · exact (h.received hopen.1 _ _ _).deliver _ _

lemma Numbered.send (data : List Byte) : Numbered (netTlsSend C data l).2 := by
  unfold netTlsSend
  split
  · exact h
  rename_i hopen
  rw [established_iff, not_not] at hopen
  have hsent := h.sendLoop C hopen data.length data
  generalize Tls.sendLoop C data.length data l = sent at hsent ⊢
  obtain ⟨ok, l'⟩ := sent
  cases ok <;> exact hsent

lemma Numbered.close : Numbered (netTlsClose C l) := by
  unfold netTlsClose
  split
  · exact h
  rename_i hopen
  rw [established_iff, not_not] at hopen
  exact (h.sendRecord C hopen recordAlert [0x01, 0x00]).1.congr rfl rfl rfl rfl
    fun hs => by cases hs

lemma Numbered.call (call : SessionCall) : Numbered (l.call C call) := by
  cases call with
  | send data => exact h.send C data
  | recv cap => exact h.recv C cap
  | close => exact h.close C

end
end

/-- Over a handshake and the calls after it, with fewer than 2^64 records in each direction, no
key is used twice with one nonce. -/
theorem nonces_unique (crypto : Crypto) (entropy : Entropy) (fuel now : ℕ) (serverName : List Byte)
    (insecure : Bool) (incoming : List (Option Byte)) (accepts : List Bool) (hsBuf memory : Memory)
    {error : TlsError} {l : Link} (h : netTlsClientHandshake crypto entropy fuel now
      (newLink serverName insecure incoming accepts hsBuf memory) = some (error, l))
    (calls : List SessionCall)
    (hsent : (Runs.run (Link.call crypto) l calls).encryptions.length < 2 ^ 64)
    (hreceived : (Runs.run (Link.call crypto) l calls).decryptions.length < 2 ^ 64) :
    (Runs.run (Link.call crypto) l calls).encryptions.Nodup ∧
      (Runs.run (Link.call crypto) l calls).decryptions.Nodup := by
  have hnumbered := netTlsClientHandshake_numbered crypto ⟨rfl, rfl⟩ h
  obtain ⟨iv, iv', n, n', k, k', henc, hdec, -⟩ :=
    Runs.run_preserves (fun l call hl => hl.call crypto call) hnumbered calls
  rw [henc] at hsent ⊢
  rw [hdec] at hreceived ⊢
  exact ⟨uses_nodup hsent, uses_nodup hreceived⟩

/-- A handshake with one record, and one record of data to come. -/
def plainRecords : List (List Byte) :=
  [plainRecord recordHandshake plainFinished, plainRecord recordApplicationData [7]]

def plainCalls : List SessionCall := [.send (replicate 1500 0), .recv 10, .close]

theorem nonces_unique_plain :
    (Runs.run (Link.call plainCrypto) (plainSession true plainRecords) plainCalls).encryptions.Nodup ∧
      (Runs.run (Link.call plainCrypto) (plainSession true plainRecords)
        plainCalls).decryptions.Nodup := by
  have hdone : plainHandshake true plainRecords = some (.none, plainSession true plainRecords) :=
    plainHandshake_eq (by decide +kernel)
  exact nonces_unique plainCrypto noEntropy 4 0 [0x61] true _ _ (fun _ => 0) (fun _ => 0) hdone
    plainCalls (by decide +kernel) (by decide +kernel)

end KosKernel.Tls
