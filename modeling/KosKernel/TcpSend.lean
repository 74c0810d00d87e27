import KosKernel.TcpReceive

/-! `tcp_send` as a sequence of sections, with arbitrary traffic between them, and the bytes it
puts on the wire. -/
namespace KosKernel.Tcp
open BigEndian Function List Option

/-- Where a call of `tcp_send` stands: at the head of its loop, before the check that follows a
chunk, in the wait for its acknowledgement, or past a wait that has failed. -/
inductive SendPhase where
  | head
  | check (seq : BitVec 32) (chunkSize : ℕ)
  | wait (seq : BitVec 32) (chunkSize : ℕ)
  | failed
  deriving DecidableEq

structure SendCall where
  data : List Byte
  totalSent : ℕ
  phase : SendPhase
  deriving DecidableEq

def chunkSize (s : TcpSocket) (size totalSent : ℕ) : ℕ :=
  let chunkSize := min (size - totalSent) s.mss.toNat
  let effWnd := min s.sndWnd.toNat s.cwnd.toNat
  if effWnd < chunkSize ∧ 0 < effWnd then effWnd else chunkSize

def chunkSegment (s : TcpSocket) (payload : List Byte) : OutSegment where
  srcIp := s.localIp
  srcPort := s.localPort
  dstIp := s.remoteIp
  dstPort := s.remotePort
  seq := s.sndNxt
  ack := s.rcvNxt
  flags := flagAck ||| flagPsh
  window := receiveWindow s
  options := []
  payload

def sendChunk (clock : Clock) (s : TcpSocket) (payload : List Byte) : TcpSocket :=
  { s with
    pending := some (chunkSegment s payload)
    retransmitPending := true
    retryCount := 0
    lastSentTick := clock.now
    rtoTicks := if s.srtt = 0 then defaultRtoTicks else s.rtoTicks
    rttSeq := if s.rttMeasuring then s.rttSeq else s.sndNxt + BitVec.ofNat 32 payload.length
    rttSentTick := if s.rttMeasuring then s.rttSentTick else clock.now
    rttMeasuring := true
    sndNxt := s.sndNxt + BitVec.ofNat 32 payload.length }

/-- The test `snd_una >= seq + chunk_size`, whose sum is formed in 64 bits. -/
def acknowledged (s : TcpSocket) (seq : BitVec 32) (chunkSize : ℕ) : Bool :=
  decide (s.sndUna.toNat ≥ seq.toNat + chunkSize)

/-- The sockets, the call in progress, the bytes that the calls have reported as sent, and what
the connection has handed to `net_ipv4_send_from`. -/
structure SendSession where
  sockets : Sockets
  call : Option SendCall
  reported : List Byte
  transmitted : List OutSegment

open SendSession

inductive SendLabel where
  | traffic (label : Traffic)
  | call (data : List Byte)
  | chunk (clock : Clock)
  | check
  | poll
  | timeout
  | fail
  deriving DecidableEq

/-- Whether the segments that a step sends are the connection's. -/
def Traffic.concerns (index : Fin socketMax) : Traffic → Bool
  | .arrival _ _ => true
  | .poll _ other => other == index

def SendSession.setSocket (x : SendSession) (index : Fin socketMax) (s : TcpSocket) : SendSession :=
  { x with sockets := update x.sockets index s }

def SendSession.return (x : SendSession) (call : SendCall) : SendSession :=
  { x with call := none, reported := x.reported ++ call.data.take call.totalSent }

def SendSession.advance (x : SendSession) (index : Fin socketMax) (call : SendCall)
    (chunkSize : ℕ) : SendSession :=
  { x.setSocket index { x.sockets index with retransmitPending := false } with
    call := some ⟨call.data, call.totalSent + chunkSize, .head⟩ }

def SendSession.sendNext (index : Fin socketMax) (x : SendSession) (call : SendCall)
    (clock : Clock) : SendSession :=
  let s := x.sockets index
  let size := chunkSize s call.data.length call.totalSent
  let payload := (call.data.drop call.totalSent).take size
  { x.setSocket index (sendChunk clock s payload) with
    call := some ⟨call.data, call.totalSent, .check s.sndNxt size⟩
    transmitted := x.transmitted ++ [chunkSegment s payload] }

def SendSession.headSection (index : Fin socketMax) (x : SendSession) (call : SendCall)
    (clock : Clock) : SendSession :=
  let s := x.sockets index
  if call.data.length ≤ call.totalSent then x.return call
  else if s.inUse = false ∨ (s.state ≠ .established ∧ s.state ≠ .closeWait) then x.return call
  else x.sendNext index call clock

def SendSession.step (index : Fin socketMax) (x : SendSession) : SendLabel → SendSession
  | .traffic label =>
    let (sockets, sent) := traffic x.sockets label
    { x with
      sockets
      transmitted := if label.concerns index then x.transmitted ++ sent else x.transmitted }
  | .call data =>
    if x.call = none ∧ data ≠ [] then { x with call := some ⟨data, 0, .head⟩ } else x
  | .chunk clock =>
    match x.call with
    | some ⟨data, totalSent, .head⟩ => x.headSection index ⟨data, totalSent, .head⟩ clock
    | _ => x
  | .check =>
    match x.call with
    | some ⟨data, totalSent, .check seq size⟩ =>
      if acknowledged (x.sockets index) seq size then
        x.advance index ⟨data, totalSent, .check seq size⟩ size
      else { x with call := some ⟨data, totalSent, .wait seq size⟩ }
    | _ => x
  | .poll =>
    match x.call with
    | some ⟨data, totalSent, .wait seq size⟩ =>
      if acknowledged (x.sockets index) seq size then
        x.advance index ⟨data, totalSent, .wait seq size⟩ size
      else if (x.sockets index).state ≠ .established then
        { x with call := some ⟨data, totalSent, .failed⟩ }
      else x
    | _ => x
  | .timeout =>
    match x.call with
    | some ⟨data, totalSent, .wait _ _⟩ => { x with call := some ⟨data, totalSent, .failed⟩ }
    | _ => x
  | .fail =>
    match x.call with
    | some ⟨data, totalSent, .failed⟩ =>
      (x.setSocket index { x.sockets index with retransmitPending := false }).return
        ⟨data, totalSent, .failed⟩
    | _ => x

def streamIndex (sndIsn seq : BitVec 32) : ℕ := (seq - (sndIsn + 1)).toNat

/-- Every byte that was transmitted is the byte at its place in what was reported as sent. -/
def Faithful (sndIsn : BitVec 32) (x : SendSession) : Prop :=
  ∀ segment ∈ x.transmitted, ∀ j < segment.payload.length,
    x.reported[streamIndex sndIsn (segment.seq + BitVec.ofNat 32 j)]? = segment.payload[j]?

instance (sndIsn : BitVec 32) (x : SendSession) : Decidable (Faithful sndIsn x) :=
  inferInstanceAs (Decidable (∀ segment ∈ x.transmitted, ∀ j < segment.payload.length, _))

/-- The wait of a call for its acknowledgement does not end without it: neither the time limit
nor the end of the connection breaks it off. -/
def waitsOut (index : Fin socketMax) (x : SendSession) : SendLabel → Bool
  | .timeout =>
    match x.call with
    | some ⟨_, _, .wait _ _⟩ => false
    | _ => true
  | .poll =>
    match x.call with
    | some ⟨_, _, .wait seq size⟩ =>
      acknowledged (x.sockets index) seq size || (x.sockets index).state == .established
    | _ => true
  | _ => true

/-- What the sending side of a connection is made of, as far as traffic does not touch it. -/
structure SendSide where
  inUse : Bool
  isListening : Bool
  sndNxt : BitVec 32
  pending : Option OutSegment

def TcpSocket.sendSide (s : TcpSocket) : SendSide := ⟨s.inUse, s.isListening, s.sndNxt, s.pending⟩

section
variable (clock : Clock) (s : TcpSocket) (seg : Segment)

lemma takeAck_sendSide : (takeAck clock s seg).sendSide = s.sendSide := by
  unfold takeAck
  split
  · rfl
  split
  · split <;> rfl
  · rfl

lemma takePayload_sendSide : (takePayload s seg).1.sendSide = s.sendSide := by
  unfold takePayload
  split
  · rfl
  · split <;> rfl

lemma receiveEstablished_sendSide :
    (receiveEstablished clock s seg).1.sendSide = s.sendSide := by
  unfold receiveEstablished
  simp only []
  split
  · exact (takePayload_sendSide _ _).trans (takeAck_sendSide clock s seg)
  · exact (takePayload_sendSide _ _).trans (takeAck_sendSide clock s seg)

lemma receiveCloseWait_sendSide : (receiveCloseWait s seg).sendSide = s.sendSide := by
  unfold receiveCloseWait
  split
  · rfl
  · split <;> rfl

lemma receiveCloseWait_state : (receiveCloseWait s seg).state = s.state := by
  unfold receiveCloseWait
  split
  · rfl
  · split <;> rfl

end

/-- The states of a connection that has been established and is not closed by its owner. -/
def Connected (s : TcpSocket) : Prop :=
  s.inUse = true ∧ s.isListening = false ∧
    (s.state = .established ∨ s.state = .closeWait ∨ s.state = .closed)

section
variable {clock : Clock} {s : TcpSocket} {seg : Segment} {sockets : Sockets}
  {index : Fin socketMax} {source destination : BitVec 32}

lemma Connected.of_sendSide {s' : TcpSocket} (h : Connected s) (hside : s'.sendSide = s.sendSide)
    (hstate : s'.state = .established ∨ s'.state = .closeWait ∨ s'.state = .closed) :
    Connected s' :=
  ⟨(congrArg SendSide.inUse hside).trans h.1, (congrArg SendSide.isListening hside).trans h.2.1,
    hstate⟩

lemma receiveEstablished_connected (clock : Clock) (seg : Segment)
    (h : s.state = .established) :
    (receiveEstablished clock s seg).1.state = .established ∨
      (receiveEstablished clock s seg).1.state = .closeWait := by
  cases hfin : hasFlag seg.flags flagFin with
  | true =>
    rw [receiveEstablished_fin clock s seg hfin]
    exact .inr rfl
  | false =>
    rw [receiveEstablished_state hfin]
    exact .inl h

lemma receiveConnected_sendSide (h : Connected (sockets index)) :
    ((receiveConnected clock sockets index seg).1 index).sendSide = (sockets index).sendSide ∧
      Connected ((receiveConnected clock sockets index seg).1 index) := by
  cases hrst : hasFlag seg.flags flagRst with
  | true =>
    simp only [receiveConnected, hrst, if_true, update_self]
    exact ⟨rfl, h.of_sendSide rfl (.inr (.inr rfl))⟩
  | false =>
    rcases h.2.2 with hstate | hstate | hstate
    · have hside := receiveEstablished_sendSide clock (sockets index) seg
      simp only [receiveConnected, hrst, hstate, Bool.false_eq_true, if_false, update_self]
      refine ⟨hside, h.of_sendSide hside ?_⟩
      rcases receiveEstablished_connected clock seg hstate with h | h
      · exact .inl h
      · exact .inr (.inl h)
    · have hside := receiveCloseWait_sendSide (sockets index) seg
      simp only [receiveConnected, hrst, hstate, Bool.false_eq_true, if_false, update_self]
      refine ⟨hside, h.of_sendSide hside (.inr (.inl ?_))⟩
      rw [receiveCloseWait_state, hstate]
    · simp only [receiveConnected, hrst, hstate, Bool.false_eq_true, if_false]
      exact ⟨trivial, h⟩

lemma pollSocket_sendSide (h : Connected s) :
    (pollSocket clock s).1.sendSide = s.sendSide ∧ Connected (pollSocket clock s).1 := by
  unfold pollSocket
  split
  · next htime =>
    rcases h.2.2 with hstate | hstate | hstate <;> simp [hstate] at htime
  split
  · split
    · exact ⟨rfl, h⟩
    · exact ⟨rfl, h.of_sendSide rfl (.inr (.inr rfl))⟩
  · exact ⟨rfl, h⟩

lemma traffic_sendSide (h : Connected (sockets index)) (label : Traffic) :
    ((traffic sockets label).1 index).sendSide = (sockets index).sendSide ∧
      Connected ((traffic sockets label).1 index) := by
  cases label with
  | poll clock other =>
    obtain rfl | hother := eq_or_ne index other
    · rw [traffic, netTcpPollTurn_self]
      exact pollSocket_sendSide h
    · rw [traffic, netTcpPollTurn_other hother]
      exact ⟨rfl, h⟩
  | arrival clock a =>
    rw [traffic, netTcpReceive]
    cases hparse : parseSegment a.source a.destination a.packet with
    | none => exact ⟨rfl, h⟩
    | some seg =>
      simp only [receiveSegment]
      cases hfind : findConnection sockets a.source seg with
      | none =>
        rw [receiveUnconnected_in_use h.1]
        exact ⟨rfl, h⟩
      | some other =>
        obtain rfl | hother := eq_or_ne index other
        · exact receiveConnected_sendSide h
        · rw [receiveConnected_other hother h.2.1]
          exact ⟨rfl, h⟩

lemma receiveConnected_payload :
    ∀ out ∈ (receiveConnected clock sockets index seg).2, out.payload = [] := by
  unfold receiveConnected receiveSynSent receiveEstablished receiveFinWait1 receiveFinWait2
  simp only []
  split
  · simp
  split
  all_goals simp only [not_mem_nil, false_imp_iff, implies_true]
  all_goals split
  all_goals simp [ackSegment]

lemma receiveUnconnected_payload :
    ∀ out ∈ (receiveUnconnected clock sockets source destination seg).2, out.payload = [] := by
  unfold receiveUnconnected
  split
  · split
    · split
      · split <;> simp [synAckSegment]
      · simp
    · simp
  · split <;> simp [rstSegment]

lemma netTcpReceive_payload (a : Arrival) :
    ∀ out ∈ (netTcpReceive clock sockets a).2, out.payload = [] := by
  unfold netTcpReceive receiveSegment
  split
  · simp
  split
  · exact receiveConnected_payload
  · exact receiveUnconnected_payload

lemma pollSocket_sent : ∀ out ∈ (pollSocket clock s).2, out ∈ s.pending := by
  unfold pollSocket
  split
  · split <;> simp
  split
  · split <;> simp
  · simp

lemma traffic_sent {label : Traffic} (hlabel : label.concerns index = true) :
    ∀ out ∈ (traffic sockets label).2, out.payload = [] ∨ out ∈ (sockets index).pending := by
  intro out hout
  cases label with
  | poll clock other =>
    obtain rfl : other = index := by simpa [Traffic.concerns] using hlabel
    exact .inr (pollSocket_sent out hout)
  | arrival clock a => exact .inl (netTcpReceive_payload a out hout)

end

/-- The bytes that have been acknowledged: those reported, and those of the call in progress. -/
def SendSession.accepted (x : SendSession) : List Byte :=
  x.reported ++ x.call.elim [] fun call => call.data.take call.totalSent

def SendCall.inFlight (call : SendCall) : List Byte :=
  match call.phase with
  | .check _ size | .wait _ size => (call.data.drop call.totalSent).take size
  | _ => []

def SendSession.inFlight (x : SendSession) : List Byte := x.call.elim [] SendCall.inFlight

/-- The segment lies in the stream at the place that its number says. -/
def Placed (sndIsn : BitVec 32) (stream : List Byte) (segment : OutSegment) : Prop :=
  ∃ before after, stream = before ++ segment.payload ++ after ∧
    segment.seq = sndIsn + 1 + BitVec.ofNat 32 before.length

/-- The chunk in flight follows the bytes accepted, and its place is the one the call waits
for. -/
def SendCall.Awaits (sndIsn : BitVec 32) (accepted : List Byte) (call : SendCall) : Prop :=
  match call.phase with
  | .head => True
  | .check seq size | .wait seq size =>
    seq = sndIsn + 1 + BitVec.ofNat 32 accepted.length ∧
      size = ((call.data.drop call.totalSent).take size).length
  | .failed => False

structure Sending (index : Fin socketMax) (sndIsn : BitVec 32) (x : SendSession) : Prop where
  connected : Connected (x.sockets index)
  sndNxt_eq : (x.sockets index).sndNxt =
    sndIsn + 1 + BitVec.ofNat 32 (x.accepted ++ x.inFlight).length
  room : (sndIsn + 1).toNat + x.accepted.length < 2 ^ 32
  awaits : ∀ call ∈ x.call, call.Awaits sndIsn x.accepted
  placed : ∀ segment ∈ x.transmitted, segment.payload = [] ∨
    Placed sndIsn (x.accepted ++ x.inFlight) segment
  pending : ∀ segment ∈ (x.sockets index).pending, segment.payload = [] ∨
    segment ∈ x.transmitted

section
variable {index : Fin socketMax} {sndIsn : BitVec 32} {x : SendSession}

lemma Placed.append {stream rest : List Byte} {seg : OutSegment}
    (h : Placed sndIsn stream seg) : Placed sndIsn (stream ++ rest) seg := by
  obtain ⟨before, after, rfl, hseq⟩ := h
  exact ⟨before, after ++ rest, by simp, hseq⟩

section
variable (h : Sending index sndIsn x)
include h

lemma Sending.of_same {y : SendSession} (hconnected : Connected (y.sockets index))
    (hsndNxt : (y.sockets index).sndNxt = (x.sockets index).sndNxt)
    (hpend : (y.sockets index).pending = (x.sockets index).pending)
    (hacc : y.accepted = x.accepted) (hflight : y.inFlight = x.inFlight)
    (hawaits : ∀ call ∈ y.call, call.Awaits sndIsn x.accepted)
    (hkept : ∀ seg ∈ x.transmitted, seg ∈ y.transmitted)
    (hsent : ∀ seg ∈ y.transmitted, seg.payload = [] ∨ seg ∈ x.transmitted) :
    Sending index sndIsn y := by
  constructor
  · exact hconnected
  · rw [hsndNxt, hacc, hflight]
    exact h.sndNxt_eq
  · rw [hacc]
    exact h.room
  · rw [hacc]
    exact hawaits
  · intro seg hseg
    rw [hacc, hflight]
    rcases hsent seg hseg with hempty | hold
    · exact .inl hempty
    · exact h.placed seg hold
  intro seg hseg
  rw [hpend] at hseg
  exact (h.pending seg hseg).imp_right (hkept seg)

lemma Sending.traffic (label : Traffic) : Sending index sndIsn (x.step index (.traffic label)) := by
  obtain ⟨hside, hconnected⟩ := traffic_sendSide h.connected label
  refine h.of_same hconnected (congrArg SendSide.sndNxt hside) (congrArg SendSide.pending hside) rfl
    rfl h.awaits ?_ ?_
  · intro seg hseg
    simp only [step]
    split
    · exact mem_append_left _ hseg
    · exact hseg
  intro seg hseg
  simp only [step] at hseg
  split at hseg
  · next hconcerns =>
    rcases mem_append.mp hseg with hold | hnew
    · exact .inr hold
    rcases traffic_sent hconcerns seg hnew with hempty | hpend
    · exact .inl hempty
    · exact h.pending seg hpend
  · exact .inr hseg

lemma Sending.call (data : List Byte) : Sending index sndIsn (x.step index (.call data)) := by
  simp only [step]
  split
  · next hnone =>
    refine h.of_same h.connected rfl rfl ?_ ?_ ?_ (fun _ => id) (fun _ => .inr)
    · simp [accepted, hnone.1]
    · simp [inFlight, hnone.1, SendCall.inFlight]
    · simp [SendCall.Awaits]
  · exact h

lemma Sending.return {call : SendCall} (hcall : x.call = some call) (hhead : call.phase = .head) :
    Sending index sndIsn (x.return call) := by
  refine h.of_same h.connected rfl rfl ?_ ?_ ?_ (fun _ => id) (fun _ => .inr)
  · simp [SendSession.accepted, SendSession.return, hcall]
  · simp [SendSession.inFlight, SendSession.return, hcall, SendCall.inFlight, hhead]
  · simp [SendSession.return]

end

lemma chunkSize_le (s : TcpSocket) (size totalSent : ℕ) :
    chunkSize s size totalSent ≤ size - totalSent := by
  unfold chunkSize
  simp only []
  split
  · next h => exact h.1.le.trans (Nat.min_le_left _ _)
  · exact Nat.min_le_left _ _

section
variable (h : Sending index sndIsn x)
include h

section
variable {call : SendCall} (hcall : x.call = some call)
include hcall

lemma Sending.sendNext (hhead : call.phase = .head) (clock : Clock) :
    Sending index sndIsn (x.sendNext index call clock) := by
  set s := x.sockets index with hs
  set size := chunkSize s call.data.length call.totalSent with hsize
  set payload := (call.data.drop call.totalSent).take size with hpayload
  have hlen : size = payload.length := by
    have := chunkSize_le s call.data.length call.totalSent
    rw [hpayload, length_take, length_drop]
    omega
  have hidle : x.inFlight = [] := by
    simp [SendSession.inFlight, hcall, SendCall.inFlight, hhead]
  have hnext := h.sndNxt_eq
  rw [hidle, append_nil] at hnext
  have hsame : (x.sendNext index call clock).accepted = x.accepted := by
    simp [SendSession.accepted, SendSession.sendNext, SendSession.setSocket, hcall]
  have hflight : (x.sendNext index call clock).inFlight = payload := rfl
  have hsocket : (x.sendNext index call clock).sockets index = sendChunk clock s payload :=
    update_self _ _ _
  constructor
  · rw [hsocket]
    exact h.connected
  · rw [hsocket, hsame, hflight, length_append, BitVec.ofNat_add, ← BitVec.add_assoc, ← hnext]
    rfl
  · rw [hsame]
    exact h.room
  · rw [hsame]
    intro next hmem
    obtain rfl := some.inj hmem
    exact ⟨hnext, hlen⟩
  · rw [hsame, hflight]
    intro seg hseg
    rcases mem_append.mp hseg with hold | hnew
    · rcases h.placed seg hold with hempty | hplaced
      · exact .inl hempty
      · rw [hidle, append_nil] at hplaced
        exact .inr hplaced.append
    · obtain rfl := mem_singleton.mp hnew
      exact .inr ⟨x.accepted, [], by simp [chunkSegment, hpayload, hsize, hs], hnext⟩
  · rw [hsocket]
    intro seg hmem
    obtain rfl := some.inj hmem
    exact .inr (mem_append_right _ mem_cons_self)

lemma Sending.head (hhead : call.phase = .head) (clock : Clock) :
    Sending index sndIsn (x.headSection index call clock) := by
  unfold headSection
  simp only []
  split
  · exact h.return hcall hhead
  split
  · exact h.return hcall hhead
  · exact h.sendNext hcall hhead clock

/-- A chunk has been acknowledged: it becomes part of the bytes accepted. The test compares with
a sum that does not wrap, so the bytes accepted stay below the end of the sequence space. -/
lemma Sending.advance {seq : BitVec 32} {size : ℕ}
    (hphase : call.phase = .check seq size ∨ call.phase = .wait seq size)
    (hack : acknowledged (x.sockets index) seq size = true) :
    Sending index sndIsn (x.advance index call size) := by
  obtain ⟨hseq, hsize⟩ : seq = sndIsn + 1 + BitVec.ofNat 32 x.accepted.length ∧
      size = ((call.data.drop call.totalSent).take size).length := by
    have hawaits := h.awaits call hcall
    rcases hphase with hphase | hphase <;> simpa only [SendCall.Awaits, hphase] using hawaits
  have hflight : x.inFlight = (call.data.drop call.totalSent).take size := by
    rcases hphase with hphase | hphase <;>
      simp [SendSession.inFlight, hcall, SendCall.inFlight, hphase]
  have hacc : (x.advance index call size).accepted = x.accepted ++ x.inFlight := by
    rw [hflight]
    simp [SendSession.accepted, SendSession.advance, SendSession.setSocket, hcall, take_add]
  have hidle : (x.advance index call size).inFlight = [] := by
    simp [SendSession.inFlight, SendSession.advance, SendCall.inFlight]
  have hsocket : (x.advance index call size).sockets index =
      { x.sockets index with retransmitPending := false } := by
    simp [SendSession.advance, SendSession.setSocket]
  have hroom := h.room
  constructor
  · rw [hsocket]
    exact h.connected
  · rw [hsocket, hacc, hidle, append_nil]
    exact h.sndNxt_eq
  · rw [hacc, length_append, hflight, ← hsize]
    have hlt := (x.sockets index).sndUna.isLt
    have hnat : seq.toNat = (sndIsn + 1).toNat + x.accepted.length := by
      rw [hseq, BitVec.toNat_add, BitVec.toNat_ofNat, Nat.add_mod_mod, Nat.mod_eq_of_lt hroom]
    simp only [acknowledged, ge_iff_le, decide_eq_true_eq] at hack
    omega
  · intro next hmem
    obtain rfl := some.inj hmem
    trivial
  · rw [hacc, hidle, append_nil]
    exact h.placed
  · rw [hsocket]
    exact h.pending

end

/-- An unacknowledged chunk stays in flight while the call passes from the check to the wait. -/
lemma Sending.rephase {data : List Byte} {totalSent size : ℕ} {seq : BitVec 32}
    (hcall : x.call = some ⟨data, totalSent, .check seq size⟩) :
    Sending index sndIsn { x with call := some ⟨data, totalSent, .wait seq size⟩ } := by
  refine h.of_same h.connected rfl rfl ?_ ?_ ?_ (fun _ => id) (fun _ => .inr)
  · simp [accepted, hcall]
  · simp [inFlight, hcall, SendCall.inFlight]
  intro next hmem
  obtain rfl := some.inj hmem
  have hawaits := h.awaits _ hcall
  exact hawaits

lemma Sending.check : Sending index sndIsn (x.step index .check) := by
  simp only [step]
  split
  · next data totalSent seq size hcall =>
    split
    · next hack => exact h.advance hcall (.inl rfl) hack
    · exact h.rephase hcall
  · exact h

lemma Sending.poll (hwait : waitsOut index x .poll = true) :
    Sending index sndIsn (x.step index .poll) := by
  simp only [step]
  split
  · next data totalSent seq size hcall =>
    split
    · next hack => exact h.advance hcall (.inr rfl) hack
    · next hack =>
      have hstate : (x.sockets index).state = .established := by
        simpa [waitsOut, hcall, hack] using hwait
      rw [if_neg (not_not.mpr hstate)]
      exact h
  · exact h

lemma Sending.timeout (hwait : waitsOut index x .timeout = true) :
    Sending index sndIsn (x.step index .timeout) := by
  simp only [step]
  split
  · next hcall => simp [waitsOut, hcall] at hwait
  · exact h

lemma Sending.fail : Sending index sndIsn (x.step index .fail) := by
  simp only [step]
  split
  · next hcall => exact (h.awaits _ hcall).elim
  · exact h

lemma Sending.step {label : SendLabel} (hwait : waitsOut index x label = true) :
    Sending index sndIsn (x.step index label) := by
  cases label with
  | traffic label => exact h.traffic label
  | call data => exact h.call data
  | chunk clock =>
    simp only [SendSession.step]
    split
    · next hcall => exact h.head hcall rfl clock
    · exact h
  | check => exact h.check
  | poll => exact h.poll hwait
  | timeout => exact h.timeout hwait
  | fail => exact h.fail

end

lemma Placed.byte {stream : List Byte} {seg : OutSegment} (h : Placed sndIsn stream seg)
    (hlen : stream.length < 2 ^ 32) {j : ℕ} (hj : j < seg.payload.length) :
    stream[streamIndex sndIsn (seg.seq + BitVec.ofNat 32 j)]? = seg.payload[j]? := by
  obtain ⟨before, after, hstream, hseq⟩ := h
  have hbound : before.length + j < 2 ^ 32 := by
    rw [hstream, length_append, length_append] at hlen
    omega
  have hplace : streamIndex sndIsn (seg.seq + BitVec.ofNat 32 j) = before.length + j := by
    rw [streamIndex, hseq, BitVec.add_assoc, ← BitVec.ofNat_add, BitVec.add_comm,
      BitVec.add_sub_cancel, BitVec.toNat_ofNat, Nat.mod_eq_of_lt hbound]
  rw [hplace, hstream, append_assoc, getElem?_append_right (Nat.le_add_right _ _),
    Nat.add_sub_cancel_left, getElem?_append_left hj]

/-- When no call is in progress, all that was transmitted has been reported. -/
lemma Sending.faithful (h : Sending index sndIsn x) (hidle : x.call = none) :
    Faithful sndIsn x := by
  have hacc : x.accepted = x.reported := by simp [accepted, hidle]
  have hflight : x.inFlight = [] := by simp [inFlight, hidle]
  intro seg hseg j hj
  rcases h.placed seg hseg with hempty | hplaced
  · rw [hempty] at hj
    exact absurd hj (Nat.not_lt_zero j)
  rw [hacc, hflight, append_nil] at hplaced
  have hroom := h.room
  rw [hacc] at hroom
  exact hplaced.byte (by omega) hj

end

/-- A connection on which no data has been sent yet. -/
structure Fresh (s : TcpSocket) : Prop where
  connected : Connected s
  sndNxt_eq : s.sndNxt = s.sndIsn + 1
  pending : ∀ segment ∈ s.pending, segment.payload = []

lemma Fresh.sending {sockets : Sockets} {index : Fin socketMax} (h : Fresh (sockets index)) :
    Sending index (sockets index).sndIsn ⟨sockets, none, [], []⟩ := by
  constructor
  · exact h.connected
  · rw [h.sndNxt_eq]
    exact (BitVec.add_zero _).symm
  · exact ((sockets index).sndIsn + 1).isLt
  · simp
  · simp
  · exact fun seg hseg => .inl (h.pending seg hseg)

/-- As long as no wait for an acknowledgement is broken off, in every state without a call in
progress the bytes on the wire are, each at its place, the bytes that the calls reported as
sent. -/
theorem send_stream_faithful (sockets : Sockets) (index : Fin socketMax)
    (hfresh : Fresh (sockets index)) (labels : List SendLabel)
    (hwaits : Runs.Along (SendSession.step index) (fun x label => waitsOut index x label = true)
      ⟨sockets, none, [], []⟩ labels) :
    let x := Runs.run (SendSession.step index) ⟨sockets, none, [], []⟩ labels
    x.call = none → Faithful (sockets index).sndIsn x := by
  intro x hidle
  have hrun : Sending index (sockets index).sndIsn x :=
    Runs.run_invariant
      (fun (x : SendSession) label (h : Sending index (sockets index).sndIsn x)
        (hwait : waitsOut index x label = true) => h.step hwait)
      hfresh.sending labels hwaits
  exact hrun.faithful hidle

lemma sendSockets_fresh : Fresh (sendSockets 0) :=
  ⟨⟨by decide, by decide, by decide⟩, by decide, by decide⟩

def ackArrival (ack : BitVec 32) : SendLabel :=
  .traffic (.arrival ⟨1, 1000⟩
    { source := 1
      destination := 2
      packet := OutSegment.bytes
        { srcIp := 1, srcPort := 5000, dstIp := 2, dstPort := 80, seq := 1000, ack
          flags := flagAck, window := 8192, options := [], payload := [] } })

def acknowledgedCall : List SendLabel :=
  [.call [1, 2], .chunk ⟨0, 1000⟩, .check, ackArrival 1002, .poll, .chunk ⟨2, 1000⟩]

theorem send_stream_faithful_acknowledged :
    let x := Runs.run (SendSession.step 0) ⟨sendSockets, none, [], []⟩ acknowledgedCall
    x.reported = [1, 2] ∧ Faithful 999 x := by
  have hrun := send_stream_faithful sendSockets 0 sendSockets_fresh acknowledgedCall
    (by decide +kernel)
  exact ⟨by decide +kernel, hrun (by decide +kernel)⟩

def timedOutCalls : List SendLabel :=
  [.call [1, 2], .chunk ⟨0, 1000⟩, .check, .timeout, .fail,
    .call [3], .chunk ⟨5000, 1000⟩, ackArrival 1003, .check, .chunk ⟨5001, 1000⟩]

/-- The bytes of the call that timed out stay in the stream: the byte reported as the first one
goes out as the third. -/
theorem timed_out_chunk_shifts_stream :
    let x := Runs.run (SendSession.step 0) ⟨sendSockets, none, [], []⟩ timedOutCalls
    x.call = none ∧ x.reported = [3] ∧
      x.transmitted.map (fun segment => (segment.seq, segment.payload)) =
        [(1000, [1, 2]), (1002, [3])] ∧
      ¬Faithful 999 x := by
  decide +kernel

end KosKernel.Tcp
