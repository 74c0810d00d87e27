import KosKernel.OnesComplement
import KosKernel.RingBuffer

/-! The sockets of `net/tcp.c`: the state of a connection, incoming segments, and the poll that
retransmits. Every function below is one section of the source under `tcp_lock`; what it hands
to `net_ipv4_send_from` after the lock is dropped is returned as a list. A segment that the
source keeps or sends as bytes is a record here; `OutSegment.bytes` gives its bytes. -/
namespace KosKernel.Tcp
open BigEndian OnesComplement RingBuffer Function

def flagFin : Byte := 0x01
def flagSyn : Byte := 0x02
def flagRst : Byte := 0x04
def flagPsh : Byte := 0x08
def flagAck : Byte := 0x10
def headerMinSize : ℕ := 20
def optEnd : Byte := 0
def optNop : Byte := 1
def optMss : Byte := 2
def rxBufferCapacity : ℕ := 8192
def maxRetries : BitVec 8 := 5
abbrev socketMax : ℕ := 8
def defaultMss : BitVec 16 := 1460
def defaultRtoTicks : BitVec 32 := 200
def ethernetFrameMax : ℕ := 1514

inductive State where
  | closed
  | listen
  | synSent
  | synReceived
  | established
  | finWait1
  | finWait2
  | closeWait
  | lastAck
  | timeWait
  deriving DecidableEq

structure OutSegment where
  srcIp : BitVec 32
  srcPort : BitVec 16
  dstIp : BitVec 32
  dstPort : BitVec 16
  seq : BitVec 32
  ack : BitVec 32
  flags : Byte
  window : BitVec 16
  options : List Byte
  payload : List Byte
  deriving DecidableEq

structure TcpSocket where
  inUse : Bool
  isListening : Bool
  state : State
  localIp : BitVec 32
  localPort : BitVec 16
  remoteIp : BitVec 32
  remotePort : BitVec 16
  parentSocket : ℤ
  backlog : BitVec 16
  acceptedQueue : ℕ → ℤ
  acceptedCount : BitVec 8
  sndUna : BitVec 32
  sndNxt : BitVec 32
  sndIsn : BitVec 32
  rcvNxt : BitVec 32
  rcvIsn : BitVec 32
  sndWnd : BitVec 16
  rcvWnd : BitVec 16
  mss : BitVec 16
  cwnd : BitVec 32
  ssthresh : BitVec 32
  srtt : BitVec 32
  rttvar : BitVec 32
  rttSeq : BitVec 32
  rttSentTick : BitVec 64
  rttMeasuring : Bool
  timeWaitStart : BitVec 64
  retransmitPending : Bool
  lastSentTick : BitVec 64
  rtoTicks : BitVec 32
  retryCount : BitVec 8
  /-- The first `pending_packet_size` bytes of `pending_packet`. -/
  pending : Option OutSegment
  rxBuffer : ℕ → Byte
  rxHead : ℕ
  rxTail : ℕ
  rxCount : ℕ
  finReceived : Bool

/-- A slot as a compound literal leaves the fields it does not name. -/
def TcpSocket.zero : TcpSocket where
  inUse := false
  isListening := false
  state := .closed
  localIp := 0
  localPort := 0
  remoteIp := 0
  remotePort := 0
  parentSocket := 0
  backlog := 0
  acceptedQueue := fun _ => 0
  acceptedCount := 0
  sndUna := 0
  sndNxt := 0
  sndIsn := 0
  rcvNxt := 0
  rcvIsn := 0
  sndWnd := 0
  rcvWnd := 0
  mss := 0
  cwnd := 0
  ssthresh := 0
  srtt := 0
  rttvar := 0
  rttSeq := 0
  rttSentTick := 0
  rttMeasuring := false
  timeWaitStart := 0
  retransmitPending := false
  lastSentTick := 0
  rtoTicks := 0
  retryCount := 0
  pending := none
  rxBuffer := fun _ => 0
  rxHead := 0
  rxTail := 0
  rxCount := 0
  finReceived := false

abbrev Sockets := Fin socketMax → TcpSocket

/-- What `timer_ticks` and `timer_frequency_hz` return. -/
structure Clock where
  now : BitVec 64
  hz : BitVec 32
  deriving DecidableEq

/-- The checksum over the pseudo-header and the segment; zero is sent as all ones. -/
def tcpChecksum (sourceIp destIp : BitVec 32) (segment : List Byte) : BitVec 16 :=
  let pseudo := sourceIp.toNat / 65536 + sourceIp.toNat % 65536 + destIp.toNat / 65536 +
    destIp.toNat % 65536 + 6 + segment.length % 65536
  let result := checksum (pseudo + wordSum segment)
  if result = 0 then 0xffff else result

def OutSegment.bytesWith (segment : OutSegment) (checksum : BitVec 16) : List Byte :=
  let dataOffsetWords := BitVec.ofNat 8 ((headerMinSize + segment.options.length) / 4)
  u16Bytes segment.srcPort ++ u16Bytes segment.dstPort ++ u32Bytes segment.seq ++
    u32Bytes segment.ack ++ [dataOffsetWords <<< 4, segment.flags] ++ u16Bytes segment.window ++
    u16Bytes checksum ++ u16Bytes 0 ++ segment.options ++ segment.payload

def OutSegment.bytes (segment : OutSegment) : List Byte :=
  segment.bytesWith (tcpChecksum segment.srcIp segment.dstIp (segment.bytesWith 0))

/-- The fields of a segment that passed the checks of `net_tcp_receive`. -/
structure Segment where
  srcPort : BitVec 16
  dstPort : BitVec 16
  seq : BitVec 32
  ack : BitVec 32
  flags : Byte
  window : BitVec 16
  options : List Byte
  payload : List Byte
  deriving DecidableEq

def hasFlag (flags bits : Byte) : Bool := flags &&& bits != 0

/-- The checks of `net_tcp_receive` before it takes the lock. The copy that the checksum is
computed on has the checksum field cleared. -/
def parseSegment (source destination : BitVec 32) (packet : List Byte) : Option Segment :=
  if packet.length < headerMinSize then none
  else
    let dataOffset := ((packet.getD 12 0 >>> 4) * 4).toNat
    if dataOffset < headerMinSize ∨ dataOffset > packet.length then none
    else if tcpChecksum source destination ((packet.set 16 0).set 17 0) ≠ readU16 packet 16 then none
    else some
      { srcPort := readU16 packet 0
        dstPort := readU16 packet 2
        seq := readU32 packet 4
        ack := readU32 packet 8
        flags := packet.getD 13 0
        window := readU16 packet 14
        options := (packet.take dataOffset).drop headerMinSize
        payload := packet.drop dataOffset }

/-- The loop that reads the options of a SYN: the segment size, lowered to the peer's. -/
def parseMss : ℕ → List Byte → BitVec 16 → BitVec 16
  | 0, _, mss => mss
  | fuel + 1, options, mss =>
    match options with
    | [] => mss
    | kind :: rest =>
      if kind = optEnd then mss
      else if kind = optNop then parseMss fuel rest mss
      else
        match rest with
        | [] => mss
        | len :: _ =>
          if options.length < len.toNat ∨ len.toNat < 2 then mss
          else
            let peerMss := readU16 options 2
            let mss :=
              if kind = optMss ∧ len.toNat = 4 ∧ 0 < peerMss ∧ peerMss < mss then peerMss else mss
            parseMss fuel (options.drop len.toNat) mss

def negotiatedMss (options : List Byte) (mss : BitVec 16) : BitVec 16 :=
  parseMss options.length options mss

def receiveWindow (s : TcpSocket) : BitVec 16 := BitVec.ofNat 16 (rxBufferCapacity - s.rxCount)

/-- The acknowledgement that `tcp_send_ack` and `net_tcp_receive` send. -/
def ackSegment (s : TcpSocket) : OutSegment where
  srcIp := s.localIp
  srcPort := s.localPort
  dstIp := s.remoteIp
  dstPort := s.remotePort
  seq := s.sndNxt
  ack := s.rcvNxt
  flags := flagAck
  window := receiveWindow s
  options := []
  payload := []

/-- The round-trip estimate after an acknowledgement of the measured segment. -/
def measureRtt (clock : Clock) (s : TcpSocket) : TcpSocket :=
  let m := (clock.now - s.rttSentTick).setWidth 32
  let delta := m - s.srtt
  let delta := if delta.msb then -delta else delta
  let srtt := if s.srtt = 0 then m else (7 * s.srtt + m) / 8
  let rttvar := if s.srtt = 0 then m / 2 else (3 * s.rttvar + delta) / 4
  let rto := srtt + 4 * rttvar
  let rto := if rto < 2 then 2 else rto
  let rto := if rto > clock.hz * 60 then clock.hz * 60 else rto
  { s with rttMeasuring := false, srtt, rttvar, rtoTicks := rto }

def takeAck (clock : Clock) (s : TcpSocket) (segment : Segment) : TcpSocket :=
  if hasFlag segment.flags flagAck = false then s
  else
    let s :=
      if segment.ack > s.sndUna ∧ segment.ack ≤ s.sndNxt then
        let s := if s.rttMeasuring ∧ segment.ack ≥ s.rttSeq then measureRtt clock s else s
        let mss := s.mss.setWidth 32
        let cwnd :=
          if s.cwnd < s.ssthresh then s.cwnd + mss
          else s.cwnd + mss * mss / (if s.cwnd > 0 then s.cwnd else 1)
        { s with cwnd, sndUna := segment.ack, retransmitPending := false }
      else s
    { s with sndWnd := segment.window }

/-- The payload block of `ESTABLISHED`, and whether it asks for an acknowledgement. -/
def takePayload (s : TcpSocket) (segment : Segment) : TcpSocket × Bool :=
  if segment.payload = [] then (s, false)
  else if segment.seq = s.rcvNxt then
    let copyBytes := min segment.payload.length (rxBufferCapacity - s.rxCount)
    let (rxBuffer, rxTail) :=
      copyIn rxBufferCapacity s.rxBuffer s.rxTail (segment.payload.take copyBytes)
    ({ s with
        rxBuffer
        rxTail
        rxCount := s.rxCount + copyBytes
        rcvNxt := s.rcvNxt + BitVec.ofNat 32 copyBytes }, true)
  else (s, decide (segment.seq < s.rcvNxt))

def takeFin (s : TcpSocket) : TcpSocket :=
  { s with rcvNxt := s.rcvNxt + 1, finReceived := true, state := .closeWait }

def receiveEstablished (clock : Clock) (s : TcpSocket) (segment : Segment) :
    TcpSocket × List OutSegment :=
  let s := takeAck clock s segment
  let (s, needAck) := takePayload s segment
  let fin := hasFlag segment.flags flagFin
  let s := if fin then takeFin s else s
  (s, if needAck || fin then [ackSegment s] else [])

def receiveSynSent (s : TcpSocket) (segment : Segment) : TcpSocket × List OutSegment :=
  if segment.flags &&& (flagSyn ||| flagAck) = flagSyn ||| flagAck ∧ segment.ack = s.sndNxt then
    let s :=
      { s with
        rcvIsn := segment.seq
        rcvNxt := segment.seq + 1
        sndUna := segment.ack
        sndWnd := segment.window
        retransmitPending := false
        mss := negotiatedMss segment.options s.mss
        state := .established }
    (s, [ackSegment s])
  else (s, [])

def receiveCloseWait (s : TcpSocket) (segment : Segment) : TcpSocket :=
  if hasFlag segment.flags flagAck = false then s
  else
    let s :=
      if segment.ack > s.sndUna ∧ segment.ack ≤ s.sndNxt then
        { s with sndUna := segment.ack, retransmitPending := false }
      else s
    { s with sndWnd := segment.window }

def receiveLastAck (s : TcpSocket) (segment : Segment) : TcpSocket :=
  if hasFlag segment.flags flagAck ∧ segment.ack ≥ s.sndNxt then
    { s with state := .closed, inUse := false }
  else s

def receiveFinWait1 (s : TcpSocket) (segment : Segment) : TcpSocket × List OutSegment :=
  let s :=
    if hasFlag segment.flags flagAck ∧ segment.ack ≥ s.sndNxt then { s with state := .finWait2 }
    else s
  if hasFlag segment.flags flagFin then
    let s := { s with rcvNxt := s.rcvNxt + 1, state := .closed }
    (s, [ackSegment s])
  else (s, [])

def receiveFinWait2 (clock : Clock) (s : TcpSocket) (segment : Segment) :
    TcpSocket × List OutSegment :=
  if hasFlag segment.flags flagFin then
    let s :=
      { s with rcvNxt := s.rcvNxt + 1, state := .timeWait, timeWaitStart := clock.now }
    (s, [ackSegment s])
  else (s, [])

/-- A `SYN_RECEIVED` socket whose handshake is acknowledged joins its parent's queue. -/
def receiveSynReceived (sockets : Sockets) (index : Fin socketMax) (segment : Segment) : Sockets :=
  let s := sockets index
  if hasFlag segment.flags flagAck ∧ segment.ack = s.sndNxt then
    let sockets :=
      update sockets index { s with sndUna := segment.ack, state := .established }
    if h : 0 ≤ s.parentSocket ∧ s.parentSocket.toNat < socketMax then
      let parent := sockets ⟨s.parentSocket.toNat, h.2⟩
      if parent.inUse ∧ parent.isListening ∧ parent.acceptedCount.setWidth 16 < parent.backlog then
        update sockets ⟨s.parentSocket.toNat, h.2⟩
          { parent with
            acceptedQueue := update parent.acceptedQueue parent.acceptedCount.toNat index
            acceptedCount := parent.acceptedCount + 1 }
      else sockets
    else sockets
  else sockets

/-- The socket a segment belongs to: the first connection with its ports and peer. -/
def findConnection (sockets : Sockets) (source : BitVec 32) (segment : Segment) :
    Option (Fin socketMax) :=
  (List.finRange socketMax).find? fun index =>
    (sockets index).inUse && !(sockets index).isListening &&
      (sockets index).localPort == segment.dstPort &&
      (sockets index).remotePort == segment.srcPort &&
      ((sockets index).remoteIp == source || (sockets index).remoteIp == 0)

def findListener (sockets : Sockets) (segment : Segment) : Option (Fin socketMax) :=
  (List.finRange socketMax).find? fun index =>
    (sockets index).inUse && (sockets index).isListening &&
      (sockets index).localPort == segment.dstPort

def findUnused (sockets : Sockets) : Option (Fin socketMax) :=
  (List.finRange socketMax).find? fun index => !(sockets index).inUse

/-- The slot that a SYN to the listener `parent` opens. -/
def synReceivedSocket (clock : Clock) (source destination : BitVec 32) (segment : Segment)
    (parent child : Fin socketMax) : TcpSocket :=
  let sndIsn := (clock.now * 1103515245 + 12345 + BitVec.ofNat 64 (child * 1000)).setWidth 32
  { TcpSocket.zero with
    inUse := true
    parentSocket := parent
    state := .synReceived
    localIp := destination
    localPort := segment.dstPort
    remoteIp := source
    remotePort := segment.srcPort
    rcvIsn := segment.seq
    rcvNxt := segment.seq + 1
    sndIsn
    rcvWnd := BitVec.ofNat 16 rxBufferCapacity
    sndWnd := segment.window
    mss := negotiatedMss segment.options defaultMss
    rtoTicks := defaultRtoTicks
    sndNxt := sndIsn + 1
    sndUna := sndIsn }

def mssOption : List Byte := [optMss, 4] ++ u16Bytes defaultMss

def synAckSegment (s : TcpSocket) : OutSegment where
  srcIp := s.localIp
  srcPort := s.localPort
  dstIp := s.remoteIp
  dstPort := s.remotePort
  seq := s.sndIsn
  ack := s.rcvNxt
  flags := flagSyn ||| flagAck
  window := s.rcvWnd
  options := mssOption
  payload := []

/-- `tcp_send_rst`, as `net_tcp_receive` calls it for a segment that nobody takes. -/
def rstSegment (source destination : BitVec 32) (segment : Segment) : OutSegment where
  srcIp := destination
  srcPort := segment.dstPort
  dstIp := source
  dstPort := segment.srcPort
  seq := segment.ack
  ack := segment.seq + 1
  flags := flagRst ||| flagAck
  window := 0
  options := []
  payload := []

def receiveUnconnected (clock : Clock) (sockets : Sockets) (source destination : BitVec 32)
    (segment : Segment) : Sockets × List OutSegment :=
  match findListener sockets segment with
  | some parent =>
    if hasFlag segment.flags flagSyn ∧ hasFlag segment.flags flagAck = false ∧
        hasFlag segment.flags flagRst = false then
      match findUnused sockets with
      | some child =>
        if (sockets parent).acceptedCount.setWidth 16 < (sockets parent).backlog then
          let s := synReceivedSocket clock source destination segment parent child
          (update sockets child s, [synAckSegment s])
        else (sockets, [])
      | none => (sockets, [])
    else (sockets, [])
  | none =>
    (sockets,
      if hasFlag segment.flags flagRst then [] else [rstSegment source destination segment])

def receiveConnected (clock : Clock) (sockets : Sockets) (index : Fin socketMax)
    (segment : Segment) : Sockets × List OutSegment :=
  let s := sockets index
  if hasFlag segment.flags flagRst then
    (update sockets index { s with state := .closed, retransmitPending := false }, [])
  else
    let put (result : TcpSocket × List OutSegment) :=
      (update sockets index result.1, result.2)
    match s.state with
    | .synSent => put (receiveSynSent s segment)
    | .synReceived => (receiveSynReceived sockets index segment, [])
    | .established => put (receiveEstablished clock s segment)
    | .closeWait => put (receiveCloseWait s segment, [])
    | .lastAck => put (receiveLastAck s segment, [])
    | .finWait1 => put (receiveFinWait1 s segment)
    | .finWait2 => put (receiveFinWait2 clock s segment)
    | .closed | .listen | .timeWait => (sockets, [])

/-- `net_tcp_receive` on a packet that passed its checks. -/
def receiveSegment (clock : Clock) (sockets : Sockets) (source destination : BitVec 32)
    (segment : Segment) : Sockets × List OutSegment :=
  match findConnection sockets source segment with
  | some index => receiveConnected clock sockets index segment
  | none => receiveUnconnected clock sockets source destination segment

structure Arrival where
  source : BitVec 32
  destination : BitVec 32
  packet : List Byte
  deriving DecidableEq

def netTcpReceive (clock : Clock) (sockets : Sockets) (arrival : Arrival) :
    Sockets × List OutSegment :=
  match parseSegment arrival.source arrival.destination arrival.packet with
  | none => (sockets, [])
  | some segment => receiveSegment clock sockets arrival.source arrival.destination segment

def pollSocket (clock : Clock) (s : TcpSocket) : TcpSocket × List OutSegment :=
  if s.inUse ∧ s.state = .timeWait then
    if clock.now - s.timeWaitStart ≥ 400 then ({ s with state := .closed, inUse := false }, [])
    else (s, [])
  else if s.inUse ∧ s.retransmitPending ∧
      clock.now - s.lastSentTick ≥ s.rtoTicks.setWidth 64 then
    if s.retryCount < maxRetries then
      let mss := s.mss.setWidth 32
      ({ s with
          retryCount := s.retryCount + 1
          lastSentTick := clock.now
          rtoTicks := s.rtoTicks * 2
          rttMeasuring := false
          ssthresh := if s.cwnd / 2 < 2 * mss then 2 * mss else s.cwnd / 2
          cwnd := mss }, s.pending.toList)
    else ({ s with state := .closed, retransmitPending := false }, [])
  else (s, [])

/-- One turn of the loop of `net_tcp_poll`. The lock is dropped for a retransmission, so other
sections may run between two turns. -/
def netTcpPollTurn (clock : Clock) (sockets : Sockets) (index : Fin socketMax) :
    Sockets × List OutSegment :=
  let (s, sent) := pollSocket clock (sockets index)
  (update sockets index s, sent)

/-- What reaches the sockets from outside: packets, and turns of the poll. -/
inductive Traffic where
  | arrival (clock : Clock) (arrival : Arrival)
  | poll (clock : Clock) (index : Fin socketMax)
  deriving DecidableEq

def traffic (sockets : Sockets) : Traffic → Sockets × List OutSegment
  | .arrival clock arrival => netTcpReceive clock sockets arrival
  | .poll clock index => netTcpPollTurn clock sockets index

end KosKernel.Tcp
