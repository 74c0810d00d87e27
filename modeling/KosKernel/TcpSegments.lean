import KosKernel.TcpState

/-! What one segment changes on the receiving side of a connection. -/
namespace KosKernel.Tcp
open BigEndian

/-- The receiving side of a socket: the state of the connection, what it has received and what
it has not yet delivered. -/
structure Received where
  state : State
  rcvNxt : BitVec 32
  finReceived : Bool
  rxBuffer : ℕ → Byte
  rxHead : ℕ
  rxTail : ℕ
  rxCount : ℕ

def TcpSocket.received (s : TcpSocket) : Received :=
  ⟨s.state, s.rcvNxt, s.finReceived, s.rxBuffer, s.rxHead, s.rxTail, s.rxCount⟩

/-- What decides which segments reach a socket. -/
structure Address where
  inUse : Bool
  isListening : Bool
  localPort : BitVec 16
  remoteIp : BitVec 32
  remotePort : BitVec 16
  deriving DecidableEq

def TcpSocket.address (s : TcpSocket) : Address :=
  ⟨s.inUse, s.isListening, s.localPort, s.remoteIp, s.remotePort⟩

section
variable (clock : Clock) (s : TcpSocket) (segment : Segment)

lemma takeAck_received : (takeAck clock s segment).received = s.received := by
  unfold takeAck
  split
  · rfl
  split
  · split <;> rfl
  · rfl

lemma takeAck_address : (takeAck clock s segment).address = s.address := by
  unfold takeAck
  split
  · rfl
  split
  · split <;> rfl
  · rfl

lemma takePayload_address : (takePayload s segment).1.address = s.address := by
  unfold takePayload
  split
  · rfl
  · split <;> rfl

lemma takePayload_of_ne (h : segment.seq ≠ s.rcvNxt) : (takePayload s segment).1 = s := by
  rw [takePayload, if_neg h]
  split <;> rfl

lemma takePayload_state : (takePayload s segment).1.state = s.state := by
  unfold takePayload
  split
  · rfl
  · split <;> rfl

lemma takePayload_rcvNxt (h : segment.seq = s.rcvNxt) :
    (takePayload s segment).1.rcvNxt =
      s.rcvNxt + BitVec.ofNat 32 (min segment.payload.length (rxBufferCapacity - s.rxCount)) := by
  rw [takePayload, if_pos h]
  split
  · next hempty => simp [hempty]
  · rfl

lemma receiveEstablished_address : (receiveEstablished clock s segment).1.address = s.address := by
  unfold receiveEstablished
  simp only []
  split
  · exact (takePayload_address _ _).trans (takeAck_address clock s segment)
  · exact (takePayload_address _ _).trans (takeAck_address clock s segment)

lemma receiveEstablished_received (h : hasFlag segment.flags flagFin = false) :
    (receiveEstablished clock s segment).1.received =
      (takePayload (takeAck clock s segment) segment).1.received := by
  simp [receiveEstablished, h]

lemma receiveEstablished_fin (h : hasFlag segment.flags flagFin = true) :
    (receiveEstablished clock s segment).1 =
      takeFin (takePayload (takeAck clock s segment) segment).1 := by
  simp [receiveEstablished, h]

lemma takeAck_rcvNxt : (takeAck clock s segment).rcvNxt = s.rcvNxt :=
  congrArg Received.rcvNxt (takeAck_received clock s segment)

lemma takeAck_rxCount : (takeAck clock s segment).rxCount = s.rxCount :=
  congrArg Received.rxCount (takeAck_received clock s segment)

lemma takeAck_state : (takeAck clock s segment).state = s.state :=
  congrArg Received.state (takeAck_received clock s segment)

end

/-- The distance from the start of a segment to the next expected byte, forward in sequence
space. -/
def ahead (s : TcpSocket) (segment : Segment) : ℕ := (s.rcvNxt - segment.seq).toNat

/-- The next expected byte is among the bytes of the segment, where a FIN counts as one. -/
def Covers (s : TcpSocket) (segment : Segment) : Prop :=
  ahead s segment < segment.payload.length + (hasFlag segment.flags flagFin).toNat

instance (s : TcpSocket) (segment : Segment) : Decidable (Covers s segment) :=
  inferInstanceAs (Decidable (_ < _))

/-- The segment neither starts at the next expected byte nor covers it. -/
def OutOfSequence (s : TcpSocket) (segment : Segment) : Prop :=
  segment.seq ≠ s.rcvNxt ∧ ¬Covers s segment

instance (s : TcpSocket) (segment : Segment) : Decidable (OutOfSequence s segment) :=
  inferInstanceAs (Decidable (_ ∧ _))

/-- Whether a segment on the socket is processed as it should be: out of sequence it leaves the
receiving side alone, and its FIN takes effect only when the bytes received reach the end of its
payload. -/
structure Orderly (s s' : TcpSocket) (segment : Segment) : Prop where
  ignored : OutOfSequence s segment → s'.received = s.received
  fin : s'.state = .closeWait → (s'.rcvNxt - 1 - segment.seq).toNat = segment.payload.length

/-- A RST comes in sequence; a FIN without it follows a payload that is taken in whole now or was
before. -/
def ControlInSequence (s : TcpSocket) (segment : Segment) : Prop :=
  (hasFlag segment.flags flagRst = true → ¬OutOfSequence s segment) ∧
    (hasFlag segment.flags flagFin = true → hasFlag segment.flags flagRst = false →
      (segment.seq = s.rcvNxt ∧ segment.payload.length ≤ rxBufferCapacity - s.rxCount) ∨
        ahead s segment = segment.payload.length)

instance (s : TcpSocket) (segment : Segment) : Decidable (ControlInSequence s segment) :=
  inferInstanceAs (Decidable (_ ∧ _))

section
variable {clock : Clock} {s : TcpSocket} {segment : Segment}

lemma seq_eq_iff_ahead : segment.seq = s.rcvNxt ↔ ahead s segment = 0 := by
  unfold ahead
  constructor
  · intro h
    simp [h]
  · intro h
    bv_omega

/-- A FIN counts, so a segment that ends at the next expected byte covers it. -/
lemma covers_of_ahead (hfin : hasFlag segment.flags flagFin = true)
    (h : ahead s segment = segment.payload.length) : Covers s segment := by
  rw [Covers, hfin, h]
  exact Nat.lt_succ_self _

lemma orderly_rst (hstate : s.state = .established) :
    Orderly s { s with state := .closed, retransmitPending := false } segment ↔
      ¬OutOfSequence s segment := by
  constructor
  · intro h hout
    have := congrArg Received.state (h.ignored hout)
    simp [TcpSocket.received, hstate] at this
  · intro h
    exact ⟨fun hout => absurd hout h, fun hwait => by cases hwait⟩

lemma receiveEstablished_state (h : hasFlag segment.flags flagFin = false) :
    (receiveEstablished clock s segment).1.state = s.state := by
  have hreceived := congrArg Received.state (receiveEstablished_received clock s segment h)
  exact hreceived.trans ((takePayload_state _ _).trans (takeAck_state clock s segment))

lemma orderly_data (hstate : s.state = .established)
    (hfin : hasFlag segment.flags flagFin = false) :
    Orderly s (receiveEstablished clock s segment).1 segment := by
  constructor
  · intro hout
    have hne : segment.seq ≠ (takeAck clock s segment).rcvNxt := by
      rw [takeAck_rcvNxt]
      exact hout.1
    rw [receiveEstablished_received clock s segment hfin, takePayload_of_ne _ _ hne,
      takeAck_received]
  intro hwait
  rw [receiveEstablished_state hfin, hstate] at hwait
  cases hwait

/-- How far the bytes received reach beyond the start of the segment when its FIN is taken. -/
lemma receiveEstablished_fin_reach (clock : Clock) (s : TcpSocket)
    (hfin : hasFlag segment.flags flagFin = true) :
    ((receiveEstablished clock s segment).1.rcvNxt - 1 - segment.seq).toNat =
      if segment.seq = s.rcvNxt then min segment.payload.length (rxBufferCapacity - s.rxCount)
      else ahead s segment := by
  rw [receiveEstablished_fin clock s segment hfin]
  have hone : (takeFin (takePayload (takeAck clock s segment) segment).1).rcvNxt - 1 =
      (takePayload (takeAck clock s segment) segment).1.rcvNxt := by
    rw [takeFin]
    exact BitVec.add_sub_cancel _ _
  rw [hone]
  split
  · next heq =>
    rw [takePayload_rcvNxt _ _ (heq.trans (takeAck_rcvNxt clock s segment).symm), takeAck_rcvNxt,
      takeAck_rxCount, heq, BitVec.add_comm, BitVec.add_sub_cancel, BitVec.toNat_ofNat,
      Nat.mod_eq_of_lt]
    have := Nat.min_le_right segment.payload.length (rxBufferCapacity - s.rxCount)
    simp only [rxBufferCapacity] at *
    omega
  · next hne =>
    rw [takePayload_of_ne _ _ (by rwa [takeAck_rcvNxt]), takeAck_rcvNxt]
    rfl

lemma orderly_fin (hfin : hasFlag segment.flags flagFin = true) :
    Orderly s (receiveEstablished clock s segment).1 segment ↔
      (segment.seq = s.rcvNxt ∧ segment.payload.length ≤ rxBufferCapacity - s.rxCount) ∨
        ahead s segment = segment.payload.length := by
  have hwait : (receiveEstablished clock s segment).1.state = .closeWait := by
    rw [receiveEstablished_fin clock s segment hfin]
    rfl
  have hreach := receiveEstablished_fin_reach clock s hfin
  constructor
  · intro h
    have hend := h.fin hwait
    rw [hreach] at hend
    split at hend
    · next heq => exact Or.inl ⟨heq, by omega⟩
    · exact Or.inr hend
  intro h
  constructor
  · intro hout
    rcases h with ⟨heq, -⟩ | hahead
    · exact absurd heq hout.1
    · exact absurd (covers_of_ahead hfin hahead) hout.2
  intro _
  rw [hreach]
  rcases h with ⟨heq, hroom⟩ | hahead
  · rw [if_pos heq, Nat.min_eq_left hroom]
  split
  · next heq =>
    rw [seq_eq_iff_ahead.mp heq] at hahead
    omega
  · exact hahead

end

/-- A packet on an `ESTABLISHED` connection is processed as it should be exactly when its RST
comes in sequence and its FIN behind a payload that has been taken in. -/
theorem segment_orderly_iff (clock : Clock) (sockets : Sockets) (arrival : Arrival)
    (segment : Segment) (index : Fin socketMax)
    (hparse : parseSegment arrival.source arrival.destination arrival.packet = some segment)
    (hfind : findConnection sockets arrival.source segment = some index)
    (hstate : (sockets index).state = .established) :
    Orderly (sockets index) ((netTcpReceive clock sockets arrival).1 index) segment ↔
      ControlInSequence (sockets index) segment := by
  have hreceive : netTcpReceive clock sockets arrival =
      receiveConnected clock sockets index segment := by
    simp only [netTcpReceive, hparse, receiveSegment, hfind]
  rw [hreceive]
  cases hrst : hasFlag segment.flags flagRst with
  | true =>
    have hclosed : (receiveConnected clock sockets index segment).1 index =
        { sockets index with state := .closed, retransmitPending := false } := by
      simp [receiveConnected, hrst]
    rw [hclosed, orderly_rst hstate]
    simp [ControlInSequence, hrst]
  | false =>
    have hopen : (receiveConnected clock sockets index segment).1 index =
        (receiveEstablished clock (sockets index) segment).1 := by
      simp [receiveConnected, hrst, hstate]
    rw [hopen]
    cases hfin : hasFlag segment.flags flagFin with
    | true =>
      rw [orderly_fin hfin]
      simp [ControlInSequence, hrst, hfin]
    | false => simp [orderly_data hstate hfin, ControlInSequence, hrst, hfin]

def sampleSocket : TcpSocket :=
  { TcpSocket.zero with
    inUse := true, state := .established, localPort := 80, remoteIp := 1, remotePort := 5000
    rcvNxt := 1000, mss := defaultMss }

def sampleSockets : Sockets := fun index => if index = 0 then sampleSocket else TcpSocket.zero

open Function in
def sendSockets : Sockets :=
  update sampleSockets 0
    { sampleSocket with
      sndIsn := 999, sndNxt := 1000, sndUna := 1000, sndWnd := 8192, cwnd := 2920 }

def sampleArrival (seq : BitVec 32) (flags : Byte) (payload : List Byte) : Arrival where
  source := 1
  destination := 2
  packet := OutSegment.bytes
    { srcIp := 1, srcPort := 5000, dstIp := 2, dstPort := 80, seq, ack := 0, flags, window := 100
      options := [], payload }

def sampleSegment (seq : BitVec 32) (flags : Byte) (payload : List Byte) : Segment where
  srcPort := 5000
  dstPort := 80
  seq
  ack := 0
  flags
  window := 100
  options := []
  payload

theorem segment_orderly_iff_in_sequence :
    Orderly sampleSocket
      ((netTcpReceive ⟨0, 1000⟩ sampleSockets (sampleArrival 1000 flagFin [7])).1 0)
      (sampleSegment 1000 flagFin [7]) := by
  have h := segment_orderly_iff ⟨0, 1000⟩ sampleSockets (sampleArrival 1000 flagFin [7])
    (sampleSegment 1000 flagFin [7]) 0 (by decide) (by decide) (by decide)
  exact h.mpr (by decide)

/-- A FIN far ahead of the stream ends it, and a RST anywhere closes the connection. -/
theorem stray_fin_and_rst_take_effect :
    OutOfSequence sampleSocket (sampleSegment 9000 flagFin []) ∧
      ((netTcpReceive ⟨0, 1000⟩ sampleSockets (sampleArrival 9000 flagFin [])).1 0).state =
        .closeWait ∧
      OutOfSequence sampleSocket (sampleSegment 9000 flagRst []) ∧
      ((netTcpReceive ⟨0, 1000⟩ sampleSockets (sampleArrival 9000 flagRst [])).1 0).state =
        .closed ∧
      ¬Orderly sampleSocket
        ((netTcpReceive ⟨0, 1000⟩ sampleSockets (sampleArrival 9000 flagFin [])).1 0)
        (sampleSegment 9000 flagFin []) := by
  refine ⟨by decide, by decide, by decide, by decide, fun h => ?_⟩
  have hstate := congrArg Received.state (h.ignored (by decide))
  revert hstate
  decide

end KosKernel.Tcp
