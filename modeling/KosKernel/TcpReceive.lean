import KosKernel.Runs
import KosKernel.TcpSegments

/-! `tcp_receive` and the stream of bytes it delivers. -/
namespace KosKernel.Tcp
open BigEndian RingBuffer Function List Nat Bool

/-- Nothing more will come: the connection has left the states in which it receives, or the
peer has finished. -/
def receiveEnded (s : TcpSocket) : Bool :=
  (s.state != .established && s.state != .closeWait) || s.finReceived

/-- The loop of `tcp_receive` that waits for data. Each turn polls, which lets `traffic` in; the
list ends with the time limit. -/
def awaitData (index : Fin socketMax) : List (List Traffic) → Sockets → Sockets
  | [], sockets => sockets
  | turn :: turns, sockets =>
    let sockets := turn.foldl (fun sockets label => (traffic sockets label).1) sockets
    if 0 < (sockets index).rxCount ∨ receiveEnded (sockets index) then sockets
    else awaitData index turns sockets

/-- The last section of `tcp_receive`: the result, the bytes, and the acknowledgement that the
larger window is announced with. -/
def deliver (sockets : Sockets) (index : Fin socketMax) (capacity : ℕ) :
    ℤ × List Byte × Sockets × List OutSegment :=
  let s := sockets index
  if s.inUse = false then (-1, [], sockets, [])
  else
    let bytesToRead := min capacity s.rxCount
    let (data, rxHead) := copyOut rxBufferCapacity s.rxBuffer bytesToRead s.rxHead
    let s := { s with rxHead, rxCount := s.rxCount - bytesToRead }
    let needAck := 0 < bytesToRead ∧ (s.state = .established ∨ s.state = .closeWait)
    (bytesToRead, data, update sockets index s, if needAck then [ackSegment s] else [])

/-- `tcp_receive` on a valid slot, with the traffic that comes in while it waits. -/
def tcpReceive (sockets : Sockets) (index : Fin socketMax) (capacity : ℕ)
    (turns : List (List Traffic)) : ℤ × List Byte × Sockets × List OutSegment :=
  if capacity = 0 then (-1, [], sockets, [])
  else if (sockets index).inUse = false then (-1, [], sockets, [])
  else if (sockets index).rxCount = 0 then
    if receiveEnded (sockets index) then (0, [], sockets, [])
    else deliver (awaitData index turns sockets) index capacity
  else deliver sockets index capacity

inductive ReceiveEvent where
  | traffic (label : Traffic)
  | receive (capacity : ℕ) (turns : List (List Traffic))

/-- The sockets, and all bytes that the calls of `tcp_receive` have returned. -/
structure ReceiveSession where
  sockets : Sockets
  returned : List Byte

def ReceiveSession.step (index : Fin socketMax) (x : ReceiveSession) :
    ReceiveEvent → ReceiveSession
  | .traffic label => ⟨(traffic x.sockets label).1, x.returned⟩
  | .receive capacity turns =>
    let (_, data, sockets, _) := tcpReceive x.sockets index capacity turns
    ⟨sockets, x.returned ++ data⟩

def ReceiveEvent.labels : ReceiveEvent → List Traffic
  | .traffic label => [label]
  | .receive _ turns => turns.flatten

def TcpSocket.buffered (s : TcpSocket) : List Byte :=
  contents rxBufferCapacity s.rxBuffer s.rxCount s.rxHead

/-- Neither RST nor FIN, and the payload is what the peer's stream, whose first byte has the
number `base`, holds from the segment's number on. -/
def Segment.Consistent (base : ℕ) (stream : List Byte) (segment : Segment) : Prop :=
  hasFlag segment.flags flagRst = false ∧ hasFlag segment.flags flagFin = false ∧
    (segment.payload ≠ [] →
      base ≤ segment.seq.toNat ∧ segment.payload <+: stream.drop (segment.seq.toNat - base))

/-- Every valid packet with the ports and the peer of the connection is consistent with the
stream. -/
def Traffic.Consistent (address : Address) (base : ℕ) (stream : List Byte) : Traffic → Prop
  | .arrival _ a => ∀ segment,
    parseSegment a.source a.destination a.packet = some segment →
      address.localPort = segment.dstPort → address.remotePort = segment.srcPort →
        (address.remoteIp = a.source ∨ address.remoteIp = 0) → segment.Consistent base stream
  | .poll _ _ => True

/-- The receiving side of a connection whose buffer and earlier deliveries make up a prefix of
the stream: `skipped` bytes were delivered before the session. -/
structure Streaming (address : Address) (base : ℕ) (stream : List Byte) (skipped : ℕ)
    (s : TcpSocket) (returned : List Byte) : Prop where
  address_eq : s.address = address
  state : s.state = .established ∨ s.state = .closed
  count_le : s.rxCount ≤ rxBufferCapacity
  head_lt : s.rxHead < rxBufferCapacity
  tail_eq : s.rxTail = (s.rxHead + s.rxCount) % rxBufferCapacity
  rcvNxt_eq : s.rcvNxt.toNat = base + skipped + returned.length + s.rxCount
  delivered : returned ++ s.buffered <+: stream.drop skipped

section
variable {address : Address} {base gap : ℕ} {stream ret : List Byte} {s s' : TcpSocket}
  {clock : Clock} {segment : Segment}

section
variable (h : Streaming address base stream gap s ret)
include h

lemma Streaming.congr (haddr : s'.address = s.address) (hrecv : s'.received = s.received) :
    Streaming address base stream gap s' ret := by
  have hstate : s'.state = s.state := congrArg Received.state hrecv
  have hrcv : s'.rcvNxt = s.rcvNxt := congrArg Received.rcvNxt hrecv
  have hbuf : s'.rxBuffer = s.rxBuffer := congrArg Received.rxBuffer hrecv
  have hhead : s'.rxHead = s.rxHead := congrArg Received.rxHead hrecv
  have htail : s'.rxTail = s.rxTail := congrArg Received.rxTail hrecv
  have hcount : s'.rxCount = s.rxCount := congrArg Received.rxCount hrecv
  have hbuffered : s'.buffered = s.buffered := by
    rw [TcpSocket.buffered, hbuf, hcount, hhead, TcpSocket.buffered]
  constructor
  · exact haddr.trans h.address_eq
  · rw [hstate]
    exact h.state
  · rw [hcount]
    exact h.count_le
  · rw [hhead]
    exact h.head_lt
  · rw [htail, hhead, hcount]
    exact h.tail_eq
  · rw [hrcv, hcount]
    exact h.rcvNxt_eq
  · rw [hbuffered]
    exact h.delivered

/-- In sequence, the payload continues the stream where the buffer ends. -/
lemma Streaming.continues (hpayload : segment.payload <+: stream.drop (segment.seq.toNat - base))
    (hseq : segment.seq = s.rcvNxt) :
    ret ++ s.buffered ++ segment.payload <+: stream.drop gap := by
  obtain ⟨rest, hrest⟩ := h.delivered
  have hlen : (ret ++ s.buffered).length = ret.length + s.rxCount := by
    rw [length_append, TcpSocket.buffered, length_contents]
  have hstart : segment.seq.toNat - base = gap + (ret ++ s.buffered).length := by
    rw [hseq, h.rcvNxt_eq, hlen]
    omega
  rw [hstart, ← drop_drop, ← hrest, drop_left] at hpayload
  rw [← hrest]
  exact (prefix_append_right_inj _).mpr hpayload

section
variable (hbound : base + stream.length < 2 ^ 32)
include hbound

lemma Streaming.copyIn {bytes : List Byte} (hroom : s.rxCount + bytes.length ≤ rxBufferCapacity)
    (hbytes : ret ++ s.buffered ++ bytes <+: stream.drop gap) :
    Streaming address base stream gap
      { s with
        rxBuffer := (RingBuffer.copyIn rxBufferCapacity s.rxBuffer s.rxTail bytes).1
        rxTail := (RingBuffer.copyIn rxBufferCapacity s.rxBuffer s.rxTail bytes).2
        rxCount := s.rxCount + bytes.length
        rcvNxt := s.rcvNxt + BitVec.ofNat 32 bytes.length } ret := by
  have hlen := hbytes.length_le
  rw [length_append, length_append, TcpSocket.buffered, length_contents, length_drop] at hlen
  have hrcv := h.rcvNxt_eq
  have htail : s.rxTail < rxBufferCapacity := by
    rw [h.tail_eq]
    exact mod_lt _ (by decide)
  constructor
  · exact h.address_eq
  · exact h.state
  · exact hroom
  · exact h.head_lt
  · rw [copyIn_snd _ _ htail, h.tail_eq, mod_add_mod, add_assoc]
  · change (s.rcvNxt + BitVec.ofNat 32 bytes.length).toNat =
      base + gap + ret.length + (s.rxCount + bytes.length)
    rw [BitVec.toNat_add, BitVec.toNat_ofNat, add_mod_mod, hrcv, mod_eq_of_lt] <;> omega
  · rw [TcpSocket.buffered, h.tail_eq, contents_copyIn bytes hroom h.head_lt, ← append_assoc]
    exact hbytes

lemma Streaming.takePayload (hseg : segment.Consistent base stream) :
    Streaming address base stream gap (takePayload s segment).1 ret := by
  by_cases hempty : segment.payload = []
  · simpa [Tcp.takePayload, hempty] using h
  by_cases hseq : segment.seq = s.rcvNxt
  swap
  · rwa [takePayload_of_ne s segment hseq]
  set copied := min segment.payload.length (rxBufferCapacity - s.rxCount) with hcopied
  have hlen : (segment.payload.take copied).length = copied := by
    rw [length_take]
    omega
  have hroom : s.rxCount + (segment.payload.take copied).length ≤ rxBufferCapacity := by
    have := h.count_le
    omega
  have hbytes : ret ++ s.buffered ++ segment.payload.take copied <+: stream.drop gap :=
    ((prefix_append_right_inj _).mpr (List.take_prefix _ _)).trans
      (h.continues (hseg.2.2 hempty).2 hseq)
  have hcopy := h.copyIn hbound hroom hbytes
  rw [hlen] at hcopy
  rw [Tcp.takePayload, if_neg hempty, if_pos hseq]
  exact hcopy

lemma Streaming.receiveEstablished (hseg : segment.Consistent base stream) :
    Streaming address base stream gap (receiveEstablished clock s segment).1 ret := by
  have hack : Streaming address base stream gap (takeAck clock s segment) ret :=
    h.congr (takeAck_address clock s segment) (takeAck_received clock s segment)
  refine (hack.takePayload hbound hseg).congr ?_
    (receiveEstablished_received clock s segment hseg.2.1)
  rw [receiveEstablished_address, takePayload_address, takeAck_address]

end

lemma Streaming.closed :
    Streaming address base stream gap
      { s with state := .closed, retransmitPending := false } ret :=
  ⟨h.address_eq, Or.inr rfl, h.count_le, h.head_lt, h.tail_eq, h.rcvNxt_eq, h.delivered⟩

lemma Streaming.pollSocket :
    Streaming address base stream gap (pollSocket clock s).1 ret := by
  unfold Tcp.pollSocket
  split
  · next htime =>
    rcases h.state with hstate | hstate <;> simp [hstate] at htime
  split
  · split
    · exact h.congr rfl rfl
    · exact h.closed
  · exact h

lemma Streaming.copyOut {n : ℕ} (hn : n ≤ s.rxCount) :
    Streaming address base stream gap
      { s with
        rxHead := (RingBuffer.copyOut rxBufferCapacity s.rxBuffer n s.rxHead).2
        rxCount := s.rxCount - n }
      (ret ++ (RingBuffer.copyOut rxBufferCapacity s.rxBuffer n s.rxHead).1) := by
  have hcount := h.count_le
  have hlen : (RingBuffer.copyOut rxBufferCapacity s.rxBuffer n s.rxHead).1.length = n :=
    length_contents _ _ _
  constructor
  · exact h.address_eq
  · exact h.state
  · exact (sub_le _ _).trans hcount
  · rw [copyOut_snd _ _ h.head_lt]
    exact mod_lt _ (by decide)
  · rw [copyOut_snd _ _ h.head_lt, mod_add_mod, add_assoc, add_sub_of_le hn]
    exact h.tail_eq
  · rw [length_append, hlen]
    change s.rcvNxt.toNat = base + gap + (ret.length + n) + (s.rxCount - n)
    have := h.rcvNxt_eq
    omega
  · rw [TcpSocket.buffered, append_assoc, copyOut_append s.rxBuffer hn h.head_lt]
    exact h.delivered

end
end

section
variable {address : Address} {base gap : ℕ} {stream ret : List Byte} {sockets : Sockets}
  {index other : Fin socketMax} {clock : Clock} {segment : Segment} {src dest : BitVec 32}

section
variable (hne : index ≠ other) (hlisten : (sockets index).isListening = false)
include hne hlisten

lemma receiveSynReceived_other :
    receiveSynReceived sockets other segment index = sockets index := by
  unfold receiveSynReceived
  simp only []
  split
  · split
    · split
      · next hparent =>
        rw [update_of_ne, update_of_ne hne]
        intro heq
        rw [← heq, update_of_ne hne, hlisten] at hparent
        exact absurd hparent.2.1 false_ne_true
      · exact update_of_ne hne _ _
    · exact update_of_ne hne _ _
  · rfl

lemma receiveConnected_other :
    (receiveConnected clock sockets other segment).1 index = sockets index := by
  unfold receiveConnected
  simp only []
  split
  · exact update_of_ne hne _ _
  split
  case h_2 => exact receiveSynReceived_other hne hlisten
  case h_8 | h_9 | h_10 => rfl
  all_goals exact update_of_ne hne _ _

end

lemma findUnused_spec {child : Fin socketMax} (h : findUnused sockets = some child) :
    (sockets child).inUse = false := by
  simpa using find?_some h

lemma receiveUnconnected_in_use (huse : (sockets index).inUse = true) :
    (receiveUnconnected clock sockets src dest segment).1 index = sockets index := by
  unfold receiveUnconnected
  split
  · split
    · split
      · next child hchild =>
        split
        · apply update_of_ne
          rintro rfl
          rw [findUnused_spec hchild] at huse
          cases huse
        · rfl
      · rfl
    · rfl
  · rfl

lemma netTcpPollTurn_self :
    (netTcpPollTurn clock sockets index).1 index = (pollSocket clock (sockets index)).1 :=
  update_self _ _ _

lemma netTcpPollTurn_other (hne : index ≠ other) :
    (netTcpPollTurn clock sockets other).1 index = sockets index :=
  update_of_ne hne _ _

lemma findConnection_spec (h : findConnection sockets src segment = some index) :
    (sockets index).inUse = true ∧ (sockets index).isListening = false ∧
      (sockets index).localPort = segment.dstPort ∧
      (sockets index).remotePort = segment.srcPort ∧
      ((sockets index).remoteIp = src ∨ (sockets index).remoteIp = 0) := by
  have hfound := find?_some h
  simp only [and_eq_true, not_eq_true', or_eq_true, beq_iff_eq] at hfound
  obtain ⟨⟨⟨⟨huse, hlisten⟩, hlocal⟩, hremote⟩, hip⟩ := hfound
  exact ⟨huse, hlisten, hlocal, hremote, hip⟩

section
variable (h : Streaming address base stream gap (sockets index) ret)
  (hlive : address.inUse = true ∧ address.isListening = false)
  (hbound : base + stream.length < 2 ^ 32)
include h hlive hbound

lemma Streaming.traffic {label : Traffic} (hlabel : label.Consistent address base stream) :
    Streaming address base stream gap ((traffic sockets label).1 index) ret := by
  have huse : (sockets index).inUse = true :=
    (congrArg Address.inUse h.address_eq).trans hlive.1
  have hlisten : (sockets index).isListening = false :=
    (congrArg Address.isListening h.address_eq).trans hlive.2
  cases label with
  | poll clock other =>
    obtain rfl | hother := eq_or_ne index other
    · rw [Tcp.traffic, netTcpPollTurn_self]
      exact h.pollSocket
    · rwa [Tcp.traffic, netTcpPollTurn_other hother]
  | arrival clock a =>
    rw [Tcp.traffic, netTcpReceive]
    cases hparse : parseSegment a.source a.destination a.packet with
    | none => exact h
    | some segment =>
      simp only [receiveSegment]
      cases hfind : findConnection sockets a.source segment with
      | none => rwa [receiveUnconnected_in_use huse]
      | some other =>
        obtain rfl | hother := eq_or_ne index other
        · obtain ⟨-, -, hlocal, hremote, hip⟩ := findConnection_spec hfind
          rw [show (sockets index).localPort = address.localPort from
            congrArg Address.localPort h.address_eq] at hlocal
          rw [show (sockets index).remotePort = address.remotePort from
            congrArg Address.remotePort h.address_eq] at hremote
          rw [show (sockets index).remoteIp = address.remoteIp from
            congrArg Address.remoteIp h.address_eq] at hip
          have hseg := hlabel segment hparse hlocal hremote hip
          simp only [receiveConnected, hseg.1, false_eq_true, if_false]
          rcases h.state with hstate | hstate
          · simp only [hstate, update_self]
            exact h.receiveEstablished hbound hseg
          · simpa only [hstate] using h
        · rwa [receiveConnected_other hother hlisten]

lemma Streaming.turn (labels : List Traffic)
    (hlabels : ∀ label ∈ labels, label.Consistent address base stream) :
    Streaming address base stream gap
      (labels.foldl (fun sockets label => (Tcp.traffic sockets label).1) sockets index) ret := by
  induction labels generalizing sockets with
  | nil => exact h
  | cons label labels ih =>
    rw [forall_mem_cons] at hlabels
    exact ih (h.traffic hlive hbound hlabels.1) hlabels.2

lemma Streaming.awaitData (turns : List (List Traffic))
    (hturns : ∀ label ∈ turns.flatten, label.Consistent address base stream) :
    Streaming address base stream gap (awaitData index turns sockets index) ret := by
  induction turns generalizing sockets with
  | nil => exact h
  | cons turn turns ih =>
    simp only [flatten_cons, forall_mem_append] at hturns
    have hturn := h.turn hlive hbound turn hturns.1
    rw [Tcp.awaitData]
    split
    · exact hturn
    · exact ih hturn hturns.2

end

section
variable (h : Streaming address base stream gap (sockets index) ret)
include h

lemma Streaming.deliver (cap : ℕ) :
    Streaming address base stream gap ((deliver sockets index cap).2.2.1 index)
      (ret ++ (deliver sockets index cap).2.1) := by
  unfold Tcp.deliver
  simp only []
  split
  · simpa using h
  · simp only [update_self]
    exact h.copyOut (min_le_right _ _)

lemma Streaming.tcpReceive (hlive : address.inUse = true ∧ address.isListening = false)
    (hbound : base + stream.length < 2 ^ 32) (cap : ℕ) (turns : List (List Traffic))
    (hturns : ∀ label ∈ turns.flatten, label.Consistent address base stream) :
    Streaming address base stream gap ((tcpReceive sockets index cap turns).2.2.1 index)
      (ret ++ (tcpReceive sockets index cap turns).2.1) := by
  unfold Tcp.tcpReceive
  split
  · simpa using h
  split
  · simpa using h
  split
  · split
    · simpa using h
    · exact (h.awaitData hlive hbound turns hturns).deliver cap
  · exact h.deliver cap

end
end

/-- The packets and polls of an event are consistent with the stream. -/
def ReceiveEvent.Consistent (address : Address) (base : ℕ) (stream : List Byte)
    (event : ReceiveEvent) : Prop :=
  ∀ label ∈ event.labels, label.Consistent address base stream

lemma Streaming.step {address : Address} {base gap : ℕ} {stream : List Byte}
    {index : Fin socketMax} {x : ReceiveSession} {event : ReceiveEvent}
    (hlive : address.inUse = true ∧ address.isListening = false)
    (hbound : base + stream.length < 2 ^ 32)
    (h : Streaming address base stream gap (x.sockets index) x.returned)
    (hevent : event.Consistent address base stream) :
    Streaming address base stream gap ((x.step index event).sockets index)
      (x.step index event).returned := by
  cases event with
  | traffic label => exact h.traffic hlive hbound (hevent label mem_cons_self)
  | receive cap turns => exact h.tcpReceive hlive hbound cap turns hevent

/-- Over any sequence of packets consistent with one stream of the peer, of polls and of calls
of `tcp_receive`, the circular buffer stays well formed, the next expected byte counts what was
buffered, and what was delivered followed by what is buffered is a prefix of the stream. -/
theorem receive_stream_delivered (sockets : Sockets) (index : Fin socketMax) (base skipped : ℕ)
    (stream : List Byte) (hbound : base + stream.length < 2 ^ 32)
    (hlive : (sockets index).inUse = true ∧ (sockets index).isListening = false)
    (hstart : Streaming (sockets index).address base stream skipped (sockets index) [])
    (events : List ReceiveEvent)
    (hevents : ∀ event ∈ events, event.Consistent (sockets index).address base stream) :
    let x := Runs.run (ReceiveSession.step index) ⟨sockets, []⟩ events
    let s := x.sockets index
    s.rxCount ≤ 8192 ∧ s.rxTail = (s.rxHead + s.rxCount) % 8192 ∧
      s.rcvNxt.toNat + (sockets index).rxCount =
        (sockets index).rcvNxt.toNat + (x.returned.length + s.rxCount) ∧
      x.returned ++ s.buffered <+: stream.drop skipped := by
  intro x s
  have hrun : Streaming (sockets index).address base stream skipped s x.returned :=
    Runs.run_invariant
      (fun (x : ReceiveSession) event
        (h : Streaming (sockets index).address base stream skipped (x.sockets index) x.returned)
        (hevent : event.Consistent (sockets index).address base stream) =>
          h.step hlive hbound hevent)
      hstart events (Runs.along_of_forall hevents)
  refine ⟨hrun.count_le, hrun.tail_eq, ?_, hrun.delivered⟩
  have hbefore := hstart.rcvNxt_eq
  have hafter := hrun.rcvNxt_eq
  rw [length_nil] at hbefore
  omega

lemma streaming_fresh {s : TcpSocket} (stream : List Byte) (hstate : s.state = .established)
    (hhead : s.rxHead = 0) (htail : s.rxTail = 0) (hcount : s.rxCount = 0) :
    Streaming s.address s.rcvNxt.toNat stream 0 s [] := by
  constructor
  · rfl
  · exact Or.inl hstate
  · rw [hcount]
    exact zero_le _
  · rw [hhead]
    decide
  · rw [htail, hhead, hcount]
    rfl
  · rw [hcount]
    rfl
  · rw [TcpSocket.buffered, hcount]
    exact nil_prefix

def sampleEvents : List ReceiveEvent :=
  [.traffic (.arrival ⟨0, 1000⟩ (sampleArrival 1002 flagAck [12, 13])),
    .receive 5 [[.arrival ⟨1, 1000⟩ (sampleArrival 1000 flagAck [10, 11])]],
    .traffic (.arrival ⟨2, 1000⟩ (sampleArrival 1002 flagAck [12, 13])),
    .receive 1 []]

lemma sampleArrival_consistent (clock : Clock) (stream : List Byte) (seq : BitVec 32)
    (payload : List Byte) (hparse : parseSegment 1 2 (sampleArrival seq flagAck payload).packet =
      some (sampleSegment seq flagAck payload)) (hseq : 1000 ≤ seq.toNat)
    (hpayload : payload <+: stream.drop (seq.toNat - 1000)) :
    (Traffic.arrival clock (sampleArrival seq flagAck payload)).Consistent sampleSocket.address
      1000 stream := by
  intro segment hseg _ _ _
  obtain rfl := Option.some.inj (hparse.symm.trans hseg)
  exact ⟨show hasFlag flagAck flagRst = false by decide,
    show hasFlag flagAck flagFin = false by decide, fun _ => ⟨hseq, hpayload⟩⟩

theorem receive_stream_delivered_sample :
    let x := Runs.run (ReceiveSession.step 0) ⟨sampleSockets, []⟩ sampleEvents
    x.returned = [10, 11, 12] ∧ (x.sockets 0).buffered = [13] ∧
      x.returned ++ (x.sockets 0).buffered <+: [10, 11, 12, 13, 14] := by
  refine ⟨by decide +kernel, by decide +kernel, ?_⟩
  refine (receive_stream_delivered sampleSockets 0 1000 0 [10, 11, 12, 13, 14] (by decide) (by decide)
    (streaming_fresh _ rfl rfl rfl rfl) sampleEvents ?_).2.2.2
  simp only [sampleEvents, forall_mem_cons, ReceiveEvent.Consistent, ReceiveEvent.labels,
    flatten_cons, flatten_nil, append_nil]
  have hfirst (clock : Clock) := sampleArrival_consistent clock [10, 11, 12, 13, 14] 1000 [10, 11]
    (by decide +kernel) (by decide) (by decide)
  have hsecond (clock : Clock) := sampleArrival_consistent clock [10, 11, 12, 13, 14] 1002 [12, 13]
    (by decide +kernel) (by decide) (by decide)
  exact ⟨⟨hsecond _, by simp⟩, ⟨hfirst _, by simp⟩, ⟨hsecond _, by simp⟩, by simp, by simp⟩

end KosKernel.Tcp
