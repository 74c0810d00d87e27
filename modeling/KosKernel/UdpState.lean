import KosKernel.Ipv4State
import KosKernel.RingBuffer
import KosKernel.Runs

/-! UDP sockets of `net/socket.c`. The network lock makes each part of a call between taking and
giving it up one step; what a send does behind it comes back as an incoming datagram or not at
all. -/
namespace KosKernel.Udp
open BigEndian OnesComplement Function

abbrev socketMax : ℕ := 8
def payloadMax : ℕ := 1472
def queueDepth : ℕ := 4
def headerSize : ℕ := 8
def ephemeralPortStart : BitVec 16 := 49152
def ephemeralPortEnd : ℕ := 65535
def loopback : BitVec 32 := 0x7f000001
def broadcast : BitVec 32 := 0xffffffff

structure Endpoint where
  address : BitVec 32 := 0
  port : BitVec 16 := 0
deriving DecidableEq

/-- The bytes beyond the size of a datagram are never looked at. -/
structure Datagram where
  source : Endpoint := {}
  data : List Byte := []
deriving DecidableEq

structure Socket where
  isOpen : Bool := false
  bound : Bool := false
  endpoint : Endpoint := {}
  queue : ℕ → Datagram := fun _ => {}
  queueHead : ℕ := 0
  queueTail : ℕ := 0
  queueCount : ℕ := 0

structure Network where
  sockets : Fin socketMax → Socket := fun _ => {}
  initialized : Bool := false
  datagramsSent : BitVec 64 := 0
  datagramsReceived : BitVec 64 := 0
  datagramsDropped : BitVec 64 := 0
  nextEphemeralPort : BitVec 16 := ephemeralPortStart

def firstSocket (s : Network) (test : Socket → Bool) : Option (Fin socketMax) :=
  (List.finRange socketMax).find? fun i => test (s.sockets i)

def Network.set (s : Network) (i : Fin socketMax) (socket : Socket) : Network :=
  { s with sockets := update s.sockets i socket }

def Network.countDropped (s : Network) : Network :=
  { s with datagramsDropped := s.datagramsDropped + 1 }

def socketAt (s : Network) (socketId : BitVec 16) : Option (Fin socketMax) :=
  if h : socketId.toNat < socketMax then
    if (s.sockets ⟨socketId.toNat, h⟩).isOpen then some ⟨socketId.toNat, h⟩ else none
  else none

def portInUse (s : Network) (port : BitVec 16) : Bool :=
  (firstSocket s fun socket => socket.isOpen && socket.bound && socket.endpoint.port == port).isSome

/-- The counter has sixteen bits, so it never exceeds the end of the range and goes on at
zero. -/
def advancePort (s : Network) : Network :=
  let next := s.nextEphemeralPort + 1
  { s with nextEphemeralPort := if ephemeralPortEnd < next.toNat then ephemeralPortStart else next }

def allocateEphemeralPort : ℕ → Network → BitVec 16 × Network
  | 0, s => (0, s)
  | turns + 1, s =>
    if portInUse s s.nextEphemeralPort then allocateEphemeralPort turns (advancePort s)
    else (s.nextEphemeralPort, advancePort s)

def ephemeralTurns : ℕ := 16384

def conflicts (a b : Endpoint) : Bool :=
  a.port == b.port && (a.address == 0 || b.address == 0 || a.address == b.address)

def findConflictingSocket (s : Network) (endpoint : Endpoint) : Option (Fin socketMax) :=
  firstSocket s fun socket => socket.isOpen && socket.bound && conflicts socket.endpoint endpoint

/-- Pseudo header, protocol 17 and length, then the packet; zero stands for no checksum. -/
def udpChecksum (sourceIp destIp : BitVec 32) (packet : List Byte) : BitVec 16 :=
  let result := checksum (wordSum (u32Bytes sourceIp) + wordSum (u32Bytes destIp) + 17 +
    packet.length % 65536 + wordSum packet)
  if result = 0 then 0xffff else result

def netInitialize (s : Network) : Network :=
  if s.initialized then s else { initialized := true }

def netUdpOpen (s : Network) : Network × Option (Fin socketMax) :=
  if s.initialized = false then (s, none)
  else match firstSocket s fun socket => !socket.isOpen with
    | none => (s, none)
    | some i => (s.set i { isOpen := true }, some i)

def netUdpClose (s : Network) (socketId : BitVec 16) : Network × Bool :=
  match socketAt s socketId with
  | none => (s, false)
  | some i => (s.set i {}, true)

def netUdpBind (s : Network) (socketId : BitVec 16) (endpoint : Endpoint) : Network × Bool :=
  match socketAt s socketId with
  | none => (s, false)
  | some i =>
    if (s.sockets i).bound then (s, false)
    else
      let (port, s) :=
        if endpoint.port = 0 then allocateEphemeralPort ephemeralTurns s else (endpoint.port, s)
      let endpoint := { endpoint with port }
      if endpoint.port = 0 then (s, false)
      else if (findConflictingSocket s endpoint).isSome then (s, false)
      else (s.set i { s.sockets i with endpoint, bound := true }, true)

def Socket.enqueue (socket : Socket) (datagram : Datagram) : Socket :=
  { socket with
    queue := update socket.queue socket.queueTail datagram
    queueTail := (socket.queueTail + 1) % queueDepth
    queueCount := socket.queueCount + 1 }

def Socket.dequeue (socket : Socket) : Socket :=
  { socket with
    queueHead := (socket.queueHead + 1) % queueDepth
    queueCount := socket.queueCount - 1 }

/-- The implicit binding of a send: the port is set whether there is one or not. -/
def bindSender (s : Network) (i : Fin socketMax) : Network × Bool :=
  if (s.sockets i).bound then (s, true)
  else
    let (port, s) := allocateEphemeralPort ephemeralTurns s
    let socket := s.sockets i
    let endpoint := { socket.endpoint with port }
    if port = 0 then (s.set i { socket with endpoint }, false)
    else (s.set i { socket with endpoint, bound := true }, true)

inductive SendResult
  | refused
  /-- Put into the queue of a socket of this host. -/
  | delivered (receiver : Fin socketMax) (datagram : Datagram)
  /-- To be sent from this endpoint by the layer below. -/
  | outward (source : Endpoint)
deriving DecidableEq

def hearsLoopback (port : BitVec 16) (socket : Socket) : Bool :=
  socket.isOpen && socket.bound && socket.endpoint.port == port &&
    (socket.endpoint.address == loopback || socket.endpoint.address == 0)

def sendtoLocked (s : Network) (socketId : BitVec 16) (destination : Endpoint)
    (data : List Byte) : Network × SendResult :=
  if data = [] ∨ payloadMax < data.length then (s, .refused)
  else match socketAt s socketId with
    | none => (s, .refused)
    | some i =>
      let (s, ok) := bindSender s i
      if ok = false then (s, .refused)
      else
        let source := (s.sockets i).endpoint
        if destination.address = loopback then
          match firstSocket s (hearsLoopback destination.port) with
          | none => (s.countDropped, .refused)
          | some r =>
            if (s.sockets r).queueCount = queueDepth then (s.countDropped, .refused)
            else
              let address := if source.address ≠ 0 then source.address else loopback
              let datagram : Datagram := ⟨{ source with address }, data⟩
              ({ s.set r ((s.sockets r).enqueue datagram) with
                  datagramsSent := s.datagramsSent + 1 }, .delivered r datagram)
        else ({ s with datagramsSent := s.datagramsSent + 1 }, .outward source)

def parsePacket (source destination : BitVec 32) (packet : List Byte) :
    Option (BitVec 16 × Datagram) :=
  let udpLength := (readU16 packet 4).toNat
  let receivedChecksum := readU16 packet 6
  if packet.length < headerSize then none
  else if udpLength < headerSize ∨ packet.length < udpLength then none
  else if payloadMax < udpLength - headerSize then none
  else
    let payload := (packet.take udpLength).drop headerSize
    if receivedChecksum ≠ 0 ∧
        udpChecksum source destination (packet.take 6 ++ [0, 0] ++ payload) ≠ receivedChecksum then
      none
    else some (readU16 packet 2, ⟨⟨source, readU16 packet 0⟩, payload⟩)

def hears (destination : BitVec 32) (port : BitVec 16) (socket : Socket) : Bool :=
  socket.isOpen && socket.bound && socket.endpoint.port == port &&
    (socket.endpoint.address == 0 || socket.endpoint.address == destination ||
      destination == broadcast || socket.endpoint.address == loopback)

inductive ReceiveResult
  | dropped
  /-- The ICMP notice to the sender, with what it quotes. -/
  | unreachable (source : BitVec 32) (original : List Byte)
  | delivered (receiver : Fin socketMax) (datagram : Datagram)
deriving DecidableEq

def netUdpReceive (s : Network) (source destination : BitVec 32) (packet : List Byte) :
    Network × ReceiveResult :=
  match parsePacket source destination packet with
  | none => (s.countDropped, .dropped)
  | some (port, datagram) =>
    match firstSocket s (hears destination port) with
    | none =>
      (s.countDropped, if destination ≠ broadcast ∧ destination >>> 24 ≠ 127 then
          .unreachable source (packet.take (readU16 packet 4).toNat)
        else .dropped)
    | some i =>
      if (s.sockets i).queueCount = queueDepth then (s.countDropped, .dropped)
      else
        ({ s.set i ((s.sockets i).enqueue datagram) with
            datagramsReceived := s.datagramsReceived + 1 }, .delivered i datagram)

def netUdpRecvfrom (s : Network) (socketId : BitVec 16) (capacity : ℕ) :
    Network × Option (Fin socketMax × Datagram) :=
  match socketAt s socketId with
  | none => (s, none)
  | some i =>
    let socket := s.sockets i
    let datagram := socket.queue socket.queueHead
    if socket.queueCount = 0 then (s, none)
    else if capacity < datagram.data.length then (s, none)
    else (s.set i socket.dequeue, some (i, datagram))

/-- The steps: calls, the counting of a send that failed below, and datagrams that come in. -/
inductive Event
  | initializing
  | opening
  | close (socketId : BitVec 16)
  | bind (socketId : BitVec 16) (endpoint : Endpoint)
  | sendto (socketId : BitVec 16) (destination : Endpoint) (data : List Byte)
  | sendFailed
  | receive (source destination : BitVec 32) (packet : List Byte)
  | recvfrom (socketId : BitVec 16) (capacity : ℕ)

/-- The network with what was put into the queue of each socket and what `recvfrom` returned of
it since the socket was opened. -/
structure History where
  net : Network := {}
  enqueued : Fin socketMax → List Datagram := fun _ => []
  returned : Fin socketMax → List Datagram := fun _ => []

def record (logs : Fin socketMax → List Datagram) (i : Fin socketMax) (datagram : Datagram) :
    Fin socketMax → List Datagram :=
  update logs i (logs i ++ [datagram])

def step (x : History) : Event → History
  | .initializing => { x with net := netInitialize x.net }
  | .opening =>
    match netUdpOpen x.net with
    | (net, none) => { x with net }
    | (net, some i) =>
      { net
        enqueued := update x.enqueued i []
        returned := update x.returned i [] }
  | .close socketId => { x with net := (netUdpClose x.net socketId).1 }
  | .bind socketId endpoint => { x with net := (netUdpBind x.net socketId endpoint).1 }
  | .sendto socketId destination data =>
    match sendtoLocked x.net socketId destination data with
    | (net, .delivered i datagram) => { x with net, enqueued := record x.enqueued i datagram }
    | (net, _) => { x with net }
  | .sendFailed => { x with net := x.net.countDropped }
  | .receive source destination packet =>
    match netUdpReceive x.net source destination packet with
    | (net, .delivered i datagram) => { x with net, enqueued := record x.enqueued i datagram }
    | (net, _) => { x with net }
  | .recvfrom socketId capacity =>
    match netUdpRecvfrom x.net socketId capacity with
    | (net, none) => { x with net }
    | (net, some (i, datagram)) => { x with net, returned := record x.returned i datagram }

abbrev run := Runs.run step

end KosKernel.Udp
