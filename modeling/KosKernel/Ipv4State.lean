import KosKernel.OnesComplement

/-! Packets of `net/ipv4.c`: how they are built, fragmented, checked and put together again. -/
namespace KosKernel.Ipv4
open BigEndian OnesComplement

def headerSize : ℕ := 20
def defaultTtl : Byte := 64
def maxFragmentPayload : ℕ := 1480
abbrev reasmSlots : ℕ := 8
def reasmMaxSize : ℕ := 65536
def reasmTimeoutTicks : BitVec 64 := 3000

inductive DhcpState where
  | idle
  | discovering
  | requesting
  | bound
  | failed
  deriving DecidableEq

structure Interface where
  available : Bool
  ipv4Address : BitVec 32
  subnetMask : BitVec 32
  gateway : BitVec 32
  dhcpState : DhcpState
  packetsReceived : BitVec 64
  packetsDropped : BitVec 64
  deriving DecidableEq

/-- What fragments of one datagram have in common. -/
structure DatagramKey where
  source : BitVec 32
  destination : BitVec 32
  identification : BitVec 16
  protocol : Byte
  deriving DecidableEq

structure ReasmSlot where
  active : Bool
  key : DatagramKey
  createdTick : BitVec 64
  totalSize : ℕ
  receivedBytes : ℕ
  buffer : ℕ → Byte
  blockPresent : ℕ → Bool

abbrev Slots := Fin reasmSlots → ReasmSlot

structure Fragment where
  key : DatagramKey
  /-- The place of the payload in the datagram, in bytes. -/
  offset : ℕ
  moreFragments : Bool
  payload : List Byte
  deriving DecidableEq

/-- What the layer hands on: a payload to `ipv4_dispatch_payload`, and the notice that a
reassembly has expired. -/
inductive Output where
  | dispatch (protocol : Byte) (source destination : BitVec 32) (payload : List Byte)
  | timeExceeded (destination : BitVec 32) (original : List Byte)
  deriving DecidableEq

/-- The loop that looks for the slot of a datagram. It gives up expired slots on its way and
stops at the first match. -/
def findSlot (now : BitVec 64) (key : DatagramKey) (original : List Byte) :
    List (Fin reasmSlots) → Slots → Option (Fin reasmSlots) × Slots × List Output
  | [], slots => (none, slots, [])
  | i :: rest, slots =>
    if (slots i).active then
      if now - (slots i).createdTick ≥ reasmTimeoutTicks then
        let (found, slots', outputs) :=
          findSlot now key original rest (Function.update slots i { slots i with active := false })
        (found, slots', .timeExceeded (slots i).key.source original :: outputs)
      else if (slots i).key = key then (some i, slots, [])
      else findSlot now key original rest slots
    else findSlot now key original rest slots

def unusedSlot (slots : Slots) : Option (Fin reasmSlots) :=
  (List.finRange reasmSlots).find? fun i => !(slots i).active

/-- A slot taken for a new datagram; its buffer is left as it is. -/
def openSlot (now : BitVec 64) (key : DatagramKey) (slot : ReasmSlot) : ReasmSlot :=
  { slot with
    active := true
    key
    createdTick := now
    totalSize := 0
    receivedBytes := 0
    blockPresent := fun b => if b < reasmMaxSize / 8 then false else slot.blockPresent b }

def chooseSlot (now : BitVec 64) (key : DatagramKey) (original : List Byte) (slots : Slots) :
    Option (Fin reasmSlots) × Slots × List Output :=
  match findSlot now key original (List.finRange reasmSlots) slots with
  | (some i, slots, outputs) => (some i, slots, outputs)
  | (none, slots, outputs) =>
    match unusedSlot slots with
    | none => (none, slots, outputs)
    | some i => (some i, Function.update slots i (openSlot now key (slots i)), outputs)

def copyPayload (buffer : ℕ → Byte) (offset : ℕ) (payload : List Byte) : ℕ → Byte :=
  fun i => if offset ≤ i then (payload[i - offset]?).getD (buffer i) else buffer i

def markBlocks (blockPresent : ℕ → Bool) (offset size : ℕ) : ℕ → Bool :=
  fun b =>
    (offset / 8 ≤ b && b < offset / 8 + (size + 7) / 8 && b < reasmMaxSize / 8) || blockPresent b

def storeFragment (slot : ReasmSlot) (fragment : Fragment) : ReasmSlot :=
  { slot with
    buffer := copyPayload slot.buffer fragment.offset fragment.payload
    blockPresent := markBlocks slot.blockPresent fragment.offset fragment.payload.length
    receivedBytes := slot.receivedBytes + fragment.payload.length
    totalSize :=
      if fragment.moreFragments then slot.totalSize else fragment.offset + fragment.payload.length }

def slotComplete (slot : ReasmSlot) : Bool :=
  decide (0 < slot.totalSize) &&
    (List.range ((slot.totalSize + 7) / 8)).all fun b => slot.blockPresent b

def assembled (slot : ReasmSlot) : List Byte := (List.range slot.totalSize).map slot.buffer

/-- A fragment in its slot: the slot afterwards, and what is dispatched. Nothing is received while the
dispatch runs; `enterFragment` is for calls that are nested. -/
def takeFragment (slot : ReasmSlot) (fragment : Fragment) : ReasmSlot × List Output :=
  if fragment.offset + fragment.payload.length > reasmMaxSize then
    ({ slot with active := false }, [])
  else
    let slot := storeFragment slot fragment
    if slotComplete slot then
      ({ slot with active := false },
        [.dispatch slot.key.protocol slot.key.source slot.key.destination (assembled slot)])
    else (slot, [])

def handleFragment (now : BitVec 64) (fragment : Fragment) (original : List Byte) (slots : Slots) :
    Slots × List Output :=
  match chooseSlot now fragment.key original slots with
  | (none, slots, outputs) => (slots, outputs)
  | (some i, slots, outputs) =>
    let (slot, dispatched) := takeFragment (slots i) fragment
    (Function.update slots i slot, outputs ++ dispatched)

/-- A fragment in its slot up to the call of `ipv4_dispatch_payload`. Only when that has returned is
the slot released, and packets received meanwhile find it in use. -/
def enterFragment (slot : ReasmSlot) (fragment : Fragment) : ReasmSlot × List Output :=
  if fragment.offset + fragment.payload.length > reasmMaxSize then
    ({ slot with active := false }, [])
  else
    let slot := storeFragment slot fragment
    (slot, if slotComplete slot then
      [.dispatch slot.key.protocol slot.key.source slot.key.destination (assembled slot)] else [])

/-- The last component is the slot whose payload is being dispatched. -/
def enterHandleFragment (now : BitVec 64) (fragment : Fragment) (original : List Byte)
    (slots : Slots) : Slots × List Output × Option (Fin reasmSlots) :=
  match chooseSlot now fragment.key original slots with
  | (none, slots, outputs) => (slots, outputs, none)
  | (some i, slots, outputs) =>
    let (slot, dispatched) := enterFragment (slots i) fragment
    (Function.update slots i slot, outputs ++ dispatched,
      if dispatched.isEmpty then none else some i)

def releaseSlot (slots : Slots) (i : Fin reasmSlots) : Slots :=
  Function.update slots i { slots i with active := false }

/-- What `net_ipv4_receive` makes of a packet. -/
inductive Verdict where
  | dropped
  | whole (key : DatagramKey) (payload : List Byte)
  | fragment (fragment : Fragment)
  deriving DecidableEq

def ipv4Checksum (data : List Byte) : BitVec 16 := checksum (wordSum data)

def headerValid (packet : List Byte) : Bool :=
  let size := packet.length
  let header := ((packet.getD 0 0) &&& 0x0f).toNat * 4
  let total := (readU16 packet 2).toNat
  decide (headerSize ≤ size) && packet.getD 0 0 >>> 4 == 4 &&
    !(decide (header < headerSize) || decide (header > size) || decide (total < header) ||
      decide (total > size) || ipv4Checksum (packet.take header) != 0)

def accepts (interface : Interface) (destination : BitVec 32) (protocol : Byte) : Bool :=
  interface.available &&
    (destination == interface.ipv4Address || destination == 0xffffffff ||
      destination >>> 24 == 127 ||
      ((interface.dhcpState == .discovering || interface.dhcpState == .requesting) &&
        protocol == 17))

def classify (interface : Interface) (packet : List Byte) : Verdict :=
  if headerValid packet = false then .dropped
  else
    let header := ((packet.getD 0 0) &&& 0x0f).toNat * 4
    let total := (readU16 packet 2).toNat
    let flagsOffset := readU16 packet 6
    let moreFragments := flagsOffset &&& 0x2000 != 0
    let offset := ((flagsOffset &&& 0x1fff) * 8).toNat
    let key : DatagramKey :=
      { source := readU32 packet 12
        destination := readU32 packet 16
        identification := readU16 packet 4
        protocol := packet.getD 9 0 }
    let payload := (packet.take total).drop header
    if accepts interface key.destination key.protocol = false then .dropped
    else if moreFragments = false ∧ offset = 0 then .whole key payload
    else .fragment { key, offset, moreFragments, payload }

structure Layer where
  interface : Interface
  slots : Slots
  nextIdentification : BitVec 16

def netIpv4Receive (now : BitVec 64) (s : Layer) (packet : List Byte) : Layer × List Output :=
  match classify s.interface packet with
  | .dropped =>
    ({ s with
        interface := { s.interface with packetsDropped := s.interface.packetsDropped + 1 } }, [])
  | .whole key payload =>
    ({ s with
        interface := { s.interface with packetsReceived := s.interface.packetsReceived + 1 } },
      [.dispatch key.protocol key.source key.destination payload])
  | .fragment fragment =>
    let (slots, outputs) := handleFragment now fragment packet s.slots
    ({ s with
        interface := { s.interface with packetsReceived := s.interface.packetsReceived + 1 }
        slots }, outputs)

/-- `net_ipv4_receive` up to the point where its dispatch has been called. Behind the dispatch of a
whole packet there is nothing left to do. -/
def enterIpv4Receive (now : BitVec 64) (s : Layer) (packet : List Byte) :
    Layer × List Output × Option (Fin reasmSlots) :=
  match classify s.interface packet with
  | .fragment fragment =>
    let (slots, outputs, called) := enterHandleFragment now fragment packet s.slots
    ({ s with
        interface := { s.interface with packetsReceived := s.interface.packetsReceived + 1 }
        slots }, outputs, called)
  | _ =>
    let (s, outputs) := netIpv4Receive now s packet
    (s, outputs, none)

/-- What is left to do when the dispatch of a slot returns. -/
def leaveIpv4Receive (s : Layer) (called : Option (Fin reasmSlots)) : Layer :=
  { s with slots := called.elim s.slots (releaseSlot s.slots) }

lemma takeFragment_eq (slot : ReasmSlot) (fragment : Fragment) :
    takeFragment slot fragment = (if (enterFragment slot fragment).2.isEmpty then
      (enterFragment slot fragment).1 else { (enterFragment slot fragment).1 with active := false },
      (enterFragment slot fragment).2) := by
  unfold takeFragment enterFragment
  split
  · rfl
  · dsimp only
    split <;> rfl

/-- With nothing received in between, entering and leaving is all of `net_ipv4_receive`. -/
theorem leave_enterIpv4Receive (now : BitVec 64) (s : Layer) (packet : List Byte) :
    (leaveIpv4Receive (enterIpv4Receive now s packet).1 (enterIpv4Receive now s packet).2.2,
      (enterIpv4Receive now s packet).2.1) = netIpv4Receive now s packet := by
  unfold enterIpv4Receive
  cases hclass : classify s.interface packet with
  | dropped => rfl
  | whole key payload => rfl
  | fragment fragment =>
    simp only [netIpv4Receive, hclass, enterHandleFragment, handleFragment]
    rcases chooseSlot now fragment.key packet s.slots with ⟨found, slots, outputs⟩
    cases found with
    | none => rfl
    | some i =>
      simp only [takeFragment_eq (slots i) fragment, leaveIpv4Receive]
      cases (enterFragment (slots i) fragment).2.isEmpty with
      | true => rfl
      | false => simp [releaseSlot]

def header (key : DatagramKey) (flagsOffset : BitVec 16) (size : ℕ) (checksum : BitVec 16) :
    List Byte :=
  [0x45, 0] ++ u16Bytes (BitVec.ofNat 16 (headerSize + size)) ++ u16Bytes key.identification ++
    u16Bytes flagsOffset ++ [defaultTtl, key.protocol] ++ u16Bytes checksum ++
    u32Bytes key.source ++ u32Bytes key.destination

def emitFragment (key : DatagramKey) (flagsOffset : BitVec 16) (chunk : List Byte) : List Byte :=
  header key flagsOffset chunk.length (ipv4Checksum (header key flagsOffset chunk.length 0)) ++ chunk

/-- The loop that sends a payload in pieces. The packets that were sent, and whether all were:
`transmits` answers for the driver. -/
def sendFragments (transmits : List Byte → Bool) (key : DatagramKey) (payload : List Byte) :
    ℕ → ℕ → Bool × List (List Byte)
  | 0, _ => (true, [])
  | fuel + 1, offset =>
    if payload.length ≤ offset then (true, [])
    else
      let chunk := (payload.drop offset).take maxFragmentPayload
      let isLast := decide (offset + chunk.length ≥ payload.length)
      let fragOffset := BitVec.ofNat 16 (offset / 8)
      let flagsOffset := (if isLast then 0 else 0x2000) ||| (fragOffset &&& 0x1fff)
      let packet := emitFragment key flagsOffset chunk
      if transmits packet = false then (false, [])
      else
        let (sent, packets) := sendFragments transmits key payload fuel (offset + chunk.length)
        (sent, packet :: packets)

/-- What the layers below answer: whether the hardware address of the next hop is found, and
whether a packet goes out. -/
structure LinkLayer where
  resolves : BitVec 32 → Bool
  transmits : List Byte → Bool

def loopsBack (interface : Interface) (destination : BitVec 32) : Bool :=
  destination == interface.ipv4Address || destination >>> 24 == 127

def nextHop (interface : Interface) (destination : BitVec 32) : BitVec 32 :=
  if destination &&& interface.subnetMask = interface.ipv4Address &&& interface.subnetMask then
    destination
  else interface.gateway

/-- The result, the state, the packets that went out, and what was dispatched on this host. -/
def netIpv4SendFrom (link : LinkLayer) (s : Layer) (protocol : Byte) (source destination : BitVec 32)
    (payload : List Byte) : Bool × Layer × List (List Byte) × List Output :=
  let sourceIp := if source ≠ 0 then source else s.interface.ipv4Address
  if s.interface.available = false ∨ payload = [] ∨
      (source ≠ 0 ∧ source ≠ s.interface.ipv4Address) then (false, s, [], [])
  else if loopsBack s.interface destination then
    (true, s, [], [.dispatch protocol sourceIp destination payload])
  else if destination ≠ 0xffffffff ∧ (nextHop s.interface destination = 0 ∨
      link.resolves (nextHop s.interface destination) = false) then (false, s, [], [])
  else
    let key : DatagramKey := ⟨sourceIp, destination, s.nextIdentification, protocol⟩
    let s := { s with nextIdentification := s.nextIdentification + 1 }
    if payload.length ≤ maxFragmentPayload then
      let packet := emitFragment key 0x4000 payload
      if link.transmits packet then (true, s, [packet], []) else (false, s, [], [])
    else
      let (sent, packets) := sendFragments link.transmits key payload payload.length 0
      (sent, s, packets, [])

end KosKernel.Ipv4
