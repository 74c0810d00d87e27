import KosKernel.Ipv4Reassembly
import KosKernel.TcpState
import KosKernel.UdpState

/-! Packets from the wire behind `net_ipv4_receive`: `ipv4_dispatch_payload` hands their payloads to
TCP, which first copies a segment to a buffer of one frame, and to the sockets of UDP. -/
namespace KosKernel.Ipv4
open BigEndian List Runs
open Tcp (headerMinSize ethernetFrameMax)
open Udp (Network Socket netUdpReceive loopback)

/-- How many bytes `net_tcp_receive` writes to its buffer. -/
def copiedBytes (packet : List Byte) : ℕ :=
  let dataOffset := ((packet.getD 12 0 >>> 4) * 4).toNat
  if packet.length < headerMinSize then 0
  else if dataOffset < headerMinSize ∨ dataOffset > packet.length then 0
  else packet.length

structure Host where
  layer : Layer
  network : Network
  copies : List ℕ

def Host.dispatchPayload (x : Host) : Output → Host
  | .dispatch protocol source destination payload =>
    if protocol = 17 then
      { x with network := (netUdpReceive x.network source destination payload).1 }
    else if protocol = 6 then { x with copies := x.copies ++ [copiedBytes payload] }
    else x
  | .timeExceeded _ _ => x

def Host.receive (x : Host) (arrival : Arrival) : Host :=
  let (layer, outputs) := netIpv4Receive arrival.now x.layer arrival.packet
  outputs.foldl dispatchPayload { x with layer }

section
variable {x : Host} {arrival : Arrival} {frag : Fragment}

/-- The size of the segment, as far as it is known behind this packet, is at most that of a frame. -/
def fitsFrame (x : Host) (arrival : Arrival) : Bool :=
  match classify x.layer.interface arrival.packet with
  | .dropped => true
  | .whole key payload => key.protocol = 6 → payload.length ≤ ethernetFrameMax
  | .fragment fragment => fragment.key.protocol = 6 →
      (if fragment.moreFragments then recordedTotal arrival.now fragment.key x.layer.slots
        else fragment.offset + fragment.payload.length) ≤ ethernetFrameMax

def OutputFits : Output → Prop
  | .dispatch protocol _ _ payload => protocol = 6 → payload.length ≤ ethernetFrameMax
  | .timeExceeded _ _ => True

lemma takeFragment_fits {slot : ReasmSlot} (h : slot.key.protocol = 6 →
      (storeFragment slot frag).totalSize ≤ ethernetFrameMax) :
    ∀ output ∈ (takeFragment slot frag).2, OutputFits output := by
  simp only [takeFragment]
  split_ifs
  · exact forall_mem_nil _
  · rw [forall_mem_singleton, OutputFits, assembled, length_map, length_range]
    exact h
  · exact forall_mem_nil _

lemma netIpv4Receive_fits (h : fitsFrame x arrival = true) :
    ∀ output ∈ (netIpv4Receive arrival.now x.layer arrival.packet).2, OutputFits output := by
  unfold fitsFrame at h
  unfold netIpv4Receive
  cases hclass : classify x.layer.interface arrival.packet with
  | dropped => exact forall_mem_nil _
  | whole key payload =>
    rw [hclass] at h
    have hle := of_decide_eq_true h
    exact forall_mem_singleton.mpr hle
  | fragment frag =>
    rw [hclass] at h
    have hsent := chooseSlot_outputs arrival.now frag.key arrival.packet x.layer.slots
    have hexceeded : ∀ output ∈
        (chooseSlot arrival.now frag.key arrival.packet x.layer.slots).2.2,
        OutputFits output := by
      intro output houtput
      obtain ⟨dest, rfl⟩ := hsent output houtput
      trivial
    dsimp only [handleFragment]
    rcases hchoose : chooseSlot arrival.now frag.key arrival.packet x.layer.slots with
      ⟨none | i, slots', outputs⟩
    · rw [hchoose] at hexceeded
      exact hexceeded
    rw [hchoose] at hexceeded
    obtain ⟨hkey, htotal⟩ := (chooseSlot_some hchoose).key_total
    refine forall_mem_append.mpr ⟨hexceeded, takeFragment_fits fun htcp => ?_⟩
    rw [storeFragment, htotal]
    exact of_decide_eq_true h (hkey ▸ htcp)

lemma copiedBytes_le (pkt : List Byte) : copiedBytes pkt ≤ pkt.length := by
  simp only [copiedBytes]
  split_ifs <;> omega

lemma foldl_copies {outputs : List Output} (hout : ∀ output ∈ outputs, OutputFits output)
    (h : ∀ n ∈ x.copies, n ≤ ethernetFrameMax) :
    ∀ n ∈ (outputs.foldl Host.dispatchPayload x).copies, n ≤ ethernetFrameMax := by
  induction outputs generalizing x with
  | nil => exact h
  | cons output outputs ih =>
    rw [forall_mem_cons] at hout
    refine ih hout.2 ?_
    cases output with
    | timeExceeded => exact h
    | dispatch protocol src dest payload =>
      simp only [Host.dispatchPayload]
      split_ifs with hudp htcp
      · exact h
      · refine forall_mem_append.mpr ⟨h, forall_mem_singleton.mpr ?_⟩
        exact (copiedBytes_le payload).trans (hout.1 htcp)
      · exact h

/-- The copy of a segment stays in its buffer while no segment is known to be larger. -/
theorem tcp_copy_bounded (layer : Layer) (network : Network) (arrivals : List Arrival)
    (hfits : Along Host.receive (fun x a => fitsFrame x a = true) ⟨layer, network, []⟩ arrivals) :
    ∀ n ∈ (run Host.receive ⟨layer, network, []⟩ arrivals).copies, n ≤ ethernetFrameMax := by
  have hstep : ∀ (x : Host) arrival, (∀ n ∈ x.copies, n ≤ ethernetFrameMax) →
      fitsFrame x arrival = true → ∀ n ∈ (x.receive arrival).copies, n ≤ ethernetFrameMax :=
    fun _ _ h hfits => foldl_copies (netIpv4Receive_fits hfits) h
  exact run_invariant hstep (forall_mem_nil _) arrivals hfits

def tcpKey : DatagramKey := ⟨0x0a000002, 0x0a000001, 7, 6⟩

/-- A segment of 24 bytes, its header among them, in two fragments. -/
def shortSegment : List Arrival :=
  [⟨0, emitFragment tcpKey 0x2000 (replicate 16 0x50)⟩, ⟨1, emitFragment tcpKey 0x0002 (replicate 8 9)⟩]

theorem tcp_copy_bounded_sample :
    (run Host.receive ⟨sampleLayer, {}, []⟩ shortSegment).copies = [24] ∧
      ∀ n ∈ (run Host.receive ⟨sampleLayer, {}, []⟩ shortSegment).copies, n ≤ ethernetFrameMax :=
  ⟨by decide +kernel, tcp_copy_bounded sampleLayer {} shortSegment (by decide +kernel)⟩

/-- Two fragments of one segment, together six bytes longer than the buffer. -/
def longSegment : List Arrival :=
  [⟨0, emitFragment tcpKey 0x2000 (replicate 1512 0x50)⟩,
    ⟨1, emitFragment tcpKey 0x00bd (replicate 8 0)⟩]

theorem long_segment_overruns :
    (run Host.receive ⟨sampleLayer, {}, []⟩ longSegment).copies = [ethernetFrameMax + 6] := by
  decide +kernel

end

def onLoopback (socket : Socket) : Bool :=
  socket.isOpen && socket.bound && socket.endpoint.address == loopback

/-- There is a socket on the loopback address with the port. -/
def loopbackPort (network : Network) (port : BitVec 16) : Bool :=
  ∃ i, onLoopback (network.sockets i) = true ∧ (network.sockets i).endpoint.port = port

/-- The datagram that the packet carries or completes is not for the port of a socket on the
loopback address. -/
def avoidsLoopback (x : Host) (arrival : Arrival) : Bool :=
  match classify x.layer.interface arrival.packet with
  | .dropped => true
  | .whole key payload => key.protocol = 17 → loopbackPort x.network (readU16 payload 2) = false
  | .fragment fragment =>
    match openedSlot arrival.now fragment.key x.layer.slots with
    | none => true
    | some i =>
      let slot := storeFragment (x.layer.slots i) fragment
      fragment.key.protocol = 17 → slotComplete slot = true →
        loopbackPort x.network (readU16 (assembled slot) 2) = false

def OutputSpares (port : BitVec 16) : Output → Prop
  | .dispatch protocol _ _ payload => protocol = 17 → port ≠ readU16 payload 2
  | .timeExceeded _ _ => True

lemma ne_of_loopbackPort {network : Network} {port : BitVec 16} {i : Fin Udp.socketMax}
    (h : loopbackPort network port = false) (hi : onLoopback (network.sockets i) = true) :
    (network.sockets i).endpoint.port ≠ port :=
  fun hport => of_decide_eq_false h ⟨i, hi, hport⟩

/-- One fragment alone is no datagram: the last one is not at the beginning. -/
lemma takeFragment_opened {now : BitVec 64} {frag : Fragment} (hplaced : frag.Placed)
    (slot : ReasmSlot) : (takeFragment (openSlot now frag.key slot) frag).2 = [] := by
  obtain ⟨halign, hlast⟩ := hplaced
  have hincomplete : slotComplete (storeFragment (openSlot now frag.key slot) frag) = false := by
    rw [Bool.eq_false_iff]
    intro hcomplete
    simp only [slotComplete, Bool.and_eq_true, decide_eq_true_eq, all_eq_true, mem_range] at hcomplete
    obtain ⟨hpos, hall⟩ := hcomplete
    have hfirst := hall 0 (by omega)
    cases hmore : frag.moreFragments with
    | true => simp [storeFragment, openSlot, hmore] at hpos
    | false =>
      have hoffset := hlast hmore
      simp [storeFragment, openSlot, markBlocks, reasmMaxSize] at hfirst
      omega
  simp only [takeFragment, hincomplete, Bool.false_eq_true, if_false]
  split_ifs <;> rfl

lemma netIpv4Receive_spares {x : Host} {arrival : Arrival} {i : Fin Udp.socketMax}
    (h : avoidsLoopback x arrival = true) (hi : onLoopback (x.network.sockets i) = true) :
    ∀ output ∈ (netIpv4Receive arrival.now x.layer arrival.packet).2,
      OutputSpares (x.network.sockets i).endpoint.port output := by
  unfold avoidsLoopback at h
  unfold netIpv4Receive
  cases hclass : classify x.layer.interface arrival.packet with
  | dropped => exact forall_mem_nil _
  | whole key payload =>
    rw [hclass] at h
    have havoids := of_decide_eq_true h
    exact forall_mem_singleton.mpr fun hudp => ne_of_loopbackPort (havoids hudp) hi
  | fragment frag =>
    rw [hclass] at h
    dsimp only at h
    have hexceeded : ∀ output ∈ (chooseSlot arrival.now frag.key arrival.packet x.layer.slots).2.2,
        OutputSpares (x.network.sockets i).endpoint.port output := by
      intro output houtput
      obtain ⟨dest, rfl⟩ := chooseSlot_outputs arrival.now frag.key arrival.packet x.layer.slots
        output houtput
      trivial
    dsimp only [handleFragment]
    rcases hchoose : chooseSlot arrival.now frag.key arrival.packet x.layer.slots with
      ⟨none | k, slots', outputs⟩
    · rw [hchoose] at hexceeded
      exact hexceeded
    rw [hchoose] at hexceeded
    refine forall_mem_append.mpr ⟨hexceeded, ?_⟩
    cases chooseSlot_some hchoose with
    | found hopen hkept hactive hkey =>
      have hsame := (hkept k).eq_of_active hactive
      rw [hopen] at h
      rw [hsame] at hkey ⊢
      have havoids := of_decide_eq_true h
      simp only [takeFragment]
      split_ifs with hlong hcomplete
      · exact forall_mem_nil _
      · refine forall_mem_singleton.mpr fun hudp => ne_of_loopbackPort (havoids ?_ hcomplete) hi
        rw [← hkey]
        exact hudp
      · exact forall_mem_nil _
    | opened _ _ hslot =>
      obtain ⟨slot, hslot⟩ := hslot
      rw [hslot, takeFragment_opened (classify_placed hclass)]
      exact forall_mem_nil _

lemma netUdpReceive_other {s : Network} {pkt : List Byte} {i : Fin Udp.socketMax}
    (h : (s.sockets i).endpoint.port ≠ readU16 pkt 2) (src dest : BitVec 32) :
    (netUdpReceive s src dest pkt).1.sockets i = s.sockets i := by
  cases hparse : Udp.parsePacket src dest pkt with
  | none => rw [netUdpReceive, hparse]; rfl
  | some result =>
    obtain ⟨port, dgram⟩ := result
    cases hfirst : Udp.firstSocket s (Udp.hears dest port) with
    | none => simp only [netUdpReceive, hparse, hfirst]; rfl
    | some r =>
      simp only [netUdpReceive, hparse, hfirst]
      split_ifs
      · rfl
      have hport : port = readU16 pkt 2 := by
        simp only [Udp.parsePacket] at hparse
        grind
      have hhears := find?_some hfirst
      simp only [Udp.hears, Bool.and_eq_true, beq_iff_eq] at hhears
      have hi : i ≠ r := by
        rintro rfl
        exact h (hhears.1.2.trans hport)
      simp [Network.set, hi]

lemma foldl_network {x : Host} {outputs : List Output} {i : Fin Udp.socketMax}
    (h : ∀ output ∈ outputs, OutputSpares (x.network.sockets i).endpoint.port output) :
    (outputs.foldl Host.dispatchPayload x).network.sockets i = x.network.sockets i := by
  induction outputs generalizing x with
  | nil => rfl
  | cons output outputs ih =>
    rw [forall_mem_cons] at h
    have hkept : (x.dispatchPayload output).network.sockets i = x.network.sockets i := by
      cases output with
      | timeExceeded => rfl
      | dispatch protocol src dest payload =>
        simp only [Host.dispatchPayload]
        split_ifs with hudp
        · exact netUdpReceive_other (h.1 hudp) _ _
        · rfl
        · rfl
    rw [foldl_cons, ih (by rw [hkept]; exact h.2), hkept]

/-- Packets from the wire put nothing into the queue of a socket on the loopback address while
none is for the port of one. -/
theorem loopback_isolated (x : Host) (arrivals : List Arrival)
    (havoids : Along Host.receive (fun x a => avoidsLoopback x a = true) x arrivals)
    (i : Fin Udp.socketMax) (hi : onLoopback (x.network.sockets i) = true) :
    (run Host.receive x arrivals).network.sockets i = x.network.sockets i := by
  induction arrivals generalizing x with
  | nil => rfl
  | cons arrival arrivals ih =>
    have hstep : (x.receive arrival).network.sockets i = x.network.sockets i := foldl_network
      (x := { x with layer := (netIpv4Receive arrival.now x.layer arrival.packet).1 })
      (netIpv4Receive_spares havoids.1 hi)
    change (run Host.receive (x.receive arrival) arrivals).network.sockets i = _
    rw [ih _ havoids.2 (hstep ▸ hi), hstep]

def loopbackNetwork : Network where
  sockets i := match i.val with
    | 0 => { isOpen := true, bound := true, endpoint := ⟨loopback, 53⟩ }
    | _ => {}

/-- A datagram of one byte, without a checksum. -/
def datagramFor (port : Byte) : List Arrival :=
  [⟨0, emitFragment sampleKey 0 [0, 7, 0, port, 0, 9, 0, 0, 1]⟩]

theorem loopback_isolated_sample :
    (run Host.receive ⟨sampleLayer, loopbackNetwork, []⟩ (datagramFor 54)).network.sockets 0 =
      loopbackNetwork.sockets 0 :=
  loopback_isolated ⟨sampleLayer, loopbackNetwork, []⟩ (datagramFor 54) (by decide +kernel) 0 rfl

/-- It is enough that the datagram is for the address of the interface. -/
theorem loopback_reached_from_wire :
    ((run Host.receive ⟨sampleLayer, loopbackNetwork, []⟩ (datagramFor 53)).network.sockets
      0).queueCount = 1 := by
  decide +kernel

end KosKernel.Ipv4
