import Mathlib.Tactic
import KosKernel.BigEndian

/-! The DHCP client of `net/dhcp.c`, and which packets decide the lease it configures. -/
namespace KosKernel.Dhcp

open BigEndian Function

inductive Field
  | messageType | offeredIp | serverId | subnetMask | router | dnsServer | leaseSeconds
deriving DecidableEq

abbrev ParsedOffer := Field → BitVec 32

abbrev Packet := List Byte

structure Endpoint where
  address : BitVec 32
  port : BitVec 16
  deriving DecidableEq

/-- What `net_udp_recvfrom` hands over. The client looks at the packet alone. -/
structure Received where
  sender : Endpoint
  packet : Packet
  deriving DecidableEq

def blank : ParsedOffer := fun _ => 0

def optionField (tag : Byte) (length : ℕ) : Option Field :=
  if tag = 53 ∧ length = 1 then some .messageType
  else if tag = 54 ∧ length = 4 then some .serverId
  else if tag = 1 ∧ length = 4 then some .subnetMask
  else if tag = 3 ∧ 4 ≤ length then some .router
  else if tag = 6 ∧ 4 ≤ length then some .dnsServer
  else if tag = 51 ∧ length = 4 then some .leaseSeconds
  else none

def optionValue (value : List Byte) : Field → BitVec 32
  | .messageType => (value.getD 0 0).setWidth 32
  | _ => readU32 value 0

/-- The assignments of `parse_dhcp_options` on the bytes after the header, in order: its walk ends at
the end tag or before an option that does not fit. -/
def parseDhcpOptions : List Byte → List (Field × BitVec 32)
  | [] => []
  | tag :: rest =>
    if tag = 255 then []
    else if tag = 0 then parseDhcpOptions rest
    else match rest with
      | [] => []
      | length :: rest =>
        if rest.length < length.toNat then []
        else ((optionField tag length.toNat).map fun field => (field, optionValue rest field)).toList
          ++ parseDhcpOptions (rest.drop length.toNat)
termination_by bytes => bytes.length

def validateDhcpPacket (packet : Packet) (xid : BitVec 32) (mac : List Byte) : Bool :=
  240 ≤ packet.length && packet.getD 0 0 = 2 && packet.getD 1 0 = 1 && packet.getD 2 0 = 6 &&
    readU32 packet 4 = xid && (packet.drop 28).take 6 = mac && readU32 packet 236 = 0x63825363

/-- All that a valid packet assigns: the offered address, then what its options say. -/
def assignments (packet : Packet) : List (Field × BitVec 32) :=
  (.offeredIp, readU32 packet 16) :: parseDhcpOptions (packet.drop 240)

def ParsedOffer.receive (parsed : ParsedOffer) (packet : Packet) : ParsedOffer :=
  (assignments packet).foldl (fun parsed entry => update parsed entry.1 entry.2) parsed

def Offers (parsed : ParsedOffer) : Prop := parsed .messageType = 2 ∧ parsed .offeredIp ≠ 0

instance (parsed : ParsedOffer) : Decidable (Offers parsed) := inferInstanceAs (Decidable (_ ∧ _))

/-- The wait for an offer over what is received until its time is up: what is accepted, and the
record `offer` as the packets before have left it. -/
def waitOffer (xid : BitVec 32) (mac : List Byte) (offer : ParsedOffer) :
    List Received → Option (ParsedOffer × Received)
  | [] => none
  | received :: later =>
    if validateDhcpPacket received.packet xid mac then
      if Offers (offer.receive received.packet) then some (offer, received)
      else waitOffer xid mac (offer.receive received.packet) later
    else waitOffer xid mac offer later

def Acknowledges (packet : Packet) : Prop := blank.receive packet .messageType = 5

instance (packet : Packet) : Decidable (Acknowledges packet) := inferInstanceAs (Decidable (_ = _))

/-- The wait for the acknowledgement, which parses every packet over a blank record. -/
def waitAck (xid : BitVec 32) (mac : List Byte) : List Received → Option Received
  | [] => none
  | received :: later =>
    if validateDhcpPacket received.packet xid mac then
      if Acknowledges received.packet then some received
      else if blank.receive received.packet .messageType = 6 then none
      else waitAck xid mac later
    else waitAck xid mac later

def configured : List Field := [.offeredIp, .subnetMask, .router, .dnsServer, .leaseSeconds]

def fallback : Field → BitVec 32
  | .subnetMask => 0xffffff00
  | .leaseSeconds => 86400
  | _ => 0

def orElse (value other : BitVec 32) : BitVec 32 := if value ≠ 0 then value else other

def finalLease (offer ack : ParsedOffer) : List (BitVec 32) :=
  configured.map fun field => orElse (orElse (ack field) (offer field)) (fallback field)

/-- `net_dhcp_acquire` over what arrives in its two waits: the lease it configures. Its address and
mask are never 0, so `net_ipv4_configure_dhcp` takes it. -/
def netDhcpAcquire (xid : BitVec 32) (mac : List Byte) (first second : List Received) :
    Option (List (BitVec 32)) :=
  match waitOffer xid mac blank first, waitAck xid mac second with
  | some (offer, accepted), some ack =>
    some (finalLease (offer.receive accepted.packet) (blank.receive ack.packet))
  | _, _ => none

/-- Each configured value is in one of the two accepted packets, these come from one host, and the
lease would be the same had no other packet arrived. -/
def Sourced (xid : BitVec 32) (mac : List Byte) (first second : List Received) : Prop :=
  ∀ wait ∈ waitOffer xid mac blank first, ∀ ack ∈ waitAck xid mac second,
    ∀ lease ∈ netDhcpAcquire xid mac first second,
      List.Forall₂ (fun field value => value = blank.receive ack.packet field ∨
        value = blank.receive wait.2.packet field) configured lease ∧
      ack.sender = wait.2.sender ∧
      netDhcpAcquire xid mac [wait.2] [ack] = some lease

/-- Every acknowledgement of the second wait comes from the host whose offer was accepted. -/
def OneServer (xid : BitVec 32) (mac : List Byte) (first second : List Received) : Prop :=
  ∀ wait ∈ waitOffer xid mac blank first, ∀ received ∈ second,
    validateDhcpPacket received.packet xid mac = true → Acknowledges received.packet →
      received.sender = wait.2.sender

def Carries (packet : Packet) (field : Field) : Prop := field ∈ (assignments packet).map Prod.fst

/-- The accepted offer states its own type, and what the acknowledgement does not state is in the
offer, or has no fallback and was in no packet before. -/
@[mk_iff]
structure Untainted (left : ParsedOffer) (offer ack : Packet) : Prop where
  messageType : Carries offer .messageType
  fields : ∀ field ∈ configured, blank.receive ack field ≠ 0 ∨ (Carries offer field ∨
    left field = 0) ∧ (fallback field = 0 ∨ blank.receive offer field ≠ 0)

/-- The last assignment of a field decides, or else what it held before. -/
lemma foldl_update_eq (field : Field) (list : List (Field × BitVec 32)) :
    ∃ last : Option (BitVec 32), (last.isSome ↔ field ∈ list.map Prod.fst) ∧ ∀ p : ParsedOffer,
      list.foldl (fun parsed entry => update parsed entry.1 entry.2) p field =
        last.getD (p field) := by
  induction list with
  | nil => exact ⟨none, by simp, fun _ => rfl⟩
  | cons entry list ih =>
    obtain ⟨last, hlast, hfold⟩ := ih
    by_cases h : field = entry.1
    · subst h
      refine ⟨some (last.getD entry.2), by simp, fun p => ?_⟩
      rw [List.foldl_cons, hfold, update_self, Option.getD_some]
    · refine ⟨last, by simp [hlast, h], fun p => ?_⟩
      rw [List.foldl_cons, hfold, update_of_ne h]

section
variable (left : ParsedOffer) (packet : Packet) (field : Field)

lemma receive_eq_iff : left.receive packet field = blank.receive packet field ↔
    Carries packet field ∨ left field = 0 := by
  obtain ⟨last, hlast, hfold⟩ := foldl_update_eq field (assignments packet)
  rw [ParsedOffer.receive, ParsedOffer.receive, hfold, hfold, Carries, ← hlast, blank]
  cases last <;> simp

lemma carries_or_receive_zero : Carries packet field ∨ blank.receive packet field = 0 := by
  obtain ⟨last, hlast, hfold⟩ := foldl_update_eq field (assignments packet)
  rw [ParsedOffer.receive, hfold, Carries, ← hlast, blank]
  cases last <;> simp

end

variable {xid : BitVec 32} {mac : List Byte}

lemma accepted_of_waitOffer {offer : ParsedOffer} {first : List Received}
    {wait : ParsedOffer × Received} (h : wait ∈ waitOffer xid mac offer first) :
    validateDhcpPacket wait.2.packet xid mac = true ∧ Offers (wait.1.receive wait.2.packet) := by
  fun_induction waitOffer xid mac offer first with
  | case1 => simp at h
  | case2 _ _ _ hvalid haccept => exact Option.mem_some.mp h ▸ ⟨hvalid, haccept⟩
  | case3 _ _ _ _ _ ih => exact ih h
  | case4 _ _ _ _ ih => exact ih h

lemma accepted_of_waitAck {second : List Received} {ack : Received}
    (h : ack ∈ waitAck xid mac second) :
    ack ∈ second ∧ validateDhcpPacket ack.packet xid mac = true ∧ Acknowledges ack.packet := by
  fun_induction waitAck xid mac second with
  | case1 => simp at h
  | case2 _ _ hvalid haccept =>
    exact Option.mem_some.mp h ▸ ⟨List.mem_cons_self, hvalid, haccept⟩
  | case3 => simp at h
  | case4 _ _ _ _ _ ih => exact (ih h).imp_left (List.mem_cons_of_mem _)
  | case5 _ _ _ ih => exact (ih h).imp_left (List.mem_cons_of_mem _)

/-- An offer accepted over what others left is accepted alone when it states its type. -/
lemma offers_iff {left : ParsedOffer} {offer : Packet} (h : Offers (left.receive offer)) :
    Offers (blank.receive offer) ↔ Carries offer .messageType := by
  have hip := (receive_eq_iff left offer .offeredIp).mpr (Or.inl List.mem_cons_self)
  constructor
  · exact fun hoffers => (carries_or_receive_zero offer .messageType).resolve_right
      (by rw [hoffers.1]; decide)
  intro hcarries
  have htype := (receive_eq_iff left offer .messageType).mpr (Or.inl hcarries)
  exact ⟨htype ▸ h.1, hip ▸ h.2⟩

/-- A value is sourced, and the same without the earlier packets, unless it is a fallback or shows
through from them. -/
lemma orElse_iff {a o o' d : BitVec 32} (hown : o = 0 ∨ o' = o) :
    ((orElse (orElse a o') d = a ∨ orElse (orElse a o') d = o) ∧
      orElse (orElse a o) d = orElse (orElse a o') d) ↔ a ≠ 0 ∨ o' = o ∧ (d = 0 ∨ o ≠ 0) := by
  unfold orElse
  by_cases ha : a = 0
  · rcases hown with rfl | rfl
    · by_cases ho' : o' = 0 <;> by_cases hd : d = 0 <;> simp_all
    · by_cases ho : o' = 0 <;> simp_all
  · simp_all

/-- What host `10.0.0.host` sends from the server port: a reply to transaction 7 that offers
address 9, with these options. -/
def reply (host : BitVec 32) (options : List Byte) : Received where
  sender := ⟨0x0a000000 + host, 67⟩
  packet := [2, 1, 6, 0] ++ u32Bytes 7 ++ List.replicate 8 0 ++ u32Bytes 9 ++
    List.replicate 216 0 ++ u32Bytes 0x63825363 ++ options

end KosKernel.Dhcp
