import KosKernel.UdpState

/-! Sockets stay apart from each other and hand on what came in for them. Every step is put
together from a few moves, and each move keeps the invariant. -/
namespace KosKernel.Udp
open BigEndian RingBuffer Function List Nat

variable {socket : Socket}

def Socket.pending (socket : Socket) : List Datagram :=
  contents queueDepth socket.queue socket.queueCount socket.queueHead

structure Socket.Ring (socket : Socket) : Prop where
  room : socket.queueCount ≤ queueDepth
  head : socket.queueHead < queueDepth
  tail : socket.queueTail = (socket.queueHead + socket.queueCount) % queueDepth

lemma ring_empty (hhead : socket.queueHead = 0) (htail : socket.queueTail = 0)
    (hcount : socket.queueCount = 0) : socket.Ring := by
  constructor <;> simp [hhead, htail, hcount, queueDepth]

section
variable (h : socket.Ring) (hroom : socket.queueCount ≠ queueDepth) (datagram : Datagram)
include h hroom datagram

lemma Socket.Ring.enqueue : (socket.enqueue datagram).Ring where
  room := Nat.lt_of_le_of_ne h.room hroom
  head := h.head
  tail := by
    change (socket.queueTail + 1) % queueDepth = (socket.queueHead + (socket.queueCount + 1)) % _
    rw [h.tail, mod_add_mod, add_assoc]

lemma pending_enqueue : (socket.enqueue datagram).pending = socket.pending ++ [datagram] := by
  have hwrite : contents queueDepth (copyIn queueDepth socket.queue
      ((socket.queueHead + socket.queueCount) % queueDepth) [datagram]).1
      (socket.queueCount + 1) socket.queueHead = socket.pending ++ [datagram] :=
    contents_copyIn [datagram] (lt_of_le_of_ne h.room hroom) h.head
  rw [← h.tail] at hwrite
  exact hwrite

end

lemma Socket.Ring.dequeue (h : socket.Ring) (hsome : socket.queueCount ≠ 0) :
    socket.dequeue.Ring where
  room := (Nat.sub_le _ _).trans h.room
  head := mod_lt _ (by decide)
  tail := by
    obtain ⟨count, hcount⟩ := exists_eq_succ_of_ne_zero hsome
    change socket.queueTail = ((socket.queueHead + 1) % queueDepth + (socket.queueCount - 1)) % _
    rw [h.tail, hcount, succ_sub_one, advance_mod]

lemma pending_dequeue (hsome : socket.queueCount ≠ 0) :
    socket.pending = socket.queue socket.queueHead :: socket.dequeue.pending := by
  obtain ⟨count, hcount⟩ := exists_eq_succ_of_ne_zero hsome
  unfold Socket.pending Socket.dequeue
  rw [hcount]
  rfl

def Socket.live (socket : Socket) : Bool := socket.isOpen && socket.bound

lemma conflicts_comm (a b : Endpoint) : conflicts a b = conflicts b a := by
  unfold conflicts
  rw [Bool.beq_comm (a := a.port), Bool.beq_comm (a := a.address) (b := b.address),
    Bool.or_comm (a.address == 0)]

structure Sound (x : History) : Prop where
  ring : ∀ i, (x.net.sockets i).Ring
  apart : ∀ i j, i ≠ j → (x.net.sockets i).live = true → (x.net.sockets j).live = true →
    conflicts (x.net.sockets i).endpoint (x.net.sockets j).endpoint = false
  exact : ∀ i, (x.net.sockets i).isOpen = true →
    x.enqueued i = x.returned i ++ (x.net.sockets i).pending
  front : ∀ i, x.returned i <+: x.enqueued i

inductive Change (x : History) (i : Fin socketMax) :
    Socket → List Datagram → List Datagram → Prop
  | opened : Change x i { isOpen := true } [] []
  | closed : Change x i {} (x.enqueued i) (x.returned i)
  | bound (endpoint : Endpoint) (hopen : (x.net.sockets i).isOpen = true)
      (hfree : ∀ j, (x.net.sockets j).live = true →
        conflicts (x.net.sockets j).endpoint endpoint = false) :
      Change x i { x.net.sockets i with endpoint, bound := true } (x.enqueued i) (x.returned i)
  | named (endpoint : Endpoint) (hunbound : (x.net.sockets i).bound = false) :
      Change x i { x.net.sockets i with endpoint } (x.enqueued i) (x.returned i)
  | put (datagram : Datagram) (hroom : (x.net.sockets i).queueCount ≠ queueDepth) :
      Change x i ((x.net.sockets i).enqueue datagram) (x.enqueued i ++ [datagram]) (x.returned i)
  | taken (hopen : (x.net.sockets i).isOpen = true) (hsome : (x.net.sockets i).queueCount ≠ 0) :
      Change x i (x.net.sockets i).dequeue (x.enqueued i)
        (x.returned i ++ [(x.net.sockets i).queue (x.net.sockets i).queueHead])

/-- The history after a change, whatever becomes of the counters. -/
structure Changed (x y : History) (i : Fin socketMax) (socket : Socket)
    (enqueued returned : List Datagram) : Prop where
  sockets : y.net.sockets = update x.net.sockets i socket
  enqueued : y.enqueued = update x.enqueued i enqueued
  returned : y.returned = update x.returned i returned

variable {net : Network} {x y : History} {i : Fin socketMax} {enqueued returned : List Datagram}

section
variable (h : Change x i socket enqueued returned)
include h

lemma Change.ring (hx : (x.net.sockets i).Ring) : socket.Ring := by
  cases h with
  | opened => exact ring_empty rfl rfl rfl
  | closed => exact ring_empty rfl rfl rfl
  | bound endpoint => exact ⟨hx.room, hx.head, hx.tail⟩
  | named endpoint => exact ⟨hx.room, hx.head, hx.tail⟩
  | put datagram hroom => exact hx.enqueue hroom datagram
  | taken hopen hsome => exact hx.dequeue hsome

/-- A socket that is in use after a change was so before, under the same endpoint, or has just
been bound beside all others. -/
lemma Change.apart (hx : Sound x) (hlive : socket.live = true) (j : Fin socketMax) (hj : i ≠ j)
    (hjlive : (x.net.sockets j).live = true) :
    conflicts socket.endpoint (x.net.sockets j).endpoint = false := by
  cases h with
  | opened => cases hlive
  | closed => cases hlive
  | bound endpoint hopen hfree =>
    rw [conflicts_comm]
    exact hfree j hjlive
  | named endpoint hunbound =>
    simp [Socket.live, hunbound] at hlive
  | put datagram hroom => exact hx.apart i j hj hlive hjlive
  | taken hopen hsome => exact hx.apart i j hj hlive hjlive

lemma Change.exact (hx : Sound x) (hopen : socket.isOpen = true) :
    enqueued = returned ++ socket.pending := by
  cases h with
  | opened => rfl
  | closed => cases hopen
  | bound endpoint => exact hx.exact i hopen
  | named endpoint => exact hx.exact i hopen
  | put datagram hroom =>
    rw [pending_enqueue (hx.ring i) hroom, ← append_assoc, ← hx.exact i hopen]
  | taken _ hsome =>
    rw [append_assoc, singleton_append, ← pending_dequeue hsome]
    exact hx.exact i hopen

lemma Change.front (hx : Sound x) : returned <+: enqueued := by
  cases h with
  | opened => exact prefix_refl _
  | closed => exact hx.front i
  | bound endpoint => exact hx.front i
  | named endpoint => exact hx.front i
  | put datagram hroom => exact (hx.front i).trans (prefix_append _ _)
  | taken hopen hsome => exact ⟨_, ((taken hopen hsome).exact hx hopen).symm⟩

end

lemma Sound.change (hx : Sound x) (h : Change x i socket enqueued returned)
    (hy : Changed x y i socket enqueued returned) : Sound y where
  ring j := by
    rw [hy.sockets]
    obtain rfl | hj := eq_or_ne j i
    · rw [update_self]
      exact h.ring (hx.ring j)
    · rw [update_of_ne hj]
      exact hx.ring j
  apart j k hjk := by
    rw [hy.sockets]
    obtain rfl | hj := eq_or_ne j i
    · rw [update_self, update_of_ne (Ne.symm hjk)]
      exact fun hlive hklive => h.apart hx hlive k hjk hklive
    rw [update_of_ne hj]
    obtain rfl | hk := eq_or_ne k i
    · rw [update_self, conflicts_comm]
      exact fun hjlive hlive => h.apart hx hlive j (Ne.symm hjk) hjlive
    · rw [update_of_ne hk]
      exact hx.apart j k hjk
  exact j := by
    rw [hy.sockets, hy.enqueued, hy.returned]
    obtain rfl | hj := eq_or_ne j i
    · simp only [update_self]
      exact h.exact hx
    · simp only [update_of_ne hj]
      exact hx.exact j
  front j := by
    rw [hy.enqueued, hy.returned]
    obtain rfl | hj := eq_or_ne j i
    · simp only [update_self]
      exact h.front hx
    · simp only [update_of_ne hj]
      exact hx.front j

lemma Sound.counters (hx : Sound x) (h : net.sockets = x.net.sockets) : Sound { x with net } where
  ring i := by
    rw [h]
    exact hx.ring i
  apart i j := by
    rw [h]
    exact hx.apart i j
  exact i := by
    rw [h]
    exact hx.exact i
  front := hx.front

variable {sid : BitVec 16} {s : Network} {test : Socket → Bool}

lemma firstSocket_none (h : firstSocket s test = none) (i : Fin socketMax) :
    test (s.sockets i) = false := by
  have := find?_eq_none.mp h i (mem_finRange i)
  simpa using this

lemma socketAt_open (h : socketAt s sid = some i) : (s.sockets i).isOpen = true := by
  unfold socketAt at h
  split at h
  · split at h
    · rename_i hopen
      cases h
      exact hopen
    · cases h
  · cases h

lemma allocateEphemeralPort_spec (turns : ℕ) (s : Network) :
    (allocateEphemeralPort turns s).2.sockets = s.sockets ∧
      ((allocateEphemeralPort turns s).1 ≠ 0 → ∀ j, (s.sockets j).live = true →
        (s.sockets j).endpoint.port ≠ (allocateEphemeralPort turns s).1) := by
  induction turns generalizing s with
  | zero => exact ⟨rfl, fun h => absurd rfl h⟩
  | succ turns ih =>
    rw [allocateEphemeralPort]
    split
    · exact ih _
    rename_i hfree
    refine ⟨rfl, fun _ j hlive hport => hfree ?_⟩
    rw [portInUse, Option.isSome_iff_ne_none]
    intro hnone
    have := firstSocket_none hnone j
    rw [show ((s.sockets j).isOpen && (s.sockets j).bound) = true from hlive, hport] at this
    simp at this

lemma conflicts_of_port_ne {a b : Endpoint} (h : a.port ≠ b.port) : conflicts a b = false := by
  simp [conflicts, h]

lemma findConflictingSocket_none {endpoint : Endpoint}
    (h : (findConflictingSocket s endpoint).isSome = false) (j : Fin socketMax)
    (hlive : (s.sockets j).live = true) : conflicts (s.sockets j).endpoint endpoint = false := by
  have hnone : findConflictingSocket s endpoint = none := by simpa using h
  have := firstSocket_none hnone j
  rwa [show ((s.sockets j).isOpen && (s.sockets j).bound) = true from hlive, Bool.true_and] at this

lemma changed_set (h : net.sockets = update x.net.sockets i socket) :
    Changed x { x with net } i socket (x.enqueued i) (x.returned i) :=
  ⟨h, (update_eq_self i x.enqueued).symm, (update_eq_self i x.returned).symm⟩

section
variable (hx : Sound x)
include hx

lemma sound_open : Sound (step x .opening) := by
  rw [step, netUdpOpen]
  by_cases hinit : x.net.initialized = false
  · rw [if_pos hinit]
    exact hx
  rw [if_neg hinit]
  cases firstSocket x.net fun socket => !socket.isOpen with
  | none => exact hx
  | some i => exact hx.change .opened ⟨rfl, rfl, rfl⟩

lemma sound_close (sid : BitVec 16) : Sound (step x (.close sid)) := by
  rw [step, netUdpClose]
  cases socketAt x.net sid with
  | none => exact hx
  | some i => exact hx.change .closed (changed_set rfl)

lemma sound_bind (sid : BitVec 16) (endpoint : Endpoint) :
    Sound (step x (.bind sid endpoint)) := by
  rw [step, netUdpBind]
  cases hi : socketAt x.net sid with
  | none => exact hx
  | some i =>
    dsimp only
    by_cases hbound : (x.net.sockets i).bound = true
    · rw [if_pos hbound]
      exact hx
    rw [if_neg hbound]
    have hsame : (if endpoint.port = 0 then allocateEphemeralPort ephemeralTurns x.net
        else (endpoint.port, x.net)).2.sockets = x.net.sockets := by
      split
      · exact (allocateEphemeralPort_spec _ _).1
      · rfl
    generalize (if endpoint.port = 0 then allocateEphemeralPort ephemeralTurns x.net
        else (endpoint.port, x.net)) = allocated at hsame
    obtain ⟨port, net⟩ := allocated
    dsimp only at hsame ⊢
    have hx' : Sound { x with net } := hx.counters hsame
    split
    · exact hx'
    split
    · exact hx'
    rename_i hport hfree
    have hopen : (net.sockets i).isOpen = true := by
      rw [hsame]
      exact socketAt_open hi
    exact hx'.change (.bound _ hopen (findConflictingSocket_none (by simpa using hfree)))
      (changed_set rfl)

lemma sound_bindSender (hopen : (x.net.sockets i).isOpen = true) :
    Sound { x with net := (bindSender x.net i).1 } := by
  unfold bindSender
  split
  · exact hx
  rename_i hbound
  obtain ⟨hsame, hport⟩ := allocateEphemeralPort_spec ephemeralTurns x.net
  generalize allocateEphemeralPort ephemeralTurns x.net = allocated at hsame hport
  obtain ⟨port, net⟩ := allocated
  dsimp only at hsame hport ⊢
  have hx' : Sound { x with net } := hx.counters hsame
  split
  · refine hx'.change (.named _ ?_) (changed_set rfl)
    change (net.sockets i).bound = false
    rw [hsame]
    simpa using hbound
  rename_i hsome
  refine hx'.change (.bound _ ?_ fun j hlive => conflicts_of_port_ne ?_) (changed_set rfl)
  · change (net.sockets i).isOpen = true
    rw [hsame]
    exact hopen
  change (net.sockets j).live = true at hlive
  change (net.sockets j).endpoint.port ≠ port
  rw [hsame] at hlive ⊢
  exact hport hsome j hlive

lemma sound_deliver (datagram : Datagram) (hroom : (x.net.sockets i).queueCount ≠ queueDepth)
    (hnet : net.sockets = update x.net.sockets i ((x.net.sockets i).enqueue datagram)) :
    Sound { x with net, enqueued := record x.enqueued i datagram } :=
  hx.change (.put datagram hroom) ⟨hnet, rfl, (update_eq_self i x.returned).symm⟩

lemma sound_sendto (sid : BitVec 16) (dest : Endpoint) (data : List Byte) :
    Sound (step x (.sendto sid dest data)) := by
  rw [step, sendtoLocked]
  by_cases hdata : data = [] ∨ payloadMax < data.length
  · rw [if_pos hdata]
    exact hx
  rw [if_neg hdata]
  cases hi : socketAt x.net sid with
  | none => exact hx
  | some i =>
    have hbind := sound_bindSender hx (socketAt_open hi)
    dsimp only
    generalize bindSender x.net i = bound at hbind
    obtain ⟨net, ok⟩ := bound
    dsimp only at hbind ⊢
    cases ok with
    | false => exact hbind
    | true =>
      rw [if_neg (by simp)]
      by_cases hloop : dest.address = loopback
      · rw [if_pos hloop]
        cases firstSocket net (hearsLoopback dest.port) with
        | none => exact hbind.counters rfl
        | some r =>
          by_cases hfull : (net.sockets r).queueCount = queueDepth
          · dsimp only
            rw [if_pos hfull]
            exact hbind.counters rfl
          dsimp only
          rw [if_neg hfull]
          exact sound_deliver hbind _ hfull rfl
      · rw [if_neg hloop]
        exact hbind.counters rfl

lemma sound_receive (source dest : BitVec 32) (packet : List Byte) :
    Sound (step x (.receive source dest packet)) := by
  rw [step, netUdpReceive]
  cases parsePacket source dest packet with
  | none => exact hx.counters rfl
  | some parsed =>
    obtain ⟨port, datagram⟩ := parsed
    dsimp only
    cases firstSocket x.net (hears dest port) with
    | none =>
      by_cases hnotice : dest ≠ broadcast ∧ dest >>> 24 ≠ 127
      · rw [if_pos hnotice]
        exact hx.counters rfl
      · rw [if_neg hnotice]
        exact hx.counters rfl
    | some i =>
      dsimp only
      by_cases hfull : (x.net.sockets i).queueCount = queueDepth
      · rw [if_pos hfull]
        exact hx.counters rfl
      · rw [if_neg hfull]
        exact sound_deliver hx datagram hfull rfl

lemma sound_recvfrom (sid : BitVec 16) (cap : ℕ) :
    Sound (step x (.recvfrom sid cap)) := by
  rw [step, netUdpRecvfrom]
  cases hi : socketAt x.net sid with
  | none => exact hx
  | some i =>
    dsimp only
    by_cases hnone : (x.net.sockets i).queueCount = 0
    · rw [if_pos hnone]
      exact hx
    rw [if_neg hnone]
    by_cases hsmall : cap < ((x.net.sockets i).queue (x.net.sockets i).queueHead).data.length
    · rw [if_pos hsmall]
      exact hx
    rw [if_neg hsmall]
    exact hx.change (.taken (socketAt_open hi) hnone)
      ⟨rfl, (update_eq_self i x.enqueued).symm, rfl⟩

lemma sound_initialize : Sound (step x .initializing) := by
  rw [step, netInitialize]
  split
  · exact hx
  · exact ⟨fun _ => ring_empty rfl rfl rfl, (fun _ _ _ h => nomatch h), (fun _ h => nomatch h),
      hx.front⟩

lemma sound_step (event : Event) : Sound (step x event) := by
  cases event with
  | initializing => exact sound_initialize hx
  | opening => exact sound_open hx
  | close sid => exact sound_close hx sid
  | bind sid endpoint => exact sound_bind hx sid endpoint
  | sendto sid dest data => exact sound_sendto hx sid dest data
  | sendFailed => exact hx.counters rfl
  | receive source dest packet => exact sound_receive hx source dest packet
  | recvfrom sid cap => exact sound_recvfrom hx sid cap

end

lemma sound_start : Sound {} :=
  ⟨fun _ => ring_empty rfl rfl rfl, (fun _ _ _ h => nomatch h), (fun _ h => nomatch h),
    fun _ => prefix_refl _⟩

lemma sound_run (events : List Event) : Sound (run {} events) :=
  @Runs.run_preserves _ _ step Sound (fun _ event hx => sound_step hx event) _ sound_start events

lemma net_sendto (x : History) (sid : BitVec 16) (dest : Endpoint) (data : List Byte) :
    (step x (.sendto sid dest data)).net =
      (sendtoLocked x.net sid dest data).1 := by
  rw [step]
  rcases sendtoLocked x.net sid dest data with ⟨net, _ | _ | _⟩ <;> rfl

/-- A datagram is what the event says: the payload of the packet and the endpoint it came from,
or the bytes sent and the endpoint their sender is bound to from then on. -/
def Brings (x : History) : Event → Datagram → Prop
  | .sendto socketId destination data, d => ∃ i, socketAt x.net socketId = some i ∧
      d.data = data ∧
      d.source.port = ((step x (.sendto socketId destination data)).net.sockets i).endpoint.port ∧
      d.source.address =
        (let own := ((step x (.sendto socketId destination data)).net.sockets i).endpoint.address
        if own ≠ 0 then own else loopback)
  | .receive source _ packet, d => d.source = ⟨source, readU16 packet 0⟩ ∧
      d.data = (packet.take (readU16 packet 4).toNat).drop headerSize
  | _, _ => False

variable {d : Datagram} {source dest : BitVec 32} {packet : List Byte}

lemma parsePacket_datagram {port : BitVec 16}
    (h : parsePacket source dest packet = some (port, d)) :
    d.source = ⟨source, readU16 packet 0⟩ ∧
      d.data = (packet.take (readU16 packet 4).toNat).drop headerSize := by
  unfold parsePacket at h
  dsimp only at h
  split_ifs at h
  cases h
  exact ⟨rfl, rfl⟩

lemma netUdpReceive_delivered
    (h : netUdpReceive s source dest packet = (net, .delivered i d)) :
    d.source = ⟨source, readU16 packet 0⟩ ∧
      d.data = (packet.take (readU16 packet 4).toNat).drop headerSize := by
  unfold netUdpReceive at h
  split at h
  · cases h
  rename_i port datagram hparse
  split at h
  · split_ifs at h <;> cases h
  split_ifs at h
  · cases h
  · cases h
    exact parsePacket_datagram hparse

lemma endpoint_enqueue (sockets : Fin socketMax → Socket) (r i : Fin socketMax) (d : Datagram) :
    (update sockets r ((sockets r).enqueue d) i).endpoint = (sockets i).endpoint := by
  obtain rfl | hir := eq_or_ne i r
  · rw [update_self]
    rfl
  · rw [update_of_ne hir]

lemma sendtoLocked_delivered {dest : Endpoint} {data : List Byte} {r : Fin socketMax}
    (h : sendtoLocked s sid dest data = (net, .delivered r d)) :
    ∃ i, socketAt s sid = some i ∧ d.data = data ∧
      d.source.port = (net.sockets i).endpoint.port ∧
      d.source.address = if (net.sockets i).endpoint.address ≠ 0 then
        (net.sockets i).endpoint.address else loopback := by
  unfold sendtoLocked at h
  split at h
  · cases h
  split at h
  · cases h
  rename_i i hi
  generalize bindSender s i = bound at h
  obtain ⟨net', ok⟩ := bound
  dsimp only at h
  by_cases hok : ok = false
  · rw [if_pos hok] at h
    cases h
  rw [if_neg hok] at h
  by_cases hloop : dest.address = loopback
  swap
  · rw [if_neg hloop] at h
    cases h
  rw [if_pos hloop] at h
  cases hr : firstSocket net' (hearsLoopback dest.port) with
  | none =>
    rw [hr] at h
    cases h
  | some r' =>
    rw [hr] at h
    dsimp only at h
    by_cases hfull : (net'.sockets r').queueCount = queueDepth
    · rw [if_pos hfull] at h
      cases h
    rw [if_neg hfull] at h
    cases h
    refine ⟨i, hi, rfl, ?_, ?_⟩
    · simp only [Network.set, endpoint_enqueue]
    · simp only [Network.set, endpoint_enqueue]

lemma append_singleton_ne {α : Type} (xs : List α) (a : α) : xs ≠ xs ++ [a] := by
  intro h
  have := congrArg length h
  simp at this

lemma record_appended {logs : Fin socketMax → List Datagram} {j : Fin socketMax} {d' : Datagram}
    (h : record logs i d' j = logs j ++ [d]) : d = d' := by
  unfold record at h
  obtain rfl | hj := eq_or_ne j i
  · rw [update_self] at h
    simpa using (append_cancel_left h).symm
  · rw [update_of_ne hj] at h
    exact absurd h (append_singleton_ne _ _)

lemma brings_of_enqueued {x : History} {event : Event}
    (h : (step x event).enqueued i = x.enqueued i ++ [d]) : Brings x event d := by
  cases event with
  | initializing => exact absurd h (append_singleton_ne _ _)
  | close sid => exact absurd h (append_singleton_ne _ _)
  | bind sid endpoint => exact absurd h (append_singleton_ne _ _)
  | sendFailed => exact absurd h (append_singleton_ne _ _)
  | opening =>
    rw [step] at h
    generalize netUdpOpen x.net = opened at h
    rcases opened with ⟨net, _ | j⟩
    · exact absurd h (append_singleton_ne _ _)
    dsimp only at h
    obtain rfl | hj := eq_or_ne i j
    · rw [update_self] at h
      simp at h
    · rw [update_of_ne hj] at h
      exact absurd h (append_singleton_ne _ _)
  | recvfrom sid cap =>
    rw [step] at h
    generalize netUdpRecvfrom x.net sid cap = taken at h
    rcases taken with ⟨net, _ | ⟨j, d'⟩⟩
    · exact absurd h (append_singleton_ne _ _)
    · exact absurd h (append_singleton_ne _ _)
  | sendto sid dest data =>
    have hnet := net_sendto x sid dest data
    rw [Brings, hnet]
    rw [step] at h
    rcases hsent : sendtoLocked x.net sid dest data with ⟨net, _ | ⟨r, d'⟩ | _⟩
    · rw [hsent] at h
      exact absurd h (append_singleton_ne _ _)
    · rw [hsent] at h
      rw [record_appended h]
      exact sendtoLocked_delivered hsent
    · rw [hsent] at h
      exact absurd h (append_singleton_ne _ _)
  | receive source dest packet =>
    rw [step] at h
    rcases hrecv : netUdpReceive x.net source dest packet with ⟨net, _ | _ | ⟨r, d'⟩⟩
    · rw [hrecv] at h
      exact absurd h (append_singleton_ne _ _)
    · rw [hrecv] at h
      exact absurd h (append_singleton_ne _ _)
    rw [hrecv] at h
    rw [record_appended h]
    exact netUdpReceive_delivered hrecv

lemma netUdpRecvfrom_small {cap : ℕ} (hi : socketAt s sid = some i)
    (hd : (s.sockets i).pending.head? = some d) (hcap : cap < d.data.length) :
    netUdpRecvfrom s sid cap = (s, none) := by
  have hsome : (s.sockets i).queueCount ≠ 0 := by
    intro hnone
    rw [Socket.pending, hnone] at hd
    cases hd
  rw [pending_dequeue hsome] at hd
  cases hd
  simp [netUdpRecvfrom, hi, hsome, hcap]

structure Delivers (x : History) : Prop where
  apart : ∀ i j, i ≠ j → (x.net.sockets i).live = true → (x.net.sockets j).live = true →
    conflicts (x.net.sockets i).endpoint (x.net.sockets j).endpoint = false
  bounded : ∀ i, (x.net.sockets i).pending.length ≤ 4
  /-- What `recvfrom` has returned, then what it will return next, is what came in. -/
  inOrder : ∀ i, (x.net.sockets i).isOpen = true →
    x.enqueued i = x.returned i ++ (x.net.sockets i).pending
  noMore : ∀ i, x.returned i <+: x.enqueued i
  origin : ∀ event i d, (step x event).enqueued i = x.enqueued i ++ [d] → Brings x event d
  kept : ∀ socketId capacity i d, socketAt x.net socketId = some i →
    (x.net.sockets i).pending.head? = some d → capacity < d.data.length →
    netUdpRecvfrom x.net socketId capacity = (x.net, none)

theorem udp_delivers (events : List Event) : Delivers (run {} events) where
  apart := (sound_run events).apart
  bounded i := by
    rw [Socket.pending, length_contents]
    exact ((sound_run events).ring i).room
  inOrder := (sound_run events).exact
  noMore := (sound_run events).front
  origin _ _ _ := brings_of_enqueued
  kept _ _ _ _ := netUdpRecvfrom_small

end KosKernel.Udp
