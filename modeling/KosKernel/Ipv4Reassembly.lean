import KosKernel.Ipv4State
import KosKernel.Runs

/-! Where the bytes of a reassembled datagram come from. The run below carries, beside the state
of the source, the fragments that each slot has taken since it was opened. -/
namespace KosKernel.Ipv4
open BigEndian Function List

structure Arrival where
  now : BitVec 64
  packet : List Byte
  deriving DecidableEq

/-- The byte of the datagram that a fragment carries at a place. -/
def Fragment.byteAt (fragment : Fragment) (i : ℕ) : Option Byte :=
  if fragment.offset ≤ i then fragment.payload[i - fragment.offset]? else none

/-- The byte that the latest of the fragments to carry one has at a place. -/
def received : List Fragment → ℕ → Option Byte
  | [], _ => none
  | fragment :: rest, i => (fragment.byteAt i).or (received rest i)

/-- The layer, the fragments in each slot, latest first, and what was handed on together with
the fragments it was made of. -/
structure Session where
  layer : Layer
  history : Fin reasmSlots → List Fragment
  events : List (Output × List Fragment)

/-- A slot that holds fragments of the datagram and has not expired. -/
def ReasmSlot.holds (now : BitVec 64) (key : DatagramKey) (slot : ReasmSlot) : Bool :=
  slot.active && decide (now - slot.createdTick < reasmTimeoutTicks) && slot.key == key

def openedSlot (now : BitVec 64) (key : DatagramKey) (slots : Slots) : Option (Fin reasmSlots) :=
  (finRange reasmSlots).find? fun i => (slots i).holds now key

def logFragment (now : BitVec 64) (fragment : Fragment) (slots : Slots)
    (history : Fin reasmSlots → List Fragment) (i : Fin reasmSlots) : List Fragment :=
  fragment :: if (openedSlot now fragment.key slots).isSome then history i else []

def Session.step (x : Session) (arrival : Arrival) : Session :=
  let (layer, outputs) := netIpv4Receive arrival.now x.layer arrival.packet
  match classify x.layer.interface arrival.packet with
  | .dropped => { x with layer }
  | .whole key payload =>
    { x with
      layer
      events := x.events ++ outputs.map fun output => (output, [⟨key, 0, false, payload⟩]) }
  | .fragment fragment =>
    match (chooseSlot arrival.now fragment.key arrival.packet x.layer.slots).1 with
    | none => { x with layer, events := x.events ++ outputs.map fun output => (output, []) }
    | some i =>
      let fragments := logFragment arrival.now fragment x.layer.slots x.history i
      { layer
        history := update x.history i fragments
        events := x.events ++ outputs.map fun output => (output, fragments) }

/-- The size that is recorded for the datagram; zero if none is. -/
def recordedTotal (now : BitVec 64) (key : DatagramKey) (slots : Slots) : ℕ :=
  match openedSlot now key slots with
  | some i => (slots i).totalSize
  | none => 0

/-- A fragment that is not the last one fills whole blocks, and a last one does not extend the
size that another has set. -/
def wellCut (x : Session) (arrival : Arrival) : Bool :=
  match classify x.layer.interface arrival.packet with
  | .fragment fragment =>
    let total := recordedTotal arrival.now fragment.key x.layer.slots
    if fragment.moreFragments then fragment.payload.length % 8 = 0
    else total = 0 ∨ fragment.offset + fragment.payload.length ≤ total
  | _ => true

/-- Every byte handed on comes from a fragment of the same datagram. -/
def Traceable : Output × List Fragment → Prop
  | (.dispatch protocol source destination payload, fragments) =>
    (∃ identification, ∀ fragment ∈ fragments,
        fragment.key = ⟨source, destination, identification, protocol⟩) ∧
      ∀ i < payload.length, received fragments i = payload[i]?
  | (.timeExceeded _ _, _) => True

section
variable {slot : ReasmSlot} {frags : List Fragment} {frag : Fragment}

def Covered (slot : ReasmSlot) (n : ℕ) : Prop :=
  slot.blockPresent (n / 8) = true ∧ (slot.totalSize = 0 ∨ n < slot.totalSize) ∧ n < reasmMaxSize

/-- Every byte that counts as present is the one the fragments carry there. -/
structure Backed (slot : ReasmSlot) (fragments : List Fragment) : Prop where
  total_le : slot.totalSize ≤ reasmMaxSize
  key_eq : ∀ fragment ∈ fragments, fragment.key = slot.key
  byte_eq : ∀ n, Covered slot n → received fragments n = some (slot.buffer n)

lemma openSlot_backed (now : BitVec 64) (key : DatagramKey) (slot : ReasmSlot) :
    Backed (openSlot now key slot) [] := by
  constructor
  · exact Nat.zero_le _
  · simp
  rintro n ⟨hpres, -, hn⟩
  have hblock : n / 8 < reasmMaxSize / 8 := by
    simp only [reasmMaxSize] at *
    omega
  simp [openSlot, hblock] at hpres

lemma storeFragment_buffer (n : ℕ) :
    (storeFragment slot frag).buffer n = (frag.byteAt n).getD (slot.buffer n) := by
  simp only [storeFragment, copyPayload, Fragment.byteAt]
  split <;> rfl

variable {n : ℕ}

lemma Fragment.byteAt_isSome (hlow : frag.offset ≤ n)
    (hhigh : n < frag.offset + frag.payload.length) : ∃ byte, frag.byteAt n = some byte := by
  rw [byteAt, if_pos hlow]
  exact ⟨_, getElem?_eq_getElem (by omega)⟩

/-- Fragments start at blocks, and one at the start of a datagram is not its last. -/
def Fragment.Placed (fragment : Fragment) : Prop :=
  fragment.offset % 8 = 0 ∧ (fragment.moreFragments = false → 0 < fragment.offset)

/-- A fragment counts for whole blocks only, or for blocks up to the end of the datagram. -/
def CutsWell (total : ℕ) (fragment : Fragment) : Prop :=
  (fragment.moreFragments = true → fragment.payload.length % 8 = 0) ∧
    (fragment.moreFragments = false →
      total = 0 ∨ fragment.offset + fragment.payload.length ≤ total)

/-- What counts as present and is not carried by the new fragment was covered before. -/
lemma covered_of_store (hplace : frag.Placed) (hcut : CutsWell slot.totalSize frag)
    (hcovered : Covered (storeFragment slot frag) n)
    (hout : ¬(frag.offset ≤ n ∧ n < frag.offset + frag.payload.length)) :
    Covered slot n := by
  obtain ⟨hpres, htotal, hn⟩ := hcovered
  obtain ⟨halign, hoff⟩ := hplace
  simp only [storeFragment, markBlocks, Bool.or_eq_true, Bool.and_eq_true,
    decide_eq_true_eq] at hpres htotal
  cases hmore : frag.moreFragments with
  | true =>
    rw [hmore, if_pos rfl] at htotal
    have hblocks := hcut.1 hmore
    rcases hpres with ⟨⟨hlow, hhigh⟩, -⟩ | hold
    · omega
    · exact ⟨hold, htotal, hn⟩
  | false =>
    rw [hmore, if_neg Bool.false_ne_true] at htotal
    rcases hpres with ⟨⟨hlow, hhigh⟩, -⟩ | hold
    · omega
    rcases hcut.2 hmore with hzero | hle
    · exact ⟨hold, .inl hzero, hn⟩
    · have hpos := hoff hmore
      exact ⟨hold, by omega, hn⟩

lemma Backed.store (h : Backed slot frags) (hkey : frag.key = slot.key)
    (hplace : frag.Placed) (hfits : frag.offset + frag.payload.length ≤ reasmMaxSize)
    (hcut : CutsWell slot.totalSize frag) :
    Backed (storeFragment slot frag) (frag :: frags) := by
  constructor
  · simp only [storeFragment]
    split
    · exact h.total_le
    · exact hfits
  · rw [forall_mem_cons]
    exact ⟨hkey, h.key_eq⟩
  intro n hcovered
  rw [storeFragment_buffer, received]
  by_cases hin : frag.offset ≤ n ∧ n < frag.offset + frag.payload.length
  · obtain ⟨byte, hbyte⟩ := Fragment.byteAt_isSome hin.1 hin.2
    simp [hbyte]
  have hnone : frag.byteAt n = none := by
    unfold Fragment.byteAt
    split
    · exact getElem?_eq_none (by omega)
    · rfl
  rw [hnone, h.byte_eq n (covered_of_store hplace hcut hcovered hin)]
  rfl

lemma slotComplete_covered (h : slotComplete slot = true) (hle : slot.totalSize ≤ reasmMaxSize) (hn : n < slot.totalSize) : Covered slot n := by
  simp only [slotComplete, Bool.and_eq_true, all_eq_true, mem_range] at h
  exact ⟨h.2 (n / 8) (by omega), .inr hn, by omega⟩

lemma Backed.assembled (h : Backed slot frags) (hcomplete : slotComplete slot = true) :
    ∀ i < (assembled slot).length, received frags i = (Ipv4.assembled slot)[i]? := by
  intro i hi
  rw [Ipv4.assembled, length_map, length_range] at hi
  rw [h.byte_eq i (slotComplete_covered hcomplete h.total_le hi), Ipv4.assembled,
    getElem?_map, getElem?_range hi]
  rfl

lemma Backed.assembled_eq {slot' : ReasmSlot} (h : Backed slot frags)
    (h' : Backed slot' frags) (hcomplete : slotComplete slot = true)
    (hcomplete' : slotComplete slot' = true) (htotal : slot.totalSize = slot'.totalSize) :
    Ipv4.assembled slot = Ipv4.assembled slot' := by
  rw [Ipv4.assembled, Ipv4.assembled, htotal]
  apply map_congr_left
  intro i hi
  rw [mem_range] at hi
  have hbyte := h.byte_eq i (slotComplete_covered hcomplete h.total_le (htotal ▸ hi))
  have hbyte' := h'.byte_eq i (slotComplete_covered hcomplete' h'.total_le hi)
  exact Option.some.inj (hbyte.symm.trans hbyte')

end

section
variable {now : BitVec 64} {key : DatagramKey} {orig : List Byte} {slots slots' : Slots}
  {i : Fin reasmSlots} {outputs : List Output}

def KeptOrGivenUp (slot slot' : ReasmSlot) : Prop :=
  slot' = slot ∨ slot' = { slot with active := false }

variable {a b : ReasmSlot}

lemma KeptOrGivenUp.trans {c : ReasmSlot} (hab : KeptOrGivenUp a b)
    (hbc : KeptOrGivenUp b c) : KeptOrGivenUp a c := by
  rcases hab with rfl | rfl
  · exact hbc
  · rcases hbc with rfl | rfl <;> exact .inr rfl

lemma KeptOrGivenUp.eq_of_active (h : KeptOrGivenUp a b) (hact : b.active = true) : b = a := by
  rcases h with rfl | rfl
  · rfl
  · cases hact

lemma findSlot_spec (now : BitVec 64) (key : DatagramKey) (orig : List Byte)
    (indices : List (Fin reasmSlots)) (slots : Slots) :
    (∀ j, KeptOrGivenUp (slots j) ((findSlot now key orig indices slots).2.1 j)) ∧
      ∀ j, (findSlot now key orig indices slots).1 = some j →
        ((findSlot now key orig indices slots).2.1 j).active = true ∧
          ((findSlot now key orig indices slots).2.1 j).key = key := by
  induction indices generalizing slots with
  | nil => simp [findSlot, KeptOrGivenUp]
  | cons j rest ih =>
    simp only [findSlot]
    split
    · next hact =>
      split
      · -- an expired slot
        obtain ⟨hkept, hfound⟩ := ih (update slots j { slots j with active := false })
        refine ⟨fun k => KeptOrGivenUp.trans ?_ (hkept k), hfound⟩
        obtain rfl | hk := eq_or_ne k j
        · rw [update_self]
          exact .inr rfl
        · rw [update_of_ne hk]
          exact .inl rfl
      · split
        · next hkey =>
          refine ⟨fun k => .inl rfl, fun k hk => ?_⟩
          obtain rfl := Option.some.inj hk
          exact ⟨hact, hkey⟩
        · exact ih slots
    · exact ih slots

lemma findSlot_fst (now : BitVec 64) (key : DatagramKey) (orig : List Byte)
    (indices : List (Fin reasmSlots)) (slots : Slots) :
    (findSlot now key orig indices slots).1 =
      indices.find? fun i => (slots i).holds now key := by
  induction indices generalizing slots with
  | nil => rfl
  | cons j rest ih =>
    simp only [findSlot, find?_cons]
    split
    · next hact =>
      split
      · next hexpired =>
        have hlate : ¬now - (slots j).createdTick < reasmTimeoutTicks := BitVec.not_lt.mpr hexpired
        have hholds : (slots j).holds now key = false := by simp [ReasmSlot.holds, hlate]
        simp only [hholds]
        rw [ih]
        congr 1
        funext k
        obtain rfl | hk := eq_or_ne k j
        · rw [update_self, hholds]
          rfl
        · rw [update_of_ne hk]
      · next hfresh =>
        have hin : now - (slots j).createdTick < reasmTimeoutTicks := BitVec.not_le.mp hfresh
        split
        · next hkey => simp [ReasmSlot.holds, hact, hin, hkey]
        · next hkey =>
          have hholds : (slots j).holds now key = false := by simp [ReasmSlot.holds, hkey]
          simp only [hholds]
          exact ih slots
    · next hact =>
      have hholds : (slots j).holds now key = false := by simp [ReasmSlot.holds, hact]
      simp only [hholds]
      exact ih slots

lemma findSlot_outputs (now : BitVec 64) (key : DatagramKey) (orig : List Byte)
    (indices : List (Fin reasmSlots)) (slots : Slots) :
    ∀ output ∈ (findSlot now key orig indices slots).2.2,
      ∃ dest, output = .timeExceeded dest orig := by
  induction indices generalizing slots with
  | nil => simp [findSlot]
  | cons j rest ih =>
    simp only [findSlot]
    split
    · split
      · rw [forall_mem_cons]
        exact ⟨⟨_, rfl⟩, ih _⟩
      split
      · simp
      · exact ih slots
    · exact ih slots

/-- How a fragment comes to its slot: the slot of its datagram was open, or another is opened
for it. -/
inductive Chosen (now : BitVec 64) (fragment : Fragment) (slots : Slots) (i : Fin reasmSlots)
    (slots' : Slots) : Prop where
  | found (hopen : openedSlot now fragment.key slots = some i)
      (hkept : ∀ j, KeptOrGivenUp (slots j) (slots' j)) (hactive : (slots' i).active = true)
      (hkey : (slots' i).key = fragment.key)
  | opened (hclosed : openedSlot now fragment.key slots = none)
      (hkept : ∀ j ≠ i, KeptOrGivenUp (slots j) (slots' j))
      (hslot : ∃ slot, slots' i = openSlot now fragment.key slot)

variable {frag : Fragment}

lemma chooseSlot_some (h : chooseSlot now frag.key orig slots = (some i, slots', outputs)) :
    Chosen now frag slots i slots' := by
  have hspec := findSlot_spec now frag.key orig (finRange reasmSlots) slots
  have hopened : _ = openedSlot now frag.key slots :=
    findSlot_fst now frag.key orig (finRange reasmSlots) slots
  simp only [chooseSlot] at h
  split at h
  · next j middle sent hfind =>
    rw [hfind] at hspec hopened
    obtain ⟨rfl, rfl, rfl⟩ : j = i ∧ middle = slots' ∧ sent = outputs := by simpa using h
    exact .found hopened.symm hspec.1 (hspec.2 j rfl).1 (hspec.2 j rfl).2
  · next middle sent hfind =>
    rw [hfind] at hspec hopened
    split at h
    · simp at h
    · next j hj =>
      obtain ⟨rfl, rfl, rfl⟩ : j = i ∧
          update middle j (openSlot now frag.key (middle j)) = slots' ∧
            sent = outputs := by simpa using h
      refine .opened hopened.symm (fun k hk => ?_)
        ⟨middle j, update_self _ _ _⟩
      rw [update_of_ne hk]
      exact hspec.1 k

lemma chooseSlot_none (h : chooseSlot now frag.key orig slots = (none, slots', outputs)) :
    ∀ j, KeptOrGivenUp (slots j) (slots' j) := by
  have hspec := findSlot_spec now frag.key orig (finRange reasmSlots) slots
  simp only [chooseSlot] at h
  split at h
  · simp at h
  · next middle sent hfind =>
    rw [hfind] at hspec
    split at h
    · obtain ⟨rfl, rfl⟩ : middle = slots' ∧ sent = outputs := by simpa using h
      exact hspec.1
    · simp at h

lemma chooseSlot_outputs (now : BitVec 64) (key : DatagramKey) (orig : List Byte)
    (slots : Slots) : ∀ output ∈ (chooseSlot now key orig slots).2.2,
      ∃ dest, output = .timeExceeded dest orig := by
  have hspec := findSlot_outputs now key orig (finRange reasmSlots) slots
  simp only [chooseSlot]
  split
  · next hfind => simpa [hfind] using hspec
  · next hfind =>
    split <;> simpa [hfind] using hspec

end

section
variable {now : BitVec 64} {frag : Fragment} {frags : List Fragment} {slot : ReasmSlot}
  {orig packet : List Byte} {slots slots' : Slots} {i : Fin reasmSlots}

lemma Backed.takeFragment (h : Backed slot frags) (hkey : frag.key = slot.key)
    (hplace : frag.Placed) (hcut : CutsWell slot.totalSize frag) :
    ((takeFragment slot frag).1.active = true →
        Backed (takeFragment slot frag).1 (frag :: frags)) ∧
      ∀ output ∈ (takeFragment slot frag).2, Traceable (output, frag :: frags) := by
  unfold Ipv4.takeFragment
  split
  · simp
  · next hfits =>
    have hstore := h.store hkey hplace (Nat.le_of_not_lt hfits) hcut
    simp only []
    split
    · next hcomplete =>
      constructor
      · intro hact
        cases hact
      intro output houtput
      obtain rfl := mem_singleton.mp houtput
      exact ⟨⟨(storeFragment slot frag).key.identification, hstore.key_eq⟩,
        hstore.assembled hcomplete⟩
    · exact ⟨fun _ => hstore, by simp⟩

lemma classify_placed {interface : Interface} (h : classify interface packet = .fragment frag) :
    frag.Placed := by
  unfold classify at h
  split at h
  · cases h
  simp only [] at h
  split at h
  · cases h
  split at h
  · cases h
  · next hnotWhole =>
    cases h
    refine ⟨?_, fun hmore => ?_⟩
    · simp only [BitVec.toNat_mul, show (8 : BitVec 16).toNat = 8 from rfl]
      omega
    · exact Nat.pos_of_ne_zero fun hzero => hnotWhole ⟨hmore, hzero⟩

/-- The slot a fragment goes to is backed by the fragments logged for it so far, and knows the
size that was recorded. -/
lemma Chosen.key_total (h : Chosen now frag slots i slots') :
    (slots' i).key = frag.key ∧
      (slots' i).totalSize = recordedTotal now frag.key slots := by
  cases h with
  | found hopen hkept hact hkey =>
    exact ⟨hkey, by rw [recordedTotal, hopen, (hkept i).eq_of_active hact]⟩
  | opened hclosed _ hslot =>
    obtain ⟨slot, hslot⟩ := hslot
    exact ⟨by rw [hslot]; rfl, by rw [recordedTotal, hclosed, hslot]; rfl⟩

lemma Chosen.backed {history : Fin reasmSlots → List Fragment}
    (h : Chosen now frag slots i slots')
    (hbacked : ∀ j, (slots j).active = true → Backed (slots j) (history j)) :
    Backed (slots' i)
        (if (openedSlot now frag.key slots).isSome then history i else []) ∧
      ∀ j ≠ i, (slots' j).active = true → Backed (slots' j) (history j) := by
  cases h with
  | found hopen hkept hact =>
    have hsame (j : Fin reasmSlots) (hj : (slots' j).active = true) : slots' j = slots j :=
      (hkept j).eq_of_active hj
    refine ⟨?_, fun j _ hj => ?_⟩
    · rw [hopen, hsame i hact]
      exact hbacked i (hsame i hact ▸ hact)
    · rw [hsame j hj]
      exact hbacked j (hsame j hj ▸ hj)
  | opened hclosed hkept hslot =>
    obtain ⟨slot, hslot⟩ := hslot
    refine ⟨?_, fun j hne hj => ?_⟩
    · rw [hclosed, hslot]
      exact openSlot_backed now frag.key slot
    have hsame := (hkept j hne).eq_of_active hj
    rw [hsame]
    exact hbacked j (hsame ▸ hj)

variable {x : Session} {arrival : Arrival}

lemma wellCut_fragment (h : wellCut x arrival = true)
    (hclass : classify x.layer.interface arrival.packet = .fragment frag) :
    CutsWell (recordedTotal arrival.now frag.key x.layer.slots) frag := by
  simp only [wellCut, hclass] at h
  cases hmore : frag.moreFragments <;> simp [CutsWell, hmore] at h ⊢ <;> exact h

/-- Active slots are backed by their fragments, and all that was handed on is traceable. -/
structure Session.Ok (x : Session) : Prop where
  backed : ∀ i, (x.layer.slots i).active = true → Backed (x.layer.slots i) (x.history i)
  traceable : ∀ event ∈ x.events, Traceable event

lemma traceable_timeExceeded {output : Output} {dest : BitVec 32}
    (h : output = .timeExceeded dest orig) : Traceable (output, frags) := by
  subst h
  trivial

section
variable (hclass : classify x.layer.interface arrival.packet = .fragment frag)
include hclass

variable {outputs : List Output}

lemma Session.step_fragment_some
    (hchoose : chooseSlot arrival.now frag.key arrival.packet x.layer.slots = (some i, slots', outputs)) :
    x.step arrival =
      { layer :=
          { x.layer with
            interface :=
              { x.layer.interface with packetsReceived := x.layer.interface.packetsReceived + 1 }
            slots := update slots' i (takeFragment (slots' i) frag).1 }
        history := update x.history i (logFragment arrival.now frag x.layer.slots x.history i)
        events := x.events ++ (outputs ++ (takeFragment (slots' i) frag).2).map fun output =>
          (output, logFragment arrival.now frag x.layer.slots x.history i) } := by
  simp only [step, netIpv4Receive, hclass, handleFragment, hchoose]

lemma Session.step_fragment_none
    (hchoose : chooseSlot arrival.now frag.key arrival.packet x.layer.slots = (none, slots', outputs)) :
    x.step arrival =
      { x with
        layer :=
          { x.layer with
            interface :=
              { x.layer.interface with packetsReceived := x.layer.interface.packetsReceived + 1 }
            slots := slots' }
        events := x.events ++ outputs.map fun output => (output, []) } := by
  simp only [step, netIpv4Receive, hclass, handleFragment, hchoose]

end

lemma Session.Ok.step (h : x.Ok) (hcut : wellCut x arrival = true) : (x.step arrival).Ok := by
  cases hclass : classify x.layer.interface arrival.packet with
  | dropped =>
    simp only [Session.step, netIpv4Receive, hclass]
    exact ⟨h.backed, h.traceable⟩
  | whole key payload =>
    simp only [Session.step, netIpv4Receive, hclass]
    refine ⟨h.backed, forall_mem_append.mpr ⟨h.traceable, ?_⟩⟩
    intro event hevent
    obtain rfl := mem_singleton.mp hevent
    exact ⟨⟨key.identification, by simp⟩, by simp [received, Fragment.byteAt]⟩
  | fragment frag =>
    have hsent := chooseSlot_outputs arrival.now frag.key arrival.packet x.layer.slots
    rcases hchoose : chooseSlot arrival.now frag.key arrival.packet x.layer.slots with
      ⟨none | i, slots', outputs⟩ <;> rw [hchoose] at hsent
    · rw [Session.step_fragment_none hclass hchoose]
      have hkept := chooseSlot_none hchoose
      refine ⟨fun i hi => ?_, forall_mem_append.mpr ⟨h.traceable, ?_⟩⟩
      · have hsame := (hkept i).eq_of_active hi
        change Backed (slots' i) (x.history i)
        rw [hsame]
        exact h.backed i (hsame ▸ hi)
      intro event hevent
      obtain ⟨output, houtput, rfl⟩ := mem_map.mp hevent
      obtain ⟨dest, hexceeded⟩ := hsent output houtput
      exact traceable_timeExceeded hexceeded
    · rw [Session.step_fragment_some hclass hchoose]
      obtain ⟨hkey, htotal⟩ := (chooseSlot_some hchoose).key_total
      obtain ⟨hslot, hothers⟩ := (chooseSlot_some hchoose).backed h.backed
      have hwell := wellCut_fragment hcut hclass
      rw [← htotal] at hwell
      obtain ⟨hbacked, hdispatched⟩ := hslot.takeFragment hkey.symm (classify_placed hclass) hwell
      refine ⟨fun j hj => ?_, forall_mem_append.mpr ⟨h.traceable, ?_⟩⟩
      · obtain rfl | hne := eq_or_ne j i
        · simp only [update_self] at hj ⊢
          exact hbacked hj
        · simp only [update_of_ne hne] at hj ⊢
          exact hothers j hne hj
      intro event hevent
      obtain ⟨output, houtput, rfl⟩ := mem_map.mp hevent
      rcases mem_append.mp houtput with hout | hout
      · obtain ⟨dest, hexceeded⟩ := hsent output hout
        exact traceable_timeExceeded hexceeded
      · exact hdispatched output hout

end

section
variable {now : BitVec 64} {key : DatagramKey} {orig : List Byte} {slot slot' : ReasmSlot}
  {slots slots' : Slots} {frag : Fragment}

def ReasmSlot.control (slot : ReasmSlot) : ReasmSlot := { slot with buffer := fun _ => 0 }

def controls (slots : Slots) : Slots := fun i => (slots i).control

lemma controls_update (slots : Slots) (i : Fin reasmSlots) (slot : ReasmSlot) :
    controls (update slots i slot) = update (controls slots) i slot.control := by
  funext j
  obtain rfl | hj := eq_or_ne j i
  · simp [controls]
  · simp [controls, update_of_ne hj]

section
variable (now key)

lemma findSlot_controls (orig : List Byte) (indices : List (Fin reasmSlots)) (slots : Slots) :
    findSlot now key orig indices (controls slots) =
      ((findSlot now key orig indices slots).1,
        controls (findSlot now key orig indices slots).2.1,
        (findSlot now key orig indices slots).2.2) := by
  induction indices generalizing slots with
  | nil => rfl
  | cons j rest ih =>
    have hgiveUp : update (controls slots) j { controls slots j with active := false } =
        controls (update slots j { slots j with active := false }) :=
      (controls_update slots j { slots j with active := false }).symm
    simp only [findSlot, hgiveUp, ih]
    change (if (slots j).active = true then
      if now - (slots j).createdTick ≥ reasmTimeoutTicks then _
      else if (slots j).key = key then _ else _ else _) = _
    split
    · split
      · rfl
      · split <;> rfl
    · rfl

lemma chooseSlot_controls (orig : List Byte) (slots : Slots) :
    chooseSlot now key orig (controls slots) =
      ((chooseSlot now key orig slots).1, controls (chooseSlot now key orig slots).2.1,
        (chooseSlot now key orig slots).2.2) := by
  simp only [chooseSlot, findSlot_controls]
  rcases findSlot now key orig (finRange reasmSlots) slots with
    ⟨none | i, middle, outputs⟩
  · have hunused : unusedSlot (controls middle) = unusedSlot middle := rfl
    simp only [hunused]
    cases unusedSlot middle with
    | none => rfl
    | some i =>
      simp only [controls_update]
      rfl
  · rfl

lemma openedSlot_controls (slots : Slots) :
    openedSlot now key (controls slots) = openedSlot now key slots := rfl

lemma recordedTotal_controls (slots : Slots) :
    recordedTotal now key (controls slots) = recordedTotal now key slots := rfl

end

lemma takeFragment_control (slot : ReasmSlot) (frag : Fragment) :
    (takeFragment slot frag).1.control = (takeFragment slot.control frag).1.control := by
  have hcomplete : slotComplete (storeFragment slot.control frag) =
      slotComplete (storeFragment slot frag) := rfl
  simp only [takeFragment, hcomplete]
  split
  · rfl
  · split <;> rfl

/-- Slots that differ in their buffers only, backed by the same fragments, are dispatched alike. -/
lemma takeFragment_alike {frags : List Fragment} (h : Backed slot frags)
    (h' : Backed slot' frags) (hcontrol : slot.control = slot'.control)
    (hkey : frag.key = slot.key) (hplace : frag.Placed)
    (hcut : CutsWell slot.totalSize frag) :
    (takeFragment slot frag).2 = (takeFragment slot' frag).2 := by
  have hkey' : slot.key = slot'.key := (congrArg ReasmSlot.key hcontrol :)
  have htotal : slot.totalSize = slot'.totalSize := (congrArg ReasmSlot.totalSize hcontrol :)
  have hcomplete : slotComplete (storeFragment slot frag) =
      slotComplete (storeFragment slot' frag) :=
    (congrArg (fun control => slotComplete (storeFragment control frag)) hcontrol :)
  unfold takeFragment
  split
  · rfl
  · next hfits =>
    have hstore := h.store hkey hplace (Nat.le_of_not_lt hfits) hcut
    have hstore' := h'.store (hkey.trans hkey') hplace (Nat.le_of_not_lt hfits) (htotal ▸ hcut)
    simp only [hcomplete]
    split
    · next hdone =>
      have hsize : (storeFragment slot frag).totalSize =
          (storeFragment slot' frag).totalSize := by simp only [storeFragment, htotal]
      have hsame : (storeFragment slot frag).key = (storeFragment slot' frag).key := hkey'
      rw [hstore.assembled_eq hstore' (hcomplete.trans hdone) hdone hsize, hsame]
    · rfl

/-- Two sessions that differ in the contents of the buffers only. -/
structure Session.Alike (x y : Session) : Prop where
  interface : x.layer.interface = y.layer.interface
  nextIdentification : x.layer.nextIdentification = y.layer.nextIdentification
  slots : controls x.layer.slots = controls y.layer.slots
  history : x.history = y.history
  events : x.events = y.events

section
variable {x y : Session} (h : x.Alike y)
include h

lemma Session.Alike.wellCut (arrival : Arrival) : wellCut y arrival = wellCut x arrival := by
  have htotal (frag : Fragment) :
      recordedTotal arrival.now frag.key y.layer.slots =
        recordedTotal arrival.now frag.key x.layer.slots := by
    rw [← recordedTotal_controls, ← h.slots, recordedTotal_controls]
  simp only [Ipv4.wellCut, h.interface, htotal]

lemma Session.Alike.step (hx : x.Ok) (hy : y.Ok) {arrival : Arrival}
    (hcut : Ipv4.wellCut x arrival = true) : (x.step arrival).Alike (y.step arrival) := by
  cases hclass : classify x.layer.interface arrival.packet with
  | dropped =>
    have hclassify' := h.interface ▸ hclass
    simp only [Session.step, netIpv4Receive, hclass, hclassify']
    exact { h with interface := by rw [h.interface] }
  | whole key payload =>
    have hclassify' := h.interface ▸ hclass
    simp only [Session.step, netIpv4Receive, hclass, hclassify']
    exact { h with interface := by rw [h.interface], events := by rw [h.events] }
  | fragment frag =>
    have hclassify' := h.interface ▸ hclass
    have hcontrols := chooseSlot_controls arrival.now frag.key arrival.packet x.layer.slots
    rw [h.slots, chooseSlot_controls] at hcontrols
    rcases hchoose : chooseSlot arrival.now frag.key arrival.packet x.layer.slots with
      ⟨none | i, slots, outputs⟩ <;>
    rcases hchoose' : chooseSlot arrival.now frag.key arrival.packet y.layer.slots with
      ⟨none | i', slots', outputs'⟩ <;>
    rw [hchoose, hchoose'] at hcontrols
    · obtain ⟨hslots, houtputs⟩ : controls slots' = controls slots ∧ outputs' = outputs := by
        simpa using hcontrols
      rw [Session.step_fragment_none hclass hchoose,
        Session.step_fragment_none hclassify' hchoose']
      exact
        { h with
          interface := by rw [h.interface]
          slots := hslots.symm
          events := by rw [h.events, houtputs] }
    · simp at hcontrols
    · simp at hcontrols
    obtain ⟨rfl, hslots, houtputs⟩ :
        i' = i ∧ controls slots' = controls slots ∧ outputs' = outputs := by
      simpa using hcontrols
    have hcontrol : (slots i').control = (slots' i').control := (congrFun hslots i').symm
    have hopened : openedSlot arrival.now frag.key x.layer.slots =
        openedSlot arrival.now frag.key y.layer.slots := by
      rw [← openedSlot_controls, h.slots, openedSlot_controls]
    have hlog : logFragment arrival.now frag x.layer.slots x.history i' =
        logFragment arrival.now frag y.layer.slots y.history i' := by
      rw [logFragment, logFragment, hopened, h.history]
    obtain ⟨hkey, htotal⟩ := (chooseSlot_some hchoose).key_total
    obtain ⟨hslot, -⟩ := (chooseSlot_some hchoose).backed hx.backed
    obtain ⟨hslot', -⟩ := (chooseSlot_some hchoose').backed hy.backed
    rw [← hopened, ← h.history] at hslot'
    have hwell := wellCut_fragment hcut hclass
    rw [← htotal] at hwell
    have hdispatched := takeFragment_alike hslot hslot' hcontrol hkey.symm
      (classify_placed hclass) hwell
    rw [Session.step_fragment_some hclass hchoose,
      Session.step_fragment_some hclassify' hchoose']
    exact
      { interface := by rw [h.interface]
        nextIdentification := h.nextIdentification
        slots := by
          rw [controls_update, controls_update, takeFragment_control, hcontrol,
            ← takeFragment_control, hslots]
        history := by rw [hlog, h.history]
        events := by rw [h.events, houtputs, hdispatched, hlog] }

lemma Session.Alike.run (hx : x.Ok) (hy : y.Ok) (arrivals : List Arrival)
    (hcut : Runs.Along Session.step (fun x a => Ipv4.wellCut x a = true) x arrivals) :
    (Runs.run Session.step x arrivals).Alike (Runs.run Session.step y arrivals) := by
  induction arrivals generalizing x y with
  | nil => exact h
  | cons arrival arrivals ih =>
    have hcut' : Ipv4.wellCut y arrival = true := (h.wellCut arrival).trans hcut.1
    exact ih (h.step hx hy hcut.1) (hx.step hcut.1) (hy.step hcut') hcut.2

end
end

def Layer.withBuffers (s : Layer) (buffers : Fin reasmSlots → ℕ → Byte) : Layer :=
  { s with slots := fun i => { s.slots i with buffer := buffers i } }

def Session.start (s : Layer) : Session := ⟨s, fun _ => [], []⟩

lemma Session.start_ok {s : Layer} (hidle : ∀ i, (s.slots i).active = false) :
    (start s).Ok := by
  constructor
  · intro i hact
    rw [start, hidle i] at hact
    cases hact
  · simp [start]

/-- As long as fragments are well cut, what is dispatched does not depend on what the buffers
held before, and comes from the fragments of the datagram. -/
theorem reassembly_noninterference (s : Layer) (hidle : ∀ i, (s.slots i).active = false)
    (buffers buffers' : Fin reasmSlots → ℕ → Byte) (arrivals : List Arrival)
    (hcut : Runs.Along Session.step (fun x a => wellCut x a = true)
      (Session.start (s.withBuffers buffers)) arrivals) :
    (Runs.run Session.step (Session.start (s.withBuffers buffers)) arrivals).events =
        (Runs.run Session.step (Session.start (s.withBuffers buffers')) arrivals).events ∧
      ∀ event ∈ (Runs.run Session.step (Session.start (s.withBuffers buffers)) arrivals).events,
        Traceable event := by
  have hok (contents : Fin reasmSlots → ℕ → Byte) :
      (Session.start (s.withBuffers contents)).Ok := Session.start_ok hidle
  have halike : (Session.start (s.withBuffers buffers)).Alike
      (Session.start (s.withBuffers buffers')) := ⟨rfl, rfl, rfl, rfl, rfl⟩
  have hrun : (Runs.run Session.step (Session.start (s.withBuffers buffers)) arrivals).Ok :=
    Runs.run_invariant (fun (x : Session) _ (h : x.Ok) hc => h.step hc) (hok buffers) arrivals hcut
  exact ⟨(halike.run (hok buffers) (hok buffers') arrivals hcut).events, hrun.traceable⟩

def sampleLayer : Layer where
  interface := ⟨true, 0x0a000001, 0xffffff00, 0x0a0000fe, .bound, 0, 0⟩
  slots := fun _ => ⟨false, ⟨0, 0, 0, 0⟩, 0, 0, 0, fun _ => 0, fun _ => false⟩
  nextIdentification := 0

def sampleKey : DatagramKey := ⟨0x0a000002, 0x0a000001, 7, 17⟩

def samplePieces : List Arrival :=
  [⟨0, emitFragment sampleKey 0x2000 [1, 2, 3, 4, 5, 6, 7, 8]⟩,
    ⟨1, emitFragment sampleKey 0x0001 [9]⟩]

theorem reassembly_noninterference_two_pieces :
    (Runs.run Session.step (Session.start (sampleLayer.withBuffers fun _ _ => 0xaa))
        samplePieces).events =
      (Runs.run Session.step (Session.start (sampleLayer.withBuffers fun _ _ => 0xbb))
        samplePieces).events :=
  (reassembly_noninterference sampleLayer (fun _ => rfl) (fun _ _ => 0xaa) (fun _ _ => 0xbb)
    samplePieces (by decide +kernel)).1

/-- A first piece of one byte counts for eight: the seven others are what the buffer held. -/
def shortPiece : List Arrival :=
  [⟨0, emitFragment sampleKey 0x2000 [1]⟩, ⟨1, emitFragment sampleKey 0x0001 [9]⟩]

theorem short_piece_dispatches_leftovers :
    ((Runs.run Session.step (Session.start (sampleLayer.withBuffers fun _ _ => 0xaa))
        shortPiece).events.map Prod.fst =
      [.dispatch 17 0x0a000002 0x0a000001 [1, 0xaa, 0xaa, 0xaa, 0xaa, 0xaa, 0xaa, 0xaa, 9]]) ∧
    ((Runs.run Session.step (Session.start (sampleLayer.withBuffers fun _ _ => 0xbb))
        shortPiece).events.map Prod.fst =
      [.dispatch 17 0x0a000002 0x0a000001 [1, 0xbb, 0xbb, 0xbb, 0xbb, 0xbb, 0xbb, 0xbb, 9]]) := by
  decide +kernel

end KosKernel.Ipv4
