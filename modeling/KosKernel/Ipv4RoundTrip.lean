import KosKernel.Ipv4Packets
import KosKernel.Ipv4Reassembly

/-! A payload that was sent in fragments comes together again, in whatever order they arrive and
between fragments of few enough other datagrams. Packets may be received while a payload is being
dispatched, as long as they do not touch its slot. -/
namespace KosKernel.Ipv4
open BigEndian Function List

section
variable {key : DatagramKey} {data : List Byte} {missing : Finset ℕ} {slot : ReasmSlot} {k : ℕ}

/-- A slot that has all pieces of the payload but the missing ones. A piece fills 185 blocks. -/
structure Pending (key : DatagramKey) (payload : List Byte) (missing : Finset ℕ) (slot : ReasmSlot) :
    Prop where
  active : slot.active = true
  key_eq : slot.key = key
  total : slot.totalSize = if pieceCount payload - 1 ∈ missing then 0 else payload.length
  present : ∀ b < reasmMaxSize / 8,
    slot.blockPresent b = true ↔ b < (payload.length + 7) / 8 ∧ b / 185 ∉ missing
  bytes : ∀ i < payload.length, i / maxFragmentPayload ∉ missing →
    payload[i]? = some (slot.buffer i)

lemma Pending.opened (now : BitVec 64) (hpos : data ≠ []) (slot : ReasmSlot) :
    Pending key data (Finset.range (pieceCount data)) (openSlot now key slot) where
  active := rfl
  key_eq := rfl
  total := by
    have hcount : 0 < pieceCount data := lt_pieceCount.mpr (length_pos_iff.mpr hpos)
    rw [if_pos (Finset.mem_range.mpr (by omega))]
    rfl
  present b hb := by
    simp only [openSlot, if_pos hb, Bool.false_eq_true, false_iff, Finset.mem_range, not_and_not_right]
    intro hlt
    rw [lt_pieceCount, maxFragmentPayload]
    omega
  bytes i hi hmissing := by
    refine absurd (Finset.mem_range.mpr ?_) hmissing
    rw [lt_pieceCount]
    exact lt_of_le_of_lt (Nat.mul_div_le i maxFragmentPayload) hi

lemma byteAt_pieceFragment (i : ℕ) :
    (pieceFragment key data k).byteAt i =
      if i / maxFragmentPayload = k then data[i]? else none := by
  have hpos : 0 < maxFragmentPayload := by decide
  rw [Fragment.byteAt, pieceFragment]
  simp only [pieceChunk, getElem?_take, getElem?_drop]
  split
  · next hlow =>
    rw [Nat.add_sub_cancel' hlow]
    congr 1
    rw [Nat.div_eq_iff hpos, eq_iff_iff]
    simp only [maxFragmentPayload] at *
    omega
  · next hlow =>
    rw [if_neg]
    rw [Nat.div_eq_iff hpos]
    simp only [maxFragmentPayload] at *
    omega

lemma Pending.store (h : Pending key data missing slot) (hk : k ∈ missing)
    (hcount : k < pieceCount data) :
    Pending key data (missing.erase k) (storeFragment slot (pieceFragment key data k)) where
  active := h.active
  key_eq := h.key_eq
  total := by
    have hlt := lt_pieceCount.mp hcount
    have hlast := @lt_pieceCount data (k + 1)
    simp only [storeFragment, pieceFragment, pieceChunk_end hlt, decide_eq_true_eq, h.total,
      Finset.mem_erase]
    by_cases hend : k + 1 < pieceCount data
    · rw [if_pos hend]
      have hne : pieceCount data - 1 ≠ k := by omega
      simp only [hne, ne_eq, not_false_eq_true, true_and]
    have heq : pieceCount data - 1 = k := by omega
    rw [if_neg hend, if_neg (by simp [heq])]
    omega
  present b hb := by
    have hlt := lt_pieceCount.mp hcount
    simp only [storeFragment, pieceFragment, markBlocks, Bool.or_eq_true, Bool.and_eq_true,
      decide_eq_true_eq, h.present b hb, Finset.mem_erase, pieceChunk_length]
    simp only [maxFragmentPayload] at *
    by_cases hblock : b / 185 = k
    · subst hblock
      simp only [hk, ne_eq, not_true_eq_false, and_false, or_false, not_false_eq_true, and_true, hb]
      omega
    have hout : ¬(1480 * k / 8 ≤ b ∧
        b < 1480 * k / 8 + (min 1480 (data.length - 1480 * k) + 7) / 8) := by omega
    simp only [hout, hblock, false_and, false_or, ne_eq, not_false_eq_true, true_and]
  bytes i hi hmissing := by
    rw [storeFragment_buffer, byteAt_pieceFragment]
    by_cases hpiece : i / maxFragmentPayload = k
    · rw [if_pos hpiece, getElem?_eq_getElem hi, Option.getD_some]
    · rw [if_neg hpiece, Option.getD_none]
      refine h.bytes i hi fun hmem => hmissing (Finset.mem_erase.mpr ⟨hpiece, hmem⟩)

lemma Pending.complete (h : Pending key data missing slot)
    (hsub : missing ⊆ Finset.range (pieceCount data)) (hpos : data ≠ [])
    (hhigh : data.length < 65536) : slotComplete slot = decide (missing = ∅) := by
  have hlen := length_pos_iff.mpr hpos
  rw [Bool.eq_iff_iff, decide_eq_true_iff]
  simp only [slotComplete, Bool.and_eq_true, decide_eq_true_eq, all_eq_true, mem_range]
  constructor
  · rintro ⟨htotal, hall⟩
    rw [h.total] at htotal hall
    by_cases hlast : pieceCount data - 1 ∈ missing
    · rw [if_pos hlast] at htotal
      omega
    rw [if_neg hlast] at hall
    -- a missing piece leaves its first block out
    rw [Finset.eq_empty_iff_forall_notMem]
    intro k hk
    have hlt := lt_pieceCount.mp (Finset.mem_range.mp (hsub hk))
    simp only [maxFragmentPayload] at hlt
    have hblock := (h.present (185 * k) (by simp only [reasmMaxSize]; omega)).mp
      (hall (185 * k) (by omega))
    rw [Nat.mul_div_cancel_left k (by decide)] at hblock
    exact hblock.2 hk
  · rintro rfl
    rw [h.total, if_neg (Finset.notMem_empty _)]
    refine ⟨hlen, fun b hb => (h.present b ?_).mpr ⟨hb, Finset.notMem_empty _⟩⟩
    simp only [reasmMaxSize]
    omega

lemma Pending.assembled (h : Pending key data ∅ slot) : assembled slot = data := by
  rw [Ipv4.assembled, h.total, if_neg (Finset.notMem_empty _)]
  apply ext_getElem (by simp)
  intro i hi hi'
  have hbyte := h.bytes i hi' (Finset.notMem_empty _)
  rw [getElem?_eq_getElem hi', Option.some.injEq] at hbyte
  simp [hbyte]

/-- A piece that was missing, in the slot: the last one is answered by the payload. -/
lemma Pending.enterFragment (h : Pending key data missing slot)
    (hsub : missing ⊆ Finset.range (pieceCount data)) (hpos : data ≠ [])
    (hhigh : data.length < 65536) (hk : k ∈ missing) :
    Pending key data (missing.erase k) (enterFragment slot (pieceFragment key data k)).1 ∧
    (Ipv4.enterFragment slot (pieceFragment key data k)).2 =
      if missing.erase k = ∅ then [.dispatch key.protocol key.source key.destination data]
      else [] := by
  have hcount := Finset.mem_range.mp (hsub hk)
  have hlt := lt_pieceCount.mp hcount
  have hstore := h.store hk hcount
  have hcomplete := hstore.complete ((Finset.erase_subset k missing).trans hsub) hpos hhigh
  have hfits : ¬(pieceFragment key data k).offset +
      (pieceFragment key data k).payload.length > reasmMaxSize := by
    simp only [pieceFragment, pieceChunk_end hlt, reasmMaxSize]
    omega
  rw [Ipv4.enterFragment, if_neg hfits]
  refine ⟨hstore, ?_⟩
  simp only [hcomplete, decide_eq_true_eq]
  split
  · next hempty =>
    rw [hempty] at hstore
    rw [hstore.assembled, hstore.key_eq]
  · rfl

end

section
variable {keys : Finset DatagramKey} {now : BitVec 64} {later : List (BitVec 64)} {slots : Slots}
  {key : DatagramKey} {i : Fin reasmSlots} {slot : ReasmSlot}

/-- Each datagram has one slot at most, and no slot expires at the times to come. -/
structure Orderly (keys : Finset DatagramKey) (later : List (BitVec 64)) (slots : Slots) : Prop where
  known : ∀ i, (slots i).active = true → (slots i).key ∈ keys
  distinct : ∀ i j, (slots i).active = true → (slots j).active = true →
    (slots i).key = (slots j).key → i = j
  fresh : ∀ i, (slots i).active = true → ∀ now ∈ later,
    now - (slots i).createdTick < reasmTimeoutTicks

lemma findSlot_fresh (key : DatagramKey) (original : List Byte) (indices : List (Fin reasmSlots))
    (hfresh : ∀ i, (slots i).active = true → now - (slots i).createdTick < reasmTimeoutTicks) :
    (findSlot now key original indices slots).2 = (slots, []) := by
  induction indices with
  | nil => rfl
  | cons j rest ih =>
    rw [findSlot]
    split
    · next hact =>
      rw [if_neg (BitVec.not_le.mpr (hfresh j hact))]
      split
      · rfl
      · exact ih
    · exact ih

lemma Orderly.unused (h : Orderly keys later slots) (hcard : keys.card ≤ reasmSlots)
    (hkey : key ∈ keys) (hnone : ∀ i, (slots i).active = true → (slots i).key ≠ key) :
    ∃ i, unusedSlot slots = some i ∧ (slots i).active = false := by
  cases hunused : unusedSlot slots with
  | some i =>
    have hfound := find?_some hunused
    exact ⟨i, rfl, by simpa using hfound⟩
  | none =>
    exfalso
    have hact (i : Fin reasmSlots) : (slots i).active = true := by
      have := find?_eq_none.mp hunused i (mem_finRange i)
      simpa using this
    have hle : (Finset.univ : Finset (Fin reasmSlots)).card ≤ (keys.erase key).card := by
      apply Finset.card_le_card_of_injOn fun i => (slots i).key
      · intro i _
        exact Finset.mem_erase.mpr ⟨hnone i (hact i), h.known i (hact i)⟩
      · intro i _ j _ hij
        exact h.distinct i j (hact i) (hact j) hij
    rw [Finset.card_erase_of_mem hkey, Finset.card_univ, Fintype.card_fin] at hle
    have hpos := Finset.card_pos.mpr ⟨key, hkey⟩
    omega

/-- The slot a fragment comes to: the one of its datagram, or one opened when there is none. -/
inductive Lands (now : BitVec 64) (key : DatagramKey) (slots : Slots) (i : Fin reasmSlots) :
    ReasmSlot → Prop where
  | again (hactive : (slots i).active = true) (hkey : (slots i).key = key) :
      Lands now key slots i (slots i)
  | first (hunused : (slots i).active = false)
      (hnone : ∀ j, (slots j).active = true → (slots j).key ≠ key) :
      Lands now key slots i (openSlot now key (slots i))

namespace Lands

lemma key_eq (h : Lands now key slots i slot) : slot.key = key := by
  cases h with
  | again hact hkey => exact hkey
  | first hunused hnone => rfl

lemma active (h : Lands now key slots i slot) : slot.active = true := by
  cases h with
  | again hact hkey => exact hact
  | first hunused hnone => rfl

lemma others (hlands : Lands now key slots i slot) (h : Orderly keys later slots)
    {j : Fin reasmSlots} (hne : j ≠ i) (hj : (slots j).active = true) : (slots j).key ≠ key := by
  cases hlands with
  | again hact hikey =>
    intro hjkey
    exact hne (h.distinct j i hj hact (hjkey.trans hikey.symm))
  | first hunused hnone => exact hnone j hj

/-- A fragment does not come to slots in use that hold other datagrams. -/
lemma notMem (hlands : Lands now key slots i slot) {calls : List (Fin reasmSlots)}
    (hactive : ∀ j ∈ calls, (slots j).active = true) (hquiet : ∀ j ∈ calls, (slots j).key ≠ key) :
    i ∉ calls := by
  intro hmem
  cases hlands with
  | again hact hkey => exact hquiet i hmem hkey
  | first hunused hnone => exact absurd (hactive i hmem) (by simp [hunused])

end Lands

lemma Orderly.enterHandleFragment (h : Orderly keys (now :: later) slots)
    (hcard : keys.card ≤ reasmSlots) {frag : Fragment} (hkey : frag.key ∈ keys)
    (original : List Byte) :
    ∃ i slot, Lands now frag.key slots i slot ∧ enterHandleFragment now frag original slots =
        (update slots i (enterFragment slot frag).1, (enterFragment slot frag).2,
          if (enterFragment slot frag).2.isEmpty then none else some i) := by
  have hfresh := findSlot_fresh frag.key original (finRange reasmSlots)
    fun i hi => h.fresh i hi now mem_cons_self
  have hfst := findSlot_fst now frag.key original (finRange reasmSlots) slots
  rcases hfind : findSlot now frag.key original (finRange reasmSlots) slots with
    ⟨found, slots', outputs⟩
  rw [hfind] at hfresh hfst
  obtain ⟨rfl, rfl⟩ := Prod.mk.inj hfresh
  cases found with
  | some i =>
    have hholds := find?_some hfst.symm
    simp only [ReasmSlot.holds, Bool.and_eq_true, beq_iff_eq] at hholds
    refine ⟨i, slots' i, .again hholds.1.1 hholds.2, ?_⟩
    simp [Ipv4.enterHandleFragment, chooseSlot, hfind]
  | none =>
    have hnone (j : Fin reasmSlots) (hj : (slots' j).active = true) :
        (slots' j).key ≠ frag.key := by
      have hnot := find?_eq_none.mp hfst.symm j (mem_finRange j)
      have hin := h.fresh j hj now mem_cons_self
      simpa [ReasmSlot.holds, hj, hin] using hnot
    obtain ⟨i, hunused, hinactive⟩ := h.unused hcard hkey hnone
    refine ⟨i, openSlot now frag.key (slots' i), .first hinactive hnone, ?_⟩
    simp [Ipv4.enterHandleFragment, chooseSlot, hfind, hunused]

lemma enterFragment_fields (slot : ReasmSlot) (frag : Fragment) :
    (enterFragment slot frag).1.key = slot.key ∧
    (enterFragment slot frag).1.createdTick = slot.createdTick ∧
    ((enterFragment slot frag).2.isEmpty = false →
      (enterFragment slot frag).1.active = slot.active) := by
  rw [enterFragment]
  split
  · exact ⟨rfl, rfl, fun hcalled => by simp at hcalled⟩
  · exact ⟨rfl, rfl, fun _ => rfl⟩

lemma Orderly.land (h : Orderly keys (now :: later) slots)
    (hlater : ∀ t ∈ later, t - now < reasmTimeoutTicks) {frag : Fragment}
    (hkey : frag.key ∈ keys) (hlands : Lands now frag.key slots i slot) :
    Orderly keys later (update slots i (enterFragment slot frag).1) := by
  have hslotKey : (enterFragment slot frag).1.key = frag.key := by
    rw [(enterFragment_fields slot frag).1, hlands.key_eq]
  have htick (t : BitVec 64) (ht : t ∈ later) :
      t - (enterFragment slot frag).1.createdTick < reasmTimeoutTicks := by
    rw [(enterFragment_fields slot frag).2.1]
    cases hlands with
    | again hact hikey => exact h.fresh i hact t (mem_cons_of_mem _ ht)
    | first hunused hnone => exact hlater t ht
  constructor
  · intro j hj
    obtain rfl | hne := eq_or_ne j i
    · rw [update_self, hslotKey]
      exact hkey
    · rw [update_of_ne hne] at hj ⊢
      exact h.known j hj
  · intro j l hj hl heq
    by_cases hji : j = i <;> by_cases hli : l = i
    · rw [hji, hli]
    · subst hji
      rw [update_self, update_of_ne hli, hslotKey] at heq
      rw [update_of_ne hli] at hl
      exact absurd heq.symm (hlands.others h hli hl)
    · subst hli
      rw [update_self, update_of_ne hji, hslotKey] at heq
      rw [update_of_ne hji] at hj
      exact absurd heq (hlands.others h hji hj)
    rw [update_of_ne hji, update_of_ne hli] at heq
    rw [update_of_ne hji] at hj
    rw [update_of_ne hli] at hl
    exact h.distinct j l hj hl heq
  · intro j hj t ht
    obtain rfl | hne := eq_or_ne j i
    · rw [update_self]
      exact htick t ht
    · rw [update_of_ne hne] at hj ⊢
      exact h.fresh j hj t (mem_cons_of_mem _ ht)

lemma releaseSlot_active {j : Fin reasmSlots} (hj : (releaseSlot slots i j).active = true) :
    j ≠ i ∧ releaseSlot slots i j = slots j := by
  have hne : j ≠ i := by
    rintro rfl
    simp [releaseSlot] at hj
  exact ⟨hne, update_of_ne hne _ _⟩

lemma Orderly.release (h : Orderly keys later slots) (i : Fin reasmSlots) :
    Orderly keys later (releaseSlot slots i) := by
  constructor
  · intro j hj
    have hsame := (releaseSlot_active hj).2
    rw [hsame] at hj ⊢
    exact h.known j hj
  · intro j l hj hl heq
    have hjsame := (releaseSlot_active hj).2
    have hlsame := (releaseSlot_active hl).2
    rw [hjsame] at hj heq
    rw [hlsame] at hl heq
    exact h.distinct j l hj hl heq
  · intro j hj t ht
    have hsame := (releaseSlot_active hj).2
    rw [hsame] at hj ⊢
    exact h.fresh j hj t ht

end

/-- A packet that comes in. It is one of the fragments in question, or something else. -/
structure Delivery where
  ours : Bool
  now : BitVec 64
  packet : List Byte
  deriving DecidableEq

/-- `net_ipv4_receive` is called, or the dispatch of the latest complete slot returns. -/
inductive Moment where
  | arrives (d : Delivery)
  | returns
  deriving DecidableEq

/-- `calls` are the slots whose dispatch has not returned, the latest first. -/
structure Exchange where
  layer : Layer
  ours : List Output
  calls : List (Fin reasmSlots)

def Exchange.step (x : Exchange) : Moment → Exchange
  | .arrives d =>
    let (layer, outputs, called) := enterIpv4Receive d.now x.layer d.packet
    { layer
      ours := if d.ours then x.ours ++ outputs else x.ours
      calls := called.toList ++ x.calls }
  | .returns =>
    { x with layer := leaveIpv4Receive x.layer x.calls.head?, calls := x.calls.tail }

def arrivals (moments : List Moment) : List Delivery :=
  moments.filterMap fun moment => match moment with
    | .arrives d => some d
    | .returns => none

/-- No fragment arrives for a datagram that is being dispatched. -/
def Undisturbed (x : Exchange) : Moment → Prop
  | .arrives d => ∀ frag, classify x.layer.interface d.packet = .fragment frag →
    ∀ i ∈ x.calls, (x.layer.slots i).key ≠ frag.key
  | .returns => True

instance (x : Exchange) : ∀ moment, Decidable (Undisturbed x moment)
  | .arrives d =>
    match hclass : classify x.layer.interface d.packet with
    | .dropped => isTrue (by simp [Undisturbed, hclass])
    | .whole _ _ => isTrue (by simp [Undisturbed, hclass])
    | .fragment frag =>
      decidable_of_iff (∀ i ∈ x.calls, (x.layer.slots i).key ≠ frag.key)
        (by simp [Undisturbed, hclass])
  | .returns => isTrue trivial

section
variable {interface : Interface} {key : DatagramKey} {data : List Byte}
  {keys : Finset DatagramKey} {missing : Finset ℕ} {later : List (BitVec 64)} {x : Exchange}

/-- The calls that have not returned: each has its own slot, which is in use. -/
structure Called (slots : Slots) (calls : List (Fin reasmSlots)) : Prop where
  nodup : calls.Nodup
  active : ∀ i ∈ calls, (slots i).active = true

lemma Called.enter {slots : Slots} {calls : List (Fin reasmSlots)} {now : BitVec 64}
    {i : Fin reasmSlots} {slot : ReasmSlot} {frag : Fragment} (h : Called slots calls)
    (hlands : Lands now frag.key slots i slot) (hi : i ∉ calls) :
    Called (update slots i (enterFragment slot frag).1)
      ((if (enterFragment slot frag).2.isEmpty then none else some i).toList ++ calls) := by
  have hothers : ∀ j ∈ calls, (update slots i (enterFragment slot frag).1 j).active = true := by
    intro j hj
    rw [update_of_ne (ne_of_mem_of_not_mem hj hi)]
    exact h.active j hj
  cases hcalled : (enterFragment slot frag).2.isEmpty with
  | true => exact ⟨h.nodup, hothers⟩
  | false =>
    refine ⟨nodup_cons.mpr ⟨hi, h.nodup⟩, forall_mem_cons.mpr ⟨?_, hothers⟩⟩
    rw [update_self, (enterFragment_fields slot frag).2.2 hcalled]
    exact hlands.active

lemma Called.leave {slots : Slots} {i : Fin reasmSlots} {calls : List (Fin reasmSlots)}
    (h : Called slots (i :: calls)) : Called (releaseSlot slots i) calls := by
  obtain ⟨hi, hnodup⟩ := nodup_cons.mp h.nodup
  refine ⟨hnodup, fun j hj => ?_⟩
  rw [releaseSlot, update_of_ne (ne_of_mem_of_not_mem hj hi)]
  exact h.active j (mem_cons_of_mem _ hj)

/-- All pieces but the missing ones have arrived. A slot is in use as long as some have and some
have not, and then until the dispatch returns. -/
structure Receiving (interface : Interface) (key : DatagramKey) (payload : List Byte)
    (keys : Finset DatagramKey) (missing : Finset ℕ) (later : List (BitVec 64)) (x : Exchange) :
    Prop where
  reads : ∀ packet, classify x.layer.interface packet = classify interface packet
  orderly : Orderly keys later x.layer.slots
  called : Called x.layer.slots x.calls
  idle : missing = Finset.range (pieceCount payload) ∨ missing = ∅ →
    ∀ i, (x.layer.slots i).active = true → (x.layer.slots i).key = key → i ∈ x.calls
  quiet : missing ≠ ∅ → ∀ i ∈ x.calls, (x.layer.slots i).key ≠ key
  held : missing ≠ Finset.range (pieceCount payload) → missing ≠ ∅ →
    ∃ i, Pending key payload missing (x.layer.slots i)
  ours : x.ours =
    if missing = ∅ then [.dispatch key.protocol key.source key.destination payload] else []

lemma Lands.pending {now : BitVec 64} {i : Fin reasmSlots} {slot : ReasmSlot} {k : ℕ}
    (hlands : Lands now key x.layer.slots i slot)
    (h : Receiving interface key data keys missing later x) (hpos : data ≠ [])
    (hk : k ∈ missing) : Pending key data missing slot := by
  have hnonempty : missing ≠ ∅ := Finset.ne_empty_of_mem hk
  cases hlands with
  | again hact hkey =>
    have hstarted : missing ≠ Finset.range (pieceCount data) := fun hall =>
      h.quiet hnonempty i (h.idle (.inl hall) i hact hkey) hkey
    obtain ⟨j, hj⟩ := h.held hstarted hnonempty
    rwa [h.orderly.distinct i j hact hj.active (hkey.trans hj.key_eq.symm)]
  | first hunused hnone =>
    have hall : missing = Finset.range (pieceCount data) := by
      by_contra hstarted
      obtain ⟨j, hj⟩ := h.held hstarted hnonempty
      exact hnone j hj.active hj.key_eq
    rw [hall]
    exact Pending.opened now hpos _

section
variable {d : Delivery} (h : Receiving interface key data keys missing (d.now :: later) x)
  (hcard : keys.card ≤ reasmSlots)
include h hcard

lemma Receiving.takePiece {k : ℕ} (hkeys : key ∈ keys)
    (hlater : ∀ t ∈ later, t - d.now < reasmTimeoutTicks)
    (hsub : missing ⊆ Finset.range (pieceCount data)) (hpos : data ≠ [])
    (hhigh : data.length < 65536) (hk : k ∈ missing) (hours : d.ours = true)
    (hpiece : classify interface d.packet = .fragment (pieceFragment key data k)) :
    Receiving interface key data keys (missing.erase k) later (x.step (.arrives d)) := by
  have hclass := (h.reads d.packet).trans hpiece
  have hknown : (pieceFragment key data k).key ∈ keys := hkeys
  have hnonempty : missing ≠ ∅ := Finset.ne_empty_of_mem hk
  obtain ⟨i, slot, hlands, henter⟩ := h.orderly.enterHandleFragment hcard hknown d.packet
  have horderly := h.orderly.land hlater hknown hlands
  have hi : i ∉ x.calls := hlands.notMem h.called.active (h.quiet hnonempty)
  have hcalled := h.called.enter hlands hi
  change Lands d.now key x.layer.slots i slot at hlands
  obtain ⟨hpend, hout⟩ := (hlands.pending h hpos hk).enterFragment hsub hpos hhigh hk
  have hbefore : x.ours = [] := by rw [h.ours, if_neg hnonempty]
  have hstarted : missing.erase k ≠ Finset.range (pieceCount data) := fun heq =>
    Finset.notMem_erase k missing (heq ▸ hsub hk)
  simp only [Exchange.step, enterIpv4Receive, hclass, henter, hours, if_true, hbefore, nil_append]
  refine ⟨h.reads, horderly, hcalled, fun hdone j hj hjkey => ?_, fun hmore j hj => ?_,
    fun _ _ => ⟨i, ?_⟩, hout⟩
  · -- The last piece has come, and its slot is the only one with the key.
    have hempty := hdone.resolve_left hstarted
    obtain rfl | hji := eq_or_ne j i
    · simp [hout, hempty]
    · simp only [update_of_ne hji] at hj hjkey
      exact absurd hjkey (hlands.others h.orderly hji hj)
  · rw [hout, if_neg hmore] at hj
    have hmem : j ∈ x.calls := hj
    simp only [update_of_ne (ne_of_mem_of_not_mem hmem hi)]
    exact h.quiet hnonempty j hmem
  · simp only [update_self]
    exact hpend

lemma Receiving.takeOther (hlater : ∀ t ∈ later, t - d.now < reasmTimeoutTicks)
    (hours : d.ours = false) (hquiet : Undisturbed x (.arrives d))
    (hother : ∀ frag, classify interface d.packet = .fragment frag → frag.key ∈ keys ∧ frag.key ≠ key) :
    Receiving interface key data keys missing later (x.step (.arrives d)) := by
  have hkept : Orderly keys later x.layer.slots :=
    { h.orderly with fresh := fun i hi t ht => h.orderly.fresh i hi t (mem_cons_of_mem _ ht) }
  cases hclass : classify x.layer.interface d.packet with
  | dropped =>
    simp only [Exchange.step, enterIpv4Receive, netIpv4Receive, hclass, hours]
    exact ⟨h.reads, hkept, h.called, h.idle, h.quiet, h.held, h.ours⟩
  | whole wholeKey wholePayload =>
    simp only [Exchange.step, enterIpv4Receive, netIpv4Receive, hclass, hours]
    exact ⟨h.reads, hkept, h.called, h.idle, h.quiet, h.held, h.ours⟩
  | fragment frag =>
    obtain ⟨hknown, hdifferent⟩ := hother frag ((h.reads d.packet).symm.trans hclass)
    obtain ⟨i, slot, hlands, henter⟩ := h.orderly.enterHandleFragment hcard hknown d.packet
    have hi : i ∉ x.calls := hlands.notMem h.called.active (hquiet frag hclass)
    have hslotKey : (enterFragment slot frag).1.key = frag.key := by
      rw [(enterFragment_fields slot frag).1, hlands.key_eq]
    simp only [Exchange.step, enterIpv4Receive, hclass, henter, hours]
    refine ⟨h.reads, h.orderly.land hlater hknown hlands, h.called.enter hlands hi,
      fun hidle j hj hjkey => ?_, fun hmore j hj => ?_, fun hstarted hmore => ?_, h.ours⟩
    · obtain rfl | hji := eq_or_ne j i
      · simp only [update_self, hslotKey] at hjkey
        exact absurd hjkey hdifferent
      · simp only [update_of_ne hji] at hj hjkey
        exact mem_append_right _ (h.idle hidle j hj hjkey)
    · obtain rfl | hji := eq_or_ne j i
      · simp only [update_self, hslotKey]
        exact hdifferent
      · simp only [update_of_ne hji]
        refine h.quiet hmore j ((mem_append.mp hj).resolve_left fun hmem => hji ?_)
        split at hmem
        · cases hmem
        · exact mem_singleton.mp hmem
    obtain ⟨j, hj⟩ := h.held hstarted hmore
    have hji : j ≠ i := by
      rintro rfl
      cases hlands with
      | again hact hkey => exact hdifferent (hkey.symm.trans hj.key_eq)
      | first hunused hnone => exact absurd hj.active (by simp [hunused])
    refine ⟨j, ?_⟩
    simp only [update_of_ne hji]
    exact hj

end

lemma Receiving.returned (h : Receiving interface key data keys missing later x) :
    Receiving interface key data keys missing later (x.step .returns) := by
  obtain ⟨layer, ours, calls⟩ := x
  cases calls with
  | nil => exact h
  | cons i calls =>
    have hreleased : (Exchange.step ⟨layer, ours, i :: calls⟩ .returns) =
        ⟨{ layer with slots := releaseSlot layer.slots i }, ours, calls⟩ := rfl
    rw [hreleased]
    have hnotin := (nodup_cons.mp h.called.nodup).1
    refine ⟨h.reads, h.orderly.release i, h.called.leave, fun hidle j hj hjkey => ?_,
      fun hmore j hj => ?_, fun hstarted hmore => ?_, h.ours⟩
    · obtain ⟨hji, hsame⟩ := releaseSlot_active hj
      dsimp only at hj hjkey
      rw [hsame] at hj hjkey
      exact (mem_cons.mp (h.idle hidle j hj hjkey)).resolve_left hji
    · dsimp only
      rw [releaseSlot, update_of_ne (ne_of_mem_of_not_mem hj hnotin)]
      exact h.quiet hmore j (mem_cons_of_mem _ hj)
    · obtain ⟨j, hj⟩ := h.held hstarted hmore
      have hji : j ≠ i := by
        rintro rfl
        exact h.quiet hmore j mem_cons_self hj.key_eq
      refine ⟨j, ?_⟩
      dsimp only
      rw [releaseSlot, update_of_ne hji]
      exact hj

lemma Receiving.run {moments : List Moment} {delivered : Finset ℕ}
    (h : Receiving interface key data keys missing ((arrivals moments).map Delivery.now) x)
    (haccepts : accepts interface key.destination key.protocol = true)
    (hlow : maxFragmentPayload < data.length) (hhigh : data.length < 65536)
    (hcard : keys.card ≤ reasmSlots) (hkeys : key ∈ keys)
    (hsub : missing ⊆ Finset.range (pieceCount data)) (hdelivered : delivered ⊆ missing)
    (hours : ((((arrivals moments).filter Delivery.ours).map fun d => unpadded d.packet : List _) :
      Multiset (List Byte)) = delivered.val.map (piece key data))
    (hothers : ∀ d ∈ arrivals moments, d.ours = false →
      ∀ frag, classify interface d.packet = .fragment frag →
        frag.key ∈ keys ∧ frag.key ≠ key)
    (htime : (arrivals moments).Pairwise fun a b => b.now - a.now < reasmTimeoutTicks)
    (hquiet : Runs.Along Exchange.step Undisturbed x moments) :
    Receiving interface key data keys (missing \ delivered) []
      (Runs.run Exchange.step x moments) := by
  have hpos : data ≠ [] := length_pos_iff.mp (by omega)
  induction moments generalizing x missing delivered with
  | nil =>
    have hnone : delivered = ∅ := by
      rw [← Finset.val_eq_zero, ← Multiset.map_eq_zero, ← hours]
      rfl
    rw [hnone, Finset.sdiff_empty]
    exact h
  | cons moment moments ih =>
    cases moment with
    | returns => exact ih h.returned hsub hdelivered hours hothers htime hquiet.2
    | arrives d =>
      have hsplit : arrivals (.arrives d :: moments) = d :: arrivals moments := rfl
      rw [hsplit] at h hours hothers htime
      rw [forall_mem_cons] at hothers
      rw [pairwise_cons] at htime
      have hlater : ∀ t ∈ (arrivals moments).map Delivery.now, t - d.now < reasmTimeoutTicks := by
        intro t ht
        obtain ⟨e, he, rfl⟩ := mem_map.mp ht
        exact htime.1 e he
      cases hmine : d.ours with
      | true =>
        rw [filter_cons_of_pos hmine, map_cons, ← Multiset.cons_coe] at hours
        have hmem : unpadded d.packet ∈ delivered.val.map (piece key data) := by
          rw [← hours]
          exact Multiset.mem_cons_self _ _
        obtain ⟨k, hk, hpiece⟩ := Multiset.mem_map.mp hmem
        have hmissing : k ∈ missing := hdelivered hk
        have hrest : ((((arrivals moments).filter Delivery.ours).map
            fun d => unpadded d.packet : List _) : Multiset (List Byte)) =
              (delivered.erase k).val.map (piece key data) := by
          rw [← Multiset.cons_erase hk, Multiset.map_cons, hpiece, Multiset.cons_inj_right] at hours
          exact hours
        have hstep := h.takePiece hcard hkeys hlater hsub hpos hhigh hmissing hmine
          (classify_piece key haccepts hlow hhigh (Finset.mem_range.mp (hsub hmissing)) hpiece.symm)
        have hrun := ih hstep ((Finset.erase_subset _ _).trans hsub)
          (Finset.erase_subset_erase k hdelivered) hrest hothers.2 htime.2 hquiet.2
        have hleft : missing.erase k \ delivered.erase k = missing \ delivered := by
          ext j
          simp only [Finset.mem_sdiff, Finset.mem_erase]
          obtain rfl | hj := eq_or_ne j k
          · simp [show j ∈ delivered from hk]
          · simp [hj]
        rw [hleft] at hrun
        exact hrun
      | false =>
        rw [filter_cons_of_neg (by simp [hmine])] at hours
        exact ih (h.takeOther hcard hlater hmine hquiet.1 (hothers.1 hmine)) hsub hdelivered hours
          hothers.2 htime.2 hquiet.2

end

def sentKey (s : Layer) (protocol : Byte) (source destination : BitVec 32) : DatagramKey where
  source := if source ≠ 0 then source else s.interface.ipv4Address
  destination
  identification := s.nextIdentification
  protocol

lemma netIpv4SendFrom_packets {link : LinkLayer} {s : Layer} {protocol : Byte}
    {src dest : BitVec 32} {data : List Byte}
    (hlow : maxFragmentPayload < data.length)
    (h : (netIpv4SendFrom link s protocol src dest data).1 = true) :
    ((netIpv4SendFrom link s protocol src dest data).2.2 =
      ([], [.dispatch protocol (sentKey s protocol src dest).source dest
        data])) ∨
      ((netIpv4SendFrom link s protocol src dest data).2.2 =
        ((range (pieceCount data)).map (piece (sentKey s protocol src dest) data),
          [])) := by
  unfold netIpv4SendFrom at h ⊢
  simp only [] at h ⊢
  split at h
  · cases h
  · next hvalid =>
    rw [if_neg hvalid]
    split at h
    · next hloop =>
      rw [if_pos hloop]
      exact .inl rfl
    · next hremote =>
      rw [if_neg hremote]
      split at h
      · cases h
      · next hroute =>
        rw [if_neg (by omega)] at h
        rw [if_neg hroute, if_neg (by omega)]
        have hstart : min (maxFragmentPayload * 0) data.length = 0 := by simp
        refine .inr (Prod.ext ?_ rfl)
        rw [range_eq_range']
        exact sendFragments_packets _ (Nat.zero_le _) (Nat.le_add_right _ _)
          (by rw [hstart]; exact Prod.ext h rfl)

/-- The packets that were sent arrive once each, among fragments of at most seven other datagrams and
within the time of a reassembly. -/
structure Delivered (sent : List (List Byte)) (interface : Interface) (key : DatagramKey)
    (others : Finset DatagramKey) (deliveries : List Delivery) : Prop where
  pieces : ((deliveries.filter Delivery.ours).map fun d => unpadded d.packet).Perm sent
  few : others.card ≤ 7
  different : key ∉ others
  others : ∀ d ∈ deliveries, d.ours = false →
    ∀ fragment, classify interface d.packet = .fragment fragment → fragment.key ∈ others
  time : deliveries.Pairwise fun a b => b.now - a.now < reasmTimeoutTicks

def sampleLink : LinkLayer := ⟨fun _ => true, fun _ => true⟩

def samplePayload : List Byte := replicate 1481 0x5a

def sampleOther : DatagramKey := ⟨0x0a000003, 0x0a000002, 7, 17⟩

def sampleReceiver : Layer :=
  { sampleLayer with interface := { sampleLayer.interface with ipv4Address := 0x0a000002 } }

/-- Piece `k` of the payload. -/
def samplePiece (now : BitVec 64) (k : ℕ) : Moment :=
  .arrives ⟨true, now, piece ⟨0x0a000001, 0x0a000002, 0, 17⟩ samplePayload k⟩

/-- One of two fragments of the other datagram. -/
def sampleForeign (now : BitVec 64) (first : Bool) : Moment :=
  .arrives ⟨false, now, emitFragment sampleOther (if first then 0x2000 else 1) (replicate 8 1)⟩

lemma classify_sampleForeign (first : Bool) : classify sampleReceiver.interface
    (emitFragment sampleOther (if first then 0x2000 else 1) (replicate 8 1)) =
      .fragment ⟨sampleOther, if first then 0 else 8, first, replicate 8 1⟩ := by
  cases first <;> decide +kernel

lemma sample_others {moments : List Moment} (h : ∀ moment ∈ moments, moment = .returns ∨
    (∃ now k, moment = samplePiece now k) ∨ ∃ now first, moment = sampleForeign now first) :
    ∀ d ∈ arrivals moments, d.ours = false →
      ∀ frag, classify sampleReceiver.interface d.packet = .fragment frag →
        frag.key ∈ ({sampleOther} : Finset DatagramKey) := by
  intro d hd hours frag hfrag
  obtain ⟨moment, hmem, hsome⟩ := mem_filterMap.mp hd
  rcases h moment hmem with rfl | ⟨now, k, rfl⟩ | ⟨now, first, rfl⟩
  · cases hsome
  · cases hsome
    cases hours
  · cases hsome
    rw [classify_sampleForeign, Verdict.fragment.injEq] at hfrag
    rw [← hfrag]
    exact Finset.mem_singleton_self _

/-- The other datagram is complete, and both pieces come while it is dispatched. -/
def nestedMoments : List Moment :=
  [sampleForeign 5 true, sampleForeign 6 false, samplePiece 7 1, samplePiece 8 0, .returns, .returns]

lemma nestedMoments_delivered : Delivered
    (netIpv4SendFrom sampleLink sampleLayer 17 0 0x0a000002 samplePayload).2.2.1
    sampleReceiver.interface (sentKey sampleLayer 17 0 0x0a000002) {sampleOther}
    (arrivals nestedMoments) where
  pieces := by decide +kernel
  few := by decide +kernel
  different := by decide +kernel
  others := by
    refine sample_others ?_
    simp only [nestedMoments, forall_mem_cons]
    exact ⟨.inr (.inr ⟨_, _, rfl⟩), .inr (.inr ⟨_, _, rfl⟩), .inr (.inl ⟨_, _, rfl⟩),
      .inr (.inl ⟨_, _, rfl⟩), .inl trivial, .inl trivial, fun _ h => absurd h not_mem_nil⟩
  time := by decide +kernel

/-- A fragment of the other datagram comes again while it is dispatched, completes it once more and
releases the slot. The first piece gets it, and loses it when the outer dispatch returns. -/
def repeatedMoments : List Moment :=
  [sampleForeign 5 true, sampleForeign 6 false, sampleForeign 7 false, .returns, samplePiece 8 0,
    .returns, samplePiece 9 1]

end KosKernel.Ipv4
