import KosKernel.TlsRecords

/-! The stream of application data: what successive receive calls return of the records a
server sends. -/
namespace KosKernel.Tls
open X509 List

def recvAll (crypto : Crypto) : List ℕ → Link → List Byte
  | [], _ => []
  | capacity :: capacities, l =>
    ((netTlsRecv crypto capacity l).1.getD []) ++
      recvAll crypto capacities (netTlsRecv crypto capacity l).2

/-- The first `count` places of a record: its number and the place in its content. -/
def recordPlaces (n count : ℕ) : List (ℕ × ℕ) := (range count).map fun j => (n, j)

/-- Where these bytes come from: places in the record that the call decrypted, whose number is
the number of records before it. -/
def recvPlaces (crypto : Crypto) : ℕ → List ℕ → Link → List (ℕ × ℕ)
  | _, [], _ => []
  | n, capacity :: capacities, l =>
    let l' := (netTlsRecv crypto capacity l).2
    let next := if l'.session.serverRecordSeq = l.session.serverRecordSeq then n else n + 1
    recordPlaces n ((netTlsRecv crypto capacity l).1.getD []).length ++
      recvPlaces crypto next capacities l'

/-- Places of the application data among the records from number `n` on. -/
def dataPlaces : ℕ → List PeerRecord → List (ℕ × ℕ)
  | _, [] => []
  | n, r :: records =>
    (if r.innerType = recordApplicationData then recordPlaces n r.content.length else []) ++
      dataPlaces (n + 1) records

def applicationData (records : List PeerRecord) : List Byte :=
  (records.filter fun r => r.innerType = recordApplicationData).flatMap PeerRecord.content

/-- The records that the calls consume, each with the capacity of its call. -/
def consumed (records : List PeerRecord) (capacities : List ℕ) : List (PeerRecord × ℕ) :=
  records.zip (capacities.filter fun capacity => 0 < capacity)

/-- No consumed handshake record has content, and a record that is longer than the capacity of
its call is followed by empty ones only. -/
def Spaced (pairs : List (PeerRecord × ℕ)) : Prop :=
  (∀ p ∈ pairs, p.1.innerType = recordApplicationData ∨ p.1.content = []) ∧
    pairs.Pairwise fun p q => p.1.content.length ≤ p.2 ∨ q.1.content = []

/-- A session whose peer sends these records next. -/
structure Awaits (crypto : Crypto) (n : ℕ) (records : List PeerRecord) (l : Link) : Prop where
  established : l.session.state = .established
  seq : l.session.serverRecordSeq = BitVec.ofNat 64 n
  wire : ∃ wire, Sends crypto l.session.cipherSuite l.session.serverAppKey l.session.serverAppIv n records
    wire ∧ l.incoming = wire.map some

/-- The records are handshake or application records of at most 4000 bytes that fit. -/
structure PeerRecord.Ordinary (r : PeerRecord) : Prop extends r.Fits where
  kind : r.innerType = recordHandshake ∨ r.innerType = recordApplicationData
  short : r.content.length ≤ 4000

section
variable {C : Crypto} {n cap : ℕ} {r : PeerRecord} {recs : List PeerRecord} {l : Link}

lemma recv_zero (l : Link) : netTlsRecv C 0 l = (none, l) := by simp [netTlsRecv]

lemma Awaits.open (h : Awaits C n recs l) (hcap : 0 < cap) :
    ¬(l.established = false ∨ cap = 0) := by
  rw [not_or, Link.established, h.established]
  exact ⟨by simp, hcap.ne'⟩

lemma Awaits.recv_nil (h : Awaits C n [] l) (hcap : 0 < cap) :
    (netTlsRecv C cap l).1 = some [] ∧
      (netTlsRecv C cap l).2.session.serverRecordSeq = l.session.serverRecordSeq ∧
      Awaits C n [] (netTlsRecv C cap l).2 := by
  obtain ⟨wire, hsends, hwire⟩ := h.wire
  cases hsends
  rw [netTlsRecv, if_neg (h.open hcap), hwire]
  exact ⟨rfl, rfl, h.established, h.seq, [], .nil n, rfl⟩

lemma Awaits.recv_cons (h : Awaits C n (r :: recs) l) (hlawful : C.Lawful)
    (hr : r.Ordinary) (hcap : 0 < cap) :
    (netTlsRecv C cap l).1 = some (r.content.take cap) ∧
      (netTlsRecv C cap l).2.session.serverRecordSeq ≠ l.session.serverRecordSeq ∧
      Awaits C (n + 1) recs (netTlsRecv C cap l).2 := by
  obtain ⟨wire, hsends, hwire⟩ := h.wire
  cases hsends with
  | @cons _ _ _ bytes wire hsealed hsends =>
    obtain ⟨hfirst, hsecond⟩ := (hsealed.whole hlawful hr.toFits).read (wire.map some)
    rw [← map_append, ← hwire] at hfirst
    have hnalert : r.innerType ≠ recordAlert := by
      rcases hr.kind with hkind | hkind <;> rw [hkind] <;> decide
    rw [netTlsRecv, if_neg (h.open hcap), hfirst]
    simp only [hsecond, take_append_drop]
    rw [h.seq, decryptRecord_sealed hsealed hlawful hr.toFits.type hr.toFits.payload_le]
    simp only [deliver, if_neg hnalert]
    refine ⟨trivial, ?_, h.established, ?_, wire, hsends, rfl⟩
    · rw [← h.seq]
      change l.session.serverRecordSeq + 1 ≠ l.session.serverRecordSeq
      simp
    change l.session.serverRecordSeq + 1 = _
    rw [h.seq, BitVec.ofNat_add]
    rfl

end

/-- Places returned for the records from number `n` on: each call takes the beginning of the
next record. -/
def takenPlaces : ℕ → List (PeerRecord × ℕ) → List (ℕ × ℕ)
  | _, [] => []
  | n, (r, capacity) :: pairs =>
    recordPlaces n (min capacity r.content.length) ++ takenPlaces (n + 1) pairs

lemma consumed_cons_zero (recs : List PeerRecord) (caps : List ℕ) :
    consumed recs (0 :: caps) = consumed recs caps := by
  simp [consumed]

lemma consumed_cons {cap : ℕ} (hcap : 0 < cap) (r : PeerRecord)
    (recs : List PeerRecord) (caps : List ℕ) :
    consumed (r :: recs) (cap :: caps) =
      (r, cap) :: consumed recs caps := by
  simp [consumed, hcap]

lemma Awaits.recvPlaces_eq {C : Crypto} {n : ℕ} {recs : List PeerRecord} {l : Link}
    (h : Awaits C n recs l) (hlawful : C.Lawful)
    (hrecs : ∀ r ∈ recs, r.Ordinary) (caps : List ℕ) :
    recvPlaces C n caps l = takenPlaces n (consumed recs caps) ∧
      recvAll C caps l =
        (consumed recs caps).flatMap fun p => p.1.content.take p.2 := by
  induction caps generalizing n recs l with
  | nil => simp [recvPlaces, recvAll, consumed, takenPlaces]
  | cons cap caps ih =>
    rcases Nat.eq_zero_or_pos cap with rfl | hcap
    · rw [recvPlaces, recvAll, recv_zero, consumed_cons_zero]
      simpa [recordPlaces] using ih h hrecs
    cases recs with
    | nil =>
      obtain ⟨hres, hseq, hnext⟩ := h.recv_nil hcap
      obtain ⟨hplaces, hbytes⟩ := ih hnext hrecs
      rw [recvPlaces, recvAll, hres, if_pos hseq, hplaces, hbytes]
      simp [consumed, takenPlaces, recordPlaces]
    | cons r recs =>
      rw [forall_mem_cons] at hrecs
      obtain ⟨hres, hseq, hnext⟩ := h.recv_cons hlawful hrecs.1 hcap
      obtain ⟨hplaces, hbytes⟩ := ih hnext hrecs.2
      rw [recvPlaces, recvAll, hres, if_neg hseq, hplaces, hbytes, consumed_cons hcap]
      simp [takenPlaces]

/-- The bytes the calls return are a beginning of the application data, and they come from
that beginning's places. -/
structure InOrder (crypto : Crypto) (n : ℕ) (records : List PeerRecord) (capacities : List ℕ)
    (l : Link) : Prop where
  bytes : recvAll crypto capacities l <+: applicationData records
  places : recvPlaces crypto n capacities l <+: dataPlaces n records

section
variable {n m : ℕ} {r : PeerRecord} {recs : List PeerRecord} {caps : List ℕ}

lemma recordPlaces_append {count count' : ℕ} (h : count < count') :
    ∃ places, recordPlaces n count' = recordPlaces n count ++ (n, count) :: places := by
  obtain ⟨d, rfl⟩ := Nat.exists_eq_add_of_lt h
  refine ⟨(range d).map fun j => (n, count + (j + 1)), ?_⟩
  rw [recordPlaces, recordPlaces, Nat.add_assoc, range_add, map_append, range_succ_eq_map]
  simp [Function.comp_def]

variable {pairs : List (PeerRecord × ℕ)}

lemma number_le_of_mem_takenPlaces {place : ℕ × ℕ} (h : place ∈ takenPlaces n pairs) :
    n ≤ place.1 := by
  induction pairs generalizing n with
  | nil => cases h
  | cons p pairs ih =>
    rcases mem_append.mp h with h | h
    · obtain ⟨j, -, rfl⟩ := mem_map.mp h
      exact le_rfl
    · exact (Nat.le_succ n).trans (ih h)

lemma number_le_of_mem_dataPlaces {place : ℕ × ℕ} (h : place ∈ dataPlaces n recs) :
    n ≤ place.1 := by
  induction recs generalizing n with
  | nil => cases h
  | cons r recs ih =>
    rcases mem_append.mp h with h | h
    · split at h
      · obtain ⟨j, -, rfl⟩ := mem_map.mp h
        exact le_rfl
      · cases h
    · exact (Nat.le_succ n).trans (ih h)

lemma takenPlaces_eq_nil (hpairs : ∀ p ∈ pairs, 0 < p.2) :
    takenPlaces n pairs = [] ↔ ∀ p ∈ pairs, p.1.content = [] := by
  induction pairs generalizing n with
  | nil => simp [takenPlaces]
  | cons p pairs ih =>
    rw [forall_mem_cons] at hpairs ⊢
    have hblock : recordPlaces n (min p.2 p.1.content.length) = [] ↔ p.1.content = [] := by
      rw [recordPlaces, map_eq_nil_iff, range_eq_nil, ← length_eq_zero_iff]
      omega
    rw [takenPlaces, append_eq_nil_iff, ih hpairs.2, hblock]

/-- Places with larger numbers continue a cut record only if there are none. -/
lemma prefix_cut_iff {taken places rest : List (ℕ × ℕ)} {count : ℕ}
    (h : ∀ place ∈ taken, n < place.1) : taken <+: (n, count) :: places ++ rest ↔ taken = [] := by
  cases taken with
  | nil => simp
  | cons place taken =>
    have hplace := h place (by simp)
    refine iff_of_false ?_ (by simp)
    rw [cons_append, cons_prefix_cons]
    rintro ⟨rfl, -⟩
    exact lt_irrefl n hplace

lemma spaced_cons {p : PeerRecord × ℕ} :
    Spaced (p :: pairs) ↔ (p.1.innerType = recordApplicationData ∨ p.1.content = []) ∧
      (p.1.content.length ≤ p.2 ∨ ∀ q ∈ pairs, q.1.content = []) ∧ Spaced pairs := by
  have hrest : (∀ q ∈ pairs, p.1.content.length ≤ p.2 ∨ q.1.content = []) ↔
      (p.1.content.length ≤ p.2 ∨ ∀ q ∈ pairs, q.1.content = []) := by
    by_cases hfits : p.1.content.length ≤ p.2 <;> simp [hfits]
  rw [Spaced, forall_mem_cons, pairwise_cons, hrest, Spaced]
  tauto

lemma spaced_of_empty (h : ∀ p ∈ pairs, p.1.content = []) : Spaced pairs :=
  ⟨fun p hp => .inr (h p hp), pairwise_of_forall_mem_list fun _ _ q hq => .inr (h q hq)⟩

/-- The places of the consumed records begin the application data exactly when the calls are
spaced: a cut record loses the rest of its bytes, and a handshake record is returned as data. -/
lemma takenPlaces_prefix_iff (hcapacities : ∀ cap ∈ caps, 0 < cap) :
    takenPlaces n (recs.zip caps) <+: dataPlaces n recs ↔
      Spaced (recs.zip caps) := by
  induction recs generalizing n caps with
  | nil => simp [takenPlaces, Spaced]
  | cons r recs ih =>
    cases caps with
    | nil => simp [takenPlaces, Spaced]
    | cons cap caps =>
      have hpairs : ∀ p ∈ recs.zip caps, 0 < p.2 := fun p hp =>
        hcapacities _ (mem_cons_of_mem _ (of_mem_zip hp).2)
      rw [forall_mem_cons] at hcapacities
      specialize ih (n := n + 1) hcapacities.2
      rw [zip_cons_cons, takenPlaces, dataPlaces, spaced_cons]
      by_cases hempty : r.content = []
      · simp [hempty, recordPlaces, ih]
      by_cases hdata : r.innerType = recordApplicationData
      · rw [if_pos hdata]
        rcases le_or_gt r.content.length cap with hfits | hcut
        · rw [min_eq_right hfits, prefix_append_right_inj, ih]
          simp [hdata, hfits]
        obtain ⟨places, hplaces⟩ := recordPlaces_append (n := n) hcut
        rw [min_eq_left hcut.le, hplaces, append_assoc, prefix_append_right_inj,
          prefix_cut_iff fun place hp => number_le_of_mem_takenPlaces hp,
          takenPlaces_eq_nil hpairs]
        refine ⟨fun h => ⟨.inl hdata, .inr h, spaced_of_empty h⟩, fun h => ?_⟩
        exact h.2.1.resolve_left hcut.not_ge
      · refine iff_of_false ?_ fun h => h.1.elim hdata hempty
        have hpos : 0 < min cap r.content.length := lt_min hcapacities.1 (length_pos_iff.mpr hempty)
        obtain ⟨places, hplaces⟩ := recordPlaces_append (n := n) hpos
        rw [if_neg hdata, nil_append, hplaces]
        intro h
        have hmem : (n, 0) ∈ dataPlaces (n + 1) recs := h.subset (by simp)
        exact absurd (number_le_of_mem_dataPlaces hmem) (Nat.not_succ_le_self n)

lemma flatMap_take_prefix (h : Spaced (recs.zip caps)) :
    ((recs.zip caps).flatMap fun p => p.1.content.take p.2) <+:
      applicationData recs := by
  induction recs generalizing caps with
  | nil => simp [applicationData]
  | cons r recs ih =>
    cases caps with
    | nil => simp
    | cons cap caps =>
      rw [zip_cons_cons, spaced_cons] at h
      obtain ⟨hkind, hcut, hspaced⟩ := h
      have htail := ih hspaced
      rw [zip_cons_cons, flatMap_cons]
      by_cases hempty : r.content = []
      · by_cases hdata : r.innerType = recordApplicationData <;>
          simpa [applicationData, filter_cons, hempty, hdata] using htail
      have hdata : r.innerType = recordApplicationData := hkind.resolve_right hempty
      have hsplit : applicationData (r :: recs) = r.content ++ applicationData recs := by
        simp [applicationData, hdata]
      rw [hsplit]
      rcases hcut with hfits | hrest
      · rw [take_of_length_le hfits]
        exact (prefix_append_right_inj _).mpr htail
      have hnil : ((recs.zip caps).flatMap fun p => p.1.content.take p.2) = [] := by
        rw [flatMap_eq_nil_iff]
        intro p hp
        rw [hrest p hp, take_nil]
      rw [hnil, append_nil]
      exact (List.take_prefix _ _).trans (prefix_append _ _)

end

/-- Receive calls return the application data in order, without a gap and without a byte of a
handshake record, exactly when no handshake record with content is among the records they
consume and no record with content follows one that was longer than its call's capacity. -/
theorem recv_in_order_iff {crypto : Crypto} (hlawful : crypto.Lawful) {n : ℕ}
    {records : List PeerRecord} (hrecords : ∀ r ∈ records, r.Ordinary) {l : Link}
    (h : Awaits crypto n records l) (capacities : List ℕ) :
    InOrder crypto n records capacities l ↔ Spaced (consumed records capacities) := by
  obtain ⟨hplaces, hbytes⟩ := h.recvPlaces_eq hlawful hrecords capacities
  have hcapacities : ∀ capacity ∈ capacities.filter fun capacity => 0 < capacity, 0 < capacity := by
    simp
  constructor
  · intro hin
    have hprefix := hin.places
    rw [hplaces] at hprefix
    exact (takenPlaces_prefix_iff hcapacities).mp hprefix
  intro hspaced
  refine ⟨?_, ?_⟩
  · rw [hbytes]
    exact flatMap_take_prefix hspaced
  · rw [hplaces]
    exact (takenPlaces_prefix_iff hcapacities).mpr hspaced

/-- The session with a peer that finishes the handshake and then sends these records. -/
def plainStream (records : List PeerRecord) : Link :=
  plainSession false (plainRecord recordHandshake plainFinished ::
    records.map fun r => plainRecord r.innerType r.content)

lemma awaits_plain {recs : List PeerRecord} (hrecs : ∀ r ∈ recs, r.padding = 0)
    (hstate : (plainStream recs).session.state = .established)
    (hsuite : (plainStream recs).session.cipherSuite = 0x1301)
    (hseq : (plainStream recs).session.serverRecordSeq = 0)
    (hwire : (plainStream recs).incoming =
      (recs.flatMap fun r => plainRecord r.innerType r.content).map some) :
    Awaits plainCrypto 0 recs (plainStream recs) :=
  ⟨hstate, hseq, _, sends_plain rfl (by rw [hsuite]; rfl) _ _ 0 hrecs, hwire⟩

def dataRecords : List PeerRecord := [⟨recordApplicationData, [1, 2, 3], 0⟩, ⟨recordApplicationData, [4], 0⟩]

lemma awaits_dataRecords : Awaits plainCrypto 0 dataRecords (plainStream dataRecords) :=
  awaits_plain (by simp [dataRecords]) (by decide +kernel) (by decide +kernel) (by decide +kernel)
    (by decide +kernel)

theorem recv_in_order_iff_plain :
    InOrder plainCrypto 0 dataRecords [3, 0, 5] (plainStream dataRecords) := by
  refine (recv_in_order_iff plainCrypto_lawful ?_ awaits_dataRecords _).mpr ?_
  · simp only [dataRecords, forall_mem_cons]
    exact ⟨⟨⟨by decide, by decide⟩, .inr rfl, by decide⟩, ⟨⟨by decide, by decide⟩, .inr rfl, by decide⟩,
      by simp⟩
  · refine ⟨?_, ?_⟩ <;> simp [consumed, dataRecords]

def ticketRecords : List PeerRecord := [⟨recordHandshake, [9], 0⟩]

/-- A record that is cut loses its last byte, and a handshake record is returned as data. -/
theorem recv_skips_and_mixes :
    (Awaits plainCrypto 0 dataRecords (plainStream dataRecords) ∧
      recvAll plainCrypto [2, 5] (plainStream dataRecords) = [1, 2, 4] ∧
      applicationData dataRecords = [1, 2, 3, 4]) ∧
    Awaits plainCrypto 0 ticketRecords (plainStream ticketRecords) ∧
      recvAll plainCrypto [5] (plainStream ticketRecords) = [9] ∧
      applicationData ticketRecords = [] :=
  ⟨⟨awaits_dataRecords, by decide +kernel, by decide⟩,
    awaits_plain (by simp [ticketRecords]) (by decide +kernel) (by decide +kernel)
      (by decide +kernel) (by decide +kernel), by decide +kernel, by decide⟩

end KosKernel.Tls
