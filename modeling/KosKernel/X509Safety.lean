import KosKernel.X509Bounds
import KosKernel.X509Chain

/-! When the certificate parser comes to an end and stays inside the certificate. -/
namespace KosKernel.X509
open ByteMemory FuelledRuns Traced Patient Nat

lemma shortValueReads_quiet (m : Memory) (w : Region) (tag : Byte) :
    ∀ event ∈ shortValueReads m w tag, event ≠ .standstill := by
  unfold shortValueReads Region.read
  split_ifs <;> simp

lemma readDiscipline (m : Memory) : Discipline m (fun _ => True) (· ≠ .standstill) where
  read _ _ h := nomatch h
  contents _ _ := trivial
  next _ _ := trivial
  behindOid _ _ := trivial
  key _ _ _ := trivial
  version _ _ _ := shortValueReads_quiet m _ _
  constraints _ _ _ := shortValueReads_quiet m _ _

lemma signatureReads_quiet (m : Memory) (root tbs : Asn1Element) :
    ∀ event ∈ signatureReads m root tbs, event ≠ .standstill :=
  List.forall_mem_append.mpr ⟨(readDiscipline m).elementReads_if trivial,
    (readDiscipline m).elementReads_if trivial⟩

section
abbrev Orderly {α : Type} (f : ℕ → Scan α) : Prop := Patient .running .standstill f

lemma orderly_note {events : List Event} (h : ∀ e ∈ events, e ≠ .standstill) :
    Orderly fun _ => note events :=
  note fun hmem => h _ hmem rfl

variable {σ : Type} {m : Memory} {w : Region} {idle : Byte → Bool}

variable {guard : σ → Bool} {p : Asn1Element}

lemma fetch_elementWalk {o : ℕ} {s : σ} (h : ((elementWalk m w guard idle).fetch o s).2 = some p) :
    o < w.size ∧ guard s = true ∧ partAt m (w.drop o) = some p := by
  dsimp only [elementWalk] at h
  split at h
  · rename_i hcondition
    exact ⟨hcondition.1, hcondition.2, h⟩
  · cases h

lemma fetch_of_partAt {o : ℕ} {s : σ} (ho : o < w.size)
    (hs : guard s = true) (hp : partAt m (w.drop o) = some p) :
    ((elementWalk m w guard idle).fetch o s).2 = some p := by
  dsimp only [elementWalk]
  rw [if_pos ⟨ho, hs⟩]
  exact hp

lemma orderly_walk {body : ℕ → Asn1Element → σ → Scan (σ × Bool)} (rank : σ → ℕ)
    (hbody : ∀ p s, Orderly fun n => body n p s)
    (hidle : ∀ {n p s s' stop}, guard s = true → idle p.tag = true →
      (body n p s).result = .ok (s', stop) → stop = false ∧ guard s' = true)
    (hrank : ∀ {n p s s'}, guard s = true → (body n p s).result = .ok (s', false) →
      rank s' ≤ rank s ∧ (idle p.tag = false → rank s' < rank s)) (offset : ℕ) (s : σ) :
    Orderly fun n => (elementWalk m w guard idle).loop .running .standstill (body n) n offset s := by
  have hregular : (elementWalk m w guard idle).Regular .running .standstill w.size rank body := by
    refine ⟨?_, ?_, hbody, ?_, ?_⟩
    · intro o s hmem
      dsimp only [elementWalk] at hmem
      split at hmem
      · exact (readDiscipline m).elementReads trivial _ hmem rfl
      · cases hmem
    · intro o s p hp
      exact (fetch_elementWalk hp).1
    · intro o n p s s' stop hp hpidle hres
      obtain ⟨ho, hs, hpart⟩ := fetch_elementWalk hp
      obtain ⟨hstop, hs'⟩ := hidle hs hpidle hres
      exact ⟨hstop, fetch_of_partAt ho hs' hpart⟩
    · intro o n p s s' hp hres
      exact hrank (fetch_elementWalk hp).2.1 hres
  exact hregular.patient_loop offset s

lemma orderly_scanAll {body : ℕ → Asn1Element → σ → Scan σ} (hbody : ∀ p s, Orderly fun n => body n p s)
    (offset : ℕ) (s : σ) : Orderly fun n => scanAll m w (body n) n offset s := by
  refine orderly_walk (fun _ => 0) (fun p s => (hbody p s).bind fun s => pure _) ?_ ?_ _ _
  · intro n p s s' stop _ _ hres
    obtain ⟨t, ht⟩ := eq_of_result_bind_pure hres
    cases ht
    exact ⟨rfl, rfl⟩
  · intro n p s s' _ _
    exact ⟨le_rfl, fun h => nomatch h⟩

lemma orderly_scanNameSequence (m : Memory) (name : Asn1Element) :
    Orderly fun n => scanNameSequence n m name := by
  refine orderly_scanAll (fun set names => ?_) _ _
  split
  · exact pure _
  · exact orderly_scanAll (fun attr names => (orderly_note
      ((readDiscipline m).nameAttributeReads trivial names)).bind fun _ => pure _) _ _

/-- A DNS name without extent is recorded again and again, up to the sixteenth entry. -/
lemma orderly_scanSanExtension (m : Memory) (ext : Asn1Element) (cert : Certificate) :
    Orderly fun n => scanSanExtension n m ext cert := by
  have D := readDiscipline m
  refine (orderly_note (D.elementReads trivial)).bind fun _ => ?_
  split
  · exact pure _
  refine orderly_walk (fun cert => maxSanNames - cert.sanDnsNames.length) ?_ ?_ ?_ _ _
  · intro name cert
    split
    · exact (orderly_note (D.copyReads trivial)).bind fun _ => pure _
    · exact pure _
  · intro n name cert cert' stop hroom hidle hres
    rw [if_neg (by simpa using hidle)] at hres
    cases hres
    exact ⟨rfl, hroom⟩
  intro n name cert cert' hroom hres
  have hroom : cert.sanDnsNames.length < maxSanNames := of_decide_eq_true hroom
  split at hres
  · cases hres
    simp only [List.length_append, List.length_singleton]
    omega
  rename_i hother
  cases hres
  exact ⟨le_rfl, fun h => absurd (by simpa using h) hother⟩

lemma orderly_scanExtension (m : Memory) (item oid : Asn1Element) (cert : Certificate) :
    Orderly fun n => scanExtension n m item oid cert := by
  have D := readDiscipline m
  refine orderly_walk (fun _ => 0) ?_ ?_ ?_ _ _
  · intro sub cert
    split
    · exact pure _
    refine (orderly_note (D.matchAnyReads trivial _)).bind fun _ => ?_
    split
    · exact (orderly_scanSanExtension m sub cert).bind fun _ => pure _
    split
    · exact (orderly_note (D.basicConstraintsReads trivial)).bind fun _ => pure _
    · exact pure _
  · intro n sub cert cert' stop _ hidle hres
    rw [if_pos (by simpa using hidle)] at hres
    cases hres
    exact ⟨rfl, rfl⟩
  intro n sub cert cert' _ hres
  refine ⟨le_rfl, fun hpayload => ?_⟩
  -- behind the OCTET STRING the loop breaks off
  rw [if_neg (by simpa using hpayload), bind_of_ok rfl] at hres
  dsimp only at hres
  split at hres
  · obtain ⟨_, h⟩ := eq_of_result_bind_pure hres
    cases h
  · split at hres <;> cases hres

lemma orderly_scanExtensions (m : Memory) (exts : Asn1Element) (cert : Certificate) :
    Orderly fun n => scanExtensions n m exts cert := by
  have D := readDiscipline m
  refine (orderly_note (D.elementReads trivial)).bind fun _ => ?_
  split
  · exact pure _
  refine orderly_scanAll (fun item cert => ?_) _ _
  split
  · exact pure _
  refine (orderly_note (D.elementReads trivial)).bind fun _ => ?_
  split
  · exact pure _
  · exact orderly_scanExtension m item _ cert

lemma orRefuse_ne_running {α : Type} (cert : Certificate) (x : Option α) :
    orRefuse cert x ≠ .error .running := by
  cases x <;> exact fun h => nomatch h

lemma tame_note {events : List Event} (h : ∀ e ∈ events, e ≠ .standstill) :
    Tame .running .standstill fun _ => (note events : Scan Unit) :=
  (orderly_note h).toTame

lemma tame_scanTagged (cert : Certificate) (m : Memory) (w : Region) (tag : Byte) :
    Tame .running .standstill fun _ => scanTagged cert m w tag :=
  (tame_note ((readDiscipline m).elementReads trivial)).bind fun _ =>
    Tame.silent (orRefuse_ne_running _ _)

lemma parseVersion_ne_running (cert : Certificate) (m : Memory) (tbs : Asn1Element) :
    parseVersion cert m tbs ≠ .error .running := by
  unfold parseVersion
  cases elementAt m tbs 0 with
  | none => exact fun h => nomatch h
  | some elem =>
    change (if _ then _ else _) ≠ _
    split <;> exact fun h => nomatch h

theorem tame_scanCertificate (m : Memory) (der derLen : ℕ) (held : Certificate) :
    Tame .running .standstill fun n => scanCertificate n m der derLen held := by
  have D := readDiscipline m
  unfold scanCertificate
  split
  · exact Tame.silent fun h => nomatch h
  refine (tame_scanTagged _ _ _ _).bind fun root => ?_
  refine (tame_scanTagged _ _ _ _).bind fun tbs => ?_
  refine (tame_note (D.versionReads trivial)).bind fun _ => ?_
  refine (Tame.silent (parseVersion_ne_running _ _ _)).bind ?_
  rintro ⟨version, serialOffset⟩
  refine (tame_scanTagged _ _ _ _).bind fun serial => ?_
  refine (tame_scanTagged _ _ _ _).bind fun algorithm => ?_
  refine (tame_note (D.algorithmReads trivial _)).bind fun _ => ?_
  refine (tame_scanTagged _ _ _ _).bind fun issuer => ?_
  refine (orderly_scanNameSequence m issuer).toTame.bind fun names => ?_
  refine (tame_scanTagged _ _ _ _).bind fun validity => ?_
  refine (tame_note (D.validityReads trivial)).bind fun _ => ?_
  refine (tame_scanTagged _ _ _ _).bind fun subject => ?_
  refine (orderly_scanNameSequence m subject).toTame.bind fun names => ?_
  refine (tame_scanTagged _ _ _ _).bind fun spki => ?_
  refine (tame_note (D.publicKeyReads trivial)).bind fun _ => ?_
  refine Tame.bind (orderly_scanAll (fun p cert => ?_) _ _).toTame fun cert => ?_
  · split
    · exact orderly_scanExtensions m p cert
    · exact pure _
  · exact (tame_note (signatureReads_quiet m root tbs)).bind fun _ => Tame.pure _

end

def Event.Inside (der derLen : ℕ) : Event → Prop
  | .read address count => ∀ i < count, der ≤ address + i ∧ address + i < der + derLen
  | .standstill => True

/-- The parser comes to an end and reads the certificate only. -/
structure ParsesSafely (m : Memory) (der derLen : ℕ) (held : Certificate) : Prop where
  finishes : ∃ fuel, x509ParseCertificate fuel m der derLen held ≠ .error .running
  inside : ∀ fuel, ∀ e ∈ (scanCertificate fuel m der derLen held).log, e.Inside der derLen

/-- The regions one comes to from the whole certificate: the contents of the element in front, what
is behind it, and the key in a BIT STRING. Behind an identifier the code assumes a short header. -/
inductive Nested (m : Memory) (der derLen : ℕ) : Region → Prop
  | whole : Nested m der derLen ⟨der, derLen⟩
  | contents {w : Region} {e : Asn1Element} : Nested m der derLen w → partAt m w = some e →
      Nested m der derLen e.contents
  | next {w : Region} {e : Asn1Element} : Nested m der derLen w → partAt m w = some e →
      Nested m der derLen (w.drop e.extent)
  | behindOid {w : Region} {e : Asn1Element} : Nested m der derLen w → oidPart m w = some e →
      Nested m der derLen (w.drop (oidTotalLen e))
  | key {w : Region} {e : Asn1Element} : Nested m der derLen w → partAt m w = some e →
      e.tag = tagBitString → Nested m der derLen e.key

/-- A well-formed element: header and length fit into its region, a BIT STRING is not empty, and a
version or a sequence that starts with the tag of a short value has room for it. -/
structure WellFormed (m : Memory) (w : Region) (e : Asn1Element) : Prop where
  fits : e.headerLength + e.length ≤ w.size
  key : e.tag = tagBitString → 1 ≤ e.length
  version : e.tag = tagContext0 → 0 < e.length → m e.data = tagInteger → 3 ≤ e.length
  constraints : e.tag = tagSequence → 0 < e.length → m e.data = tagBoolean → 3 ≤ e.length

def WellEncoded (m : Memory) (der derLen : ℕ) : Prop :=
  ∀ w e, Nested m der derLen w → partAt m w = some e → WellFormed m w e

lemma asn1Length_header {m : Memory} {buf bufferSize header length : ℕ}
    (h : asn1Length m buf bufferSize = some (header, length)) : 2 ≤ header := by
  unfold asn1Length at h
  dsimp only at h
  split_ifs at h
  · cases h
    exact le_rfl
  · cases h
    exact Nat.le_add_right _ _

lemma partAt_header {m : Memory} {w : Region} {e : Asn1Element} (h : partAt m w = some e) :
    e.data = w.data + e.headerLength ∧ 2 ≤ e.headerLength ∧ 2 ≤ w.size := by
  unfold partAt asn1ParseElement at h
  split at h
  · cases h
  rename_i hbuf
  split at h
  · cases h
  rename_i header length hlength
  split at h
  · cases h
  · cases h
    exact ⟨rfl, asn1Length_header hlength, by omega⟩

def Region.Within (der derLen : ℕ) (w : Region) : Prop :=
  w.size = 0 ∨ der ≤ w.data ∧ w.data + w.size ≤ der + derLen

section
variable {m : Memory} {der derLen : ℕ} {w : Region} {e : Asn1Element}

lemma Region.Within.drop (hw : w.Within der derLen) (offset : ℕ) :
    (w.drop offset).Within der derLen := by
  unfold Region.Within Region.drop at *
  dsimp only
  omega

lemma Region.Within.read (hw : w.Within der derLen) {offset count : ℕ}
    (h : offset + count ≤ w.size) : (w.read offset count).Inside der derLen := by
  intro i hi
  unfold Region.Within at hw
  omega

lemma WellFormed.within_contents (h : WellFormed m w e) (hw : w.Within der derLen)
    (he : partAt m w = some e) : e.contents.Within der derLen := by
  obtain ⟨hdata, -, hsize⟩ := partAt_header he
  have hfits := h.fits
  unfold Region.Within Asn1Element.contents at *
  dsimp only
  omega

lemma Nested.within (h : WellEncoded m der derLen) (hw : Nested m der derLen w) :
    w.Within der derLen := by
  induction hw with
  | whole => exact .inr ⟨le_rfl, le_rfl⟩
  | contents hw he ih => exact (h _ _ hw he).within_contents ih he
  | next hw he ih => exact ih.drop _
  | behindOid hw he ih => exact ih.drop _
  | key hw he htag ih =>
    have hcontents := (h _ _ hw he).within_contents ih he
    have hlength := (h _ _ hw he).key htag
    unfold Region.Within Asn1Element.contents Asn1Element.key at *
    dsimp only at *
    omega

lemma shortValueReads_inside {tag : Byte} (hw : w.Within der derLen)
    (h : 0 < w.size → m w.data = tag → 3 ≤ w.size) :
    ∀ event ∈ shortValueReads m w tag, event.Inside der derLen := by
  unfold shortValueReads
  split
  · rename_i hpos
    refine List.forall_mem_cons.mpr ⟨hw.read hpos, ?_⟩
    split
    · rename_i htag
      have hthree := h hpos htag
      refine List.forall_mem_cons.mpr ⟨hw.read (by omega), ?_⟩
      split
      · exact List.forall_mem_singleton.mpr (hw.read (by omega))
      · exact List.forall_mem_nil _
    · exact List.forall_mem_nil _
  · exact List.forall_mem_nil _

variable (h : WellEncoded m der derLen)
include h

lemma insideDiscipline :
    Discipline m (Nested m der derLen) fun event => event.Inside der derLen ∧ event ≠ .standstill where
  read hw hsize := ⟨(hw.within h).read hsize, fun heq => nomatch heq⟩
  contents := .contents
  next := .next
  behindOid := .behindOid
  key := .key
  version hw he htag event hevent := by
    have hwithin := (h _ _ hw he).within_contents (hw.within h) he
    exact ⟨shortValueReads_inside hwithin ((h _ _ hw he).version htag) event hevent,
      shortValueReads_quiet m _ _ event hevent⟩
  constraints hw he htag event hevent := by
    have hwithin := (h _ _ hw he).within_contents (hw.within h) he
    exact ⟨shortValueReads_inside hwithin ((h _ _ hw he).constraints htag) event hevent,
      shortValueReads_quiet m _ _ event hevent⟩

/-- In a certificate of less than 4 GiB the sum of header and length does not wrap around. -/
lemma Nested.extent_ne_zero (hsize : derLen < 2 ^ 32) (hw : Nested m der derLen w)
    (he : partAt m w = some e) : e.extent ≠ 0 := by
  obtain ⟨-, hheader, hroom⟩ := partAt_header he
  have hfits := (h w e hw he).fits
  have hwithin := hw.within h
  unfold Region.Within at hwithin
  rw [Asn1Element.extent, mod_eq_of_lt (by omega)]
  omega

end

lemma finishes_iff (m : Memory) (der derLen : ℕ) (held : Certificate) :
    (∃ fuel, x509ParseCertificate fuel m der derLen held ≠ .error .running) ↔
      ∀ fuel, .standstill ∉ (scanCertificate fuel m der derLen held).log := by
  simp only [← result_scanCertificate]
  exact (tame_scanCertificate m der derLen held).finishes_iff

/-- Whether all elements one comes to from a region are well formed, to a depth. -/
def checkElements (m : Memory) : ℕ → Region → Bool
  | 0, _ => false
  | depth + 1, w =>
    (partAt m w).all fun e =>
      decide (e.headerLength + e.length ≤ w.size) &&
      (e.tag ≠ tagBitString || decide (1 ≤ e.length) && checkElements m depth e.key) &&
      (e.tag ≠ tagContext0 || e.length = 0 || m e.data ≠ tagInteger || decide (3 ≤ e.length)) &&
      (e.tag ≠ tagSequence || e.length = 0 || m e.data ≠ tagBoolean || decide (3 ≤ e.length)) &&
      checkElements m depth e.contents && checkElements m depth (w.drop e.extent) &&
      (e.tag ≠ tagObjectId || checkElements m depth (w.drop (oidTotalLen e)))

theorem wellEncoded_of_checkElements {m : Memory} {der derLen depth : ℕ}
    (h : checkElements m depth ⟨der, derLen⟩ = true) : WellEncoded m der derLen := by
  have hstep : ∀ {w e n}, checkElements m n w = true → partAt m w = some e → WellFormed m w e ∧
      (e.tag = tagBitString → ∃ k, checkElements m k e.key = true) ∧
      (∃ k, checkElements m k e.contents = true) ∧
      (∃ k, checkElements m k (w.drop e.extent) = true) ∧
      (e.tag = tagObjectId → ∃ k, checkElements m k (w.drop (oidTotalLen e)) = true) := by
    intro w e n hcheck he
    cases n with
    | zero => cases hcheck
    | succ n =>
      rw [checkElements, he] at hcheck
      simp only [Option.all_some, Bool.and_eq_true, Bool.or_eq_true, decide_eq_true_eq, ne_eq] at hcheck
      obtain ⟨⟨⟨⟨⟨⟨hfits, hkey⟩, hversion⟩, hconstraints⟩, hcontents⟩, hnext⟩, hoid⟩ := hcheck
      refine ⟨⟨hfits, fun htag => (hkey.resolve_left (not_not.mpr htag)).1, fun htag hpos hint => ?_,
        fun htag hpos hbool => ?_⟩, fun htag => ⟨n, (hkey.resolve_left (not_not.mpr htag)).2⟩,
        ⟨n, hcontents⟩, ⟨n, hnext⟩, fun htag => ⟨n, hoid.resolve_left (not_not.mpr htag)⟩⟩
      · simpa [htag, hint, hpos.ne'] using hversion
      · simpa [htag, hbool, hpos.ne'] using hconstraints
  have hall : ∀ {w}, Nested m der derLen w → ∃ n, checkElements m n w = true := by
    intro w hw
    induction hw with
    | whole => exact ⟨depth, h⟩
    | contents hw he ih =>
      obtain ⟨n, hn⟩ := ih
      exact (hstep hn he).2.2.1
    | next hw he ih =>
      obtain ⟨n, hn⟩ := ih
      exact (hstep hn he).2.2.2.1
    | behindOid hw he ih =>
      obtain ⟨n, hn⟩ := ih
      have htagged := (Option.filter_eq_some_iff.mp he).1
      exact (hstep hn (partAt_of_tagged htagged)).2.2.2.2
        (of_decide_eq_true (Option.filter_eq_some_iff.mp htagged).2)
    | key hw he htag ih =>
      obtain ⟨n, hn⟩ := ih
      exact (hstep hn he).2.1 htag
  intro w e hw he
  obtain ⟨n, hn⟩ := hall hw
  exact (hstep hn he).1

/-- An issuer that holds a header of six bytes and the length 2^32 - 6, which add up to zero. -/
def endlessIssuer : List Byte :=
  [0x30, 0x0F, 0x30, 0x0D, 0x02, 0x01, 0x01, 0x30, 0x00,
   0x30, 0x06, 0x05, 0x84, 0xFF, 0xFF, 0xFF, 0xFA]

def cutVersion : List Byte := [0x30, 0x05, 0x30, 0x03, 0xA0, 0x01, 0x02]

end KosKernel.X509
