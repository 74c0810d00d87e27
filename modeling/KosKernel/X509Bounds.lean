import KosKernel.X509Reads

/-! The scanning parser returns what the parser does, and its reads keep to the regions it is
given. -/
namespace KosKernel.X509
open ByteMemory FuelledRuns Traced List

section
variable {σ α : Type} {m : Memory} {c : Asn1Element} {guard : σ → Bool} {idle : Byte → Bool}
  {pureBody : Asn1Element → σ → Except Failure (σ × Bool)}

lemma result_loop {body : Asn1Element → σ → Scan (σ × Bool)}
    (hbody : ∀ e s, guard s = true → (body e s).result = pureBody e s)
    (hguard : ∀ e s, guard s = false → pureBody e s = .ok (s, true)) (fuel offset : ℕ) (s : σ) :
    ((elementWalk m c.contents guard idle).loop .running .standstill body fuel offset s).result =
      elementLoop m c pureBody fuel offset s := by
  induction fuel generalizing offset s with
  | zero => rfl
  | succ fuel ih =>
    rw [elementLoop]
    by_cases hoff : offset < c.length
    swap
    · rw [Walk.loop_none (by simp [elementWalk, Asn1Element.contents, hoff]), if_neg hoff]
    rw [if_pos hoff]
    cases hs : guard s with
    | false =>
      rw [Walk.loop_none (by simp [elementWalk, hs])]
      cases elementAt m c offset with
      | none => rfl
      | some e =>
        dsimp only
        rw [hguard e s hs]
        rfl
    | true =>
      have hfetch : ((elementWalk m c.contents guard idle).fetch offset s).2 =
          elementAt m c offset := by
        simp only [elementWalk, Asn1Element.contents, hoff, hs, and_self, if_true]
        rfl
      cases he : elementAt m c offset with
      | none => rw [Walk.loop_none (hfetch.trans he)]
      | some e =>
        dsimp only
        rw [← hbody e s hs]
        cases hres : (body e s).result with
        | error r => rw [Walk.loop_error (hfetch.trans he) hres]; rfl
        | ok out =>
          obtain ⟨s', stop⟩ := out
          cases stop with
          | true => rw [Walk.loop_stop (hfetch.trans he) hres]; rfl
          | false =>
            rw [Walk.loop_next (hfetch.trans he) hres]
            exact ih _ _

lemma result_scanAll {body : Asn1Element → σ → Scan σ}
    (hbody : ∀ e s, ((body e s).result >>= fun s => .ok (s, false)) = pureBody e s)
    (fuel offset : ℕ) (s : σ) :
    (scanAll m c.contents body fuel offset s).result =
      elementLoop m c pureBody fuel offset s := by
  refine result_loop (fun e s _ => ?_) (fun _ _ h => by cases h) _ _ _
  rw [result_bind, ← hbody e s]
  rfl

variable (fuel : ℕ) (m : Memory)

lemma result_scanNameSequence (name : Asn1Element) :
    (scanNameSequence fuel m name).result = parseNameSequence fuel m name := by
  refine result_scanAll (fun set names => ?_) _ _ _
  split
  · rfl
  refine congrArg (· >>= _) (result_scanAll (fun attr names => ?_) _ _ _)
  rw [result_bind]
  rfl

lemma getSequence_eq (e : Asn1Element) :
    asn1GetSequence m e.data e.length = taggedPart m e.contents tagSequence := rfl

lemma getOid_eq (e : Asn1Element) : asn1GetOid m e.data e.length = oidPart m e.contents := rfl

lemma result_scanSanExtension (ext : Asn1Element) (cert : Certificate) :
    (scanSanExtension fuel m ext cert).result = parseSanExtension fuel m ext cert := by
  unfold scanSanExtension parseSanExtension
  rw [result_bind, getSequence_eq]
  cases taggedPart m ext.contents tagSequence with
  | none => rfl
  | some seq =>
    refine result_loop (fun name cert hguard => ?_) (fun e cert hguard => ?_) _ _ _
    · have hroom : ¬maxSanNames ≤ cert.sanDnsNames.length := by simpa using hguard
      rw [if_neg hroom]
      split <;> rfl
    · have hfull : maxSanNames ≤ cert.sanDnsNames.length := by simpa using hguard
      rw [if_pos hfull]

lemma result_scanExtension (item oid : Asn1Element) (cert : Certificate) :
    (scanExtension fuel m item oid cert).result = parseExtension fuel m item oid cert := by
  refine result_loop (fun sub cert _ => ?_) (fun _ _ h => by cases h) _ _ _
  split
  · rfl
  rw [result_bind]
  change Traced.result _ = _
  split
  · rw [result_bind, result_scanSanExtension]
    rfl
  · split <;> rfl

lemma result_scanExtensions (exts : Asn1Element) (cert : Certificate) :
    (scanExtensions fuel m exts cert).result = parseExtensions fuel m exts cert := by
  unfold scanExtensions parseExtensions
  rw [result_bind, getSequence_eq]
  cases taggedPart m exts.contents tagSequence with
  | none => rfl
  | some seq =>
    refine result_scanAll (fun item cert => ?_) _ _ _
    split
    · rfl
    rw [result_bind, getOid_eq]
    cases oidPart m item.contents with
    | none => rfl
    | some oid => exact congrArg (· >>= _) (result_scanExtension fuel m item oid cert)

variable {y : Except Failure α}

lemma result_congr_bind {β : Type} {x : Scan α} {f : α → Scan β}
    {g : α → Except Failure β} (hx : x.result = y) (h : ∀ a, (f a).result = g a) :
    (x >>= f).result = y >>= g := by
  rw [result_bind, hx]
  exact congrArg (y >>= ·) (funext h)

lemma result_note_bind {events : List Event} {f : Unit → Scan α} (h : (f ()).result = y) :
    (note events >>= f).result = y := by
  rw [result_bind]
  exact h

theorem result_scanCertificate (der derLen : ℕ) (held : Certificate) :
    (scanCertificate fuel m der derLen held).result =
      x509ParseCertificate fuel m der derLen held := by
  unfold scanCertificate x509ParseCertificate
  split
  · rfl
  refine result_congr_bind rfl fun root => ?_
  refine result_congr_bind rfl fun tbs => ?_
  refine result_note_bind (result_congr_bind rfl ?_)
  rintro ⟨version, serialOffset⟩
  refine result_congr_bind rfl fun serial => ?_
  refine result_congr_bind rfl fun algorithm => ?_
  refine result_note_bind (result_congr_bind rfl fun issuer => ?_)
  refine result_congr_bind (result_scanNameSequence _ _ _) fun names => ?_
  refine result_congr_bind rfl fun validity => ?_
  refine result_note_bind (result_congr_bind rfl fun subject => ?_)
  refine result_congr_bind (result_scanNameSequence _ _ _) fun names => ?_
  refine result_congr_bind rfl fun spki => ?_
  refine result_note_bind (result_congr_bind (result_scanAll (fun e cert => ?_) _ _ _)
    fun cert => result_note_bind rfl)
  split
  · rw [result_scanExtensions]
  · rfl

end

lemma partAt_of_tagged {m : Memory} {w : Region} {tag : Byte} {e : Asn1Element}
    (h : taggedPart m w tag = some e) : partAt m w = some e :=
  (Option.filter_eq_some_iff.mp h).1

/-- What is needed of a set of regions and a set of events for all reads of the parser to be
among the events: it reads within a region's size and peeks at short values, and passes from a
region to the contents of its element, to what lies behind it and to a key in it. -/
structure Discipline (m : Memory) (R : Region → Prop) (P : Event → Prop) : Prop where
  read : ∀ {w offset count}, R w → offset + count ≤ w.size → P (w.read offset count)
  contents : ∀ {w e}, R w → partAt m w = some e → R e.contents
  next : ∀ {w e}, R w → partAt m w = some e → R (w.drop e.extent)
  behindOid : ∀ {w e}, R w → oidPart m w = some e → R (w.drop (oidTotalLen e))
  key : ∀ {w e}, R w → partAt m w = some e → e.tag = tagBitString → R e.key
  version : ∀ {w e}, R w → partAt m w = some e → e.tag = tagContext0 →
    ∀ event ∈ shortValueReads m e.contents tagInteger, P event
  constraints : ∀ {w e}, R w → partAt m w = some e → e.tag = tagSequence →
    ∀ event ∈ shortValueReads m e.contents tagBoolean, P event

namespace Discipline
variable {m : Memory} {R : Region → Prop} {P : Event → Prop} (D : Discipline m R P)
include D

variable {e : Asn1Element} {offset : ℕ} {w : Region}

lemma oid (hw : R w) (h : oidPart m w = some e) : R e.contents :=
  D.contents hw (partAt_of_tagged (Option.filter_eq_some_iff.mp h).1)

section
variable (hw : R w)
include hw

lemma elementReads : ∀ event ∈ elementReads m w, P event := by
  unfold X509.elementReads
  split
  · exact forall_mem_nil _
  rename_i hsize
  refine forall_mem_cons.mpr ⟨D.read hw (by omega), forall_mem_cons.mpr
    ⟨D.read hw (by omega), ?_⟩⟩
  split
  · exact forall_mem_nil _
  rename_i hoctets
  refine forall_mem_cons.mpr ⟨D.read hw (by omega), ?_⟩
  split
  · exact forall_mem_nil _
  · exact forall_mem_singleton.mpr (D.read hw (by omega))

lemma elementReads_if {c : Prop} [Decidable c] :
    ∀ event ∈ if c then X509.elementReads m w else [], P event := by
  split
  · exact D.elementReads hw
  · exact forall_mem_nil _

lemma visit {next : Asn1Element → List Event}
    (hnext : ∀ e, partAt m w = some e → ∀ event ∈ next e, P event) :
    ∀ event ∈ visit m w next, P event := by
  refine forall_mem_append.mpr ⟨D.elementReads hw, ?_⟩
  cases he : partAt m w with
  | none => exact forall_mem_nil _
  | some e => exact hnext e he

lemma compareReads (bs : List Byte) (i : ℕ) (h : i + bs.length ≤ w.size) :
    ∀ event ∈ compareReads m w i bs, P event := by
  induction bs generalizing i with
  | nil => exact forall_mem_nil _
  | cons b bs ih =>
    rw [length_cons] at h
    refine forall_mem_cons.mpr ⟨D.read hw (by omega), ?_⟩
    split
    · exact ih _ (by omega)
    · exact forall_mem_nil _

/-- Behind the element of a region, if there is one. -/
lemma stepOver {found : Option Asn1Element} (h : ∀ e, found = some e → partAt m w = some e) :
    R (w.drop (stepOver found)) := by
  cases found with
  | none => exact hw
  | some e => exact D.next hw (h e rfl)

end

variable {oid : Asn1Element}

lemma matchReads (hoid : R oid.contents) (expected : List Byte) :
    ∀ event ∈ matchReads m oid expected, P event := by
  unfold X509.matchReads
  split
  · rename_i hlen
    exact D.compareReads hoid expected 0 (by rw [Nat.zero_add]; exact hlen.ge)
  · exact forall_mem_nil _

lemma matchAnyReads (hoid : R oid.contents) (known : List (List Byte)) :
    ∀ event ∈ matchAnyReads m oid known, P event := by
  induction known with
  | nil => exact forall_mem_nil _
  | cons expected rest ih =>
    refine forall_mem_append.mpr ⟨D.matchReads hoid expected, ?_⟩
    split
    · exact forall_mem_nil _
    · exact ih

lemma copyReads (he : R e.contents) : ∀ event ∈ copyReads e, P event := by
  refine forall_mem_singleton.mpr (D.read he ?_)
  rw [Nat.zero_add]
  exact Nat.min_le_left _ _

lemma nameAttributeReads {attr : Asn1Element} (hattr : R attr.contents) (names : Names) :
    ∀ event ∈ nameAttributeReads m attr names, P event := by
  unfold X509.nameAttributeReads
  split
  · exact forall_mem_nil _
  refine forall_mem_append.mpr ⟨D.elementReads hattr, ?_⟩
  split
  · exact forall_mem_nil _
  rename_i oid hoid
  split
  · have hrest := D.behindOid hattr hoid
    refine D.visit hrest fun val hval => ?_
    refine forall_mem_append.mpr ⟨D.matchAnyReads (D.oid hattr hoid) _, ?_⟩
    split_ifs
    · exact D.copyReads (D.contents hrest hval)
    · exact forall_mem_nil _
    · exact D.copyReads (D.contents hrest hval)
    · exact forall_mem_nil _
    · exact forall_mem_nil _
  · exact forall_mem_nil _

lemma secondsReads (hw : R w) {present : Bool}
    (h : present = true → offset + 2 ≤ w.size) :
    ∀ event ∈ secondsReads m w offset present, P event := by
  unfold X509.secondsReads
  split
  · rename_i hpres
    have hsize := h hpres
    refine forall_mem_cons.mpr ⟨D.read hw (by omega), ?_⟩
    split
    · exact forall_mem_singleton.mpr (D.read hw hsize)
    · exact forall_mem_nil _
  · exact forall_mem_nil _

lemma timeReads (ht : R e.contents) : ∀ event ∈ timeReads m e, P event := by
  unfold X509.timeReads
  dsimp only
  split_ifs with hnull hutc hshort hgeneral hshort
  · exact forall_mem_nil _
  · exact forall_mem_nil _
  · refine forall_mem_cons.mpr ⟨D.read ht (by omega), D.secondsReads ht fun h => ?_⟩
    have := of_decide_eq_true h
    omega
  · exact forall_mem_nil _
  · refine forall_mem_cons.mpr ⟨D.read ht (by omega), D.secondsReads ht fun h => ?_⟩
    have := of_decide_eq_true h
    omega
  · exact forall_mem_nil _

lemma validityReads {validity : Asn1Element} (hv : R validity.contents) :
    ∀ event ∈ validityReads m validity, P event := by
  have hsecond := D.stepOver hv fun _ => id
  refine forall_mem_append.mpr ⟨D.visit hv fun e he => D.timeReads (D.contents hv he), ?_⟩
  split
  · exact D.visit hsecond fun e he => D.timeReads (D.contents hsecond he)
  · exact forall_mem_nil _

lemma algorithmReads {algorithm : Asn1Element} (ha : R algorithm.contents)
    (known : List (List Byte)) : ∀ event ∈ algorithmReads m algorithm known, P event := by
  refine forall_mem_append.mpr ⟨D.elementReads ha, ?_⟩
  split
  · exact forall_mem_nil _
  · rename_i oid hoid
    exact D.matchAnyReads (D.oid ha hoid) known

lemma rsaKeyReads (hw : R w) : ∀ event ∈ rsaKeyReads m w, P event := by
  refine forall_mem_append.mpr ⟨D.elementReads hw, ?_⟩
  split
  · exact forall_mem_nil _
  rename_i rsa hrsa
  have hrsa := D.contents hw (partAt_of_tagged hrsa)
  refine forall_mem_append.mpr ⟨D.visit hrsa fun e he => ?_, ?_⟩
  · split
    · rename_i hmodulus
      exact forall_mem_singleton.mpr (D.read (D.contents hrsa he) hmodulus.2)
    · exact forall_mem_nil _
  exact D.elementReads_if (D.stepOver hrsa fun _ => partAt_of_tagged)

lemma ecKeyReads (hw : R w) : ∀ event ∈ ecKeyReads m w, P event := by
  unfold X509.ecKeyReads
  split
  · rename_i hsize
    refine forall_mem_cons.mpr ⟨D.read hw (by omega), ?_⟩
    split
    · exact forall_mem_cons.mpr ⟨D.read hw (by omega),
        forall_mem_singleton.mpr (D.read hw (by omega))⟩
    · exact forall_mem_nil _
  · exact forall_mem_nil _

lemma publicKeyReads {spki : Asn1Element} (hs : R spki.contents) :
    ∀ event ∈ publicKeyReads m spki, P event := by
  have hrest := D.stepOver hs fun _ => @partAt_of_tagged m _ tagSequence _
  refine forall_mem_append.mpr ⟨D.visit hs fun e he => ?_, ?_⟩
  · split
    · exact D.algorithmReads (D.contents hs he) _
    · exact forall_mem_nil _
  split
  · refine D.visit hrest fun bits hbits => ?_
    split
    · exact forall_mem_nil _
    rename_i htag
    have hkey := D.key hrest hbits (not_not.mp htag)
    split
    · exact D.rsaKeyReads hkey
    · exact D.ecKeyReads hkey
    · exact forall_mem_nil _
  · exact forall_mem_nil _

lemma versionReads {tbs : Asn1Element} (ht : R tbs.contents) :
    ∀ event ∈ versionReads m tbs, P event := by
  refine D.visit ht fun e he => ?_
  split
  · rename_i htag
    exact D.version ht he htag
  · exact forall_mem_nil _

lemma basicConstraintsReads {ext : Asn1Element} (hext : R ext.contents) :
    ∀ event ∈ basicConstraintsReads m ext, P event := by
  refine D.visit hext fun e he => ?_
  split
  · rename_i htag
    exact D.constraints hext he htag
  · exact forall_mem_nil _

lemma signatureReads {root tbs : Asn1Element} (hr : R root.contents)
    (htbs : partAt m root.contents = some tbs) : ∀ event ∈ signatureReads m root tbs, P event := by
  have hfirst := D.next hr htbs
  have hsecond : R (root.contents.drop (tbs.extent + if tbs.extent < root.contents.size then
      X509.stepOver (partAt m (root.contents.drop tbs.extent)) else 0)) := by
    rw [← Region.drop_drop]
    split
    · exact D.stepOver hfirst fun _ => id
    · exact hfirst
  exact forall_mem_append.mpr ⟨D.elementReads_if hfirst, D.elementReads_if hsecond⟩

lemma scanTagged_bind {α : Type} {f : Asn1Element → Scan α} {cert : Certificate} {tag : Byte}
    (hw : R w) (hf : ∀ e, partAt m w = some e → All P (f e)) :
    All P (scanTagged cert m w tag >>= f) := by
  refine all_bind (all_bind (all_note (D.elementReads hw)) fun _ _ => all_silent _) fun e he => ?_
  rw [X509.scanTagged, result_bind] at he
  exact hf e (partAt_of_tagged (orRefuse_eq_ok.mp he))

/-- The serial number follows the version or is the first element. -/
lemma parseVersion_offset {cert : Certificate} {tbs : Asn1Element} {version serialOffset : ℕ}
    (ht : R tbs.contents) (h : parseVersion cert m tbs = .ok (version, serialOffset)) :
    R (tbs.contents.drop serialOffset) := by
  obtain ⟨e, he, h⟩ := bind_eq_ok.mp h
  have hpart : partAt m tbs.contents = some e := orRefuse_eq_ok.mp he
  split at h
  · cases h
    exact D.next ht hpart
  · cases h
    exact ht

variable {σ : Type} (hmoves : ∀ {w e}, R w → partAt m w = some e → e.extent = 0 → P .standstill)
include hmoves

lemma elementWalk {guard : σ → Bool} {idle : Byte → Bool} {body : Asn1Element → σ → Scan (σ × Bool)}
    (hw : R (w.drop offset)) (hbody : ∀ e s, R e.contents → All P (body e s)) (fuel : ℕ) (s : σ) :
    All P ((elementWalk m w guard idle).loop .running .standstill body fuel offset s) := by
  have hfound : ∀ {o s e}, ((X509.elementWalk m w guard idle).fetch o s).2 = some e →
      partAt m (w.drop o) = some e := by
    intro o s e h
    dsimp only [X509.elementWalk] at h
    split at h
    · exact h
    · cases h
  refine Walk.all_loop (I := fun o => R (w.drop o)) (fun o s ho => ?_)
    (fun o s e ho he => hbody e s (D.contents ho (hfound he)))
    (fun o s e ho he => ?_) (fun o s e ho he hwidth => hmoves ho (hfound he) hwidth) fuel hw s
  · dsimp only [X509.elementWalk]
    split
    · exact D.elementReads ho
    · exact forall_mem_nil _
  · rw [← Region.drop_drop]
    exact D.next ho (hfound he)

lemma scanAll {body : Asn1Element → σ → Scan σ} (hw : R (w.drop offset))
    (hbody : ∀ e s, R e.contents → All P (body e s)) (fuel : ℕ) (s : σ) :
    All P (scanAll m w body fuel offset s) :=
  D.elementWalk hmoves hw (fun e s he => all_bind (hbody e s he) fun _ _ => all_pure _) _ _

lemma scanNameSequence {name : Asn1Element} (hname : R name.contents) (fuel : ℕ) :
    All P (scanNameSequence fuel m name) := by
  have hname : R (name.contents.drop 0) := hname
  refine D.scanAll hmoves hname (fun set names hset => ?_) _ _
  split
  · exact all_pure _
  · have hset : R (set.contents.drop 0) := hset
    exact D.scanAll hmoves hset (fun attr names hattr =>
      all_bind (all_note (D.nameAttributeReads hattr names)) fun _ _ => all_pure _) _ _

lemma scanSanExtension {ext : Asn1Element} (hext : R ext.contents) (fuel : ℕ)
    (cert : Certificate) : All P (scanSanExtension fuel m ext cert) := by
  refine all_bind (all_note (D.elementReads hext)) fun _ _ => ?_
  split
  · exact all_pure _
  rename_i seq hseq
  have hseq : R (seq.contents.drop 0) := D.contents hext (partAt_of_tagged hseq)
  refine D.elementWalk hmoves hseq (fun name cert hname => ?_) _ _
  split
  · exact all_bind (all_note (D.copyReads hname)) fun _ _ => all_pure _
  · exact all_pure _

lemma scanExtension {item : Asn1Element} (hitem : R item.contents)
    (hoid : oidPart m item.contents = some oid) (fuel : ℕ) (cert : Certificate) :
    All P (scanExtension fuel m item oid cert) := by
  refine D.elementWalk hmoves (D.behindOid hitem hoid) (fun sub cert hsub => ?_) _ _
  split
  · exact all_pure _
  refine all_bind (all_note (D.matchAnyReads (D.oid hitem hoid) _)) fun _ _ => ?_
  split
  · exact all_bind (D.scanSanExtension hmoves hsub fuel cert) fun _ _ => all_pure _
  split
  · exact all_bind (all_note (D.basicConstraintsReads hsub)) fun _ _ => all_pure _
  · exact all_pure _

lemma scanExtensions {exts : Asn1Element} (hexts : R exts.contents) (fuel : ℕ)
    (cert : Certificate) : All P (scanExtensions fuel m exts cert) := by
  refine all_bind (all_note (D.elementReads hexts)) fun _ _ => ?_
  split
  · exact all_pure _
  rename_i seq hseq
  have hseq : R (seq.contents.drop 0) := D.contents hexts (partAt_of_tagged hseq)
  refine D.scanAll hmoves hseq (fun item cert hitem => ?_) _ _
  split
  · exact all_pure _
  refine all_bind (all_note (D.elementReads hitem)) fun _ _ => ?_
  split
  · exact all_pure _
  · rename_i oid hoid
    exact D.scanExtension hmoves hitem hoid fuel cert

lemma scanCertificate {der derLen : ℕ} (hder : R ⟨der, derLen⟩) (fuel : ℕ)
    (held : Certificate) : All P (scanCertificate fuel m der derLen held) := by
  unfold X509.scanCertificate
  split
  · exact all_silent _
  refine D.scanTagged_bind hder fun root hroot => ?_
  have hroot := D.contents hder hroot
  refine D.scanTagged_bind hroot fun tbs hfound => ?_
  have htbs := D.contents hroot hfound
  -- each field starts behind the one before
  have hbehind : ∀ {o e}, R (tbs.contents.drop o) → partAt m (tbs.contents.drop o) = some e →
      R (tbs.contents.drop (o + e.extent)) := by
    intro o e ho he
    rw [← Region.drop_drop]
    exact D.next ho he
  refine all_bind (all_note (D.versionReads htbs)) fun _ _ => all_bind (all_silent _) ?_
  rintro ⟨version, serialOffset⟩ hversion
  have h₁ := D.parseVersion_offset htbs hversion
  refine D.scanTagged_bind h₁ fun serial hserial => ?_
  have h₂ := hbehind h₁ hserial
  refine D.scanTagged_bind h₂ fun algorithm halgorithm => ?_
  refine all_bind (all_note (D.algorithmReads (D.contents h₂ halgorithm) _)) fun _ _ => ?_
  have h₃ := hbehind h₂ halgorithm
  refine D.scanTagged_bind h₃ fun issuer hissuer => ?_
  refine all_bind (D.scanNameSequence hmoves (D.contents h₃ hissuer) fuel) fun names _ => ?_
  have h₄ := hbehind h₃ hissuer
  refine D.scanTagged_bind h₄ fun validity hvalidity => ?_
  refine all_bind (all_note (D.validityReads (D.contents h₄ hvalidity))) fun _ _ => ?_
  have h₅ := hbehind h₄ hvalidity
  refine D.scanTagged_bind h₅ fun subject hsubject => ?_
  refine all_bind (D.scanNameSequence hmoves (D.contents h₅ hsubject) fuel) fun names _ => ?_
  have h₆ := hbehind h₅ hsubject
  refine D.scanTagged_bind h₆ fun spki hspki => ?_
  refine all_bind (all_note (D.publicKeyReads (D.contents h₆ hspki))) fun _ _ => ?_
  refine all_bind (D.scanAll hmoves (hbehind h₆ hspki) (fun e cert he => ?_) _ _) fun cert _ => ?_
  · split
    · exact D.scanExtensions hmoves he fuel cert
    · exact all_pure _
  · exact all_bind (all_note (D.signatureReads hroot hfound)) fun _ _ => all_pure _

end Discipline
end KosKernel.X509
