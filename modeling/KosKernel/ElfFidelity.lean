import KosKernel.ElfFrames

/-! Whether a program that was loaded finds its segments as its file describes them. -/
namespace KosKernel.Elf
open Pmm Vmm List Option

section
variable {file : List Byte} {seg : ProgramHeader} {loadable : List ProgramHeader} {p : ℕ}
  {old : Option View} {offset : Fin pageSize}

def byteOf (view : Option View) (offset : Fin pageSize) : Byte :=
  match view with
  | none => 0
  | some view => view.bytes offset

def InFile (segment : ProgramHeader) (v : ℕ) : Prop :=
  segment.vaddr ≤ v ∧ v < segment.vaddr + segment.filesz

instance (segment : ProgramHeader) (v : ℕ) : Decidable (InFile segment v) :=
  inferInstanceAs (Decidable (_ ∧ _))

def segmentByte (file : List Byte) (segment : ProgramHeader) (v : ℕ) : Byte :=
  if InFile segment v then file.getD (segment.offset + (v - segment.vaddr)) 0 else 0

lemma byteOf_segmentView (hfits : Fits seg) :
    byteOf (segmentView file seg p old) offset = if InFile seg (p * pageSize + offset) then
        segmentByte file seg (p * pageSize + offset)
      else byteOf old offset := by
  have hoff := offset.isLt
  by_cases hin : InFile seg (p * pageSize + offset)
  · have htouch : p ∈ touched seg := by
      refine mem_touched.mpr ⟨p * pageSize + offset, hin.1, ?_, ?_⟩
      · have hend := hin.2
        have hsizes := hfits.sizes
        omega
      · unfold pageSize at *
        omega
    obtain ⟨hstart, hend⟩ := hin
    rw [if_pos ⟨hstart, hend⟩, segmentView, if_pos htouch, segmentByte, if_pos ⟨hstart, hend⟩]
    simp only [byteOf, placed, overlay]
    rw [if_pos]
    omega
  · rw [if_neg hin, segmentView]
    split_ifs with htouch
    · simp only [byteOf, placed, overlay]
      rw [if_neg]
      · cases old <;> rfl
      · rintro ⟨hstart, hend⟩
        exact hin ⟨by omega, by omega⟩
    · rfl

lemma byteOf_untouched (hfits : ∀ seg ∈ loadable, Fits seg)
    (hout : ∀ seg ∈ loadable, ¬InFile seg (p * pageSize + offset)) :
    byteOf (editAll (segmentView file) loadable p old) offset = byteOf old offset := by
  induction loadable generalizing old with
  | nil => rfl
  | cons seg rest ih =>
    change byteOf (editAll (segmentView file) rest p (segmentView file seg p old)) offset = _
    rw [ih (fun s hs => hfits s (mem_cons_of_mem seg hs))
      (fun s hs => hout s (mem_cons_of_mem seg hs)),
      byteOf_segmentView (hfits seg mem_cons_self),
      if_neg (hout seg mem_cons_self)]

lemma not_inFile_of_disjoint {other : ProgramHeader} (hother : Fits other)
    (hdisj : segmentsOverlap seg other = false) {v : ℕ} (hstart : seg.vaddr ≤ v)
    (hend : v < seg.vaddr + seg.memsz) : ¬InFile other v := by
  intro ⟨hin, hout⟩
  have hsizes := hother.sizes
  rw [segmentsOverlap, decide_eq_false_iff_not] at hdisj
  omega

theorem byteOf_loaded (file : List Byte) (p : ℕ) (offset : Fin pageSize)
    (hfits : ∀ seg ∈ loadable, Fits seg)
    (hdisj : loadable.Pairwise fun a b => segmentsOverlap a b = false)
    (hmem : seg ∈ loadable) (hstart : seg.vaddr ≤ p * pageSize + offset)
    (hend : p * pageSize + offset < seg.vaddr + seg.memsz) :
    byteOf (editAll (segmentView file) loadable p none) offset =
      segmentByte file seg (p * pageSize + offset) := by
  obtain ⟨before, after, rfl⟩ := append_of_mem hmem
  obtain ⟨-, hafter, hbefore⟩ := pairwise_append.mp hdisj
  have hothers (other : ProgramHeader) (hother : other ∈ before ∨ other ∈ after) :
      Fits other ∧ ¬InFile other (p * pageSize + offset) := by
    rcases hother with hother | hother
    · have hfit := hfits other (mem_append_left _ hother)
      refine ⟨hfit, not_inFile_of_disjoint hfit ?_ hstart hend⟩
      have hpair := hbefore other hother seg mem_cons_self
      rw [segmentsOverlap] at hpair ⊢
      rw [max_comm, min_comm]
      exact hpair
    have hfit := hfits other (mem_append_right _ (mem_cons_of_mem _ hother))
    exact ⟨hfit, not_inFile_of_disjoint hfit ((pairwise_cons.mp hafter).1 other hother)
      hstart hend⟩
  have hsplit : editAll (segmentView file) (before ++ seg :: after) p none =
      editAll (segmentView file) after p (segmentView file seg p
        (editAll (segmentView file) before p none)) := by
    simp only [editAll, foldl_append, foldl_cons]
  rw [hsplit, byteOf_untouched (fun s hs => (hothers s (Or.inr hs)).1)
      (fun s hs => (hothers s (Or.inr hs)).2), byteOf_segmentView (hfits seg hmem),
    byteOf_untouched (fun s hs => (hothers s (Or.inl hs)).1)
      (fun s hs => (hothers s (Or.inl hs)).2)]
  split_ifs with hin
  · rfl
  · rw [segmentByte, if_neg hin]
    rfl

def View.PermittedBy (view : View) (segment : ProgramHeader) : Prop :=
  view.user = true ∧ view.writable = isWritable segment ∧ view.noExecute = !isExecutable segment

lemma fresh_permittedBy (seg : ProgramHeader) :
    (View.fresh (segmentFlags seg)).PermittedBy seg := by
  unfold View.PermittedBy View.fresh segmentFlags
  cases isWritable seg <;> cases isExecutable seg <;> decide

lemma permissions_kept (file : List Byte) (loadable : List ProgramHeader) (p : ℕ) {view : View}
    (hview : view.PermittedBy seg) :
    ∃ view', editAll (segmentView file) loadable p (some view) = some view' ∧
      view'.PermittedBy seg := by
  induction loadable generalizing view with
  | nil => exact ⟨view, rfl, hview⟩
  | cons next rest ih =>
    change ∃ view', editAll (segmentView file) rest p (segmentView file next p (some view)) = _ ∧ _
    rw [segmentView]
    split_ifs
    · exact ih hview
    · exact ih hview

theorem permissions_loaded (file : List Byte) (hp : p ∈ touchedPages loadable) :
    ∃ view first, editAll (segmentView file) loadable p none = some view ∧ first ∈ loadable ∧
      p ∈ touched first ∧ view.PermittedBy first := by
  induction loadable with
  | nil => simp [touchedPages] at hp
  | cons seg rest ih =>
    by_cases hseg : p ∈ touched seg
    · have hplace : (placed (segmentFlags seg) (overlay file seg (p * pageSize))
          none).PermittedBy seg := fresh_permittedBy seg
      obtain ⟨view, hview, hperm⟩ := permissions_kept file rest p hplace
      refine ⟨view, seg, ?_, mem_cons_self, hseg, hperm⟩
      rw [← hview]
      change editAll (segmentView file) rest p (segmentView file seg p none) = _
      rw [segmentView, if_pos hseg]
    · have hrest : p ∈ touchedPages rest := by
        obtain ⟨other, hother, hpage⟩ := mem_touchedPages.mp hp
        rcases mem_cons.mp hother with rfl | hother
        · exact absurd hpage hseg
        · exact mem_touchedPages.mpr ⟨other, hother, hpage⟩
      obtain ⟨view, first, hview, hfirst, hpage, hperm⟩ := ih hrest
      refine ⟨view, first, ?_, mem_cons_of_mem seg hfirst, hpage, hperm⟩
      rw [← hview]
      change editAll (segmentView file) rest p (segmentView file seg p none) = _
      rw [segmentView, if_neg hseg]

end

variable {loadable : List ProgramHeader}

section
variable {origin : VmmState} {root v : ℕ} {held : Finset ℕ} {m : Machine}

def byteAt (m : Machine) (physical : ℕ) : Byte :=
  m.data (physical / pageSize * pageSize) ⟨physical % pageSize, Nat.mod_lt _ (by decide)⟩

def pageOffset (v : ℕ) : Fin pageSize := ⟨v % pageSize, Nat.mod_lt _ (by decide)⟩

lemma address_split (v : ℕ) : v / pageSize * pageSize + (pageOffset v : ℕ) = v :=
  Nat.div_add_mod' v pageSize

/-- A program finds a byte at an address and has the permissions of a segment there. -/
def Sees (m : Machine) (root v : ℕ) (byte : Byte) (segment : ProgramHeader) : Prop :=
  ∃ physical flags, vmmQueryPageIn m.vmm root v = some (physical, flags) ∧
    byteAt m physical = byte ∧ has flags vmmPageUser = true ∧
    has flags vmmPageWritable = isWritable segment ∧
    has flags vmmPageNoExecute = !isExecutable segment

lemma pagesOf_aligned {s : VmmState} {page : ℕ} {mapping : Mapping}
    (h : pagesOf s root page = some mapping) : mapping.physical % pageSize = 0 := by
  rw [pagesOf, entryMapping] at h
  split_ifs at h
  obtain rfl := some.inj h
  exact entryAddress_aligned _

lemma Accounted.sees_iff (h : Accounted origin root held m.vmm) (hv : v < userLimit) (byte : Byte)
    (seg : ProgramHeader) :
    Sees m root v byte seg ↔ ∃ view, contents m root (v / pageSize) = some view ∧
      view.bytes (pageOffset v) = byte ∧ view.PermittedBy seg := by
  have hquery := query h hv
  cases hpage : pagesOf m.vmm root (v / pageSize) with
  | none =>
    rw [hpage, map_none, map_eq_none_iff] at hquery
    refine iff_of_false (fun ⟨physical, flags, hsome, _⟩ => ?_) fun ⟨view, hview, _⟩ => ?_
    · rw [hquery] at hsome
      cases hsome
    · rw [contents, hpage] at hview
      cases hview
  | some mapping =>
    rw [hpage, map_some] at hquery
    obtain ⟨⟨physical, flags⟩, hsome, hmapping⟩ := map_eq_some_iff.mp hquery
    have halign := pagesOf_aligned hpage
    simp only [mappingOf, Mapping.shift, Mapping.mk.injEq] at hmapping
    obtain ⟨rfl, hwritable, huser, hnoExecute⟩ := hmapping
    have hbyte : byteAt m (mapping.physical + v % pageSize) =
        m.data mapping.physical (pageOffset v) := by
      have hlt : v % pageSize < pageSize := Nat.mod_lt _ (by decide)
      have hframe : (mapping.physical + v % pageSize) / pageSize * pageSize = mapping.physical := by
        unfold pageSize at *
        omega
      have hoff : (mapping.physical + v % pageSize) % pageSize = v % pageSize := by
        unfold pageSize at *
        omega
      simp only [byteAt, hframe, hoff, pageOffset]
    have hcont : contents m root (v / pageSize) = some ⟨m.data mapping.physical,
        mapping.writable, mapping.user, mapping.noExecute⟩ := by
      rw [contents, hpage]
      rfl
    constructor
    · rintro ⟨physical, flags', hsome', hdata, huser', hwritable', hnoExecute'⟩
      obtain ⟨rfl, rfl⟩ := Prod.mk.inj (some.inj (hsome.symm.trans hsome'))
      refine ⟨_, hcont, hbyte.symm.trans hdata, huser.symm.trans huser',
        hwritable.symm.trans hwritable', hnoExecute.symm.trans hnoExecute'⟩
    rintro ⟨view, hview, hdata, huser', hwritable', hnoExecute'⟩
    obtain rfl := some.inj (hcont.symm.trans hview)
    exact ⟨_, flags, hsome, hbyte.trans hdata, huser.trans huser', hwritable.trans hwritable',
      hnoExecute.trans hnoExecute'⟩

/-- A page of a program that was loaded: the segments, but for the guard page and the stack. -/
def imageView (file : List Byte) (loadable : List ProgramHeader) (p : ℕ) : Option View :=
  let loaded := if p = guardPage then none else editAll (segmentView file) loadable p none
  if p ∈ stackPages then some (placed stackFlags (fun _ _ => 0) loaded) else loaded

lemma Accounted.removeGuard_contents (h : Accounted origin root held m.vmm) :
    (∃ held, Accounted origin root held (removeGuard m root).vmm) ∧
      ∀ p < userPages, contents (removeGuard m root) root p =
        if p = guardPage then none else contents m root p := by
  rcases removeGuard_cases h with ⟨hnone, heq⟩ | ⟨-, ⟨frame, -, hheld⟩, hcont⟩
  · rw [heq]
    refine ⟨⟨held, h⟩, fun p _ => ?_⟩
    split_ifs with hp
    · rw [hp, hnone]
    · rfl
  · exact ⟨⟨_, hheld⟩, hcont⟩

section
variable (h : Accounted origin root ∅ m.vmm) (hwf : Wf origin.pmm)
  (hempty : ∀ p < userPages, contents m root p = none)
include h hwf hempty

variable {file : List Byte}

theorem Accounted.loaded_contents (hsome : (elfLoadBinary m root (some file)).1.isSome) :
    ∃ loadable, elfParse file = some loadable ∧
      (∃ held, Accounted origin root held (elfLoadBinary m root (some file)).2.vmm) ∧
      ∀ p < userPages, contents (elfLoadBinary m root (some file)).2 root p =
        imageView file loadable p := by
  have hpos := h.tree.root_pos
  have halign := h.tree.root_aligned
  unfold elfLoadBinary at hsome ⊢
  rw [if_neg (by simp [hpos, halign])] at hsome ⊢
  dsimp only at hsome ⊢
  cases hparse : elfParse file with
  | none =>
    rw [hparse] at hsome
    cases hsome
  | some loadable =>
    obtain ⟨-, hfits, -⟩ := elfParse_spec hparse
    rw [hparse] at hsome
    dsimp only at hsome ⊢
    have hload := loadSegments_outcome h hwf file hfits
    generalize untilFailure (loadSegment file root) loadable m = result at hload hsome ⊢
    obtain ⟨ok, m'⟩ := result
    rcases hload with ⟨rfl, -, -⟩ | ⟨rfl, hm', hcont⟩
    · cases hsome
    dsimp only at hsome ⊢
    rw [setup_empty hm'] at hsome ⊢
    obtain ⟨⟨held, hheld⟩, hguard⟩ := removeGuard_contents hm'
    have hbuilt := built_empty hheld hwf
    generalize buildStack (removeGuard m' root) root ⟨0, none⟩ = result at hbuilt hsome ⊢
    obtain ⟨pointer, m''⟩ := result
    cases pointer with
    | none => cases hsome
    | some pointer =>
      have hedited := hbuilt rfl
      refine ⟨loadable, rfl, ⟨held, hedited.accounted⟩, fun p hp => ?_⟩
      rw [hedited.contents_eq p hp, editAll_stackView, hguard p hp, hcont p hp, hempty p hp]
      rfl

/-- With enough frames for the segments and the stack, a file that stays clear of the guard page
is loaded. -/
theorem Accounted.load_succeeds
    (hparse : elfParse file = some loadable) (hguard : guardPage ∉ touchedPages loadable)
    (henough : (placesFor (touchedPages loadable ∪ stackPages)).card ≤ origin.pmm.freeFrames) :
    (elfLoadBinary m root (some file)).1.isSome := by
  have hpos := h.tree.root_pos
  have halign := h.tree.root_aligned
  obtain ⟨-, hfits, -⟩ := elfParse_spec hparse
  have hnotShort : ¬Short origin ∅ (touchedPages loadable ∪ stackPages) := by
    rw [Short, Finset.card_empty]
    omega
  unfold elfLoadBinary
  rw [if_neg (by simp [hpos, halign])]
  simp only [hparse]
  have hload := loadSegments_outcome h hwf file hfits
  generalize untilFailure (loadSegment file root) loadable m = result at hload ⊢
  obtain ⟨ok, m'⟩ := result
  rcases hload with ⟨rfl, -, hshort⟩ | ⟨rfl, hm', hcont⟩
  · refine absurd (hshort _ Finset.subset_union_left fun p hp hsome => ?_) hnotShort
    rw [hempty p hp] at hsome
    cases hsome
  have hmap (p : ℕ) (hp : p < userPages) (hsome : (contents m' root p).isSome) :
      p ∈ touchedPages loadable := by
    rw [hcont p hp, hempty p hp, editAll_segmentView_isSome] at hsome
    simpa using hsome
  have hremove : removeGuard m' root = m' := by
    rcases removeGuard_cases hm' with ⟨-, heq⟩ | ⟨hsome, -⟩
    · exact heq
    · exact absurd (hmap guardPage (page_lt guard_lt) hsome) hguard
  dsimp only
  rw [setup_empty hm', hremove]
  have hbuilt := built_some hm' hwf Finset.subset_union_right
    (fun p hp hsome => Finset.mem_union_left _ (hmap p hp hsome)) hnotShort
  generalize buildStack m' root ⟨0, none⟩ = result at hbuilt ⊢
  obtain ⟨pointer, m''⟩ := result
  cases pointer with
  | none => cases hbuilt
  | some pointer => rfl

end
end

def Faithful (file : List Byte) (m : Machine) (root : ℕ) (segment : ProgramHeader) : Prop :=
  ∀ v, segment.vaddr ≤ v → v < segment.vaddr + segment.memsz →
    Sees m root v (segmentByte file segment v) segment

/-- Nothing of the file is in the way of the stack, and segments that share a page ask for the
same permissions. -/
structure Compatible (file : List Byte) : Prop where
  guard_free : ∀ segment ∈ loadSegments file, guardPage ∉ touched segment
  stack_zero : ∀ segment ∈ loadSegments file, ∀ v, InFile segment v → v / pageSize ∈ stackPages →
    segmentByte file segment v = 0
  same_flags : ∀ a ∈ loadSegments file, ∀ b ∈ loadSegments file, ∀ p ∈ touched a, p ∈ touched b →
    isWritable a = isWritable b ∧ isExecutable a = isExecutable b

variable {file : List Byte} {m : Machine} {root : ℕ}

lemma guardPage_notMem_stackPages : guardPage ∉ stackPages := by decide

section
variable (hfits : ∀ seg ∈ loadSegments file, Fits seg)
  (hsees : ∀ v < userLimit, ∀ byte seg, Sees m root v byte seg ↔
    ∃ view, imageView file (loadSegments file) (v / pageSize) = some view ∧
      view.bytes (pageOffset v) = byte ∧ view.PermittedBy seg)
include hfits hsees

variable {seg : ProgramHeader}

lemma Faithful.view (h : Faithful file m root seg)
    (hseg : seg ∈ loadSegments file) {v : ℕ} (hstart : seg.vaddr ≤ v)
    (hend : v < seg.vaddr + seg.memsz) :
    ∃ view, imageView file (loadSegments file) (v / pageSize) = some view ∧
      view.bytes (pageOffset v) = segmentByte file seg v ∧ view.PermittedBy seg := by
  have hinside := (hfits seg hseg).inside (by omega)
  exact (hsees v (by omega) _ _).mp (h v hstart hend)

lemma compatible_of_faithful (h : ∀ seg ∈ loadSegments file, Faithful file m root seg) :
    Compatible file := by
  refine ⟨fun seg hseg htouch => ?_, fun seg hseg v hin hstack => ?_,
    fun a ha b hb p hpa hpb => ?_⟩
  · obtain ⟨v, hstart, hend, hpage⟩ := mem_touched.mp htouch
    obtain ⟨view, hview, -⟩ := (h seg hseg).view hfits hsees hseg hstart hend
    rw [hpage, imageView, if_pos rfl, if_neg guardPage_notMem_stackPages] at hview
    cases hview
  · obtain ⟨hstart, hend⟩ := hin
    have hsizes := (hfits seg hseg).sizes
    obtain ⟨view, hview, hbyte, -⟩ := (h seg hseg).view hfits hsees hseg hstart (by omega)
    rw [imageView, if_pos hstack] at hview
    obtain rfl := some.inj hview
    exact hbyte.symm
  obtain ⟨v, hstart, hend, hpage⟩ := mem_touched.mp hpa
  obtain ⟨w, hstart', hend', hpage'⟩ := mem_touched.mp hpb
  obtain ⟨view, hview, -, hperm⟩ := (h a ha).view hfits hsees ha hstart hend
  obtain ⟨view', hview', -, hpermitted'⟩ := (h b hb).view hfits hsees hb hstart' hend'
  rw [hpage] at hview
  rw [hpage'] at hview'
  obtain rfl := some.inj (hview.symm.trans hview')
  refine ⟨hperm.2.1.symm.trans hpermitted'.2.1, ?_⟩
  exact Bool.not_inj (hperm.2.2.symm.trans hpermitted'.2.2)

lemma faithful_of_compatible (hcompat : Compatible file)
    (hdisj : (loadSegments file).Pairwise fun a b => segmentsOverlap a b = false) (hseg : seg ∈ loadSegments file) :
    Faithful file m root seg := by
  intro v hstart hend
  have hinside := (hfits seg hseg).inside (by omega)
  have htouch : v / pageSize ∈ touched seg := mem_touched.mpr ⟨v, hstart, hend, rfl⟩
  obtain ⟨view, first, hview, hfirst, hpage, hperm⟩ := permissions_loaded file
    (mem_touchedPages.mpr ⟨seg, hseg, htouch⟩)
  have hflags : view.PermittedBy seg := by
    obtain ⟨hwritable, hexecutable⟩ := hcompat.same_flags first hfirst seg hseg _ hpage htouch
    exact ⟨hperm.1, hperm.2.1.trans hwritable, hperm.2.2.trans (by rw [hexecutable])⟩
  have hbyte := byteOf_loaded file (v / pageSize) (pageOffset v) hfits
    hdisj hseg (by rwa [address_split]) (by rwa [address_split])
  rw [hview, address_split] at hbyte
  have hguard : v / pageSize ≠ guardPage := fun heq => hcompat.guard_free seg hseg (heq ▸ htouch)
  refine (hsees v (by omega) _ _).mpr ?_
  rw [imageView, if_neg hguard, hview]
  split_ifs with hstack
  · refine ⟨_, rfl, ?_, hflags⟩
    by_cases hin : InFile seg v
    · exact (hcompat.stack_zero seg hseg v hin hstack).symm
    · rw [segmentByte, if_neg hin]
      rfl
  · exact ⟨view, rfl, hbyte, hflags⟩

end

def loadFresh (s : VmmState) (data : ℕ → PageBytes) (file : List Byte) :
    Option BinaryImage × Machine :=
  elfLoadBinary ⟨(vmmCreateAddressSpace s).2, data⟩ (vmmCreateAddressSpace s).1 (some file)

section
variable {s : VmmState} (hwf : Wf s.pmm) (hroot : (vmmCreateAddressSpace s).1 ≠ 0)
  (data : ℕ → PageBytes)
include hwf hroot

lemma loadFresh_sees (hloaded : (loadFresh s data file).1.isSome) :
    (∀ seg ∈ loadSegments file, Fits seg) ∧
      (loadSegments file).Pairwise (fun a b => segmentsOverlap a b = false) ∧
      ∀ v < userLimit, ∀ byte seg,
        Sees (loadFresh s data file).2 (vmmCreateAddressSpace s).1 v byte seg ↔
          ∃ view, imageView file (loadSegments file) (v / pageSize) = some view ∧
            view.bytes (pageOffset v) = byte ∧ view.PermittedBy seg := by
  obtain ⟨loadable, hparse, ⟨held, hheld⟩, hcont⟩ := Accounted.loaded_contents
    (m := ⟨(vmmCreateAddressSpace s).2, data⟩) (create_accounted hwf hroot) hwf
    (fun p hp => created_contents hwf hroot data hp) hloaded
  obtain ⟨rfl, hfits, hdisj⟩ := elfParse_spec hparse
  refine ⟨hfits, hdisj, fun v hv byte seg => ?_⟩
  rw [loadFresh, Accounted.sees_iff hheld hv, hcont _ (page_lt hv)]

lemma loadFresh_succeeds (hparse : elfParse file = some loadable)
    (hguard : guardPage ∉ touchedPages loadable)
    (henough : (placesFor (touchedPages loadable ∪ stackPages)).card ≤ s.pmm.freeFrames) :
    (loadFresh s data file).1.isSome :=
  Accounted.load_succeeds (m := ⟨(vmmCreateAddressSpace s).2, data⟩) (create_accounted hwf hroot)
    hwf (fun _ hp => created_contents hwf hroot data hp) hparse hguard henough

end

/-- A loaded program finds its segments as the file describes them if and only if they are
compatible with the stack and with each other. -/
theorem image_fidelity (s : VmmState) (hwf : Wf s.pmm) (hroot : (vmmCreateAddressSpace s).1 ≠ 0)
    (data : ℕ → PageBytes) (file : List Byte) (hloaded : (loadFresh s data file).1.isSome) :
    (∀ segment ∈ loadSegments file,
        Faithful file (loadFresh s data file).2 (vmmCreateAddressSpace s).1 segment) ↔
      Compatible file := by
  obtain ⟨hfits, hdisjoint, hsees⟩ := loadFresh_sees hwf hroot data hloaded
  constructor
  · exact compatible_of_faithful hfits hsees
  · exact fun hcompatible segment hsegment =>
      faithful_of_compatible hfits hsees hcompatible hdisjoint hsegment

def largeState : VmmState :=
  { sampleState with
    pmm := (pmmInitialize resetState (some ⟨some [some ⟨4096, 131072, .usable⟩]⟩)).2
    kernelPml4Phys := 0x100000
    cr3 := 0x100000 }

lemma largeState_wf : Wf largeState.pmm := by
  have hinit : (pmmInitialize resetState
      (some ⟨some [some ⟨4096, 131072, .usable⟩]⟩)).1 = true := by
    decide
  exact (pmmInitialize_wf hinit).1

lemma largeState_root : (vmmCreateAddressSpace largeState).1 ≠ 0 := by decide +kernel

/-- A program of one text segment. -/
theorem image_fidelity_small :
    (loadFresh largeState (fun _ _ => 0) smallProgram).1.isSome ∧
    ∀ segment ∈ loadSegments smallProgram, Faithful smallProgram
      (loadFresh largeState (fun _ _ => 0) smallProgram).2 (vmmCreateAddressSpace largeState).1
      segment := by
  have hparse : elfParse smallProgram = some [⟨ptLoad, 5, 120, imageBase, 2, 2, 0⟩] := by
    decide +kernel
  have hload := (elfParse_spec hparse).1
  have hloaded := loadFresh_succeeds largeState_wf largeState_root (fun _ _ => 0) hparse
    (by decide +kernel) (by decide +kernel)
  refine ⟨hloaded, (image_fidelity largeState largeState_wf largeState_root (fun _ _ => 0)
    smallProgram hloaded).mpr ⟨?_, ?_, ?_⟩⟩
  · rw [← hload]
    decide +kernel
  · rw [← hload]
    intro segment hsegment v hin hstack
    obtain rfl := mem_singleton.mp hsegment
    obtain ⟨hstart, hend⟩ := hin
    obtain ⟨hlow, -⟩ := Finset.mem_Ico.mp hstack
    simp only [imageBase, userStackBottom, userStackTop, userStackSize, pageSize] at *
    omega
  · rw [← hload]
    intro a ha b hb p _ _
    rw [mem_singleton.mp ha, mem_singleton.mp hb]
    exact ⟨rfl, rfl⟩

def sharedProgram : List Byte :=
  elfFile imageBase [⟨ptLoad, 5, 176, imageBase, 2, 2, 0⟩, ⟨ptLoad, 6, 178, imageBase + 2, 1, 1, 0⟩]
    [1, 2, 3]

/-- Data that shares a page with text does not get its permissions. -/
theorem shared_page_unfaithful :
    (loadFresh largeState (fun _ _ => 0) sharedProgram).1.isSome ∧
      ¬∀ segment ∈ loadSegments sharedProgram, Faithful sharedProgram
        (loadFresh largeState (fun _ _ => 0) sharedProgram).2 (vmmCreateAddressSpace largeState).1
        segment := by
  have hparse : elfParse sharedProgram = some [⟨ptLoad, 5, 176, imageBase, 2, 2, 0⟩,
      ⟨ptLoad, 6, 178, imageBase + 2, 1, 1, 0⟩] := by
    decide +kernel
  have hload := (elfParse_spec hparse).1
  have hloaded := loadFresh_succeeds largeState_wf largeState_root (fun _ _ => 0) hparse
    (by decide +kernel) (by decide +kernel)
  refine ⟨hloaded, fun hfaithful => ?_⟩
  obtain ⟨hfits, -, hsees⟩ := loadFresh_sees largeState_wf largeState_root (fun _ _ => 0) hloaded
  have hflags := (compatible_of_faithful hfits hsees hfaithful).same_flags
  rw [← hload] at hflags
  have hsame := hflags _ mem_cons_self _ (mem_cons_of_mem _ mem_cons_self)
    (imageBase / pageSize) (by decide +kernel) (by decide +kernel)
  revert hsame
  decide

end KosKernel.Elf
