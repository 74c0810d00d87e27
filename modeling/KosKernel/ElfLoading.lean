import KosKernel.ElfPages

/-! What the loops of the loader do to the pages of an address space. -/
namespace KosKernel.Elf
open Pmm Vmm Function List

section
variable {file : List Byte} {loadable : List ProgramHeader}

def loadSegments (file : List Byte) : List ProgramHeader :=
  ((range (programHeaderCount file)).map (programHeader file)).filter
    fun header => header.type = ptLoad

/-- A segment fits in the user half and its part in the file fits in it. -/
structure Fits (segment : ProgramHeader) : Prop where
  sizes : segment.filesz ≤ segment.memsz
  inside : 0 < segment.memsz → segment.vaddr + segment.memsz < userLimit

lemma field_lt (file : List Byte) (offset size : ℕ) : field file offset size < 256 ^ size :=
  ByteMemory.readBytes_lt _ _ _

lemma Fits.of_valid {segment : ProgramHeader} (hvalid : segmentIsValid file segment = true)
    (hvaddr : segment.vaddr < 2 ^ 64) (hmemsz : segment.memsz < 2 ^ 64) : Fits segment := by
  simp only [segmentIsValid, Bool.and_eq_true, Bool.not_eq_true', decide_eq_false_iff_not,
    Bool.and_eq_false_imp, Bool.or_eq_false_iff, decide_eq_true_eq] at hvalid
  obtain ⟨⟨⟨⟨hsizes, -⟩, -⟩, hend⟩, -⟩ := hvalid
  refine ⟨by omega, fun hpos => ?_⟩
  have hbounds := hend hpos
  unfold userLimit at *
  omega

lemma collectLoadable_spec {headers : List ProgramHeader}
    (h : collectLoadable file headers = some loadable) :
    loadable = headers.filter (fun header => header.type = ptLoad) ∧
      ∀ segment ∈ loadable, segmentIsValid file segment = true := by
  induction headers generalizing loadable with
  | nil =>
    obtain rfl := Option.some.inj h
    simp
  | cons header rest ih =>
    rw [collectLoadable] at h
    split_ifs at h with hinterp hload hvalid
    · obtain ⟨tail, htail, rfl⟩ := Option.map_eq_some_iff.mp h
      obtain ⟨hfilter, hall⟩ := ih htail
      rw [filter_cons_of_pos (by simpa using hload), hfilter]
      refine ⟨rfl, fun segment hmem => ?_⟩
      rcases mem_cons.mp hmem with rfl | hmem
      · simpa using hvalid
      · exact hall segment (hfilter ▸ hmem)
    · rw [filter_cons_of_neg (by simpa using hload)]
      exact ih h

lemma pairwise_of_nonOverlapping (h : nonOverlapping loadable = true) :
    loadable.Pairwise fun a b => segmentsOverlap a b = false := by
  induction loadable with
  | nil => exact List.Pairwise.nil
  | cons segment rest ih =>
    rw [nonOverlapping, Bool.and_eq_true, all_eq_true] at h
    exact List.Pairwise.cons (fun other hother => by simpa using h.1 other hother) (ih h.2)

theorem elfParse_spec (h : elfParse file = some loadable) :
    loadable = loadSegments file ∧ (∀ segment ∈ loadable, Fits segment) ∧
      loadable.Pairwise fun a b => segmentsOverlap a b = false := by
  rw [elfParse] at h
  split_ifs at h with hhead
  cases hcollect : collectLoadable file
      ((range (programHeaderCount file)).map (programHeader file)) with
  | none => simp [hcollect] at h
  | some collected =>
    rw [hcollect] at h
    dsimp only at h
    split_ifs at h with hrefuse
    obtain rfl := Option.some.inj h
    obtain ⟨hfilter, hvalid⟩ := collectLoadable_spec hcollect
    refine ⟨hfilter, fun segment hmem => ?_, pairwise_of_nonOverlapping ?_⟩
    · have hhead : segment ∈ (range (programHeaderCount file)).map (programHeader file) := by
        rw [hfilter] at hmem
        exact mem_of_mem_filter hmem
      obtain ⟨index, -, rfl⟩ := mem_map.mp hhead
      exact Fits.of_valid (hvalid _ hmem) (field_lt _ _ 8) (field_lt _ _ 8)
    · simp only [not_or, Bool.not_eq_false] at hrefuse
      exact hrefuse.2.1

def ProgramHeader.bytes (header : ProgramHeader) : List Byte :=
  (quadwordBytes header.type).take 4 ++ (quadwordBytes header.flags).take 4 ++
    ([header.offset, header.vaddr, 0, header.filesz, header.memsz, header.align].flatMap
      quadwordBytes)

/-- A file with these program headers right after the file header. -/
def elfFile (entry : ℕ) (headers : List ProgramHeader) (body : List Byte) : List Byte :=
  [0x7f, 0x45, 0x4c, 0x46, 2, 1, 1] ++ replicate 9 0 ++ [2, 0, 62, 0, 1, 0, 0, 0] ++
    [entry, headerSize, 0].flatMap quadwordBytes ++ replicate 4 0 ++
    [headerSize, programHeaderSize, headers.length, 0, 0, 0].flatMap
      (fun value => (quadwordBytes value).take 2) ++
    headers.flatMap ProgramHeader.bytes ++ body

end

section
structure View where
  bytes : PageBytes
  writable : Bool
  user : Bool
  noExecute : Bool

def View.fresh (flags : BitVec 64) : View :=
  ⟨fun _ => 0, has flags vmmPageWritable, has flags vmmPageUser, has flags vmmPageNoExecute⟩

/-- The page after an edit: the page that was there or a new one, with other bytes. -/
def placed (flags : BitVec 64) (edit : PageBytes → PageBytes) (old : Option View) : View :=
  let view := old.getD (View.fresh flags)
  { view with bytes := edit view.bytes }

def contents (m : Machine) (root page : ℕ) : Option View :=
  (pagesOf m.vmm root page).map fun mapping =>
    ⟨m.data mapping.physical, mapping.writable, mapping.user, mapping.noExecute⟩

lemma contents_isSome (m : Machine) (root page : ℕ) :
    (contents m root page).isSome = (pagesOf m.vmm root page).isSome := by
  rw [contents, Option.isSome_map]

variable {origin : VmmState} {root page : ℕ} {held : Finset ℕ} {m m' : Machine}

lemma Accounted.contents_update (h : Accounted origin root held m'.vmm) {mapping : Mapping}
    (bytes : PageBytes) (hpage : page < userPages)
    (hpages : ∀ p < userPages, pagesOf m'.vmm root p =
      if p = page then some mapping else pagesOf m.vmm root p)
    (hdata : m'.data = update m.data mapping.physical bytes) {p : ℕ} (hp : p < userPages) :
    contents m' root p =
      if p = page then some ⟨bytes, mapping.writable, mapping.user, mapping.noExecute⟩
      else contents m root p := by
  have hmap : pagesOf m'.vmm root page = some mapping := by rw [hpages page hpage, if_pos rfl]
  rw [contents, hdata]
  by_cases heq : p = page
  · rw [if_pos heq, heq, hmap, Option.map_some, update_self]
  rw [if_neg heq, contents]
  have hold : pagesOf m'.vmm root p = pagesOf m.vmm root p := by rw [hpages p hp, if_neg heq]
  rw [← hold]
  cases hother : pagesOf m'.vmm root p with
  | none => rfl
  | some other =>
    have hdist : other.physical ≠ mapping.physical := fun hsame =>
      heq (physical_inj h hp hpage hother hmap hsame)
    rw [Option.map_some, Option.map_some, update_of_ne hdist]

end

section
variable {origin : VmmState} {root va : ℕ} {held : Finset ℕ} {m : Machine}

lemma loadPage_eq (file : List Byte) (segment : ProgramHeader) :
    loadPage file root segment m va =
      match frameForPage m.vmm root va (segmentFlags segment) with
      | (none, vmm) => (false, { m with vmm })
      | (some (frame, new), vmm) =>
        (true, ⟨vmm, copySegment file segment va
          (if new then zeroFrame m.data frame else m.data) frame⟩) := by
  rw [loadPage, frameForPage]
  cases vmmQueryPageIn m.vmm root va with
  | some result => rfl
  | none =>
    dsimp only
    split_ifs with hzero
    · rfl
    rcases vmmMapPageIn { m.vmm with pmm := (pmmAllocateFrame m.vmm.pmm).2 } root va
      (pmmAllocateFrame m.vmm.pmm).1 (segmentFlags segment) with ⟨ok, vmm⟩
    cases ok <;> rfl

lemma mapStackPage_eq :
    mapStackPage root m va =
      match frameForPage m.vmm root va stackFlags with
      | (none, vmm) => (none, { m with vmm })
      | (some (frame, new), vmm) =>
        (some ⟨va, frame, new⟩, { vmm, data := zeroFrame m.data frame }) := by
  rw [mapStackPage, frameForPage]
  cases vmmQueryPageIn m.vmm root va with
  | some result => rfl
  | none =>
    dsimp only
    split_ifs with hzero
    · rfl
    rcases vmmMapPageIn { m.vmm with pmm := (pmmAllocateFrame m.vmm.pmm).2 } root va
      (pmmAllocateFrame m.vmm.pmm).1 stackFlags with ⟨ok, vmm⟩
    cases ok <;> rfl

lemma segmentFlags_permissions (segment : ProgramHeader) :
    has (segmentFlags segment) (~~~permissionBits) = false := by
  unfold segmentFlags
  cases isWritable segment <;> cases isExecutable segment <;> decide

/-- The frames that were free at first do not suffice for these pages. -/
def Short (origin : VmmState) (held pages : Finset ℕ) : Prop :=
  origin.pmm.freeFrames < held.card + (placesFor pages).card

structure Edited (origin : VmmState) (root : ℕ) (held : Finset ℕ)
    (edit : ℕ → Option View → Option View) (m m' : Machine) : Prop where
  accounted : Accounted origin root held m'.vmm
  contents_eq : ∀ p < userPages, contents m' root p = edit p (contents m root p)

/-- A step that needs these pages: the frames do not suffice for them and for the pages that are
mapped, or the pages have been edited. -/
def Outcome (origin : VmmState) (root : ℕ) (held : Finset ℕ) (needs : Finset ℕ)
    (edit : ℕ → Option View → Option View) (m : Machine) (result : Bool × Machine) : Prop :=
  (result.1 = false ∧ Accounted origin root held result.2.vmm ∧
      ∀ pages : Finset ℕ, needs ⊆ pages →
        (∀ p < userPages, (contents m root p).isSome → p ∈ pages) → Short origin held pages) ∨
    result.1 = true ∧ Edited origin root held edit m result.2

def editAll {α : Type*} (edit : α → ℕ → Option View → Option View) (xs : List α) (p : ℕ)
    (old : Option View) : Option View :=
  xs.foldl (fun view x => edit x p view) old

theorem Accounted.untilFailure_outcome {α : Type*} {turn : Machine → α → Bool × Machine}
    (needs : α → Finset ℕ) (edit : α → ℕ → Option View → Option View)
    (hmaps : ∀ x p old, (edit x p old).isSome → old.isSome ∨ p ∈ needs x) (xs : List α)
    (hturn : ∀ x ∈ xs, ∀ m : Machine, Accounted origin root held m.vmm →
      Outcome origin root held (needs x) (edit x) m (turn m x))
    (h : Accounted origin root held m.vmm) {needed : Finset ℕ}
    (hneeded : ∀ x ∈ xs, needs x ⊆ needed) :
    Outcome origin root held needed (editAll edit xs) m (untilFailure turn xs m) := by
  induction xs generalizing m with
  | nil => exact .inr ⟨rfl, h, fun p _ => rfl⟩
  | cons x rest ih =>
    rw [untilFailure]
    rcases hres : turn m x with ⟨ok, m'⟩
    have hx := hturn x mem_cons_self m h
    have hneedsx := hneeded x mem_cons_self
    rw [hres] at hx
    rcases hx with ⟨rfl, hm', hshort⟩ | ⟨rfl, hm', hcont⟩
    · exact .inl ⟨rfl, hm', fun pages hpages hmap => hshort pages (hneedsx.trans hpages) hmap⟩
    rcases ih (fun y hy => hturn y (mem_cons_of_mem x hy)) hm'
        (fun y hy => hneeded y (mem_cons_of_mem x hy)) with
      ⟨hfalse, hend, hshort⟩ | ⟨htrue, hend, hrest⟩
    · refine .inl ⟨hfalse, hend, fun pages hpages hmap => ?_⟩
      refine hshort pages hpages fun p hp hsome => ?_
      rw [hcont p hp] at hsome
      rcases hmaps x p _ hsome with hold | hnew
      · exact hmap p hp hold
      · exact hpages (hneedsx hnew)
    refine .inr ⟨htrue, hend, fun p hp => ?_⟩
    rw [hrest p hp, hcont p hp]
    rfl

theorem Accounted.loadPage_outcome (h : Accounted origin root held m.vmm) (hwf : Wf origin.pmm)
    (file : List Byte) (segment : ProgramHeader) (hva : va < userLimit)
    (halign : va % pageSize = 0) :
    Outcome origin root held {va / pageSize} (fun p old => if p = va / pageSize then
      some (placed (segmentFlags segment) (overlay file segment va) old) else old) m
      (loadPage file root segment m va) := by
  rw [loadPage_eq]
  rcases frameForPage_cases h hwf hva halign (segmentFlags_permissions segment) with
    ⟨vmm, heq, hvmm, -, hlacking⟩ | ⟨mapping, new, vmm, heq, hvmm, hbefore, hnew, hpages⟩
  · rw [heq]
    refine .inl ⟨rfl, hvmm, fun pages hneeds hmap => ?_⟩
    refine hlacking pages (Finset.singleton_subset_iff.mp hneeds) fun p hp hsome => ?_
    exact hmap p hp (by rw [contents_isSome]; exact hsome)
  rw [heq]
  dsimp only
  generalize hbytes : (if new then zeroFrame m.data mapping.physical else m.data) = data
  generalize hafter : Machine.mk vmm (copySegment file segment va data mapping.physical) = m'
  obtain ⟨rfl, hdata⟩ : vmm = m'.vmm ∧ m'.data = update m.data mapping.physical
      (overlay file segment va (data mapping.physical)) := by
    refine ⟨by rw [← hafter], ?_⟩
    rw [← hafter, ← hbytes]
    cases new <;> simp [copySegment, zeroFrame]
  refine .inr ⟨rfl, hvmm, fun p hp => ?_⟩
  rw [contents_update hvmm _ (page_lt hva) hpages hdata hp]
  split_ifs with hpage
  · rw [hpage, contents, hbefore, ← hbytes]
    cases new with
    | false => rfl
    | true =>
      rw [hnew rfl]
      simp [placed, zeroFrame, View.fresh, mappingOf]
  · rfl

end

variable {file : List Byte} {segment : ProgramHeader} {p : ℕ}

def touched (segment : ProgramHeader) : Finset ℕ :=
  if segment.memsz = 0 then ∅
  else Finset.Ico (segment.vaddr / pageSize)
    ((segment.vaddr + segment.memsz + pageSize - 1) / pageSize)

def segmentView (file : List Byte) (segment : ProgramHeader) (p : ℕ) (old : Option View) :
    Option View :=
  if p ∈ touched segment then
    some (placed (segmentFlags segment) (overlay file segment (p * pageSize)) old)
  else old

lemma mem_touched : p ∈ touched segment ↔
    ∃ v, segment.vaddr ≤ v ∧ v < segment.vaddr + segment.memsz ∧ v / pageSize = p := by
  unfold touched
  split_ifs with hzero
  · simp only [Finset.notMem_empty, false_iff, not_exists]
    omega
  rw [Finset.mem_Ico]
  constructor
  · intro ⟨hfirst, hlast⟩
    refine ⟨max segment.vaddr (p * pageSize), le_max_left _ _, ?_, ?_⟩
    · unfold pageSize at *
      omega
    · unfold pageSize at *
      omega
  rintro ⟨v, hstart, hend, rfl⟩
  unfold pageSize at *
  omega

lemma segmentPages_eq (segment : ProgramHeader) :
    segmentPages segment = (range' (segment.vaddr / pageSize)
      ((segment.vaddr + segment.memsz + pageSize - 1) / pageSize - segment.vaddr / pageSize)).map
        (· * pageSize) := by
  rw [segmentPages, range'_eq_map_range, map_map]
  rw [← Nat.sub_mul, Nat.mul_div_cancel _ (by decide)]
  refine map_congr_left fun i _ => ?_
  simp only [comp_apply, Nat.add_mul]

lemma mem_segmentPages (hpos : segment.memsz ≠ 0) {va : ℕ} :
    va ∈ segmentPages segment ↔ va % pageSize = 0 ∧ va / pageSize ∈ touched segment := by
  rw [segmentPages_eq, touched, if_neg hpos, Finset.mem_Ico, mem_map]
  constructor
  · rintro ⟨p, hp, rfl⟩
    rw [mem_range'_1] at hp
    rw [Nat.mul_mod_left, address_div]
    omega
  intro ⟨halign, hlow, hhigh⟩
  refine ⟨va / pageSize, ?_, Nat.div_mul_cancel (Nat.dvd_of_mod_eq_zero halign)⟩
  rw [mem_range'_1]
  omega

lemma Fits.touched_lt (h : Fits segment) (hp : p ∈ touched segment) : p < userPages := by
  obtain ⟨v, hstart, hend, rfl⟩ := mem_touched.mp hp
  have hinside := h.inside (by omega)
  exact page_lt (by omega)

lemma editAll_pages (place : ℕ → Option View → View) (first count : ℕ) (old : Option View) :
    editAll (fun va p old => if p = va / pageSize then some (place va old) else old)
      ((range' first count).map (· * pageSize)) p old =
      if p ∈ Finset.Ico first (first + count) then some (place (p * pageSize) old) else old := by
  rw [editAll, foldl_map]
  simp only [address_div]
  induction count generalizing first old with
  | zero =>
    rw [if_neg (by rw [Finset.mem_Ico]; omega)]
    rfl
  | succ count ih =>
    rw [range'_succ, foldl_cons, ih]
    by_cases hp : p = first
    · rw [if_pos hp, if_neg (by rw [Finset.mem_Ico]; omega),
        if_pos (by rw [Finset.mem_Ico]; omega), hp]
    rw [if_neg hp]
    refine if_congr ?_ rfl rfl
    rw [Finset.mem_Ico, Finset.mem_Ico]
    omega

lemma editAll_segmentPages (hpos : segment.memsz ≠ 0) (old : Option View) :
    editAll (fun va p old => if p = va / pageSize then
      some (placed (segmentFlags segment) (overlay file segment va) old) else old)
      (segmentPages segment) p old = segmentView file segment p old := by
  rw [segmentPages_eq, editAll_pages fun va old =>
    placed (segmentFlags segment) (overlay file segment va) old]
  rw [segmentView, touched, if_neg hpos]
  refine if_congr ?_ rfl rfl
  rw [Finset.mem_Ico, Finset.mem_Ico]
  unfold pageSize
  omega

variable {origin : VmmState} {root : ℕ} {held : Finset ℕ} {m : Machine}

lemma segmentView_isSome {old : Option View} (h : (segmentView file segment p old).isSome) :
    old.isSome ∨ p ∈ touched segment := by
  rw [segmentView] at h
  split_ifs at h with hp
  · exact .inr hp
  · exact .inl h

theorem Accounted.loadSegment_outcome (h : Accounted origin root held m.vmm) (hwf : Wf origin.pmm)
    (file : List Byte) (hfits : Fits segment) :
    Outcome origin root held (touched segment) (segmentView file segment) m
      (loadSegment file root m segment) := by
  rw [loadSegment]
  split_ifs with hzero
  · refine .inr ⟨rfl, h, fun p _ => ?_⟩
    rw [segmentView, touched, if_pos hzero, if_neg (Finset.notMem_empty p)]
  have hloop := untilFailure_outcome (fun va => {va / pageSize})
    (fun va p old => if p = va / pageSize then
      some (placed (segmentFlags segment) (overlay file segment va) old) else old)
    (fun va p old hsome => by
      split_ifs at hsome with hp
      · exact .inr (Finset.mem_singleton.mpr hp)
      · exact .inl hsome)
    (segmentPages segment)
    (fun va hva m hm => by
      obtain ⟨halign, hpage⟩ := (mem_segmentPages hzero).mp hva
      have hlt := address_lt (hfits.touched_lt hpage)
      rw [Nat.div_mul_cancel (Nat.dvd_of_mod_eq_zero halign)] at hlt
      exact loadPage_outcome hm hwf file segment hlt halign)
    h (fun va hva => Finset.singleton_subset_iff.mpr ((mem_segmentPages hzero).mp hva).2)
  rcases hloop with hfail | ⟨htrue, hm', hcont⟩
  · exact .inl hfail
  · refine .inr ⟨htrue, hm', fun p hp => ?_⟩
    rw [hcont p hp, editAll_segmentPages hzero]

def touchedPages (loadable : List ProgramHeader) : Finset ℕ := loadable.toFinset.biUnion touched

variable {loadable : List ProgramHeader}

lemma mem_touchedPages : p ∈ touchedPages loadable ↔ ∃ segment ∈ loadable, p ∈ touched segment := by
  simp only [touchedPages, Finset.mem_biUnion, mem_toFinset]

theorem Accounted.loadSegments_outcome (h : Accounted origin root held m.vmm) (hwf : Wf origin.pmm)
    (file : List Byte) (hfits : ∀ segment ∈ loadable, Fits segment) :
    Outcome origin root held (touchedPages loadable) (editAll (segmentView file) loadable) m
      (untilFailure (loadSegment file root) loadable m) :=
  untilFailure_outcome touched (segmentView file) (fun _ _ _ => segmentView_isSome) loadable
    (fun segment hseg _ hm => loadSegment_outcome hm hwf file (hfits segment hseg)) h
    fun segment hseg _ hp => mem_touchedPages.mpr ⟨segment, hseg, hp⟩

lemma editAll_segmentView_isSome {old : Option View} :
    (editAll (segmentView file) loadable p old).isSome ↔ old.isSome ∨ p ∈ touchedPages loadable := by
  induction loadable generalizing old with
  | nil => simp [editAll, touchedPages]
  | cons segment rest ih =>
    change (editAll (segmentView file) rest p (segmentView file segment p old)).isSome ↔ _
    rw [ih, segmentView, mem_touchedPages, mem_touchedPages]
    by_cases hp : p ∈ touched segment
    · simp [hp]
    · simp [hp]

end KosKernel.Elf
