import KosKernel.ElfLoading

/-! What `process_setup_user_stack` does to the pages of an address space. -/
namespace KosKernel.Elf
open Pmm Vmm List Function

def guardPage : ℕ := userStackGuardPage / pageSize

section
variable {origin : VmmState} {root : ℕ} {held : Finset ℕ} {m : Machine}

lemma guard_lt : userStackGuardPage < userLimit := by decide

lemma guard_aligned : userStackGuardPage % pageSize = 0 := by decide

/-- The guard page is unmapped; if it was mapped, nobody has its frame any more. -/
theorem Accounted.removeGuard_cases (h : Accounted origin root held m.vmm) :
    contents m root guardPage = none ∧ removeGuard m root = m ∨ (contents m root guardPage).isSome ∧
        (∃ frame ∉ held, Accounted origin root (insert frame held) (removeGuard m root).vmm) ∧
        ∀ p < userPages, contents (removeGuard m root) root p =
          if p = guardPage then none else contents m root p := by
  have hquery := query_frame h guard_lt guard_aligned
  have hsome : (vmmQueryPageIn m.vmm root userStackGuardPage).isSome =
      (contents m root guardPage).isSome := by
    have hisSome := congrArg Option.isSome hquery
    rw [Option.isSome_map, Option.isSome_map] at hisSome
    rw [hisSome, contents_isSome]
    rfl
  rcases unmap h guard_lt guard_aligned with
    ⟨hnone, -⟩ | ⟨mapping, hmapping, hfresh, haccounted, hpages⟩
  · have hcont : contents m root guardPage = none := by
      rw [contents, show guardPage = userStackGuardPage / pageSize from rfl, hnone]
      rfl
    refine Or.inl ⟨hcont, ?_⟩
    rw [removeGuard, hsome, hcont, if_neg (by simp)]
  have hcont : (contents m root guardPage).isSome := by
    rw [contents_isSome, show guardPage = userStackGuardPage / pageSize from rfl, hmapping]
    rfl
  have heq : removeGuard m root =
      { m with vmm := (vmmUnmapPageIn m.vmm root userStackGuardPage).2 } := by
    rw [removeGuard, hsome, if_pos hcont]
  rw [heq]
  refine Or.inr ⟨hcont, ⟨mapping.physical, hfresh, haccounted⟩, fun p hp => ?_⟩
  rw [contents, contents, hpages p hp]
  change Option.map _ (if p = guardPage then none else _) = _
  split_ifs <;> rfl

end

variable {pages : List StackPage}

section
variable {origin : VmmState} {root va : ℕ} {held : Finset ℕ} {m : Machine}

def stackView (va p : ℕ) (old : Option View) : Option View :=
  if p = va / pageSize then some (placed stackFlags (fun _ _ => 0) old) else old

theorem Accounted.mapStackPage_cases (h : Accounted origin root held m.vmm) (hwf : Wf origin.pmm)
    (hva : va < userLimit) (halign : va % pageSize = 0) :
    (∃ m', mapStackPage root m va = (none, m') ∧ Accounted origin root held m'.vmm ∧
        (∀ p < userPages, pagesOf m'.vmm root p = pagesOf m.vmm root p) ∧
        Lacking origin root held m.vmm (va / pageSize)) ∨
      ∃ mapping new m', mapStackPage root m va = (some ⟨va, mapping.physical, new⟩, m') ∧
        Edited origin root held (stackView va) m m' ∧
        m'.data = zeroFrame m.data mapping.physical ∧
        ∀ p < userPages, pagesOf m'.vmm root p =
          if p = va / pageSize then some mapping else pagesOf m.vmm root p := by
  rw [mapStackPage_eq]
  rcases frameForPage_cases h hwf hva halign (show has stackFlags _ = false by decide) with
    ⟨vmm, heq, hvmm, hpages, hlacking⟩ | ⟨mapping, new, vmm, heq, hvmm, hbefore, hnew, hpages⟩
  · rw [heq]
    exact Or.inl ⟨_, rfl, hvmm, hpages, hlacking⟩
  rw [heq]
  dsimp only
  generalize hafter : Machine.mk vmm (zeroFrame m.data mapping.physical) = m'
  obtain ⟨rfl, hdata⟩ : vmm = m'.vmm ∧ m'.data = zeroFrame m.data mapping.physical := by
    rw [← hafter]
    exact ⟨rfl, rfl⟩
  refine Or.inr ⟨mapping, new, m', rfl, ⟨hvmm, fun p hp => ?_⟩, hdata, hpages⟩
  rw [contents_update hvmm _ (page_lt hva) hpages hdata hp, stackView]
  split_ifs with hpage
  · rw [hpage, contents, hbefore]
    cases new with
    | false => rfl
    | true =>
      rw [hnew rfl]
      simp [placed, View.fresh, mappingOf]
  · rfl

/-- The stack pages that are there: each is mapped to the frame that was noted for it. -/
structure Stacked (s : VmmState) (root : ℕ) (pages : List StackPage) : Prop where
  distinct : (pages.map fun page => page.address / pageSize).Nodup
  range : ∀ page ∈ pages, page.address < userLimit ∧ page.address % pageSize = 0
  frames : ∀ page ∈ pages,
    (pagesOf s root (page.address / pageSize)).map Mapping.physical = some page.frame

lemma Stacked.congr {s s' : VmmState} (h : Stacked s root pages) (hsame : ∀ page ∈ pages,
      pagesOf s' root (page.address / pageSize) = pagesOf s root (page.address / pageSize)) :
    Stacked s' root pages :=
  ⟨h.distinct, h.range, fun page hpage => by rw [hsame page hpage, h.frames page hpage]⟩

theorem Accounted.mapStackPages_cases (addrs : List ℕ) (hwf : Wf origin.pmm)
    (hrange : ∀ va ∈ addrs, va < userLimit ∧ va % pageSize = 0)
    (hdist : (pages.map (fun page => page.address / pageSize) ++
      addrs.map (· / pageSize)).Nodup) (h : Accounted origin root held m.vmm)
    (hpages : Stacked m.vmm root pages) (hzero : ∀ page ∈ pages, m.data page.frame = fun _ => 0) :
    ∃ ok pages' m', mapStackPages root addrs m pages = (ok, pages', m') ∧
      Accounted origin root held m'.vmm ∧ Stacked m'.vmm root pages' ∧
      (ok = true → pages'.length = pages.length + addrs.length ∧
        (∀ page ∈ pages', m'.data page.frame = fun _ => 0) ∧
        Edited origin root held (editAll stackView addrs) m m') ∧
      (ok = false → ∀ needed : Finset ℕ, (∀ va ∈ addrs, va / pageSize ∈ needed) →
        (∀ p < userPages, (contents m root p).isSome → p ∈ needed) → Short origin held needed) := by
  induction addrs generalizing m pages with
  | nil => exact ⟨true, pages, m, rfl, h, hpages, fun _ => ⟨rfl, hzero, h, fun p _ => rfl⟩, nofun⟩
  | cons va rest ih =>
    obtain ⟨hva, halign⟩ := hrange va mem_cons_self
    rw [mapStackPages]
    rcases mapStackPage_cases h hwf hva halign with
      ⟨m', heq, hm', hsame, hlacking⟩ | ⟨mapping, new, m', heq, hedited, hdata, hmap⟩
    · rw [heq]
      refine ⟨false, pages, m', rfl, hm', hpages.congr fun page hpage => ?_, nofun,
        fun _ needed hneeded hthere => ?_⟩
      · exact hsame _ (page_lt (hpages.range page hpage).1)
      · refine hlacking needed (hneeded va mem_cons_self) fun p hp hsome => ?_
        exact hthere p hp (by rw [contents_isSome]; exact hsome)
    rw [heq]
    dsimp only
    have hother (page : StackPage) (hpage : page ∈ pages) :
        page.address / pageSize ≠ va / pageSize := by
      intro hclash
      refine (nodup_append.mp hdist).2.2 _ (mem_map_of_mem hpage) _ ?_ hclash
      exact mem_map_of_mem mem_cons_self
    have hmoved : (pages ++ [StackPage.mk va mapping.physical new]).map
        (fun page => page.address / pageSize) ++ rest.map (· / pageSize) =
        pages.map (fun page => page.address / pageSize) ++ (va :: rest).map (· / pageSize) := by
      simp
    have hstacked : Stacked m'.vmm root (pages ++ [⟨va, mapping.physical, new⟩]) := by
      refine ⟨?_, fun page hpage => ?_, fun page hpage => ?_⟩
      · rw [← hmoved] at hdist
        exact (nodup_append.mp hdist).1
      · rcases mem_append.mp hpage with hold | hnew
        · exact hpages.range page hold
        · obtain rfl := mem_singleton.mp hnew
          exact ⟨hva, halign⟩
      rcases mem_append.mp hpage with hold | hnew
      · rw [hmap _ (page_lt (hpages.range page hold).1), if_neg (hother page hold)]
        exact hpages.frames page hold
      obtain rfl := mem_singleton.mp hnew
      rw [hmap _ (page_lt hva), if_pos rfl]
      rfl
    have hempty : ∀ page ∈ pages ++ [⟨va, mapping.physical, new⟩],
        m'.data page.frame = fun _ => 0 := by
      intro page hpage
      rw [hdata, zeroFrame, update_apply]
      split_ifs with hframe
      · rfl
      rcases mem_append.mp hpage with hold | hnew
      · exact hzero page hold
      · obtain rfl := mem_singleton.mp hnew
        exact absurd rfl hframe
    obtain ⟨ok, pages', m'', hrun, hm'', hpages', hdone, hshort⟩ := ih
      (fun w hw => hrange w (mem_cons_of_mem va hw)) (by rw [hmoved]; exact hdist)
      hedited.accounted hstacked hempty
    refine ⟨ok, pages', m'', hrun, hm'', hpages', fun hok => ?_, fun hok needed hneeded hthere => ?_⟩
    · obtain ⟨hlen, hzero', hedited'⟩ := hdone hok
      refine ⟨?_, hzero', hm'', fun p hp => ?_⟩
      · rw [hlen, length_append, length_singleton, length_cons]
        omega
      · rw [hedited'.contents_eq p hp, hedited.contents_eq p hp]
        rfl
    refine hshort hok needed (fun w hw => hneeded w (mem_cons_of_mem va hw))
      fun p hp hsome => ?_
    rw [hedited.contents_eq p hp, stackView] at hsome
    split_ifs at hsome with hpage
    · rw [hpage]
      exact hneeded va mem_cons_self
    · exact hthere p hp hsome

theorem Accounted.unwound (h : Accounted origin root held m.vmm)
    (hpages : Stacked m.vmm root pages) :
    Accounted origin root held (unwindStack root pages m).vmm := by
  induction pages generalizing m with
  | nil => exact h
  | cons page rest ih =>
    have hnodup := nodup_cons.mp hpages.distinct
    obtain ⟨hva, halign⟩ := hpages.range page mem_cons_self
    have hrest : Stacked m.vmm root rest :=
      ⟨hnodup.2, fun other hother => hpages.range other (mem_cons_of_mem page hother),
        fun other hother => hpages.frames other (mem_cons_of_mem page hother)⟩
    change Accounted origin root held (unwindStack root rest (unwindPage root m page)).vmm
    rw [unwindPage]
    split_ifs with hnew
    swap
    · exact ih h hrest
    rcases unmap h hva halign with
      ⟨hnone, -⟩ | ⟨mapping, hmapping, hfresh, haccounted, hothers⟩
    · have hframe := hpages.frames page mem_cons_self
      rw [hnone] at hframe
      cases hframe
    have hframe : mapping.physical = page.frame := by
      have hnoted := hpages.frames page mem_cons_self
      rw [hmapping] at hnoted
      exact Option.some.inj hnoted
    refine ih ?_ (hrest.congr fun other hother => ?_)
    · have hfree := haccounted.free (Finset.mem_insert_self _ _)
      rw [Finset.erase_insert hfresh, hframe] at hfree
      exact hfree
    have hapart : other.address / pageSize ≠ page.address / pageSize := fun hclash =>
      hnodup.1 (mem_map.mpr ⟨other, hother, hclash⟩)
    have hkept := hothers _ (page_lt (hpages.range other (mem_cons_of_mem page hother)).1)
    rw [if_neg hapart] at hkept
    exact hkept

end

variable {origin : VmmState} {root : ℕ} {held : Finset ℕ} {m : Machine}

def stackPages : Finset ℕ := Finset.Ico (userStackBottom / pageSize) (userStackTop / pageSize)

lemma editAll_stackView (p : ℕ) (old : Option View) :
    editAll stackView stackAddresses p old =
      if p ∈ stackPages then some (placed stackFlags (fun _ _ => 0) old) else old := by
  have hrange : stackAddresses =
      (range' (userStackBottom / pageSize) 16).map (· * pageSize) := by decide
  rw [hrange]
  exact editAll_pages (fun _ old => placed stackFlags (fun _ _ => 0) old) _ 16 old

/-- The part of `process_setup_user_stack` after the guard page. -/
def buildStack (m : Machine) (root : ℕ) (args : Arguments) : Option ℕ × Machine :=
  match mapStackPages root stackAddresses m [] with
  | (false, pages, m) => (none, unwindStack root pages m)
  | (true, pages, m) =>
    match fillStack pages args m.data with
    | (none, data) => (none, unwindStack root pages { m with data })
    | (some pointer, data) => (some pointer, { m with data })

lemma processSetupUserStack_eq (m : Machine) (root : ℕ) (args : Arguments) :
    processSetupUserStack m root args = if root = 0 ∨ root % pageSize ≠ 0 then (none, m)
      else if args.argc < 0 ∨ 64 < args.argc then (none, m)
      else if 0 < args.argc ∧ args.argv.isNone then (none, m)
      else buildStack (removeGuard m root) root args := rfl

lemma stackAddresses_range : ∀ va ∈ stackAddresses, va < userLimit ∧ va % pageSize = 0 := by
  decide

section
variable (h : Accounted origin root held m.vmm) (hwf : Wf origin.pmm)
include h hwf

lemma Accounted.mapAllStackPages_cases :
    ∃ ok pages m', mapStackPages root stackAddresses m [] = (ok, pages, m') ∧
      Accounted origin root held m'.vmm ∧ Stacked m'.vmm root pages ∧
      (ok = true → pages.length = 16 ∧ (∀ page ∈ pages, m'.data page.frame = fun _ => 0) ∧
        Edited origin root held (editAll stackView stackAddresses) m m') ∧
      (ok = false → ∀ needed : Finset ℕ, (∀ va ∈ stackAddresses, va / pageSize ∈ needed) →
        (∀ p < userPages, (contents m root p).isSome → p ∈ needed) → Short origin held needed) := by
  have hdist : (([] : List StackPage).map (fun page => page.address / pageSize) ++
      stackAddresses.map (· / pageSize)).Nodup := by decide
  exact mapStackPages_cases stackAddresses hwf stackAddresses_range hdist h
    ⟨nodup_nil, by simp, by simp⟩ (by simp)

theorem Accounted.built (args : Arguments) :
    Accounted origin root held (buildStack m root args).2.vmm := by
  obtain ⟨ok, pages, m', hrun, hm', hpages, -⟩ := mapAllStackPages_cases h hwf
  rw [buildStack, hrun]
  cases ok with
  | false => exact unwound hm' hpages
  | true =>
    dsimp only
    rcases fillStack pages args m'.data with ⟨pointer, data⟩
    cases pointer with
    | none => exact unwound (m := { m' with data }) hm' hpages
    | some pointer => exact hm'

end

lemma writeStack_zeros {data : ℕ → PageBytes} (bytes : List Byte)
    (hbytes : ∀ byte ∈ bytes, byte = 0) (hzero : ∀ page ∈ pages, data page.frame = fun _ => 0)
    {addr : ℕ} (hstart : userStackBottom ≤ addr)
    (hend : addr + bytes.length ≤ userStackBottom + pages.length * pageSize) :
    writeStack pages data addr bytes = data := by
  induction bytes generalizing addr with
  | nil => rfl
  | cons byte rest ih =>
    rw [length_cons] at hend
    have hindex : (addr - userStackBottom) / pageSize < pages.length := by
      rw [Nat.div_lt_iff_lt_mul (by decide)]
      omega
    have hframe := hzero (pages.getD ((addr - userStackBottom) / pageSize) default) (by
      rw [getD_eq_getElem _ _ hindex]
      exact getElem_mem hindex)
    rw [writeStack, hframe, hbytes byte mem_cons_self, update_eq_self_iff.mpr rfl, ← hframe,
      update_eq_self]
    exact ih (fun b hb => hbytes b (mem_cons_of_mem byte hb)) (by omega) (by omega)

lemma fillStack_none (pages : List StackPage) (data : ℕ → PageBytes) :
    fillStack pages ⟨0, none⟩ data =
      (some (userStackTop - 48), writeStack pages data (userStackTop - 48) (replicate 40 0)) :=
  rfl

lemma fillStack_empty {data : ℕ → PageBytes} (hlen : pages.length = 16)
    (hzero : ∀ page ∈ pages, data page.frame = fun _ => 0) :
    fillStack pages ⟨0, none⟩ data = (some (userStackTop - 48), data) := by
  rw [fillStack_none, writeStack_zeros _ (fun byte hbyte => eq_of_mem_replicate hbyte) hzero
    (by decide)]
  rw [hlen]
  decide

variable (h : Accounted origin root held m.vmm) (hwf : Wf origin.pmm)
include h hwf

theorem Accounted.built_empty (hsome : (buildStack m root ⟨0, none⟩).1.isSome) :
    Edited origin root held (editAll stackView stackAddresses) m
      (buildStack m root ⟨0, none⟩).2 := by
  obtain ⟨ok, pages, m', hrun, -, -, hdone, -⟩ := mapAllStackPages_cases h hwf
  rw [buildStack, hrun] at hsome ⊢
  cases ok with
  | false => cases hsome
  | true =>
    obtain ⟨hlen, hzero, hedited⟩ := hdone rfl
    dsimp only
    rw [fillStack_empty hlen hzero]
    exact hedited

/-- With enough frames for the stack and the pages that are mapped, a stack without arguments is
set up. -/
theorem Accounted.built_some {needed : Finset ℕ} (hstack : stackPages ⊆ needed)
    (hthere : ∀ p < userPages, (contents m root p).isSome → p ∈ needed)
    (henough : ¬Short origin held needed) : (buildStack m root ⟨0, none⟩).1.isSome := by
  obtain ⟨ok, pages, m', hrun, -, -, hdone, hshort⟩ := mapAllStackPages_cases h hwf
  rw [buildStack, hrun]
  cases ok with
  | false =>
    have haddresses : ∀ va ∈ stackAddresses, va / pageSize ∈ stackPages := by decide
    exact absurd (hshort rfl needed (fun va hva => hstack (haddresses va hva)) hthere) henough
  | true =>
    obtain ⟨hlen, hzero, -⟩ := hdone rfl
    dsimp only
    rw [fillStack_empty hlen hzero]
    rfl

end KosKernel.Elf
