import KosKernel.ElfState
import KosKernel.VmmCapacity

/-! The pages of an address space while a program is loaded into it, read off the tables, with
every frame accounted for. -/
namespace KosKernel.Elf
open Pmm Vmm Finset

def userPages : ℕ := userLimit / pageSize

def pagesOf (s : VmmState) (root page : ℕ) : Option Mapping :=
  entryMapping (entryAt s root (pathOf (page * pageSize)))

/-- Both loops of the loader get the frame of a page in this way: it is the one mapped there, or a
new one. The flag says whether it is new. -/
def frameForPage (s : VmmState) (root va : ℕ) (flags : BitVec 64) :
    Option (ℕ × Bool) × VmmState :=
  match vmmQueryPageIn s root va with
  | some (frame, _) => (some (frame, false), s)
  | none =>
    let (frame, pmm) := pmmAllocateFrame s.pmm
    if frame = 0 then (none, { s with pmm })
    else
      match vmmMapPageIn { s with pmm } root va frame flags with
      | (false, s) => (none, (pmmFree s frame).2)
      | (true, s) => (some (frame, true), s)

abbrev Accounted (origin : VmmState) (root : ℕ) (held : Finset ℕ) (s : VmmState) : Prop :=
  Owner.Accounted origin root ⟨s, held⟩

section
variable {s s' : VmmState} {root v page : ℕ}

lemma page_lt (hv : v < userLimit) : v / pageSize < userPages := by
  unfold userPages userLimit pageSize at *
  omega

lemma address_lt (hpage : page < userPages) : page * pageSize < userLimit := by
  unfold userPages userLimit pageSize at *
  omega

lemma address_div (page : ℕ) : page * pageSize / pageSize = page :=
  Nat.mul_div_cancel page (by decide)

lemma pagesOf_div (hv : v < userLimit) :
    pagesOf s root (v / pageSize) = entryMapping (entryAt s root (pathOf v)) := by
  have hsame : pathOf (v / pageSize * pageSize) = pathOf v :=
    (pathOf_inj (address_lt (page_lt hv)) hv).mpr (address_div _)
  rw [pagesOf, hsame]

lemma pathOf_page_inj (hpage : page < userPages) (hv : v < userLimit) :
    pathOf (page * pageSize) = pathOf v ↔ page = v / pageSize := by
  rw [pathOf_inj (address_lt hpage) hv, address_div]

lemma pagesOf_eq_none (hv : v < userLimit) :
    pagesOf s root (v / pageSize) = none ↔ entryAt s root (pathOf v) = 0#64 := by
  rw [pagesOf_div hv, entryMapping]
  split_ifs with hz <;> simp [hz]

lemma SameEntries.pagesOf (h : SameEntries s s' root) (hpage : page < userPages) :
    pagesOf s' root page = Elf.pagesOf s root page := by
  rw [Elf.pagesOf, Elf.pagesOf, h _ (userPath_pathOf (address_lt hpage)) (length_pathOf _).le]

lemma Mapped.pagesOf {frame : ℕ} {flags : BitVec 64}
    (h : Mapped s s' root (pathOf v) (leafEntry frame flags)) (hv : v < userLimit)
    (hphys : frame % pageSize = 0) (hlt : frame < 2 ^ 52)
    (hflags : has flags (~~~permissionBits) = false) (hpage : page < userPages) :
    pagesOf s' root page =
      if page = v / pageSize then some (mappingOf frame flags) else Elf.pagesOf s root page := by
  rw [Elf.pagesOf, h.leaf _ (userPath_pathOf (address_lt hpage)) (length_pathOf _)]
  by_cases heq : page = v / pageSize
  · rw [if_pos ((pathOf_page_inj hpage hv).mpr heq), if_pos heq,
      entryMapping_leafEntry hphys hlt hflags]
  · rw [if_neg (fun hpath => heq ((pathOf_page_inj hpage hv).mp hpath)), if_neg heq]
    rfl

lemma Unmapped.pagesOf (h : Unmapped s s' root (pathOf v)) (hv : v < userLimit)
    (hpage : page < userPages) :
    pagesOf s' root page = if page = v / pageSize then none else Elf.pagesOf s root page := by
  rw [Elf.pagesOf, h.leaf _ (userPath_pathOf (address_lt hpage)) (length_pathOf _)]
  by_cases heq : page = v / pageSize
  · rw [if_pos ((pathOf_page_inj hpage hv).mpr heq), if_pos heq]
    rfl
  · rw [if_neg (fun hpath => heq ((pathOf_page_inj hpage hv).mp hpath)), if_neg heq]
    rfl

end

section
variable {origin s : VmmState} {root v : ℕ} {held : Finset ℕ} {flags : BitVec 64}

section
variable (h : Accounted origin root held s)
include h

lemma Accounted.query (hv : v < userLimit) :
    (vmmQueryPageIn s root v).map (fun r => mappingOf r.1 r.2) =
      (pagesOf s root (v / pageSize)).map (fun m => m.shift (v % pageSize)) := by
  rw [pagesOf_div hv]
  exact h.tree.query_mapping hv

lemma Accounted.query_frame (hv : v < userLimit) (halign : v % pageSize = 0) :
    (vmmQueryPageIn s root v).map Prod.fst =
      (pagesOf s root (v / pageSize)).map Mapping.physical := by
  have hquery := congrArg (Option.map Mapping.physical) (query h hv)
  rw [Option.map_map, Option.map_map, halign] at hquery
  exact hquery

lemma Accounted.physical_inj {p q : ℕ} (hp : p < userPages) (hq : q < userPages) {m n : Mapping}
    (hm : pagesOf s root p = some m) (hn : pagesOf s root q = some n)
    (hsame : m.physical = n.physical) : p = q := by
  have hframe (page : ℕ) (hpage : page < userPages) (mapping : Mapping)
      (hmapping : pagesOf s root page = some mapping) :
      frameAt s root (pathOf (page * pageSize)) = some mapping.physical := by
    rw [pagesOf, entryMapping] at hmapping
    split_ifs at hmapping with hz
    obtain rfl := Option.some.inj hmapping
    exact (h.tree.frameAt_of_ne_zero (userPath_pathOf (address_lt hpage)) (length_pathOf _).le hz).2
  have hpaths := h.tree.apart.distinct _ _ _ (userPath_pathOf (address_lt hp))
    (userPath_pathOf (address_lt hq)) (length_pathOf _).le (length_pathOf _).le (hframe p hp m hm)
    (hsame ▸ hframe q hq n hn)
  rw [pathOf_page_inj hp (address_lt hq), address_div] at hpaths
  exact hpaths

lemma Accounted.unmap (hv : v < userLimit) (halign : v % pageSize = 0) :
    (pagesOf s root (v / pageSize) = none ∧ (vmmUnmapPageIn s root v).2 = s) ∨
      ∃ mapping, pagesOf s root (v / pageSize) = some mapping ∧ mapping.physical ∉ held ∧
        Accounted origin root (insert mapping.physical held) (vmmUnmapPageIn s root v).2 ∧
        ∀ page < userPages, pagesOf (vmmUnmapPageIn s root v).2 root page =
          if page = v / pageSize then none else pagesOf s root page := by
  rcases h.tree.vmmUnmapPageIn_cases hv halign h.full (.inr ⟨rfl, rfl⟩) with
    ⟨heq, hz⟩ | ⟨s', heq, hne, htree, hunmapped, hfull⟩
  · exact .inl ⟨(pagesOf_eq_none hv).mpr hz, by rw [heq]⟩
  have hframe := (h.tree.frameAt_of_ne_zero (userPath_pathOf hv) (length_pathOf v).le hne).2
  obtain ⟨-, -, -, hheld⟩ := h.tree.frame_allocated (userPath_pathOf hv) (length_pathOf v).le hframe
  refine .inr ⟨mappingOf (entryAddress (entryAt s root (pathOf v))) (entryAt s root (pathOf v)),
    ?_, hheld, ?_, fun page hpage => ?_⟩
  · rw [pagesOf_div hv, entryMapping, if_neg hne]
  · rw [heq]
    refine ⟨?_, hfull⟩
    rw [coe_insert]
    exact htree
  · rw [heq]
    exact Unmapped.pagesOf hunmapped hv hpage

end
end

variable {origin s : VmmState} {root v : ℕ} {held : Finset ℕ} {flags : BitVec 64}

/-- The frames that were free at first do not suffice for the page and those that are mapped. -/
def Lacking (origin : VmmState) (root : ℕ) (held : Finset ℕ) (s : VmmState) (page : ℕ) : Prop :=
  ∀ pages : Finset ℕ, page ∈ pages → (∀ p < userPages, (pagesOf s root p).isSome → p ∈ pages) →
    origin.pmm.freeFrames < held.card + (placesFor pages).card

variable (h : Accounted origin root held s)
include h

lemma Accounted.place_mem {pages : Finset ℕ} (hne : pages.Nonempty)
    (hpages : ∀ p < userPages, (pagesOf s root p).isSome → p ∈ pages) {r : List ℕ} (hr : UserPath r)
    (hlen : r.length ≤ 4) (hentry : entryAt s root r ≠ 0#64) : r ∈ placesFor pages := by
  rw [mem_placesFor]
  cases r with
  | nil =>
    obtain ⟨page, hpage⟩ := hne
    exact ⟨page, hpage, List.nil_suffix⟩
  | cons i r =>
    obtain ⟨q, hq, hqlen, hsuffix, hqentry⟩ := h.full.exists_page hr (by simp) hlen hentry
    obtain ⟨page, hpage, rfl⟩ := exists_page_of_path hq hqlen
    refine ⟨page, hpages page hpage ?_, hsuffix⟩
    rw [pagesOf, entryMapping, if_neg hqentry, Option.isSome_some]

lemma Accounted.lacking_frame {page : ℕ} (hwf : Wf origin.pmm) (hnone : pagesOf s root page = none)
    (hexhausted : freeAddresses s.pmm = ∅) : Lacking origin root held s page := by
  intro pages hpage hpages
  have hleaf : pathOf (page * pageSize) ∈ placesFor pages :=
    mem_placesFor.mpr ⟨_, hpage, List.suffix_rfl⟩
  have hle := h.tree.free_le hwf hexhausted
    ((placesFor pages).erase (pathOf (page * pageSize))) fun r hr hlen hentry => by
      refine mem_erase.mpr ⟨?_, h.place_mem ⟨_, hpage⟩ hpages hr hlen hentry⟩
      rintro rfl
      rw [pagesOf, entryMapping, if_neg hentry] at hnone
      cases hnone
  have hcard := card_erase_add_one hleaf
  dsimp only at hle
  omega

lemma Accounted.lacking_table (hwf : Wf origin.pmm) (hv : v < userLimit) {frame : ℕ}
    (hfresh : frame ∉ held) {stuck : VmmState}
    (hstuck : Stuck origin root 4 ↑(insert frame held) (pathOf v) s stuck) :
    Lacking origin root held s (v / pageSize) := by
  intro pages hpage hpages
  have hpath : pathOf (v / pageSize * pageSize) = pathOf v :=
    (pathOf_inj (address_lt (page_lt hv)) hv).mpr (address_div _)
  have hway (r : List ℕ) (hr : r <:+ pathOf v) : r ∈ placesFor pages :=
    mem_placesFor.mpr ⟨_, hpage, hpath ▸ hr⟩
  obtain ⟨r₀, hsuffix, hshort, hzero⟩ := hstuck.missing
  have hdist : r₀ ≠ pathOf v := by
    rintro rfl
    rw [length_pathOf] at hshort
    omega
  -- the page itself is missing, too
  have hleafzero : entryAt stuck root (pathOf v) = 0#64 := by
    obtain ⟨xs, hxs⟩ := hsuffix
    rw [← hxs]
    exact entryAt_append_zero hzero xs
  have hle := hstuck.tree.free_le hwf hstuck.exhausted
    (((placesFor pages).erase (pathOf v)).erase r₀) fun r hr hlen hentry => by
      refine mem_erase.mpr ⟨fun heq => hentry (heq ▸ hzero),
        mem_erase.mpr ⟨fun heq => hentry (heq ▸ hleafzero), ?_⟩⟩
      rcases hstuck.added r hr hlen hentry with hold | hnew
      · exact h.place_mem ⟨_, hpage⟩ hpages hr hlen hold
      · exact hway r hnew
  have hcard := card_erase_add_one (hway _ List.suffix_rfl)
  have hcard₀ := card_erase_add_one (mem_erase.mpr ⟨hdist, hway r₀ hsuffix⟩)
  rw [card_insert_of_notMem hfresh] at hle
  omega

theorem Accounted.frameForPage_cases (hwf : Wf origin.pmm) (hv : v < userLimit)
    (halign : v % pageSize = 0) (hflags : has flags (~~~permissionBits) = false) :
    (∃ s', frameForPage s root v flags = (none, s') ∧ Accounted origin root held s' ∧
        (∀ p < userPages, pagesOf s' root p = pagesOf s root p) ∧
        Lacking origin root held s (v / pageSize)) ∨
      ∃ mapping new s', frameForPage s root v flags = (some (mapping.physical, new), s') ∧
        Accounted origin root held s' ∧
        (pagesOf s root (v / pageSize) = if new then none else some mapping) ∧
        (new = true → mapping = mappingOf mapping.physical flags) ∧
        ∀ p < userPages, pagesOf s' root p =
          if p = v / pageSize then some mapping else pagesOf s root p := by
  have hquery := query_frame h hv halign
  unfold frameForPage
  cases hres : vmmQueryPageIn s root v with
  | some result =>
    rw [hres, Option.map_some] at hquery
    obtain ⟨mapping, hmapping, hphysical⟩ := Option.map_eq_some_iff.mp hquery.symm
    refine .inr ⟨mapping, false, s, by rw [hphysical], h, hmapping, by simp, fun p hp => ?_⟩
    split_ifs with heq
    · rw [heq, hmapping]
    · rfl
  | none =>
    rw [hres, Option.map_none] at hquery
    have hnone := Option.map_eq_none_iff.mp hquery.symm
    dsimp only
    rcases allocateFrame_cases h.tree.wf with hempty | ⟨frame, pmm, heq, htaken⟩
    · refine .inl ⟨s, by simp [hempty], h, fun p _ => rfl, ?_⟩
      exact h.lacking_frame hwf hnone (freeAddresses_eq_empty h.tree.wf (by rw [hempty]))
    have hfresh : frame ∉ held := fun hmem => h.tree.held_allocated frame hmem htaken.wasFree
    have herase : (insert frame held).erase frame = held := erase_insert hfresh
    have htree : UserTree origin root 4 ↑(insert frame held) { s with pmm } := by
      rw [coe_insert]
      exact h.tree.take htaken
    have hmem : frame ∈ (↑(insert frame held) : Set ℕ) := by simp
    rcases htree.vmmMapPageIn_cases hv halign htaken.wasFree.1 htaken.lt flags
      (.inr ⟨rfl, hmem, rfl⟩) with ⟨s', hmap, htree', hsame⟩ | ⟨s', hmap, -, htree', hmapped⟩
    · left
      have hkept : Accounted origin root (insert frame held) s' :=
        ⟨htree', hsame.noEmptyTable h.full⟩
      have hfree := hkept.free (mem_insert_self frame held)
      rw [herase] at hfree
      refine ⟨_, by simp [heq, htaken.pos, hmap], hfree,
        fun p hp => SameEntries.pagesOf hsame hp, ?_⟩
      obtain ⟨stuck, hstuck⟩ := htree.vmmMapPageIn_stuck hv halign htaken.wasFree.1 htaken.lt
        hflags (.inr ⟨rfl, hmem, rfl⟩) ((pagesOf_eq_none hv).mp hnone) (by rw [hmap])
      exact h.lacking_table hwf hv hfresh ⟨hstuck.tree, hstuck.exhausted, hstuck.missing,
        hstuck.added⟩
    · right
      refine ⟨mappingOf frame flags, true, s', by simp [heq, htaken.pos, hmap, mappingOf],
        ⟨?_, hmapped.noEmptyTable h.full⟩, hnone, fun _ => rfl, fun p hp => ?_⟩
      · rw [← coe_erase, herase] at htree'
        exact htree'
      · have hpages := Mapped.pagesOf hmapped hv htaken.wasFree.1 htaken.lt hflags hp
        exact hpages

end KosKernel.Elf
