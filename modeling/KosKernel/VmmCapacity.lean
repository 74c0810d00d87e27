import KosKernel.VmmConservation

/-! How many frames it takes to map a set of pages: one at every place of the tree on the way
to one of them. A map fails only when the frames do not suffice. -/
namespace KosKernel.Vmm
open Pmm List

variable {p : List ℕ}

section
/-- The places of the tree on the way to a page, from the page up to the root. -/
def placesOf (page : ℕ) : Finset (List ℕ) := (pathOf (page * pageSize)).tails.toFinset

def placesFor (pages : Finset ℕ) : Finset (List ℕ) := pages.biUnion placesOf

lemma mem_placesOf {page : ℕ} : p ∈ placesOf page ↔ p <:+ pathOf (page * pageSize) := by
  rw [placesOf, mem_toFinset, mem_tails]

lemma mem_placesFor {pages : Finset ℕ} :
    p ∈ placesFor pages ↔ ∃ page ∈ pages, p <:+ pathOf (page * pageSize) := by
  simp only [placesFor, Finset.mem_biUnion, mem_placesOf]

lemma HalfPath.of_suffix {top : ℕ → Prop} {q : List ℕ} (h : HalfPath top q) (hp : p <:+ q) :
    HalfPath top p := by
  obtain ⟨xs, rfl⟩ := hp
  exact h.of_append

lemma exists_page_of_path (hp : UserPath p) (hlen : p.length = 4) :
    ∃ page < userLimit / pageSize, pathOf (page * pageSize) = p := by
  obtain ⟨a, b, c, d, rfl⟩ : ∃ a b c d, p = [a, b, c, d] := by
    match p, hlen with
    | [a, b, c, d], _ => exact ⟨a, b, c, d, rfl⟩
  obtain ⟨ha, hb, hc, hd⟩ := hp
  have hd' : d < 256 := hd
  refine ⟨((d * 512 + c) * 512 + b) * 512 + a, ?_, ?_⟩
  · unfold userLimit pageSize
    omega
  · rw [pathOf_eq]
    simp only [cons.injEq, and_true, pageTableIndex, pageSize]
    omega

end

section
variable {held held' : Set ℕ} {root depth : ℕ} {origin s : VmmState}

lemma freeAddresses_eq_empty {pmm : PhysicalMemoryManager} (h : Wf pmm)
    (hzero : (pmmAllocateFrame pmm).1 = 0) : freeAddresses pmm = ∅ := by
  rw [Set.eq_empty_iff_forall_notMem]
  exact fun a ha => pmmAllocateFrame_exhausted h hzero _ ha.2

/-- A walk towards `q` that got stuck: no frame is free and a table on the way is missing; what
the walk has added is on the way. -/
structure Stuck (origin : VmmState) (root depth : ℕ) (held : Set ℕ) (q : List ℕ)
    (s stuck : VmmState) : Prop where
  tree : UserTree origin root depth held stuck
  exhausted : freeAddresses stuck.pmm = ∅
  missing : ∃ r, r <:+ q ∧ r.length ≤ 3 ∧ entryAt stuck root r = 0#64
  added : ∀ r, UserPath r → r.length ≤ 4 → entryAt stuck root r ≠ 0#64 →
    entryAt s root r ≠ 0#64 ∨ r <:+ q

theorem UserTree.mapWalk_stuck {va pa : ℕ} {flags : BitVec 64}
    (hva : va < userLimit) (hleaf : UserLeaf (leafEntry pa flags))
    (hheld : LeafTaken depth (entryAddress (leafEntry pa flags)) held held')
    (rest : List ℕ) {i t : ℕ} {s : VmmState} (h : UserTree origin root depth held s)
    (hD : UserPath (rest.reverse ++ i :: p)) (hlen : p.length + rest.length = 3)
    (hp : frameAt s root p = some t) (hz : entryAt s root (rest.reverse ++ i :: p) = 0#64)
    (hfail : (mapWalk va pa flags (i :: rest) s t).1 = false) :
    ∃ stuck, Stuck origin root depth held (rest.reverse ++ i :: p) s stuck := by
  induction rest generalizing i t p s with
  | nil =>
    rcases h.mapWalk_leaf hD hlen hp hleaf hheld with ⟨-, hne⟩ | ⟨s', heq, -⟩
    · exact absurd hz hne
    · rw [heq] at hfail
      cases hfail
  | cons k rest ih =>
    have hpath : (k :: rest).reverse ++ i :: p = rest.reverse ++ k :: i :: p := by simp
    rw [hpath] at hD hz ⊢
    simp only [length_cons] at hlen
    have hDi : UserPath (i :: p) := hD.of_append.tail
    have hlen2 : p.length ≤ 2 := by omega
    have hlen3 : (i :: p).length + rest.length = 3 := by
      simp only [length_cons]
      omega
    have hway : i :: p <:+ rest.reverse ++ k :: i :: p :=
      (suffix_cons k _).trans (suffix_append _ _)
    rcases h.nextTable_cases hDi hlen2 hp hva flags with
      ⟨t', ht', hnext⟩ | ⟨hzi, hnext⟩ | ⟨f, s1, hzi, hnext, h1, hrw, hf, -⟩
    · -- the table is there
      refine ih h hD hlen3 ht' hz ?_
      rcases hwalk : mapWalk va pa flags (k :: rest) s t' with ⟨ok, s'⟩
      cases ok with
      | false => rfl
      | true => simp [mapWalk, hnext, hwalk] at hfail
    · -- the table is missing, and there is no frame for it
      refine ⟨s, h, ?_, ⟨i :: p, hway, by simp only [length_cons]; omega, hzi⟩,
        fun r _ _ hne => .inl hne⟩
      refine freeAddresses_eq_empty h.wf ?_
      by_contra hne
      have habsent : has (s.mem t i) pagePresent = false := by
        rw [← entryAt_cons hp i, hzi]
        decide
      rw [nextTable] at hnext
      simp [habsent, hne] at hnext
    · -- the table is new
      have hleafne (r : List ℕ) (hr : r.length = 4) : r ≠ i :: p := by
        rintro rfl
        simp only [length_cons] at hr
        omega
      have hz1 : entryAt s1 root (rest.reverse ++ k :: i :: p) = 0#64 := by
        have hfour : (rest.reverse ++ k :: i :: p).length = 4 := by
          simp only [length_append, length_reverse, length_cons]
          omega
        rw [hrw _ hD hfour.le, if_neg (hleafne _ hfour), hz]
      have hfail1 : (mapWalk va pa flags (k :: rest) s1 f).1 = false := by
        rcases hwalk : mapWalk va pa flags (k :: rest) s1 f with ⟨ok, s'⟩
        cases ok with
        | false => rfl
        | true => simp [mapWalk, hnext, hwalk] at hfail
      obtain ⟨stuck, htree, hexhausted, hmissing, hadded⟩ := ih h1 hD hlen3 hf hz1 hfail1
      refine ⟨stuck, htree, hexhausted, hmissing, fun r hr hrlen hne => ?_⟩
      rcases hadded r hr hrlen hne with hold | hsuffix
      · rw [hrw r hr hrlen] at hold
        split_ifs at hold with hri
        · exact .inr (hri ▸ hway)
        · exact .inl hold
      · exact .inr hsuffix

theorem UserTree.vmmMapPageIn_stuck {va pa : ℕ} {flags : BitVec 64}
    (h : UserTree origin root depth held s) (hva : va < userLimit) (halign : va % pageSize = 0)
    (hphys : pa % pageSize = 0) (hlt : pa < 2 ^ 52) (hflags : has flags (~~~permissionBits) = false)
    (hheld : LeafTaken depth pa held held') (hz : entryAt s root (pathOf va) = 0#64)
    (hfail : (vmmMapPageIn s root va pa flags).1 = false) :
    ∃ stuck, Stuck origin root depth held (pathOf va) s stuck := by
  have hvalid : mapArgumentsValid root va pa flags = true := by
    have := Nat.not_le.mpr hva
    simp [mapArgumentsValid, halign, hphys, h.root_pos, h.root_aligned, hflags, this]
  rw [vmmMapPageIn_eq_mapWalk, if_neg (by simp [hvalid]), if_neg (by simp [h.initialized])] at hfail
  rw [← entryAddress_leafEntry hphys hlt hflags] at hheld
  have hstuck := h.mapWalk_stuck hva (leafEntry_leaf hphys hlt hflags) hheld
    [pageTableIndex va 30, pageTableIndex va 21,
      pageTableIndex va 12] (i := pageTableIndex va 39) (p := [])
    (by rw [walk_path]; exact userPath_pathOf hva) rfl h.frameAt_root (by rw [walk_path]; exact hz)
    hfail
  rw [walk_path] at hstuck
  exact hstuck

end

variable {held : Finset ℕ} {root : ℕ} {origin s : VmmState}

section
variable (h : UserTree origin root 4 ↑held s) (hwf : Wf origin.pmm)
include h hwf

lemma UserTree.places_le (places : Finset (List ℕ))
    (hplaces : ∀ p ∈ places, UserPath p ∧ p.length ≤ 4 ∧ entryAt s root p ≠ 0#64) :
    places.card ≤ origin.pmm.freeFrames := by
  have hframe (p : List ℕ) (hp : p ∈ places) :
      frameAt s root p = some (entryAddress (entryAt s root p)) := by
    obtain ⟨hD, hlen, hne⟩ := hplaces p hp
    exact (h.frameAt_of_ne_zero hD hlen hne).2
  have hfree (p : List ℕ) (hp : p ∈ places) :
      entryAddress (entryAt s root p) ∈ freeAddresses origin.pmm := by
    obtain ⟨hD, hlen, -⟩ := hplaces p hp
    exact (h.covers _).mpr (.inr ⟨p, hD, hlen, hframe p hp⟩)
  rw [hwf.free_count]
  refine Finset.card_le_card_of_injOn (fun p => entryAddress (entryAt s root p) / pageSize)
    (fun p hp => hwf.mem_freeSet.mpr (hfree p hp).2) fun p hp q hq heq => ?_
  have hsame : entryAddress (entryAt s root p) = entryAddress (entryAt s root q) := by
    have halign := (hfree p hp).1
    have haligned' := (hfree q hq).1
    have hdiv : entryAddress (entryAt s root p) / pageSize =
      entryAddress (entryAt s root q) / pageSize := heq
    unfold pageSize at *
    omega
  exact h.apart.distinct p q _ (hplaces p hp).1 (hplaces q hq).1 (hplaces p hp).2.1
    (hplaces q hq).2.1 (hframe p hp) (hsame ▸ hframe q hq)

lemma UserTree.free_le (hexhausted : freeAddresses s.pmm = ∅) (places : Finset (List ℕ))
    (hplaces : ∀ p, UserPath p → p.length ≤ 4 → entryAt s root p ≠ 0#64 → p ∈ places) :
    origin.pmm.freeFrames ≤ held.card + places.card := by
  have hcover : freeSet origin.pmm ⊆ held.image (· / pageSize) ∪
      places.image fun p => entryAddress (entryAt s root p) / pageSize := by
    intro n hn
    have hfree : n * pageSize ∈ freeAddresses origin.pmm := by
      refine ⟨Nat.mul_mod_left _ _, ?_⟩
      rw [Nat.mul_div_cancel _ (by decide)]
      exact hwf.mem_freeSet.mp hn
    rw [Finset.mem_union, Finset.mem_image, Finset.mem_image]
    rcases (h.covers _).mp hfree with (hfree | hheld) | ⟨p, hD, hlen, hp⟩
    · rw [hexhausted] at hfree
      exact hfree.elim
    · exact .inl ⟨_, hheld, Nat.mul_div_cancel _ (by decide)⟩
    have hne : entryAt s root p ≠ 0#64 := by
      intro hz
      rw [frameAt, hz, pageNext_zero] at hp
      cases hp
    refine .inr ⟨p, hplaces p hD hlen hne, ?_⟩
    rw [(h.frameAt_of_ne_zero hD hlen hne).2] at hp
    rw [Option.some.inj hp, Nat.mul_div_cancel _ (by decide)]
  calc origin.pmm.freeFrames = (freeSet origin.pmm).card := hwf.free_count
    _ ≤ _ := Finset.card_le_card hcover
    _ ≤ _ := Finset.card_union_le _ _
    _ ≤ held.card + places.card := Nat.add_le_add Finset.card_image_le Finset.card_image_le

end

lemma NoEmptyTable.exists_page (hfull : NoEmptyTable s root) (hp : UserPath p)
    (hpos : 1 ≤ p.length) (hlen : p.length ≤ 4) (hne : entryAt s root p ≠ 0#64) :
    ∃ q, UserPath q ∧ q.length = 4 ∧ p <:+ q ∧ entryAt s root q ≠ 0#64 := by
  induction hdepth : 4 - p.length generalizing p with
  | zero => exact ⟨p, hp, by omega, suffix_rfl, hne⟩
  | succ n ih =>
    obtain ⟨j, hj, hchild⟩ := hfull p hp hpos (by omega) hne
    obtain ⟨q, hq, hqlen, hsuffix, hqne⟩ := ih hj (by simp) (by simp only [length_cons]; omega)
      hchild (by simp only [length_cons]; omega)
    exact ⟨q, hq, hqlen, (suffix_cons j p).trans hsuffix, hqne⟩

end KosKernel.Vmm
