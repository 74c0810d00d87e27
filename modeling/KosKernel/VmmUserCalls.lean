import KosKernel.VmmUserWalk

/-! The calls on user addresses of one address space: creation, mapping, unmapping, query. -/
namespace KosKernel.Vmm
open Pmm
variable {held held' : Set ℕ} {root depth : ℕ} {origin s : VmmState}

section
theorem vmmCreateAddressSpace_tree (hwf : Wf s.pmm) (hdepth : 3 ≤ depth ∧ depth ≤ 4)
    (hroot : (vmmCreateAddressSpace s).1 ≠ 0) :
    UserTree s (vmmCreateAddressSpace s).1 depth ∅ (vmmCreateAddressSpace s).2 ∧
      ∀ p, UserPath p → p ≠ [] →
        entryAt (vmmCreateAddressSpace s).2 (vmmCreateAddressSpace s).1 p = 0#64 := by
  rcases createAddressSpace_cases hwf with hnone | ⟨f, pmm', heq, hf, hinit⟩
  · rw [hnone] at hroot
    exact absurd rfl hroot
  rw [heq]
  set s' := withRoot s f pmm' with hs'
  have hfalign : f % pageSize = 0 := hf.wasFree.1
  have hroot : frameAt s' f [] = some f := tableEntry_next hfalign hf.lt true
  have hzero : ∀ p, UserPath p → p ≠ [] → entryAt s' f p = 0#64 := by
    intro p hp hne
    induction p with
    | nil => exact absurd rfl hne
    | cons i p ih =>
      cases p with
      | nil =>
        have hi : i < 256 := hp
        rw [entryAt_cons hroot]
        simp [hs', withRoot, hi]
      | cons j p => exact entryAt_below_zero (ih hp.tail (List.cons_ne_nil j p)) i
  have hframe : ∀ p a, UserPath p → frameAt s' f p = some a → p = [] ∧ a = f := by
    intro p a hp ha
    by_cases hne : p = []
    · rw [hne, hroot] at ha
      exact ⟨hne, (Option.some.inj ha).symm⟩
    · rw [frameAt, hzero p hp hne, pageNext_zero] at ha
      cases ha
  refine ⟨⟨hdepth, hinit, hfalign, hf.pos, hf.lt, hf.wf, ?_, by simp, ⟨?_, ?_⟩, ?_, ?_, ?_, rfl, rfl⟩,
    hzero⟩
  · intro a ha
    refine ⟨(hf.usable_iff a).mpr ⟨ha.1, hwf.free_usable _ ha.2⟩, ?_⟩
    rintro rfl
    have := (hwf.usable_range _ (hwf.free_usable _ ha.2)).1
    simp at this
  · intro p q a hp hq _ _ hNp hNq
    rw [(hframe p a hp hNp).1, (hframe q a hq hNq).1]
  · intro p a hp _ ha
    rw [(hframe p a hp ha).2, Set.union_empty]
    intro hfree
    rw [show s'.pmm = pmm' from rfl, hf.free_eq] at hfree
    exact hfree.2 rfl
  · intro a
    rw [Set.union_empty, show s'.pmm = pmm' from rfl, hf.free_eq]
    constructor
    · intro ha
      by_cases haf : a = f
      · exact .inr ⟨[], trivial, Nat.zero_le _, haf ▸ hroot⟩
      · exact .inl ⟨ha, haf⟩
    intro ha
    rcases ha with ha | ⟨p, hp, -, hNp⟩
    · exact ha.1
    · exact (hframe p a hp hNp).2 ▸ hf.wasFree
  · intro p hp _
    by_cases hne : p = []
    · rw [hne]
      exact .inr (tableEntry_user hfalign hf.lt)
    · exact .inl (hzero p hp hne)
  · intro p hp hlen
    exact .inl (hzero p hp (fun heq => by simp [heq] at hlen))

lemma noEmptyTable_of_zero (h : ∀ p, UserPath p → p ≠ [] → entryAt s root p = 0#64) :
    NoEmptyTable s root := by
  intro r hr h1 _ hne
  refine absurd (h r hr fun heq => ?_) hne
  simp [heq] at h1

end

section
lemma UserTree.absent_or_table (h : UserTree origin root depth held s) {p : List ℕ}
    (hp : UserPath p) (hlen : p.length ≤ 3) :
    has (entryAt s root p) pagePresent = false ∧ entryAt s root p = 0#64 ∨
      UserTable (entryAt s root p) := by
  rcases h.tables p hp hlen with hz | ht
  · exact .inl ⟨(h.absent_iff hp (by omega)).mpr hz, hz⟩
  · exact .inr ht

lemma Mapped.noEmptyTable {s' : VmmState} {q : List ℕ} {e : BitVec 64}
    (hm : Mapped s s' root q e) (hfull : NoEmptyTable s root) : NoEmptyTable s' root := by
  intro r hr h1 h3 hne
  rcases hm.fills r hr h3 hne with hold | hchild
  · obtain ⟨j, hj, hjne⟩ := hfull r hr h1 h3 hold
    refine ⟨j, hj, ?_⟩
    by_cases hlen : (j :: r).length ≤ 3
    · rwa [hm.keeps _ hj hlen hjne]
    have h4 : (j :: r).length = 4 := by
      simp only [List.length_cons] at hlen ⊢
      omega
    have hjq : j :: r ≠ q := fun heq => hjne (heq ▸ hm.was_free)
    rwa [hm.leaf _ hj h4, if_neg hjq]
  · exact hchild

lemma SameEntries.noEmptyTable {s' : VmmState} (hsame : SameEntries s s' root)
    (hfull : NoEmptyTable s root) : NoEmptyTable s' root := by
  intro r hr h1 h3 hne
  rw [hsame r hr (by omega)] at hne
  obtain ⟨j, hj, hjne⟩ := hfull r hr h1 h3 hne
  exact ⟨j, hj, by rwa [hsame _ hj (by simp only [List.length_cons]; omega)]⟩

end

variable {va pa : ℕ}

lemma walk_path (va : ℕ) :
    [pageTableIndex va 30, pageTableIndex va 21,
      pageTableIndex va 12].reverse ++ [pageTableIndex va 39] =
      pathOf va := rfl

variable (h : UserTree origin root depth held s) (hva : va < userLimit)
  (haligned : va % pageSize = 0)
include h hva haligned

theorem UserTree.vmmMapPageIn_cases (hphys : pa % pageSize = 0) (hlt : pa < 2 ^ 52)
    (flags : BitVec 64) (hheld : LeafTaken depth pa held held') :
    (∃ s', vmmMapPageIn s root va pa flags = (false, s') ∧
        UserTree origin root depth held s' ∧ SameEntries s s' root) ∨
      ∃ s', vmmMapPageIn s root va pa flags = (true, s') ∧
        has flags (~~~permissionBits) = false ∧ UserTree origin root depth held' s' ∧
        Mapped s s' root (pathOf va) (leafEntry pa flags) := by
  rw [vmmMapPageIn_eq_mapWalk]
  by_cases hflags : has flags (~~~permissionBits) = false
  · have hvalid : mapArgumentsValid root va pa flags = true := by
      have := Nat.not_le.mpr hva
      simp [mapArgumentsValid, haligned, hphys, h.root_pos, h.root_aligned, hflags, this]
    rw [if_neg (by simp [hvalid]), if_neg (by simp [h.initialized])]
    rw [← entryAddress_leafEntry hphys hlt hflags] at hheld
    rcases h.mapWalk_spec hva (leafEntry_leaf hphys hlt hflags) hheld _
      (by rw [walk_path]; exact userPath_pathOf hva) rfl h.frameAt_root with
      hfail | ⟨s', heq, htree, hmapped, -⟩
    · exact .inl hfail
    · exact .inr ⟨s', heq, hflags, htree, hmapped⟩
  · have hinvalid : mapArgumentsValid root va pa flags = false := by
      simp only [Bool.not_eq_false] at hflags
      simp [mapArgumentsValid, hflags]
    exact .inl ⟨s, by rw [if_pos hinvalid], h, fun _ _ _ => rfl⟩

theorem UserTree.vmmUnmapPageIn_cases (hfull : NoEmptyTable s root)
    (hheld : LeafReturned depth (entryAddress (entryAt s root (pathOf va))) held
      held') :
    vmmUnmapPageIn s root va = (0, s) ∧ entryAt s root (pathOf va) = 0#64 ∨
      ∃ s', vmmUnmapPageIn s root va = (entryAddress (entryAt s root (pathOf va)), s') ∧
        entryAt s root (pathOf va) ≠ 0#64 ∧ UserTree origin root depth held' s' ∧
        Unmapped s s' root (pathOf va) ∧ NoEmptyTable s' root := by
  rw [vmmUnmapPageIn_eq_unmapWalk,
    if_neg (by simp [haligned, h.root_pos, h.root_aligned, h.initialized])]
  have hwalk := h.unmapWalk_spec [pageTableIndex va 30, pageTableIndex va 21,
    pageTableIndex va 12] (i := pageTableIndex va 39) (p := []) hfull
    (by rw [walk_path]; exact userPath_pathOf hva) rfl h.frameAt_root hheld
  rw [walk_path] at hwalk
  rcases hwalk with ⟨hnone, hz⟩ | ⟨releasing, s', heq, hne, htree, hun, -, hbut⟩
  · exact .inl ⟨by rw [walkIndices, hnone], hz⟩
  refine .inr ⟨s', by rw [walkIndices, heq], hne, htree, hun, fun r hr h1 h3 hr' => ?_⟩
  refine (hbut r hr h1 h3 hr').resolve_right fun hroot => ?_
  simp [hroot.1] at h1

omit haligned in
theorem UserTree.vmmQueryPageIn_eq :
    vmmQueryPageIn s root va = if entryAt s root (pathOf va) = 0#64 then none
      else some (entryAddress (entryAt s root (pathOf va)) ||| va % pageSize,
        publicPageFlags (entryAt s root (pathOf va))) := by
  have hpath := userPath_pathOf hva
  rw [pathOf_eq] at hpath ⊢
  have hguard : ¬ (root = 0 ∨ root % pageSize ≠ 0 ∨ s.initialized = false) := by
    simp [h.root_pos, h.root_aligned, h.initialized]
  unfold vmmQueryPageIn
  rw [if_neg hguard]
  generalize pageTableIndex va 39 = i3 at hpath ⊢
  generalize pageTableIndex va 30 = i2 at hpath ⊢
  generalize pageTableIndex va 21 = i1 at hpath ⊢
  generalize pageTableIndex va 12 = i0 at hpath ⊢
  -- an absent entry on the way means that the page is absent
  simp only [← entryAt_cons h.frameAt_root i3]
  rcases h.absent_or_table hpath.tail.tail.tail (by simp) with ⟨h3, hz⟩ | h3
  · have hz0 : entryAt s root [i0, i1, i2, i3] = 0#64 := entryAt_append_zero hz [i0, i1, i2]
    simp [h3, hz0]
  simp only [h3.present, ← entryAt_cons h3.next i2, combineEffectiveFlags_userTable _ h3]
  rcases h.absent_or_table hpath.tail.tail (by simp) with ⟨h2, hz⟩ | h2
  · have hz0 : entryAt s root [i0, i1, i2, i3] = 0#64 := entryAt_append_zero hz [i0, i1]
    simp [h2, hz0]
  simp only [h2.present, h2.small, ← entryAt_cons h2.next i1, combineEffectiveFlags_userTable _ h2]
  rcases h.absent_or_table hpath.tail (by simp) with ⟨h1, hz⟩ | h1
  · have hz0 : entryAt s root [i0, i1, i2, i3] = 0#64 := entryAt_append_zero hz [i0]
    simp [h1, hz0]
  simp only [h1.present, h1.small, ← entryAt_cons h1.next, combineEffectiveFlags_userTable _ h1]
  by_cases hz : entryAt s root [i0, i1, i2, i3] = 0#64
  · simp [hz]
  · simp [(h.frameAt_of_ne_zero hpath (by simp) hz).1, hz]

end KosKernel.Vmm
