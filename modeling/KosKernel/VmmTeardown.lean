import KosKernel.VmmUserCalls

/-! The nested loops of `vmm_clear_user_address_space`: each table is emptied entry by entry,
and an entry is cleared once everything below it has gone back to the allocator. -/
namespace KosKernel.Vmm
open RadixTree List
variable {held : Set ℕ} {root depth : ℕ} {origin s s' : VmmState} {p : List ℕ} {i t : ℕ}

/-- The entry at `q` is cleared with all that was below it, and nothing else is. -/
structure CutOff (s s' : VmmState) (root : ℕ) (q : List ℕ) : Prop where
  zero : entryAt s' root q = 0#64
  beside : ∀ r, UserPath r → r.length ≤ 4 → ¬ q <:+ r → entryAt s' root r = entryAt s root r

/-- The first `n` entries of the table at `p` are cleared, and nothing else is. -/
structure Emptied (s s' : VmmState) (root : ℕ) (p : List ℕ) (n : ℕ) : Prop where
  zero : ∀ i < n, UserPath (i :: p) → entryAt s' root (i :: p) = 0#64
  beside : ∀ r, UserPath r → r.length ≤ 4 → (∀ i < n, ¬ (i :: p) <:+ r) →
    entryAt s' root r = entryAt s root r

lemma not_cons_suffix (i : ℕ) (p : List ℕ) : ¬ (i :: p) <:+ p := by
  intro h
  have := h.length_le
  simp only [length_cons] at this
  omega

variable {j : ℕ}

lemma cons_suffix_cons {i : ℕ} : (i :: p) <:+ (j :: p) ↔ i = j := by
  constructor
  · intro h
    exact (cons.inj (h.eq_of_length rfl)).1
  · rintro rfl
    exact suffix_rfl

lemma Emptied.refl (s : VmmState) (root : ℕ) (p : List ℕ) : Emptied s s root p 0 :=
  ⟨fun _ hi => absurd hi (Nat.not_lt_zero _), fun _ _ _ _ => rfl⟩

variable {n : ℕ}

lemma Emptied.succ {s'' : VmmState} (h : Emptied s s' root p n)
    (hcut : CutOff s' s'' root (n :: p)) (hlen : p.length ≤ 3) : Emptied s s'' root p (n + 1) := by
  refine ⟨fun i hi hD => ?_, fun r hr hrlen hbeside => ?_⟩
  · by_cases hin : i = n
    · rw [hin]
      exact hcut.zero
    have hnot : ¬ (n :: p) <:+ (i :: p) := fun hs => hin (cons_suffix_cons.mp hs).symm
    rw [hcut.beside _ hD (by simp only [length_cons]; omega) hnot]
    exact h.zero i (by omega) hD
  · rw [hcut.beside r hr hrlen (hbeside n (by omega))]
    exact h.beside r hr hrlen fun i hi => hbeside i (by omega)

lemma Emptied.frameAt_eq (h : Emptied s s' root p n) (hp : UserPath p)
    (hlen : p.length ≤ 4) : frameAt s' root p = frameAt s root p := by
  unfold frameAt
  rw [h.beside p hp hlen fun i _ => not_cons_suffix i p]

section
def clearEntry (visit : VmmState → BitVec 64 → VmmState) (table : ℕ) (s : VmmState) (index : ℕ) :
    VmmState :=
  if has (s.mem table index) pagePresent = false then s
  else
    { visit s (s.mem table index) with
      mem := write (visit s (s.mem table index)).mem table index 0#64 }

lemma clearEntries_zero (visit : VmmState → BitVec 64 → VmmState) (table : ℕ) (s : VmmState) :
    clearEntries visit table 0 s = s := rfl

lemma clearEntries_succ (visit : VmmState → BitVec 64 → VmmState) (table n : ℕ) (s : VmmState) :
    clearEntries visit table (n + 1) s =
      clearEntry visit table (clearEntries visit table n s) n := by
  unfold clearEntries
  rw [range_succ, foldl_append]
  rfl

/-- A visit of the table at `p` that, with the write after it, cuts off a present entry. -/
def Cuts (origin : VmmState) (root depth : ℕ) (held : Set ℕ) (p : List ℕ) (t : ℕ)
    (visit : VmmState → BitVec 64 → VmmState) : Prop :=
  ∀ s i, UserTree origin root depth held s → UserPath (i :: p) → frameAt s root p = some t →
    has (s.mem t i) pagePresent = true →
    UserTree origin root depth held (clearEntry visit t s i) ∧
      CutOff s (clearEntry visit t s i) root (i :: p)

variable {visit : VmmState → BitVec 64 → VmmState}

section
variable (hcuts : Cuts origin root depth held p t visit) (h : UserTree origin root depth held s)
include hcuts h

lemma Cuts.entry (hD : UserPath (i :: p)) (hlen : p.length ≤ 3) (hp : frameAt s root p = some t) :
    UserTree origin root depth held (clearEntry visit t s i) ∧
      CutOff s (clearEntry visit t s i) root (i :: p) := by
  cases hpres : has (s.mem t i) pagePresent with
  | true => exact hcuts s i h hD hp hpres
  | false =>
    rw [clearEntry, if_pos hpres]
    refine ⟨h, ?_, fun _ _ _ _ => rfl⟩
    rw [← entryAt_cons hp] at hpres
    exact (h.absent_iff hD (by simp only [length_cons]; omega)).mp hpres

theorem Cuts.loop (hp : frameAt s root p = some t) (hD : UserPath p) (hlen : p.length ≤ 3) (n : ℕ)
    (hn : ∀ i < n, UserPath (i :: p)) :
    UserTree origin root depth held (clearEntries visit t n s) ∧
      Emptied s (clearEntries visit t n s) root p n := by
  induction n with
  | zero =>
    rw [clearEntries_zero]
    exact ⟨h, Emptied.refl s root p⟩
  | succ n ih =>
    obtain ⟨htree, hempty⟩ := ih fun i hi => hn i (by omega)
    have hframe : frameAt (clearEntries visit t n s) root p = some t := by
      rw [hempty.frameAt_eq hD (by omega), hp]
    rw [clearEntries_succ]
    obtain ⟨htree', hcut⟩ := hcuts.entry htree (hn n (by omega)) hlen hframe
    exact ⟨htree', hempty.succ hcut hlen⟩

end
end

section
lemma UserTree.cut (h' : UserTree origin root depth held s') (hD : UserPath (i :: p))
    (hlen : p.length ≤ 3) (hdepth : p.length < depth) (hp : frameAt s root p = some t) {a : ℕ}
    (ha : frameAt s root (i :: p) = some a) (hn : p.length < 3 → n = 512)
    (hempty : Emptied s s' root (i :: p) n) :
    UserTree origin root depth held
        { (pmmFree s' a).2 with mem := write (pmmFree s' a).2.mem t i 0#64 } ∧
      CutOff s { (pmmFree s' a).2 with mem := write (pmmFree s' a).2.mem t i 0#64 } root (i :: p) := by
  have hp' : frameAt s' root p = some t := by
    unfold frameAt at hp ⊢
    rw [hempty.beside p hD.tail (by omega), hp]
    exact fun j _ hs => not_cons_suffix i p ((suffix_cons j (i :: p)).trans hs)
  have ha' : frameAt s' root (i :: p) = some a := by
    rw [hempty.frameAt_eq hD (by simp only [length_cons]; omega), ha]
  obtain ⟨husable, hpos, hfree, -⟩ := h'.frame_allocated hD (by simp only [length_cons]; omega) ha'
  obtain ⟨pmm', heq, hr⟩ := freeFrame_success h'.wf hpos husable hfree
  have hstate : { (pmmFree s' a).2 with mem := write (pmmFree s' a).2.mem t i 0#64 } =
      withoutTable s' t i a pmm' := by
    simp [pmmFree, heq, withoutTable]
  rw [hstate]
  have hbelow : p.length < 3 → ∀ j, j < 512 → entryAt s' root (j :: i :: p) = 0#64 := by
    intro hl j hj
    exact hempty.zero j (by have := hn hl; omega) (hD.cons hj)
  obtain ⟨htree, hrw⟩ := h'.remove hD hlen hdepth hp' ha' hbelow hr
  refine ⟨htree, ?_, fun r hr hrlen hbeside => ?_⟩
  · rw [hrw _ hD (by simp only [length_cons]; omega), if_pos rfl]
  have hne : r ≠ i :: p := fun heq => hbeside (heq ▸ suffix_rfl)
  rw [hrw r hr hrlen, if_neg hne]
  exact hempty.beside r hr hrlen fun j _ hs => hbeside ((suffix_cons j (i :: p)).trans hs)

def Empties (origin : VmmState) (root depth : ℕ) (held : Set ℕ) (p : List ℕ)
    (clear : ℕ → VmmState → VmmState) : Prop :=
  ∀ s t, UserTree origin root depth held s → UserPath p → frameAt s root p = some t →
    UserTree origin root depth held (clear t s) ∧ Emptied s (clear t s) root p 512

variable {visit : VmmState → BitVec 64 → VmmState}

/-- A loop that clears the table below each entry, frees it and clears the entry. -/
lemma Cuts.of_empties {clear : ℕ → VmmState → VmmState}
    (hlen : p.length ≤ 2) (hclear : ∀ i, Empties origin root depth held (i :: p) clear)
    (hvisit : ∀ s e, UserTable e →
      visit s e = (pmmFree (clear (entryAddress e) s) (entryAddress e)).2) :
    Cuts origin root depth held p t visit := by
  intro s i h hD hp hpres
  have hdepth := h.depth_range.1
  have hentry := entryAt_cons hp i
  have hne : entryAt s root (i :: p) ≠ 0#64 := by
    rw [hentry]
    exact ne_zero_of_has hpres
  have htable := (h.tables _ hD (by simp only [length_cons]; omega)).resolve_left hne
  obtain ⟨h', hempty⟩ := hclear i s _ h hD htable.next
  rw [clearEntry, if_neg (by simp [hpres]), ← hentry, hvisit s _ htable]
  exact h'.cut hD (by omega) (by omega) hp htable.next (fun _ => rfl) hempty

lemma clearTable_empties (hlen : p.length = 3) : Empties origin root 4 held p clearTable := by
  intro s t h hD hp
  refine Cuts.loop ?_ h hp hD hlen.le 512 ?_
  · intro s i h hD hp hpres
    have hentry := entryAt_cons hp i
    have hne : entryAt s root (i :: p) ≠ 0#64 := by
      rw [hentry]
      exact ne_zero_of_has hpres
    have hleaf := (h.leaves _ hD (by simp [hlen])).resolve_left hne
    rw [clearEntry, if_neg (by simp [hpres]), ← hentry]
    exact h.cut hD hlen.le (by omega) hp hleaf.next (by omega) (Emptied.refl s root (i :: p))
  · intro i hi
    cases p with
    | nil => simp at hlen
    | cons j p => exact hD.cons hi

/-- A table that is not the top-level one has all its entries in the user half. -/
lemma Cuts.empties
    (hlen : p.length ≤ 2) (hcuts : ∀ t, Cuts origin root depth held (j :: p) t visit) :
    Empties origin root depth held (j :: p) fun t s => clearEntries visit t 512 s := by
  intro s t h hD hp
  exact (hcuts t).loop h hp hD (by simp only [length_cons]; omega) 512 fun i hi => hD.cons hi

lemma clearDirectory_empties (hlen : p.length = 1) :
    Empties origin root 4 held (j :: p) clearDirectory := by
  refine Cuts.empties (by omega) fun t => ?_
  refine Cuts.of_empties (by simp [hlen]) (fun i => clearTable_empties (by simp [hlen])) ?_
  intro s e he
  simp [he.small]

lemma clearPdpt_empties (j : ℕ) : Empties origin root 4 held [j] clearPdpt := by
  refine Cuts.empties (by simp) fun t => ?_
  refine Cuts.of_empties (by simp) (fun i => clearDirectory_empties rfl) ?_
  intro s e he
  simp [he.small]

theorem UserTree.clearPml4 (h : UserTree origin root 4 held s) :
    UserTree origin root 4 held (clearPml4 root s) ∧
      ∀ q, UserPath q → q ≠ [] → entryAt (Vmm.clearPml4 root s) root q = 0#64 := by
  have hcuts : Cuts origin root 4 held [] root fun s pml4e =>
      (pmmFree (clearPdpt (entryAddress pml4e) s) (entryAddress pml4e)).2 :=
    Cuts.of_empties (by simp) clearPdpt_empties fun _ _ _ => rfl
  obtain ⟨htree, hempty⟩ := hcuts.loop h h.frameAt_root trivial (by simp) 256 fun i hi => hi
  refine ⟨htree, fun q hq hne => ?_⟩
  obtain ⟨q, i, rfl⟩ := eq_nil_or_concat'  q |>.resolve_left hne
  have hi : UserPath [i] := hq.of_append
  exact entryAt_append_zero (hempty.zero i hi hi) q

end

lemma UserTree.leave (h : UserTree origin root depth held s) (pml4Phys : ℕ) :
    UserTree origin root depth held (leaveAddressSpace s pml4Phys) := by
  unfold leaveAddressSpace
  split_ifs
  · cases h
    constructor <;> assumption
  · exact h

lemma leaveAddressSpace_mem (s : VmmState) (pml4Phys : ℕ) :
    (leaveAddressSpace s pml4Phys).mem = s.mem := by
  unfold leaveAddressSpace
  split_ifs <;> rfl

variable (h : UserTree origin root 4 held s) (hroot : root ≠ origin.kernelPml4Phys)
include h hroot

lemma UserTree.clearUser :
    UserTree origin root 4 held (vmmClearUserAddressSpace s root) ∧
      ∀ q, UserPath q → q ≠ [] → entryAt (vmmClearUserAddressSpace s root) root q = 0#64 := by
  obtain ⟨htree, hzero⟩ := h.clearPml4
  have hkernel : root ≠ s.kernelPml4Phys := h.kernel_eq ▸ hroot
  unfold vmmClearUserAddressSpace
  rw [if_neg (by simp [h.root_pos, h.root_aligned]), if_neg (by simp [h.initialized, hkernel])]
  refine ⟨htree.leave root, fun q hq hne => ?_⟩
  unfold entryAt
  rw [leaveAddressSpace_mem]
  exact hzero q hq hne

lemma UserTree.destroy_eq :
    vmmDestroyAddressSpace s root =
      (pmmFree (vmmClearUserAddressSpace (leaveAddressSpace s root) root) root).2 := by
  have hkernel : root ≠ s.kernelPml4Phys := h.kernel_eq ▸ hroot
  unfold vmmDestroyAddressSpace
  rw [if_neg (by simp [h.root_pos, h.root_aligned]), if_neg (by simp [h.initialized, hkernel])]

theorem UserTree.destroy :
    freeAddresses (vmmDestroyAddressSpace s root).pmm ∪ held = freeAddresses origin.pmm ∧
      Disjoint (freeAddresses (vmmDestroyAddressSpace s root).pmm) held ∧
      failedFrees (vmmDestroyAddressSpace s root) = failedFrees origin := by
  obtain ⟨htree, hzero⟩ := (h.leave root).clearUser hroot
  rw [h.destroy_eq hroot]
  set s' := vmmClearUserAddressSpace (leaveAddressSpace s root) root
  obtain ⟨husable, hpos, hfree, hheld⟩ := htree.frame_allocated (p := []) trivial (by simp)
    htree.frameAt_root
  obtain ⟨pmm', heq, hr⟩ := freeFrame_success htree.wf hpos husable hfree
  have hpmm : (pmmFree s' root).2.pmm = pmm' := by simp [pmmFree, heq]
  rw [hpmm, hr.free_eq]
  refine ⟨?_, ?_, ?_⟩
  · -- the top-level table is the only place of the tree that still holds a frame
    ext a
    rw [htree.covers a]
    constructor
    · intro ha
      rcases ha with (rfl | ha) | ha
      · exact .inr ⟨[], trivial, by simp, htree.frameAt_root⟩
      · exact .inl (.inl ha)
      · exact .inl (.inr ha)
    intro ha
    rcases ha with (ha | ha) | ⟨q, hq, -, hqa⟩
    · exact .inl (.inr ha)
    · exact .inr ha
    have hnil : q = [] := by
      by_contra hne
      rw [frameAt, hzero q hq hne, pageNext_zero] at hqa
      cases hqa
    rw [hnil, htree.frameAt_root] at hqa
    exact .inl (.inl (Option.some.inj hqa).symm)
  · rw [Set.disjoint_left]
    intro a ha hha
    rcases ha with rfl | ha
    · exact hheld hha
    · exact htree.held_allocated a hha ha
  · rw [← htree.freed_once]
    simp [failedFrees, pmmFree, heq]

end KosKernel.Vmm
