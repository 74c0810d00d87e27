import KosKernel.VmmSteps

/-! The tables of the kernel half, which the top-level tables of all address spaces point to,
and what the walks of kernel addresses write. -/
namespace KosKernel.Vmm
open Pmm RadixTree List
variable {live : Set ℕ} {root n : ℕ} {s s' : VmmState} {p : List ℕ} {i t : ℕ}

/-- The tables of the kernel half are distinct frames; none of them is free, and none is the
top-level table of a process. -/
structure KernelHalf (root : ℕ) (live : Set ℕ) (s : VmmState) : Prop where
  root_eq : s.kernelPml4Phys = root
  root_aligned : root % pageSize = 0
  root_pos : root ≠ 0
  root_lt : root < 2 ^ 52
  wf : Wf s.pmm
  live_allocated : ∀ a ∈ live, a ∉ freeAddresses s.pmm
  apart : Apart (frameAt s root) KernelPath 3 (freeAddresses s.pmm ∪ live)

/-- The frames that a walk below level `n` may write to: free ones, and tables from there on. -/
def footprint (root n : ℕ) (s : VmmState) : Set ℕ :=
  freeAddresses s.pmm ∪
    {a | ∃ q, KernelPath q ∧ n ≤ q.length ∧ q.length ≤ 3 ∧ frameAt s root q = some a}

/-- All writes were to the footprint, which did not grow. -/
structure Within (root n : ℕ) (s s' : VmmState) : Prop where
  mem : ∀ a, a ∉ footprint root n s → s'.mem a = s.mem a
  foot : footprint root n s' ⊆ footprint root n s

lemma Within.refl (root n : ℕ) (s : VmmState) : Within root n s s := ⟨fun _ _ => rfl, subset_rfl⟩

lemma Within.trans {s'' : VmmState} (h : Within root n s s') (h' : Within root n s' s'') :
    Within root n s s'' := by
  refine ⟨fun a ha => ?_, h'.foot.trans h.foot⟩
  rw [h'.mem a fun hfoot => ha (h.foot hfoot), h.mem a ha]

lemma footprint_succ (root n : ℕ) (s : VmmState) :
    footprint root (n + 1) s ⊆ footprint root n s := by
  intro a ha
  rcases ha with ha | ⟨q, hq, hn, hlen, hqa⟩
  · exact .inl ha
  · exact .inr ⟨q, hq, by omega, hlen, hqa⟩

section
variable (h : KernelHalf root live s)
include h

lemma KernelHalf.frameAt_root : frameAt s root [] = some root :=
  tableEntry_next h.root_aligned h.root_lt true

lemma KernelHalf.above {q : List ℕ} {a : ℕ} (hq : KernelPath q) (hlen : q.length < n)
    (h3 : q.length ≤ 3) (ha : frameAt s root q = some a) : a ∉ footprint root n s := by
  intro hfoot
  rcases hfoot with hfree | ⟨r, hr, hn, hrlen, hra⟩
  · exact h.apart.disjoint q a hq h3 ha (.inl hfree)
  · obtain rfl := h.apart.distinct q r a hq hr h3 hrlen ha hra
    omega

lemma KernelHalf.live_outside {a : ℕ} (ha : a ∈ live) : a ∉ footprint root n s := by
  intro hfoot
  rcases hfoot with hfree | ⟨r, hr, -, hrlen, hra⟩
  · exact h.live_allocated a ha hfree
  · exact h.apart.disjoint r a hr hrlen hra (.inr ha)

section
variable (hw : Within root n s s') (hn : n ≤ 4) (q : List ℕ) (hq : KernelPath q)
  (hlen : q.length ≤ n)
include hw hn q hq hlen

lemma Within.entryAt_eq : entryAt s' root q = entryAt s root q := by
  cases n with
  | zero =>
    rw [length_eq_zero_iff.mp (Nat.le_zero.mp hlen)]
    rfl
  | succ n =>
    refine slot_congr (n := n) (fun i p => HalfPath.tail) (fun p t hp hplen ht i _ => ?_) q hq hlen
    rw [hw.mem t (h.above hp (by omega) (by omega) ht)]

lemma Within.frameAt_eq : frameAt s' root q = frameAt s root q := by
  unfold frameAt
  rw [hw.entryAt_eq h hn q hq hlen]

end

lemma Within.weaken (hw : Within root (n + 1) s s') (hn : n ≤ 3) : Within root n s s' := by
  refine ⟨fun a ha => hw.mem a fun hfoot => ha (footprint_succ root n s hfoot), fun a ha => ?_⟩
  rcases ha with ha | ⟨q, hq, hnq, hlen, hqa⟩
  · exact footprint_succ root n s (hw.foot (.inl ha))
  by_cases heq : q.length = n
  · rw [hw.frameAt_eq h (by omega) q hq (by omega)] at hqa
    exact .inr ⟨q, hq, hnq, hlen, hqa⟩
  · exact footprint_succ root n s (hw.foot (.inr ⟨q, hq, by omega, hlen, hqa⟩))

end

section
variable (h : KernelHalf root live s) (hp : frameAt s root p = some t)
include h hp

/-- A write to the table at `p` whose entry led and leads to nothing but empty tables. -/
lemma KernelHalf.frameAt_write (hD : KernelPath (i :: p)) (hlen : p.length ≤ 3) {e : BitVec 64}
    (hold : p.length < 3 → ∀ f, pageNext (s.mem t i) = some f →
      ∀ j, j < 512 → pageNext (s.mem f j) = none) (hnew : p.length < 3 → pageNext e = none)
    (hmem : s'.mem = write s.mem t i e) (r : List ℕ) (hr : KernelPath r) (hrlen : r.length ≤ 3) :
    frameAt s' root r = if r = i :: p then pageNext e else frameAt s root r := by
  unfold frameAt entryAt
  rw [hmem]
  refine next_slot_write (fun i p => HalfPath.tail) h.apart.distinct hp hD hlen pageNext_zero
    (fun hl f hf j hj => hold hl f hf j hj.1) (fun hl f hf => ?_) r hr (by omega)
  rw [hnew hl] at hf
  cases hf

lemma KernelHalf.writeLeaf (hD : KernelPath (i :: p)) (hlen : p.length = 3) (e : BitVec 64) :
    KernelHalf root live { s with mem := write s.mem t i e } ∧
      Within root 3 s { s with mem := write s.mem t i e } := by
  have hframe : ∀ r, KernelPath r → r.length ≤ 3 →
      frameAt { s with mem := write s.mem t i e } root r = frameAt s root r := by
    intro r hr hrlen
    have hne : r ≠ i :: p := fun heq => by simp [heq, hlen] at hrlen
    rw [h.frameAt_write hp hD hlen.le (by omega) (by omega) rfl r hr hrlen, if_neg hne]
  refine ⟨⟨h.root_eq, h.root_aligned, h.root_pos, h.root_lt, h.wf, h.live_allocated,
    h.apart.congr hframe⟩, fun a ha => ?_, fun a ha => ?_⟩
  · have hat : a ≠ t := by
      rintro rfl
      exact ha (.inr ⟨p, hD.tail, hlen.ge, hlen.le, hp⟩)
    exact write_table _ _ _ _ hat
  rcases ha with ha | ⟨q, hq, hn, hqlen, hqa⟩
  · exact .inl ha
  · rw [hframe q hq hqlen] at hqa
    exact .inr ⟨q, hq, hn, hqlen, hqa⟩

variable (hD : KernelPath (i :: p)) (hlen : p.length ≤ 2)
include hD hlen

lemma KernelHalf.grow (hz : has (s.mem t i) pagePresent = false) {f : ℕ}
    {pmm' : PhysicalMemoryManager} (hf : FrameTaken s.pmm f pmm') (isUser : Bool) :
    KernelHalf root live (withTable s t i f pmm' isUser) ∧
      Within root p.length s (withTable s t i f pmm' isUser) ∧
      frameAt (withTable s t i f pmm' isUser) root (i :: p) = some f := by
  have hpool : f ∈ freeAddresses s.pmm ∪ live := .inl hf.wasFree
  have hclear := entryAt_clear (fun i p => HalfPath.tail) h.apart le_rfl hpool
  have htf : t ≠ f := fun heq => h.apart.disjoint p t hD.tail (by omega) hp (heq ▸ hpool)
  have hmem : pageNext (clearPageTable s.mem f t i) = none := by
    rw [show clearPageTable s.mem f t i = s.mem t i by simp [clearPageTable, htf]]
    exact pageNext_of_absent hz
  have hdist : Distinct (fun r => pageNext (slot pageNext (clearPageTable s.mem f) 0#64
      (tableEntry root true) r)) KernelPath 3 := by
    intro q r a hq hr hql hrl hNq hNr
    simp only [hclear q hq (by omega)] at hNq
    simp only [hclear r hr (by omega)] at hNr
    exact h.apart.distinct q r a hq hr hql hrl hNq hNr
  have hframe : ∀ r, KernelPath r → r.length ≤ 3 → frameAt (withTable s t i f pmm' isUser) root r =
        if r = i :: p then some f else frameAt s root r := by
    intro r hr hrlen
    have hslot := next_slot_write (fun i p => HalfPath.tail) hdist
      (show pageNext _ = some t by rw [hclear p hD.tail (by omega)]; exact hp) hD (by omega)
      pageNext_zero (fun _ g hg => by rw [hmem] at hg; cases hg) (e := tableEntry f isUser) ?_ r hr (by omega)
    · rw [tableEntry_next hf.wasFree.1 hf.lt, hclear r hr (by omega)] at hslot
      exact hslot
    intro _ g hg j hj
    rw [tableEntry_next hf.wasFree.1 hf.lt] at hg
    obtain rfl := Option.some.inj hg
    rw [write_of_ne _ _ _ _ (.inl htf.symm)]
    simp [clearPageTable, hj.1]
  have hfree : freeAddresses (withTable s t i f pmm' isUser).pmm = freeAddresses s.pmm \ {f} :=
    hf.free_eq
  refine ⟨⟨h.root_eq, h.root_aligned, h.root_pos, h.root_lt, hf.wf, fun a ha hfa => ?_, ?_⟩,
    ⟨fun a ha => ?_, fun a ha => ?_⟩, ?_⟩
  · rw [hfree] at hfa
    exact h.live_allocated a ha hfa.1
  · have hnotlive : f ∉ live := fun hl => h.live_allocated f hl hf.wasFree
    rw [hfree, show freeAddresses s.pmm \ {f} ∪ live = (freeAddresses s.pmm ∪ live) \ {f} by
      rw [Set.union_sdiff_distrib, Set.sdiff_singleton_eq_self hnotlive]]
    exact h.apart.attach hpool hframe
  · have haf : a ≠ f := fun heq => ha (.inl (heq ▸ hf.wasFree))
    have hat : a ≠ t := fun heq => ha (.inr ⟨p, hD.tail, le_rfl, by omega, heq ▸ hp⟩)
    simp [withTable, write_table _ _ _ _ hat, clearPageTable, haf]
  · rcases ha with ha | ⟨q, hq, hn, hqlen, hqa⟩
    · rw [hfree] at ha
      exact .inl ha.1
    rw [hframe q hq hqlen] at hqa
    split_ifs at hqa
    · exact .inl (Option.some.inj hqa ▸ hf.wasFree)
    · exact .inr ⟨q, hq, hn, hqlen, hqa⟩
  · rw [hframe _ hD (by simp only [length_cons]; omega), if_pos rfl]

section
variable {a : ℕ} (ha : frameAt s root (i :: p) = some a)
include ha

lemma KernelHalf.remove (hempty : ∀ j, j < 512 → has (s.mem a j) pagePresent = false)
    (hroot : s'.kernelPml4Phys = s.kernelPml4Phys) (hmem : s'.mem = write s.mem t i 0#64)
    (hwf : Wf s'.pmm) (hfree : freeAddresses s'.pmm ⊆ insert a (freeAddresses s.pmm)) :
    KernelHalf root live s' ∧ Within root p.length s s' := by
  have hlen' : (i :: p).length ≤ 3 := by
    simp only [length_cons]
    omega
  have hentry : pageNext (s.mem t i) = some a := by
    rw [← entryAt_cons hp]
    exact ha
  have hframe : ∀ r, KernelPath r → r.length ≤ 3 →
      frameAt s' root r = if r = i :: p then none else frameAt s root r := by
    refine h.frameAt_write hp hD (by omega) (fun _ f hf j hj => ?_) (fun _ => pageNext_zero) hmem
    rw [hentry] at hf
    obtain rfl := Option.some.inj hf
    exact pageNext_of_absent (hempty j hj)
  refine ⟨⟨hroot.trans h.root_eq, h.root_aligned, h.root_pos, h.root_lt, hwf, ?_,
    h.apart.detach hD hlen' ha hframe ?_⟩, fun b hb => ?_, fun b hb => ?_⟩
  · intro b hb hfb
    rcases hfree hfb with rfl | hfb
    · exact h.apart.disjoint _ _ hD hlen' ha (.inr hb)
    · exact h.live_allocated b hb hfb
  · rw [← Set.insert_union]
    exact Set.union_subset_union_left live hfree
  · have hbt : b ≠ t := fun heq => hb (.inr ⟨p, hD.tail, le_rfl, by omega, heq ▸ hp⟩)
    rw [hmem, write_table _ _ _ _ hbt]
  rcases hb with hb | ⟨q, hq, hn, hqlen, hqb⟩
  · rcases hfree hb with rfl | hb
    · exact .inr ⟨i :: p, hD, by simp, hlen', ha⟩
    · exact .inl hb
  rw [hframe q hq hqlen] at hqb
  split_ifs at hqb
  exact .inr ⟨q, hq, hn, hqlen, hqb⟩

lemma KernelHalf.release :
    KernelHalf root live (releaseOwnedEmptyTable s t i).2 ∧
      Within root p.length s (releaseOwnedEmptyTable s t i).2 := by
  have haddr : entryAddress (s.mem t i) = a := by
    have hentry : pageNext (s.mem t i) = some a := by
      rw [← entryAt_cons hp]
      exact ha
    unfold pageNext at hentry
    split_ifs at hentry
    exact Option.some.inj hentry
  unfold releaseOwnedEmptyTable
  dsimp only
  split_ifs with howned hfull
  · exact ⟨h, Within.refl root p.length s⟩
  · exact ⟨h, Within.refl root p.length s⟩
  rw [haddr] at hfull ⊢
  have hempty : ∀ j, j < 512 → has (s.mem a j) pagePresent = false := by
    simpa [pageTableIsEmpty] using hfull
  rcases freeFrame_cases h.wf a with ⟨heq, -⟩ | ⟨pmm', heq, hr⟩
  · simp only [pmmFree, heq]
    exact h.remove hp hD hlen ha hempty rfl rfl h.wf (Set.subset_insert _ _)
  · simp only [pmmFree, heq]
    exact h.remove hp hD hlen ha hempty rfl rfl hr.wf hr.free_eq.subset

end
end

lemma KernelHalf.nextTable_cases (h : KernelHalf root live s) (hp : frameAt s root p = some t)
    {va : ℕ} (hva : userLimit ≤ va) {flags : BitVec 64}
    (hflags : has flags vmmPageUser = false) (i : ℕ) :
    nextTable s t i va flags = (none, false, s) ∨
      (∃ a, nextTable s t i va flags = (some a, false, s) ∧ frameAt s root (i :: p) = some a) ∨
      ∃ f pmm', nextTable s t i va flags = (some f, true, withTable s t i f pmm' false) ∧
        has (s.mem t i) pagePresent = false ∧ FrameTaken s.pmm f pmm' := by
  have huser : (decide (va < userLimit) || has flags vmmPageUser) = false := by simp [hva, hflags]
  unfold nextTable
  rw [huser]
  cases hpres : has (s.mem t i) pagePresent with
  | true =>
    cases hhuge : has (s.mem t i) pageHuge with
    | true => exact .inl (by simp [hpres, hhuge])
    | false =>
      have hwrite : write s.mem t i (s.mem t i) = s.mem := by simp [write]
      refine .inr (.inl ⟨entryAddress (s.mem t i), by simp [hpres, hhuge, hwrite], ?_⟩)
      rw [frameAt, entryAt_cons hp, pageNext_of_small hpres hhuge]
  | false =>
    rcases allocateFrame_cases h.wf with hnone | ⟨f, pmm', heq, hf⟩
    · exact .inl (by simp [hpres, hnone])
    · exact .inr (.inr ⟨f, pmm', by simp [hpres, heq, hf.pos, withTable], rfl, hf⟩)

lemma HalfPath.shift {top : ℕ → Prop} {j : ℕ} {rest : List ℕ}
    (h : HalfPath top ((j :: rest).reverse ++ i :: p)) :
    HalfPath top (rest.reverse ++ j :: i :: p) := by
  simpa [append_assoc] using h

section
variable {va : ℕ} (hva : userLimit ≤ va) {flags : BitVec 64}
  (hflags : has flags vmmPageUser = false) (pa : ℕ)
include hva hflags

/-- The walk of `vmm_map_page_in` from the table at `p` on writes to tables from there on. -/
theorem KernelHalf.mapWalk (rest : List ℕ) (h : KernelHalf root live s)
    (hD : KernelPath (rest.reverse ++ i :: p)) (hlen : p.length + rest.length = 3)
    (hp : frameAt s root p = some t) :
    KernelHalf root live (mapWalk va pa flags (i :: rest) s t).2 ∧
      Within root p.length s (Vmm.mapWalk va pa flags (i :: rest) s t).2 := by
  induction rest generalizing s p i t with
  | nil =>
    simp only [length_nil, Nat.add_zero] at hlen
    simp only [Vmm.mapWalk]
    split_ifs
    · exact ⟨h, Within.refl root p.length s⟩
    · rw [hlen]
      exact h.writeLeaf hp hD hlen (leafEntry pa flags)
  | cons j rest ih =>
    simp only [length_cons] at hlen
    have hD' := hD.shift
    have hDi : KernelPath (i :: p) := hD'.of_append.tail
    have hlen' : (i :: p).length + rest.length = 3 := by
      simp only [length_cons]
      omega
    rw [Vmm.mapWalk]
    rcases h.nextTable_cases hp hva hflags i with hnone | ⟨a, heq, ha⟩ | ⟨f, pmm', heq, habsent, hf⟩
    · rw [hnone]
      exact ⟨h, Within.refl root p.length s⟩
    · obtain ⟨h', hw⟩ := ih h hD' hlen' ha
      have hw' := hw.weaken h (by omega)
      simp only [heq]
      rcases hwalk : Vmm.mapWalk va pa flags (j :: rest) s a with ⟨ok, s'⟩
      rw [hwalk] at h' hw'
      cases ok with
      | true => exact ⟨h', hw'⟩
      | false => exact ⟨h', hw'⟩
    · obtain ⟨h1, hw1, hf1⟩ := h.grow hp hDi (by omega) habsent hf false
      obtain ⟨h', hw⟩ := ih h1 hD' hlen' hf1
      simp only [heq]
      rcases hwalk : Vmm.mapWalk va pa flags (j :: rest)
        (withTable s t i f pmm' false) f with ⟨ok, s'⟩
      rw [hwalk] at h' hw
      have hw' := hw1.trans (hw.weaken h1 (by omega))
      cases ok with
      | true => exact ⟨h', hw'⟩
      | false =>
        -- the tables of the walk are still in place when they are rolled back
        have hfi : frameAt s' root (i :: p) = some f := by
          rw [hw.frameAt_eq h1 (by omega) _ hDi le_rfl, hf1]
        have hfp : frameAt s' root p = some t := by
          rw [hw.frameAt_eq h1 (by omega) p hDi.tail (by simp),
            hw1.frameAt_eq h (by omega) p hDi.tail le_rfl, hp]
        obtain ⟨h2, hw2⟩ := h'.release hfp hDi (by omega) hfi
        exact ⟨h2, hw'.trans hw2⟩

lemma KernelHalf.mapWalk_present {j : ℕ} (rest : List ℕ) (h : KernelHalf root live s)
    (hD : KernelPath (rest.reverse ++ j :: i :: p)) (hlen : p.length + rest.length = 2)
    (hp : frameAt s root p = some t) (hpres : has (s.mem t i) pagePresent = true) :
    Within root (p.length + 1) s
      (Vmm.mapWalk va pa flags (i :: j :: rest) s t).2 := by
  rw [Vmm.mapWalk]
  rcases h.nextTable_cases hp hva hflags i with hnone | ⟨a, heq, ha⟩ | ⟨f, pmm', heq, habsent, hf⟩
  · rw [hnone]
    exact Within.refl root _ s
  · simp only [heq]
    have hw := (h.mapWalk hva hflags pa rest hD
      (by simp only [length_cons]; omega) ha).2
    rcases hwalk : Vmm.mapWalk va pa flags (j :: rest) s a with ⟨ok, s'⟩
    rw [hwalk] at hw
    cases ok with
    | true => exact hw
    | false => exact hw
  · rw [hpres] at habsent
    cases habsent

end

def onlyEntry (mem : Tables (BitVec 64)) (table index : ℕ) : Bool :=
  (range 512).all fun i => decide (i = index) || !has (mem table i) pagePresent

/-- Whether unmapping the page at these indices leaves nothing below the first of them, so that
its entry is cleared: the tables are the VMM's own and hold nothing else. -/
def clearsEntry (mem : Tables (BitVec 64)) : List ℕ → ℕ → Bool
  | [], _ => false
  | [_], _ => true
  | i :: j :: rest, table =>
    hasAll (mem table i) (pagePresent ||| pageKosOwnedTable) &&
      onlyEntry mem (entryAddress (mem table i)) j &&
      clearsEntry mem (j :: rest) (entryAddress (mem table i))

/-- What the walk of `vmm_unmap_page_in` from the table at `p` on does. -/
structure Unmaps (root : ℕ) (live : Set ℕ) (p : List ℕ) (i : ℕ) (rest : List ℕ) (t : ℕ)
    (s : VmmState) (releasing : Bool) (s' : VmmState) : Prop where
  half : KernelHalf root live s'
  within : Within root p.length s s'
  beside : ∀ j, j ≠ i → s'.mem t j = s.mem t j
  keeps : clearsEntry s.mem (i :: rest) t = false → releasing = false ∧ s'.mem t i = s.mem t i

lemma onlyEntry_of_empty {mem mem' : Tables (BitVec 64)} {table index : ℕ}
    (hbeside : ∀ j, j ≠ index → mem' table j = mem table j)
    (hempty : pageTableIsEmpty mem' table = true) : onlyEntry mem table index = true := by
  simp only [pageTableIsEmpty, onlyEntry, all_eq_true, mem_range, Bool.or_eq_true,
    decide_eq_true_eq] at hempty ⊢
  intro j hj
  by_cases hji : j = index
  · exact .inl hji
  · rw [← hbeside j hji]
    exact .inr (hempty j hj)

lemma release_beside (s : VmmState) (t i : ℕ) {j : ℕ} (hj : j ≠ i) :
    (releaseOwnedEmptyTable s t i).2.mem t j = s.mem t j := by
  unfold releaseOwnedEmptyTable
  dsimp only
  split_ifs
  · rfl
  · rfl
  · exact write_of_ne _ _ _ _ (.inr hj)

/-- An entry is released only if its table is the VMM's own and empty. -/
lemma release_or_kept (s : VmmState) (t i : ℕ) :
    releaseOwnedEmptyTable s t i = (false, s) ∨
      hasAll (s.mem t i) (pagePresent ||| pageKosOwnedTable) = true ∧
        pageTableIsEmpty s.mem (entryAddress (s.mem t i)) = true := by
  unfold releaseOwnedEmptyTable
  dsimp only
  split_ifs with howned hfull
  · exact .inl rfl
  · exact .inl rfl
  · exact .inr ⟨by simpa using howned, by simpa using hfull⟩

theorem KernelHalf.unmapWalk (rest : List ℕ) (h : KernelHalf root live s)
    (hD : KernelPath (rest.reverse ++ i :: p)) (hlen : p.length + rest.length = 3)
    (hp : frameAt s root p = some t) :
    unmapWalk (i :: rest) s t = none ∨
      ∃ a releasing s', Vmm.unmapWalk (i :: rest) s t = some (a, releasing, s') ∧
        Unmaps root live p i rest t s releasing s' := by
  induction rest generalizing s p i t with
  | nil =>
    simp only [length_nil, Nat.add_zero] at hlen
    simp only [Vmm.unmapWalk]
    split_ifs
    · exact .inl rfl
    obtain ⟨h', hw⟩ := h.writeLeaf hp hD hlen 0#64
    refine .inr ⟨_, _, _, rfl, h', hlen ▸ hw, fun j hj => ?_, fun hkeep => ?_⟩
    · exact write_of_ne _ _ _ _ (.inr hj)
    · cases hkeep
  | cons j rest ih =>
    simp only [length_cons] at hlen
    have hD' := hD.shift
    have hDi : KernelPath (i :: p) := hD'.of_append.tail
    have hlen' : (i :: p).length + rest.length = 3 := by
      simp only [length_cons]
      omega
    by_cases hstop : has (s.mem t i) pagePresent = false ∨ has (s.mem t i) pageHuge = true
    · exact .inl (by rw [Vmm.unmapWalk, if_pos hstop])
    have ha : frameAt s root (i :: p) = some (entryAddress (s.mem t i)) := by
      simp only [not_or, Bool.not_eq_false, Bool.not_eq_true] at hstop
      rw [frameAt, entryAt_cons hp, pageNext_of_small hstop.1 hstop.2]
    rw [Vmm.unmapWalk, if_neg hstop]
    rcases ih h hD' hlen' ha with hnone | ⟨a, releasing, s1, hwalk, hu⟩
    · exact .inl (by simp only [hnone])
    right
    simp only [hwalk]
    have hw := hu.within.weaken h (by omega)
    have htable : s1.mem t = s.mem t := hu.within.mem t (h.above hDi.tail (by simp) (by omega) hp)
    cases releasing with
    | false =>
      exact ⟨a, false, s1, rfl, hu.half, hw, fun k _ => congrFun htable k,
        fun _ => ⟨rfl, congrFun htable i⟩⟩
    | true =>
      have hfi : frameAt s1 root (i :: p) = some (entryAddress (s.mem t i)) := by
        rw [hu.within.frameAt_eq h (by omega) _ hDi le_rfl, ha]
      have hfp : frameAt s1 root p = some t := by
        rw [hw.frameAt_eq h (by omega) p hDi.tail le_rfl, hp]
      obtain ⟨h2, hw2⟩ := hu.half.release hfp hDi (by omega) hfi
      refine ⟨a, _, _, rfl, h2, hw.trans hw2, fun k hk => ?_, fun hkeep => ?_⟩
      · rw [release_beside s1 t i hk, htable]
      rcases release_or_kept s1 t i with hkept | ⟨howned, hempty⟩
      · rw [hkept]
        exact ⟨rfl, congrFun htable i⟩
      -- the release would have needed all that `hkeep` rules out
      rw [htable] at howned hempty
      have hinner : clearsEntry s.mem (j :: rest) (entryAddress (s.mem t i)) = true := by
        by_contra hfalse
        cases (hu.keeps (by simpa using hfalse)).1
      rw [clearsEntry, howned, onlyEntry_of_empty hu.beside hempty, hinner] at hkeep
      cases hkeep

end KosKernel.Vmm
