import KosKernel.VmmTree

/-! The four ways a user tree changes: a table is hung in or taken out, a page is mapped or
unmapped. Each rewrites one entry and moves one frame. -/
namespace KosKernel.Vmm
open Pmm RadixTree
variable {held held' : Set ℕ} {root depth : ℕ} {origin s s' : VmmState} {p : List ℕ} {i t : ℕ}

/-- The entries below `root`, all but one the same as before. -/
def Rewrites (s s' : VmmState) (root : ℕ) (q : List ℕ) (e : BitVec 64) : Prop :=
  ∀ r, UserPath r → r.length ≤ 4 →
    entryAt s' root r = if r = q then e else entryAt s root r

lemma Rewrites.frameAt {q : List ℕ} {e : BitVec 64} (h : Rewrites s s' root q e) {n : ℕ}
    (hn : n ≤ 4) (r : List ℕ) (hr : UserPath r) (hlen : r.length ≤ n) :
    frameAt s' root r = if r = q then pageNext e else Vmm.frameAt s root r := by
  unfold Vmm.frameAt
  rw [h r hr (hlen.trans hn)]
  split_ifs <;> rfl

lemma UserTree.rewrite (h : UserTree origin root depth held s) {q : List ℕ} {e : BitVec 64}
    (hentry : Rewrites s s' root q e) (hinit : s'.initialized = s.initialized)
    (hkernel : s'.kernelPml4Phys = s.kernelPml4Phys) (hfreed : failedFrees s' = failedFrees s)
    (hwf : Wf s'.pmm) (husable : ∀ b, UsableAddress s'.pmm b ↔ UsableAddress s.pmm b)
    (htable : q.length ≤ 3 → e = 0#64 ∨ UserTable e) (hleaf : q.length = 4 → e = 0#64 ∨ UserLeaf e)
    (hheld : ∀ a ∈ held', a ∉ freeAddresses s'.pmm)
    (hapart : Apart (frameAt s' root) UserPath depth (freeAddresses s'.pmm ∪ held'))
    (hcovers : Covers (frameAt s' root) UserPath depth (freeAddresses origin.pmm)
      (freeAddresses s'.pmm ∪ held')) : UserTree origin root depth held' s' := by
  refine ⟨h.depth_range, hinit.trans h.initialized, h.root_aligned, h.root_pos, h.root_lt, hwf,
    fun a ha => ⟨(husable a).mpr (h.frames a ha).1, (h.frames a ha).2⟩, hheld, hapart, hcovers,
    ?_, ?_, hkernel.trans h.kernel_eq, hfreed.trans h.freed_once⟩
  · intro r hr hlen
    rw [hentry r hr (by omega)]
    split_ifs with hrq
    · exact htable (hrq ▸ hlen)
    · exact h.tables r hr hlen
  intro r hr hlen
  rw [hentry r hr (by omega)]
  split_ifs with hrq
  · exact hleaf (hrq ▸ hlen)
  · exact h.leaves r hr hlen

section
lemma entryAt_clear {D : List ℕ → Prop} {pool : Set ℕ} {n f : ℕ} (hD : ∀ i p, D (i :: p) → D p)
    (hapart : Apart (frameAt s root) D n pool) (hn : 3 ≤ n) (hf : f ∈ pool) (r : List ℕ) (hr : D r)
    (hlen : r.length ≤ 4) :
    slot pageNext (clearPageTable s.mem f) 0#64 (tableEntry root true) r = entryAt s root r := by
  refine slot_congr (n := 3) hD (fun p t hp hlen ht i _ => ?_) r hr hlen
  have hne : t ≠ f := by
    intro heq
    exact hapart.disjoint p t hp (hlen.trans hn) ht (heq ▸ hf)
  simp [clearPageTable, hne]

def withTable (s : VmmState) (t i f : ℕ) (pmm : PhysicalMemoryManager) (isUser : Bool) : VmmState :=
  { s with pmm, mem := write (clearPageTable s.mem f) t i (tableEntry f isUser) }

variable (h : UserTree origin root depth held s) (hD : UserPath (i :: p)) (hlen : p.length ≤ 2)
  (hp : frameAt s root p = some t) (hz : entryAt s root (i :: p) = 0#64) {f : ℕ}
  {pmm' : PhysicalMemoryManager} (hf : FrameTaken s.pmm f pmm')
include h hD hlen hp hz hf

lemma UserTree.grow_rewrites :
    Rewrites s (withTable s t i f pmm' true) root (i :: p) (tableEntry f true) := by
  have hclear := entryAt_clear (fun i p => HalfPath.tail) h.apart h.depth_range.1
    (.inl hf.wasFree)
  have htf : t ≠ f := by
    intro heq
    have hroom := h.depth_range.1
    exact (h.frame_allocated hD.tail (by omega) hp).2.2.1 (heq ▸ hf.wasFree)
  have hmem : clearPageTable s.mem f t i = 0#64 := by
    rw [entryAt_cons hp] at hz
    simpa [clearPageTable, htf] using hz
  have hfalign : f % pageSize = 0 := hf.wasFree.1
  have hdist : Distinct (fun r => pageNext (slot pageNext (clearPageTable s.mem f) 0#64
      (tableEntry root true) r)) UserPath 3 := by
    intro q r a hq hr hql hrl hNq hNr
    simp only [hclear q hq (by omega)] at hNq
    simp only [hclear r hr (by omega)] at hNr
    exact h.distinct q r a hq hr hql hrl hNq hNr
  intro r hr hrlen
  rw [← hclear r hr hrlen]
  refine slot_write (fun i p => HalfPath.tail) hdist ?_ hD (by omega) ?_ ?_ r hr
    hrlen
  · rw [hclear p hD.tail (by omega)]
    exact hp
  · intro _ g hg
    simp [hmem] at hg
  intro _ g hg j hj
  rw [tableEntry_next hfalign hf.lt] at hg
  obtain rfl := Option.some.inj hg
  rw [write_of_ne _ _ _ _ (.inl htf.symm)]
  simp [clearPageTable, hj.1]

theorem UserTree.grow : UserTree origin root depth held (withTable s t i f pmm' true) := by
  have hrw := h.grow_rewrites hD hlen hp hz hf
  have hfalign : f % pageSize = 0 := hf.wasFree.1
  have hlen' : (i :: p).length ≤ depth := by
    have := h.depth_range.1
    simp only [List.length_cons]
    omega
  have hframe : ∀ r, UserPath r → r.length ≤ depth → frameAt (withTable s t i f pmm' true) root r =
        if r = i :: p then some f else frameAt s root r := by
    intro r hr hrlen
    rw [hrw.frameAt h.depth_range.2 r hr hrlen, tableEntry_next hfalign hf.lt]
  have hnotheld : f ∉ held := fun hh => h.held_allocated f hh hf.wasFree
  have hpool : freeAddresses (withTable s t i f pmm' true).pmm ∪ held =
      (freeAddresses s.pmm ∪ held) \ {f} := by
    rw [show (withTable s t i f pmm' true).pmm = pmm' from rfl, hf.free_eq, Set.union_sdiff_distrib,
      Set.sdiff_singleton_eq_self hnotheld]
  have hfree : f ∈ freeAddresses s.pmm ∪ held := .inl hf.wasFree
  refine h.rewrite hrw rfl rfl rfl hf.wf hf.usable_iff
    (fun _ => .inr (tableEntry_user hfalign hf.lt)) (fun h4 => ?_) ?_ ?_ ?_
  · simp only [List.length_cons] at h4
    omega
  · intro a ha hfa
    rw [show (withTable s t i f pmm' true).pmm = pmm' from rfl, hf.free_eq] at hfa
    exact h.held_allocated a ha hfa.1
  · rw [hpool]
    exact h.apart.attach hfree hframe
  rw [hpool]
  refine h.covers.attach hfree hD hlen' ?_ hframe
  rw [frameAt, hz, pageNext_zero]

end

section
/-- One write into a table of the tree, above places that hold nothing. -/
lemma UserTree.write_rewrites (h : UserTree origin root depth held s) (hD : UserPath (i :: p))
    (hlen : p.length ≤ 3) (hp : frameAt s root p = some t) {e : BitVec 64}
    (hold : p.length < 3 → ∀ j, j < 512 → entryAt s root (j :: i :: p) = 0#64)
    (hnew : p.length < 3 → pageNext e = none) (hmem : s'.mem = write s.mem t i e) :
    Rewrites s s' root (i :: p) e := by
  intro r hr hrlen
  unfold entryAt
  rw [hmem]
  refine slot_write (fun i p => HalfPath.tail) h.distinct hp hD hlen ?_ ?_ r hr hrlen
  · intro hl g hg j hj
    have hframe : frameAt s root (i :: p) = some g := by rw [frameAt, entryAt_cons hp, hg]
    rw [← entryAt_cons hframe, hold hl j hj.1]
  · intro hl g hg
    simp [hnew hl] at hg

/-- The state after `release_owned_empty_table` has released a table. -/
def withoutTable (s : VmmState) (t i a : ℕ) (pmm : PhysicalMemoryManager) : VmmState :=
  { s with pmm, mem := write s.mem t i 0#64, freed := (a, true) :: s.freed }

lemma UserTree.remove (h : UserTree origin root depth held s) (hD : UserPath (i :: p))
    (hlen : p.length ≤ 3) (hdepth : p.length < depth) (hp : frameAt s root p = some t) {a : ℕ}
    (ha : frameAt s root (i :: p) = some a)
    (hempty : p.length < 3 → ∀ j, j < 512 → entryAt s root (j :: i :: p) = 0#64)
    {pmm' : PhysicalMemoryManager} (hr : FrameReturned s.pmm a pmm') :
    UserTree origin root depth held (withoutTable s t i a pmm') ∧
      Rewrites s (withoutTable s t i a pmm') root (i :: p) 0#64 := by
  have hrw : Rewrites s (withoutTable s t i a pmm') root (i :: p) 0#64 :=
    h.write_rewrites hD hlen hp hempty (fun _ => pageNext_zero) rfl
  have hlen' : (i :: p).length ≤ depth := by
    simp only [List.length_cons]
    omega
  have hframe : ∀ r, UserPath r → r.length ≤ depth → frameAt (withoutTable s t i a pmm') root r =
        if r = i :: p then none else frameAt s root r := by
    intro r hr' hrlen
    rw [hrw.frameAt h.depth_range.2 r hr' hrlen, pageNext_zero]
  have hpool : freeAddresses (withoutTable s t i a pmm').pmm ∪ held =
      insert a (freeAddresses s.pmm ∪ held) := by
    rw [show (withoutTable s t i a pmm').pmm = pmm' from rfl, hr.free_eq, Set.insert_union]
  refine ⟨h.rewrite hrw rfl rfl rfl hr.wf hr.usable_iff
    (fun _ => .inl rfl) (fun _ => .inl rfl) ?_ ?_ ?_, hrw⟩
  · intro b hb hfb
    rw [show (withoutTable s t i a pmm').pmm = pmm' from rfl, hr.free_eq] at hfb
    rcases hfb with rfl | hfb
    · exact (h.frame_allocated hD hlen' ha).2.2.2 hb
    · exact h.held_allocated b hb hfb
  · rw [hpool]
    exact h.apart.detach hD hlen' ha hframe le_rfl
  · rw [hpool]
    exact h.covers.detach hD hlen' ha hframe

end

variable {a : ℕ} {e : BitVec 64}

/-- A frame that is mapped leaves the caller's hands, if mapped frames are accounted for. -/
def LeafTaken (depth a : ℕ) (held held' : Set ℕ) : Prop :=
  depth = 3 ∧ held' = held ∨ depth = 4 ∧ a ∈ held ∧ held' = held \ {a}

def LeafReturned (depth a : ℕ) (held held' : Set ℕ) : Prop :=
  depth = 3 ∧ held' = held ∨ depth = 4 ∧ held' = insert a held

variable (h : UserTree origin root depth held s) (hD : UserPath (i :: p)) (hlen : p.length = 3)
  (hp : frameAt s root p = some t)
include h hD hlen hp

omit hD hp in
/-- The leaf lies below the places that are accounted for. -/
lemma UserTree.write_below (hrw : Rewrites s { s with mem := write s.mem t i e } root (i :: p) e)
    (hd : depth = 3) (he : e = 0#64 ∨ UserLeaf e) :
    UserTree origin root depth held { s with mem := write s.mem t i e } := by
  have hq : (i :: p).length = 4 := by simp [hlen]
  have hframe : ∀ r, UserPath r → r.length ≤ depth →
      frameAt { s with mem := write s.mem t i e } root r = frameAt s root r := by
    intro r hr hrlen
    have hne : r ≠ i :: p := fun heq => by rw [heq] at hrlen; omega
    rw [hrw.frameAt h.depth_range.2 r hr hrlen, if_neg hne]
  exact h.rewrite hrw rfl rfl rfl h.wf (fun _ => Iff.rfl) (by omega) (fun _ => he)
    h.held_allocated (h.apart.congr hframe) (h.covers.congr hframe)

theorem UserTree.mapLeaf (hz : entryAt s root (i :: p) = 0#64) (he : UserLeaf e)
    (hheld : LeafTaken depth (entryAddress e) held held') :
    UserTree origin root depth held' { s with mem := write s.mem t i e } ∧
      Rewrites s { s with mem := write s.mem t i e } root (i :: p) e := by
  have hrw : Rewrites s { s with mem := write s.mem t i e } root (i :: p) e :=
    h.write_rewrites hD hlen.le hp (by omega) (by omega) rfl
  refine ⟨?_, hrw⟩
  have hq : (i :: p).length = 4 := by simp [hlen]
  rcases hheld with ⟨hd, rfl⟩ | ⟨hd, ha, rfl⟩
  · exact h.write_below hlen hrw hd (.inr he)
  have hframe : ∀ r, UserPath r → r.length ≤ depth →
      frameAt { s with mem := write s.mem t i e } root r =
        if r = i :: p then some (entryAddress e) else frameAt s root r := by
    intro r hr hrlen
    rw [hrw.frameAt h.depth_range.2 r hr hrlen, he.next]
  have hpool : freeAddresses s.pmm ∪ held \ {entryAddress e} =
      (freeAddresses s.pmm ∪ held) \ {entryAddress e} := by
    rw [Set.union_sdiff_distrib, Set.sdiff_singleton_eq_self (h.held_allocated _ ha)]
  refine h.rewrite hrw rfl rfl rfl h.wf (fun _ => Iff.rfl) (by omega) (fun _ => .inr he)
    (fun b hb => h.held_allocated b hb.1) ?_ ?_
  · rw [show ({ s with mem := write s.mem t i e } : VmmState).pmm = s.pmm from rfl, hpool]
    exact h.apart.attach (.inr ha) hframe
  rw [show ({ s with mem := write s.mem t i e } : VmmState).pmm = s.pmm from rfl, hpool]
  refine h.covers.attach (.inr ha) hD (by omega) ?_ hframe
  rw [frameAt, hz, pageNext_zero]

theorem UserTree.unmapLeaf (ha : frameAt s root (i :: p) = some a)
    (hheld : LeafReturned depth a held held') :
    UserTree origin root depth held' { s with mem := write s.mem t i 0#64 } ∧
      Rewrites s { s with mem := write s.mem t i 0#64 } root (i :: p) 0#64 := by
  have hrw : Rewrites s { s with mem := write s.mem t i 0#64 } root (i :: p) 0#64 :=
    h.write_rewrites hD hlen.le hp (by omega) (by omega) rfl
  refine ⟨?_, hrw⟩
  have hq : (i :: p).length = 4 := by simp [hlen]
  rcases hheld with ⟨hd, rfl⟩ | ⟨hd, rfl⟩
  · exact h.write_below hlen hrw hd (.inl rfl)
  have hframe : ∀ r, UserPath r → r.length ≤ depth →
      frameAt { s with mem := write s.mem t i 0#64 } root r =
        if r = i :: p then none else frameAt s root r := by
    intro r hr hrlen
    rw [hrw.frameAt h.depth_range.2 r hr hrlen, pageNext_zero]
  have hpool : freeAddresses s.pmm ∪ insert a held = insert a (freeAddresses s.pmm ∪ held) :=
    Set.union_insert
  refine h.rewrite hrw rfl rfl rfl h.wf (fun _ => Iff.rfl) (by omega) (fun _ => .inl rfl)
    ?_ ?_ ?_
  · intro b hb
    rcases hb with rfl | hb
    · exact (h.frame_allocated hD (by omega) ha).2.2.1
    · exact h.held_allocated b hb
  · rw [show ({ s with mem := write s.mem t i 0#64 } : VmmState).pmm = s.pmm from rfl, hpool]
    exact h.apart.detach hD (by omega) ha hframe le_rfl
  · rw [show ({ s with mem := write s.mem t i 0#64 } : VmmState).pmm = s.pmm from rfl, hpool]
    exact h.covers.detach hD (by omega) ha hframe

end KosKernel.Vmm
