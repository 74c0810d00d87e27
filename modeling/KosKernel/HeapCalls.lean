import KosKernel.HeapResize

/-! What each heap call does to the list of blocks: the heap is left as it was, up to the
environment, or exactly one allocated block is added or removed. -/
namespace KosKernel.Heap
open ByteMemory Segments List
variable {σ : Type} {s : HeapState σ} {blocks pre post : List Block} {b c : Block}

def used (blocks : List Block) : Set Block := {b | b ∈ blocks ∧ b.free = false}

section
lemma mem_used : b ∈ used blocks ↔ b ∈ blocks ∧ b.free = false := Iff.rfl

@[simp] lemma used_append (xs ys : List Block) : used (xs ++ ys) = used xs ∪ used ys := by
  ext b
  simp [mem_used, or_and_right]

lemma used_cons_free (h : b.free = true) (bs : List Block) : used (b :: bs) = used bs := by
  ext c
  simp only [mem_used, mem_cons, or_and_right, or_iff_right_iff_imp, and_imp]
  rintro rfl hc
  simp [h] at hc

lemma used_cons_allocated (h : b.free = false) (bs : List Block) :
    used (b :: bs) = insert b (used bs) := by
  ext c
  simp only [mem_used, mem_cons, Set.mem_insert_iff, or_and_right]
  refine or_congr_left ⟨And.left, ?_⟩
  rintro rfl
  exact ⟨rfl, h⟩

lemma Layout.used_without (h : Layout s (pre ++ b :: post)) :
    used pre ∪ used post = {c ∈ used (pre ++ b :: post) | c.address ≠ b.address} := by
  ext c
  simp only [Set.mem_union, mem_used, Set.mem_ofPred_eq, mem_append, mem_cons]
  constructor
  · rintro (⟨hc, hfree⟩ | ⟨hc, hfree⟩)
    · have := h.far_pre hc
      unfold Block.span headerSize at this
      exact ⟨⟨.inl hc, hfree⟩, by omega⟩
    have := h.far_post hc
    unfold Block.span headerSize at this
    exact ⟨⟨.inr (.inr hc), hfree⟩, by omega⟩
  · rintro ⟨⟨hc | rfl | hc, hfree⟩, hne⟩
    · exact .inl ⟨hc, hfree⟩
    · exact absurd rfl hne
    · exact .inr ⟨hc, hfree⟩

end

section
def LastAllocated (pre : List Block) : Prop := ∀ x ∈ pre.getLast?, x.free = false
def HeadAllocated (post : List Block) : Prop := ∀ y ∈ post.head?, y.free = false

lemma coalesced_free (h : b.free = true) :
    Coalesced (pre ++ b :: post) ↔
      Coalesced pre ∧ Coalesced post ∧ LastAllocated pre ∧ HeadAllocated post := by
  unfold Coalesced LastAllocated HeadAllocated
  rw [isChain_append, isChain_cons]
  simp only [h, head?_cons, Option.mem_def, Option.some.injEq, forall_eq', Bool.true_eq_false,
    or_false, false_or]
  exact ⟨fun ⟨h1, ⟨h2, h3⟩, h4⟩ => ⟨h1, h3, h4, h2⟩, fun ⟨h1, h2, h3, h4⟩ => ⟨h1, ⟨h4, h2⟩, h3⟩⟩

lemma coalesced_allocated (h : b.free = false) :
    Coalesced (pre ++ b :: post) ↔ Coalesced pre ∧ Coalesced post := by
  unfold Coalesced
  rw [isChain_append, isChain_cons]
  simp [h]

lemma Coalesced.carved (hpre : Coalesced pre) (hpost : Coalesced post)
    (hhead : HeadAllocated post) (b : Block) (size : ℕ) :
    Coalesced (pre ++ (carved b size ++ post)) := by
  unfold Heap.carved
  split_ifs
  · refine (coalesced_allocated rfl).mpr ⟨hpre, ?_⟩
    exact isChain_cons.mpr ⟨fun y hy => .inr (hhead y hy), hpost⟩
  · exact (coalesced_allocated rfl).mpr ⟨hpre, hpost⟩

end

section
/-- The heap after a successful allocation: one allocated block more, at a fresh address. -/
structure Granted (s' : HeapState σ) (blocks blocks' : List Block) (b : Block) (size : ℕ) :
    Prop where
  layout : Layout s' blocks'
  coalesced : Coalesced blocks'
  allocated : b.free = false
  size_le : size ≤ b.size
  used_eq : used blocks' = insert b (used blocks)
  fresh : ∀ c ∈ used blocks, c.address ≠ b.address

lemma carved_used (b : Block) {size : ℕ} (hsize : size ≤ b.size) :
    ∃ c : Block, c.address = b.address ∧ c.free = false ∧ size ≤ c.size ∧
      used (carved b size) = {c} := by
  unfold carved
  split_ifs
  · refine ⟨⟨b.address, size, false⟩, rfl, rfl, le_rfl, ?_⟩
    rw [used_cons_allocated rfl, used_cons_free rfl]
    simp [used]
  refine ⟨⟨b.address, b.size, false⟩, rfl, rfl, hsize, ?_⟩
  rw [used_cons_allocated rfl]
  simp [used]

lemma Layout.granted (h : Layout s (pre ++ b :: post)) (hfree : b.free = true)
    (hpre : Coalesced pre) (hpost : Coalesced post) (hhead : HeadAllocated post) {size : ℕ}
    (hs : 0 < size ∧ size % heapAlignment = 0) (hfit : size ≤ b.size) :
    ∃ c blocks', c.payload = b.address + headerSize ∧
      Granted (Heap.carveBlock s b.address size) (pre ++ b :: post) blocks' c size := by
  obtain ⟨c, haddr, hc, hsize, hused⟩ := carved_used b hfit
  have hsame : used (pre ++ b :: post) = used pre ∪ used post := by
    rw [used_append, used_cons_free hfree]
  refine ⟨c, _, by rw [Block.payload, haddr], h.carveBlock hfree hs,
    hpre.carved hpost hhead b size, hc, hsize, ?_, ?_⟩
  · rw [hsame, used_append, used_append, hused, Set.singleton_union, Set.union_insert]
  intro d hd
  rw [hsame, h.used_without] at hd
  exact haddr ▸ hd.2

lemma alignUp_cases (size : ℕ) (hpos : size ≠ 0) :
    alignUp size heapAlignment = none ∨
      ∃ aligned, alignUp size heapAlignment = some aligned ∧ size ≤ aligned ∧
        0 < aligned ∧ aligned % heapAlignment = 0 := by
  unfold alignUp heapAlignment
  split_ifs
  · exact .inl rfl
  · exact .inr ⟨_, rfl, by omega, by omega, by omega⟩

theorem kmalloc_cases (B : PageBackend σ) (h : Layout s blocks) (hc : Coalesced blocks) (size : ℕ) :
    (∃ env, kmalloc B s size = some (0, { s with env })) ∨
      ∃ s' b blocks', kmalloc B s size = some (b.payload, s') ∧
        Granted s' blocks blocks' b size := by
  unfold kmalloc
  by_cases hz : size = 0
  · exact .inl ⟨s.env, by rw [if_pos (.inr hz)]⟩
  rw [if_neg (by simp [h.initialized, hz])]
  rcases alignUp_cases size hz with hnone | ⟨aligned, hsome, hle, hs⟩
  · exact .inl ⟨s.env, by rw [hnone]⟩
  rw [hsome, h.first]
  dsimp only
  rcases findFreeBlock_spec aligned h.linked (fun b hb => h.address_ne_zero hb) h.length_le with
    hfull | ⟨pre, b, post, rfl, hfree, hfit, hfound⟩
  · -- no fitting block: grow, then carve the appended block
    rw [hfull]
    rcases growHeap_cases B s aligned with ⟨env, hgrow⟩ | ⟨hroom, env, hgrow⟩
    · exact .inl ⟨env, by simp [hgrow]⟩
    obtain ⟨hfit, hbytes⟩ := growPages_bounds aligned
    have hgrown := h.appendBlock env hbytes hroom (Nat.mul_mod_left _ _)
    obtain ⟨c, blocks', hpayload, hgrant⟩ := hgrown.granted rfl hc isChain_nil
      (by simp [HeadAllocated]) hs (Nat.le_sub_of_add_le hfit)
    have hne : heapBase ≠ 0 := by simp [heapBase]
    refine .inr ⟨_, c, blocks', ?_, hgrant.layout, hgrant.coalesced, hgrant.allocated,
      hle.trans hgrant.size_le, ?_, ?_⟩
    · rw [hpayload]
      simp [hgrow, hne, grownBlock]
    · rw [hgrant.used_eq, used_append, used_cons_free rfl]
      simp [used]
    · intro d hd
      exact hgrant.fresh d (by rw [used_append]; exact .inl hd)
  · rw [hfound]
    obtain ⟨hpre, hpost, -, hhead⟩ := (coalesced_free hfree).mp hc
    obtain ⟨c, blocks', hpayload, hgrant⟩ := h.granted hfree hpre hpost hhead hs hfit
    have hne : b.address ≠ 0 := h.address_ne_zero (by simp)
    refine .inr ⟨_, c, blocks', ?_, hgrant.layout, hgrant.coalesced, hgrant.allocated,
      hle.trans hgrant.size_le, hgrant.used_eq, hgrant.fresh⟩
    rw [hpayload]
    simp [hne]

end

section
/-- The heap after a successful free: the allocated block at an address is gone. -/
structure Revoked (s' : HeapState σ) (blocks blocks' : List Block) (b : Block) : Prop where
  layout : Layout s' blocks'
  coalesced : Coalesced blocks'
  used_eq : used blocks' = {c ∈ used blocks | c.address ≠ b.address}

section
variable (h : Layout s (pre ++ b :: post))
include h

lemma Layout.markFree (hb : b.free = false) :
    Layout { s with
        mem := Heap.setFree s.mem b.address true
        heap := { s.heap with activeAllocations := s.heap.activeAllocations - 1 } }
      (pre ++ ⟨b.address, b.size, true⟩ :: post) := by
  refine ⟨h.initialized, ?_, ?_, h.setFree true, ?_, h.mapped_le, ?_, ?_⟩
  · rw [h.first]
    cases pre <;> rfl
  · rw [h.last]
    simp [lastAddress]
  · have hflag : ∀ m n, Tiles Block.address Block.span m [b] n →
        Tiles Block.address Block.span m [⟨b.address, b.size, true⟩] n := fun m n ht => ht
    exact Tiles.replace [b] h.tiles hflag
  · have hsized := h.sized
    rwa [forall_mem_append, forall_mem_cons] at hsized ⊢
  have hact := h.active
  simp only [countP_append, countP_cons, hb] at hact ⊢
  simp at hact ⊢
  omega

lemma Layout.mergeForward (hb : b.free = true) (hpost : Coalesced post) :
    ∃ b' post', b'.address = b.address ∧ b'.free = true ∧ HeadAllocated post' ∧
      Coalesced post' ∧ used post' = used post ∧
      Layout (mergeWithNext s b.address) (pre ++ b' :: post') := by
  cases post with
  | nil =>
    exact ⟨b, [], rfl, hb, by simp [HeadAllocated], hpost, rfl, by rwa [mergeWithNext_last h]⟩
  | cons c rest =>
    obtain ⟨hhead, hrest⟩ := isChain_cons.mp hpost
    cases hc : c.free with
    | false =>
      refine ⟨b, c :: rest, rfl, hb, by simp [HeadAllocated, hc], hpost, rfl, ?_⟩
      rwa [mergeWithNext_allocated h hc]
    | true =>
      refine ⟨joined b c, rest, rfl, hb, fun y hy => ?_, hrest, (used_cons_free hc rest).symm,
        mergeWithNext_free h hc⟩
      simpa [hc] using hhead y hy

lemma Layout.mergeBackward (hb : b.free = true) (hpre : Coalesced pre) (hpost : Coalesced post)
    (hhead : HeadAllocated post) :
    ∃ blocks', Coalesced blocks' ∧ used blocks' = used pre ∪ used post ∧
      Layout (if blockPrevious s.mem b.address ≠ 0 ∧
          blockFree s.mem (blockPrevious s.mem b.address) = true then
        mergeWithNext s (blockPrevious s.mem b.address) else s) blocks' := by
  rw [h.previous_eq]
  rcases eq_nil_or_concat' pre with rfl | ⟨init, d, rfl⟩
  · rw [if_neg (by simp [lastAddress])]
    refine ⟨_, (coalesced_free hb).mpr ⟨hpre, hpost, by simp [LastAllocated], hhead⟩, ?_, h⟩
    rw [used_append, used_cons_free hb]
  have h' : Layout s (init ++ d :: b :: post) := by simpa using h
  have hd0 : d.address ≠ 0 := h.address_ne_zero (by simp)
  have hlast : lastAddress 0 (init ++ [d]) = d.address := by simp [lastAddress]
  rw [hlast, h'.free_eq]
  cases hd : d.free with
  | false =>
    rw [if_neg (by simp)]
    refine ⟨_, (coalesced_free hb).mpr ⟨hpre, hpost, by simp [LastAllocated, hd], hhead⟩, ?_, h⟩
    rw [used_append, used_cons_free hb]
  | true =>
    obtain ⟨hinit, -, hlastAllocated, -⟩ := (coalesced_free hd).mp hpre
    rw [if_pos ⟨hd0, rfl⟩]
    have hjoined : (joined d b).free = true := hd
    refine ⟨_, (coalesced_free hjoined).mpr ⟨hinit, hpost, hlastAllocated, hhead⟩, ?_,
      mergeWithNext_free h' hb⟩
    rw [used_append, used_append, used_cons_free hd, used_cons_free hjoined]
    simp [used]

end

lemma Layout.reclaim (B : PageBackend σ) (h : Layout s blocks) (hc : Coalesced blocks) :
    ∃ blocks', Coalesced blocks' ∧ used blocks' = used blocks ∧
      Layout (reclaimTrailingBlock B s) blocks' := by
  rcases reclaimTrailingBlock_cases B h with ⟨env, heq⟩ | ⟨pre, b, env, rfl, hfree, heq⟩
  · exact ⟨blocks, hc, rfl, heq ▸ h.withEnv env⟩
  refine ⟨pre, ((coalesced_free hfree).mp hc).1, ?_, heq ▸ h.withoutLast hfree env⟩
  rw [used_append, used_cons_free hfree]
  simp [used]

lemma Layout.releaseBlock (B : PageBackend σ) (h : Layout s (pre ++ b :: post))
    (hb : b.free = false) (hc : Coalesced (pre ++ b :: post)) :
    ∃ blocks', Revoked (Heap.releaseBlock B s b.address) (pre ++ b :: post) blocks' b := by
  obtain ⟨hpre, hpost⟩ := (coalesced_allocated hb).mp hc
  obtain ⟨b', post', haddr, hb', hhead, hpost', hused', hforward⟩ :=
    (h.markFree hb).mergeForward rfl hpost
  obtain ⟨merged, hmerged, husedMerged, hbackward⟩ := hforward.mergeBackward hb' hpre hpost' hhead
  obtain ⟨blocks', hblocks', husedBlocks', hreclaimed⟩ := hbackward.reclaim B hmerged
  rw [haddr] at hreclaimed
  refine ⟨blocks', hreclaimed, hblocks', ?_⟩
  rw [husedBlocks', husedMerged, hused', h.used_without]

/-- The pointer check of `kfree` and `krealloc` finds exactly the allocated blocks. -/
lemma lookupPointer_spec (h : Layout s blocks) (pointer : ℕ) :
    (lookupPointer s pointer = some 0 ∧ ∀ b ∈ used blocks, b.payload ≠ pointer) ∨
      ∃ pre b post, blocks = pre ++ b :: post ∧ b.free = false ∧ b.payload = pointer ∧
        lookupPointer s pointer = some b.address := by
  unfold lookupPointer
  split_ifs with hrange
  · -- an allocated block has a payload byte inside the mapped range
    refine .inl ⟨rfl, fun b hb hpayload => ?_⟩
    have hbounds := h.tiles.bounds hb.1
    have hsize := (h.sized b hb.1).1
    unfold Block.payload at hpayload
    unfold Block.span at hbounds
    omega
  push Not at hrange
  rw [h.first]
  rcases findBlock_spec (pointer - headerSize) h.linked (fun b hb => h.address_ne_zero hb)
    h.length_le with ⟨hnone, hmiss⟩ | ⟨pre, b, post, rfl, haddr, hfound⟩
  · left
    rw [hnone]
    refine ⟨rfl, fun b hb hpayload => hmiss b hb.1 ?_⟩
    unfold Block.payload at hpayload
    omega
  have hb0 : b.address ≠ 0 := h.address_ne_zero (by simp)
  rw [hfound]
  cases hfree : b.free with
  | true =>
    left
    refine ⟨by simp [h.free_eq, hfree], fun c hc hpayload => ?_⟩
    have hcb : c = b := h.eq_of_address hc.1 (by simp) (by unfold Block.payload at hpayload; omega)
    exact absurd (hcb ▸ hc.2) (by simp [hfree])
  | false =>
    refine .inr ⟨pre, b, post, rfl, hfree, ?_, ?_⟩
    · unfold Block.payload
      omega
    · simp [h.free_eq, hfree, hb0]

theorem kfree_cases (B : PageBackend σ) (h : Layout s blocks) (hc : Coalesced blocks)
    (pointer : ℕ) :
    (kfree B s pointer = some (false, s) ∧ ∀ b ∈ used blocks, b.payload ≠ pointer) ∨
      ∃ s' b blocks', kfree B s pointer = some (true, s') ∧ b ∈ used blocks ∧
        b.payload = pointer ∧ Revoked s' blocks blocks' b := by
  unfold kfree
  by_cases hz : pointer = 0
  · refine .inl ⟨by rw [if_pos (.inr hz)], fun b hb => ?_⟩
    unfold Block.payload headerSize
    omega
  rw [if_neg (by simp [h.initialized, hz])]
  rcases lookupPointer_spec h pointer with ⟨hnone, hmiss⟩ | ⟨pre, b, post, rfl, hb, hpayload, hfound⟩
  · exact .inl ⟨by simp [hnone], hmiss⟩
  obtain ⟨blocks', hrevoked⟩ := h.releaseBlock B hb hc
  have hb0 : b.address ≠ 0 := h.address_ne_zero (by simp)
  have hact : s.heap.activeAllocations ≠ 0 := by
    rw [h.active]
    simp [hb]
  refine .inr ⟨_, b, blocks', ?_, ⟨by simp, hb⟩, hpayload, hrevoked⟩
  simp [hfound, hb0, hact]

end

lemma Layout.payloadWrite (h : Layout s blocks) (hb : b ∈ blocks) {m : Memory}
    (hm : ∀ x, ¬ (b.payload ≤ x ∧ x < b.payload + b.size) → m x = s.mem x) :
    Layout { s with mem := m } blocks := by
  refine h.withMem fun c hc => header_congr fun x hlow hhigh => hm x ?_
  unfold Block.payload
  by_cases hbc : c = b
  · rw [hbc] at hlow hhigh
    omega
  have := h.tiles.apart hc hb hbc
  unfold Block.span at this
  omega

lemma Granted.payloadWrite {blocks' : List Block} {size : ℕ} (h : Granted s blocks blocks' b size)
    {m : Memory} (hm : ∀ x, ¬ (b.payload ≤ x ∧ x < b.payload + size) → m x = s.mem x) :
    Granted { s with mem := m } blocks blocks' b size := by
  have hb : b ∈ used blocks' := h.used_eq ▸ Set.mem_insert b _
  refine ⟨h.layout.payloadWrite hb.1 fun x hx => hm x fun hin => hx ?_, h.coalesced, h.allocated,
    h.size_le, h.used_eq, h.fresh⟩
  have := h.size_le
  omega

variable (B : PageBackend σ) (h : Layout s blocks) (hc : Coalesced blocks)
include B h hc

theorem kcalloc_cases (num size : ℕ) :
    (∃ env, kcalloc B s num size = some (0, { s with env })) ∨
      ∃ s' b blocks', kcalloc B s num size = some (b.payload, s') ∧
        Granted s' blocks blocks' b (num * size) := by
  unfold kcalloc
  split_ifs with hover
  · exact .inl ⟨s.env, rfl⟩
  rcases kmalloc_cases B h hc (num * size) with ⟨env, hfail⟩ | ⟨s', b, blocks', hok, hgrant⟩
  · exact .inl ⟨env, by simp [hfail]⟩
  have hne : b.payload ≠ 0 := by
    unfold Block.payload headerSize
    omega
  refine .inr ⟨_, b, blocks', ?_, hgrant.payloadWrite (m := zeroBytes s'.mem b.payload
    (num * size)) fun x hx => zeroBytes_of_outside _ _ _ (by omega)⟩
  simp [hok, hne]

theorem krealloc_cases {pointer newSize : ℕ} (hp : pointer ≠ 0) (hn : newSize ≠ 0) :
    (∃ env, krealloc B s pointer newSize = some (0, { s with env })) ∨
      (∃ b ∈ used blocks, b.payload = pointer ∧ newSize ≤ b.size ∧
        krealloc B s pointer newSize = some (pointer, s)) ∨
      ∃ (s' s'' : HeapState σ) (old b : Block) (blocks' blocks'' : List Block),
        old ∈ used blocks ∧ old.payload = pointer ∧
        krealloc B s pointer newSize = some (b.payload, s'') ∧
        Granted s' blocks blocks' b newSize ∧ Revoked s'' blocks' blocks'' old := by
  unfold krealloc
  rw [if_neg hp, if_neg hn, if_neg (by simp [h.initialized])]
  rcases lookupPointer_spec h pointer with
    ⟨hnone, -⟩ | ⟨pre, old, post, rfl, hold, hpayload, hfound⟩
  · exact .inl ⟨s.env, by simp [hnone]⟩
  have hold0 : old.address ≠ 0 := h.address_ne_zero (by simp)
  have hused : old ∈ used (pre ++ old :: post) := ⟨by simp, hold⟩
  by_cases hfit : newSize ≤ old.size
  · refine .inr (.inl ⟨old, hused, hpayload, hfit, ?_⟩)
    simp [hfound, hold0, h.size_eq, hfit]
  rcases kmalloc_cases B h hc newSize with ⟨env, hfail⟩ | ⟨s', b, blocks', hok, hgrant⟩
  · refine .inl ⟨env, ?_⟩
    simp [hfound, hold0, h.size_eq, hfit, hfail]
  have hne : b.payload ≠ 0 := by
    unfold Block.payload headerSize
    omega
  have hcopied := hgrant.payloadWrite (m := ByteMemory.copyBytes s'.mem b.payload pointer
    (min old.size newSize)) fun x hx => copyBytes_of_outside _ _ _ _ (by omega)
  have hkept : old ∈ used blocks' := by
    rw [hgrant.used_eq]
    exact Set.mem_insert_of_mem b hused
  rcases kfree_cases B hcopied.layout hcopied.coalesced pointer with
    ⟨-, hmiss⟩ | ⟨s'', c, blocks'', hfreed, hcused, hcpayload, hrevoked⟩
  · exact absurd hpayload (hmiss old hkept)
  have hcold : c = old := hcopied.layout.eq_of_address hcused.1 hkept.1 (by
    unfold Block.payload at hcpayload hpayload
    omega)
  refine .inr (.inr ⟨_, s'', old, b, blocks', blocks'', hused, hpayload, ?_, hcopied,
    hcold ▸ hrevoked⟩)
  simp [hfound, hold0, h.size_eq, hfit, hok, hne, hfreed]

end KosKernel.Heap
