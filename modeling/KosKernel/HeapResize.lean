import KosKernel.HeapLayout

/-! Splitting a block, growing the heap and giving trailing pages back. -/
namespace KosKernel.Heap
open ByteMemory Segments List
variable {σ : Type} {s : HeapState σ} {pre post : List Block} {b : Block}

/-- The blocks that `kmalloc` leaves in place of a free block. -/
def carved (b : Block) (size : ℕ) : List Block :=
  if b.size ≥ size + headerSize + heapAlignment then
    [⟨b.address, size, false⟩,
      ⟨b.address + headerSize + size, b.size - size - headerSize, true⟩]
  else [⟨b.address, b.size, false⟩]

lemma carved_tiles {size m n : ℕ} (h : Tiles Block.address Block.span m [b] n) :
    Tiles Block.address Block.span m (carved b size) n := by
  obtain ⟨h1, h2⟩ := h
  unfold carved
  split_ifs with hfit
  · simp only [Tiles, Block.span, headerSize, heapAlignment] at *
    omega
  · exact ⟨h1, h2⟩

lemma carved_sized {size : ℕ} (hs : 0 < size ∧ size % heapAlignment = 0)
    (hb : 0 < b.size ∧ b.size % heapAlignment = 0) :
    ∀ c ∈ carved b size, 0 < c.size ∧ c.size % heapAlignment = 0 := by
  intro c hc
  unfold carved at hc
  split_ifs at hc with hfit
  · simp only [mem_cons, not_mem_nil, or_false] at hc
    rcases hc with rfl | rfl
    · exact hs
    · simp only [headerSize, heapAlignment] at *
      omega
  · obtain rfl := mem_singleton.mp hc
    exact hb

lemma carved_countP (b : Block) (size : ℕ) : (carved b size).countP (fun c => !c.free) = 1 := by
  unfold carved
  split_ifs <;> rfl

/-- The layout facts that depend on the blocks only, after a block has been carved. -/
lemma Layout.carve_frame (h : Layout s (pre ++ b :: post)) (hfree : b.free = true) {size : ℕ}
    (hs : 0 < size ∧ size % heapAlignment = 0) {s' : HeapState σ}
    (hinit : s'.heap.initialized = s.heap.initialized) (hfirst : s'.heap.first = s.heap.first)
    (hmap : s'.heap.mappedBytes = s.heap.mappedBytes)
    (hact : s'.heap.activeAllocations = s.heap.activeAllocations + 1)
    (hlast : s'.heap.last = lastAddress 0 (pre ++ (carved b size ++ post)))
    (hlinked : Linked s'.mem 0 (pre ++ (carved b size ++ post)) 0) :
    Layout s' (pre ++ (carved b size ++ post)) := by
  refine ⟨hinit.trans h.initialized, ?_, hlast, hlinked, ?_, hmap ▸ h.mapped_le, ?_, ?_⟩
  · rw [hfirst, h.first]
    cases pre with
    | nil => simp only [nil_append, carved]; split_ifs <;> rfl
    | cons c pre => rfl
  · rw [hmap]
    exact Tiles.replace [b] h.tiles fun _ _ => carved_tiles
  · have hsized := h.sized
    simp only [forall_mem_append, forall_mem_cons] at hsized ⊢
    exact ⟨hsized.1, carved_sized hs hsized.2.1, hsized.2.2⟩
  rw [hact, h.active]
  simp only [countP_append, countP_cons, carved_countP, hfree]
  simp
  omega

/-- The memory after the split writes of `kmalloc`, before the block is marked allocated. -/
def splitMem (m : Memory) (b : Block) (post : List Block) (size : ℕ) : Memory :=
  let split := b.address + headerSize + size
  let m := writeHeader m split (b.size - size - headerSize) b.address (headAddress 0 post)
  let m := relinkHead m post split
  setSize (setNext m b.address split) b.address size

lemma header_splitMem_far (m : Memory) {size x : ℕ} (hb : Far b.address x)
    (hsplit : Far (b.address + headerSize + size) x) (hpost : ∀ d ∈ post, Far d.address x) :
    header (splitMem m b post size) x = header m x := by
  unfold splitMem
  rw [header_setSize_far _ _ hb, header_setNext_far _ _ hb, header_relinkHead_far _ hpost,
    header_writeHeader_far _ _ _ _ hsplit]

lemma carveBlock_split (h : Layout s (pre ++ b :: post)) {size : ℕ}
    (hfit : b.size ≥ size + headerSize + heapAlignment) :
    carveBlock s b.address size =
      { s with
        mem := setFree (splitMem s.mem b post size) b.address false
        heap := { s.heap with
          last := lastAddress (b.address + headerSize + size) post
          activeAllocations := s.heap.activeAllocations + 1 } } := by
  have hfar : Far (b.address + headerSize + size) b.address := .inr (by omega)
  have hnext2 : ∀ v w, blockNext (setPrevious (setSize s.mem (b.address + headerSize + size) v)
      (b.address + headerSize + size) w) b.address = headAddress 0 post := fun v w =>
    (congrArg Header.next ((header_setPrevious_far _ _ hfar).trans
      (header_setSize_far _ _ hfar))).trans h.next_eq
  have hnext4 : ∀ v w x y, blockNext (setFree (setNext (setPrevious
      (setSize s.mem (b.address + headerSize + size) v) (b.address + headerSize + size) w)
      (b.address + headerSize + size) x) (b.address + headerSize + size) y) b.address =
      headAddress 0 post := fun v w x y =>
    (congrArg Header.next (((header_setFree_far _ _ hfar).trans (header_setNext_far _ _ hfar)).trans
      ((header_setPrevious_far _ _ hfar).trans (header_setSize_far _ _ hfar)))).trans h.next_eq
  unfold carveBlock
  simp only [h.size_eq, if_pos hfit, hnext2, hnext4, splitMem, writeHeader]
  cases post with
  | nil => rfl
  | cons d rest =>
    have hd : headAddress 0 (d :: rest) ≠ 0 := h.address_ne_zero (b := d) (by simp)
    have hl : s.heap.last = lastAddress (b.address + headerSize + size) (d :: rest) := by
      rw [h.last]
      simp [lastAddress]
    rw [if_pos hd, ← hl]
    rfl

section
variable (h : Layout s (pre ++ b :: post)) {size : ℕ}
  (hfit : b.size ≥ size + headerSize + heapAlignment)
include h hfit

lemma Layout.split_far_post : ∀ d ∈ post, Far (b.address + headerSize + size) d.address := by
  intro d hd
  have := h.far_post hd
  unfold Block.span at this
  exact .inl (by omega)

lemma Layout.header_splitMem_block :
    header (splitMem s.mem b post size) b.address =
      ⟨size, lastAddress 0 pre, b.address + headerSize + size, b.free⟩ := by
  have hlt := h.lt_two_pow (b := b) (by simp)
  unfold Block.span at hlt
  have hpost : ∀ d ∈ post, Far d.address b.address :=
    fun d hd => (far_of_span_le (h.far_post hd)).symm
  unfold splitMem
  rw [header_setSize_self _ (by omega), header_setNext_self _ (by omega),
    header_relinkHead_far _ hpost, header_writeHeader_far _ _ _ _ (.inr (by omega)),
    h.linked.header_eq]

lemma Layout.header_splitMem_rest :
    header (splitMem s.mem b post size) (b.address + headerSize + size) =
      ⟨b.size - size - headerSize, b.address, headAddress 0 post, true⟩ := by
  have hlt := h.lt_two_pow (b := b) (by simp)
  unfold Block.span at hlt
  have hfar : Far b.address (b.address + headerSize + size) := .inl (by omega)
  have hpost : Layout s ((pre ++ [b]) ++ post) := by simpa using h
  have hpostfar : ∀ d ∈ post, Far d.address (b.address + headerSize + size) :=
    fun d hd => (h.split_far_post hfit d hd).symm
  unfold splitMem
  rw [header_setSize_far _ _ hfar, header_setNext_far _ _ hfar, header_relinkHead_far _ hpostfar,
    header_writeHeader_self _ (by omega) (by omega) hpost.headAddress_lt]

lemma Layout.linked_splitMem :
    Linked (splitMem s.mem b post size) 0 (pre ++ (⟨b.address, size, b.free⟩ ::
      ⟨b.address + headerSize + size, b.size - size - headerSize, true⟩ :: post)) 0 := by
  have hlt := h.lt_two_pow (b := b) (by simp)
  unfold Block.span at hlt
  have hpost : Layout s ((pre ++ [b]) ++ post) := by simpa using h
  obtain ⟨hlpre, -, hlpost⟩ := linked_append.mp h.linked
  refine linked_append.mpr ⟨hlpre.frame fun d hd => ?_, h.header_splitMem_block hfit,
    h.header_splitMem_rest hfit, ?_⟩
  · have hdb := h.far_pre hd
    unfold Block.span at hdb
    refine header_splitMem_far _ (far_of_span_le (h.far_pre hd)).symm (.inr (by omega)) ?_
    exact fun e he => (far_of_span_le ((pairwise_append.mp h.tiles.pairwise).2.2 d hd e
      (by simp [he]))).symm
  have hrelinked := (hlpost.frame fun d hd => header_writeHeader_far s.mem
    (b.size - size - headerSize) b.address (headAddress 0 post)
    (h.split_far_post hfit d hd)).relinkHead
    (show b.address + headerSize + size < 2 ^ 64 by omega) hpost.post_far
  refine hrelinked.frame fun d hd => ?_
  have hbd := far_of_span_le (h.far_post hd)
  exact (header_setSize_far _ _ hbd).trans (header_setNext_far _ _ hbd)

end

theorem Layout.carveBlock (h : Layout s (pre ++ b :: post)) (hfree : b.free = true) {size : ℕ}
    (hs : 0 < size ∧ size % heapAlignment = 0) :
    Layout (Heap.carveBlock s b.address size) (pre ++ (carved b size ++ post)) := by
  by_cases hfit : b.size ≥ size + headerSize + heapAlignment
  · rw [carveBlock_split h hfit]
    refine h.carve_frame hfree hs rfl rfl rfl rfl ?_ ?_
    · simp [carved, hfit, lastAddress]
    simp only [carved, if_pos hfit, cons_append, nil_append]
    have hlinked := h.linked_splitMem hfit
    obtain ⟨hlpre, hb, hlrest⟩ := linked_append.mp hlinked
    refine linked_append.mpr ⟨hlpre.frame fun d hd => ?_, ?_, hlrest.frame fun d hd => ?_⟩
    · exact header_setFree_far _ _ (far_of_span_le (h.far_pre hd)).symm
    · rw [header_setFree_self, hb]
    rcases mem_cons.mp hd with rfl | hd
    · exact header_setFree_far _ _ (.inl (by dsimp only; omega))
    · exact header_setFree_far _ _ (far_of_span_le (h.far_post hd))
  · have hcarve : Heap.carveBlock s b.address size =
        { s with
          mem := Heap.setFree s.mem b.address false
          heap := { s.heap with activeAllocations := s.heap.activeAllocations + 1 } } := by
      unfold Heap.carveBlock
      simp only [h.size_eq, if_neg hfit]
    rw [hcarve]
    refine h.carve_frame hfree hs rfl rfl rfl rfl ?_ ?_
    · rw [h.last]
      simp [carved, hfit, lastAddress]
    · simp only [carved, if_neg hfit, cons_append, nil_append]
      exact h.setFree false

section
variable {blocks : List Block}

lemma growPages_bounds (size : ℕ) :
    size + headerSize ≤ growPages size * pageSize ∧ headerSize < growPages size * pageSize := by
  unfold growPages headerSize pageSize
  omega

lemma growHeap_cases (B : PageBackend σ) (s : HeapState σ) (size : ℕ) :
    (∃ env, growHeap B s size = (0, { s with env })) ∨
      (s.heap.mappedBytes + growPages size * pageSize ≤ heapMaximumBytes ∧
        ∃ env, growHeap B s size =
          (heapBase + s.heap.mappedBytes, appendBlock s (growPages size * pageSize) env)) := by
  by_cases hlarge : size > heapMaximumBytes - headerSize
  · exact .inl ⟨s.env, by rw [growHeap, if_pos hlarge]⟩
  by_cases hfull : growPages size * pageSize > heapMaximumBytes - s.heap.mappedBytes
  · exact .inl ⟨s.env, by rw [growHeap, if_neg hlarge, if_pos hfull]⟩
  have hpos := (growPages_bounds size).2
  rw [growHeap, if_neg hlarge, if_neg hfull]
  rcases mapHeapPages B (heapBase + s.heap.mappedBytes) (growPages size) 0 s.env with ⟨pages, env⟩
  by_cases hpages : pages ≠ growPages size
  · exact .inl ⟨_, if_pos hpages⟩
  · exact .inr ⟨by omega, env, if_neg hpages⟩

def grownBlock (s : HeapState σ) (mappedBytes : ℕ) : Block :=
  ⟨heapBase + s.heap.mappedBytes, mappedBytes - headerSize, true⟩

section
variable (h : Layout s blocks) {bytes : ℕ} (env : σ) (hbytes : headerSize < bytes)
  (hroom : s.heap.mappedBytes + bytes ≤ heapMaximumBytes)
include h hbytes hroom

lemma Layout.linked_appendBlock :
    Linked (appendBlock s bytes env).mem 0 (blocks ++ [grownBlock s bytes]) 0 := by
  have htop : heapBase + heapMaximumBytes < 2 ^ 64 := by decide
  have hbefore : ∀ d ∈ blocks, Far (heapBase + s.heap.mappedBytes) d.address := by
    intro d hd
    have := (h.tiles.bounds hd).2
    unfold Block.span at this
    exact .inr (by omega)
  set m := writeHeader s.mem (heapBase + s.heap.mappedBytes) (bytes - headerSize) s.heap.last 0
    with hm
  have hold : ∀ d ∈ blocks, header m d.address = header s.mem d.address :=
    fun d hd => header_writeHeader_far _ _ _ _ (hbefore d hd)
  rcases eq_nil_or_concat' blocks with rfl | ⟨pre, d, rfl⟩
  · have hlast : s.heap.last = 0 := h.last
    have hmem : (appendBlock s bytes env).mem = m := by
      simp only [appendBlock, hlast, hm]
      rfl
    rw [hmem]
    refine ⟨?_, trivial⟩
    rw [hm, hlast]
    exact header_writeHeader_self _ (by omega) (by norm_num) (by norm_num)
  · have hlast : s.heap.last = d.address := by rw [h.last]; simp [lastAddress]
    have hd := h.lt_two_pow (b := d) (by simp)
    have hd0 := h.address_ne_zero (b := d) (by simp)
    have hmem : (appendBlock s bytes env).mem =
        setNext m d.address (heapBase + s.heap.mappedBytes) := by
      simp only [appendBlock, hlast, ne_eq, hd0, not_false_eq_true, if_true, hm]
      rfl
    rw [hmem]
    refine linked_append.mpr ⟨(h.linked.frame hold).relinkLast ?_ ?_, ?_, trivial⟩
    · exact fun c hc => header_setNext_far _ _ (far_of_span_le (h.far_pre hc)).symm
    · exact header_setNext_self _ (by omega)
    have hfar := (hbefore d (by simp)).symm
    rw [grownBlock, header_setNext_far _ _ hfar, hm, hlast,
      header_writeHeader_self _ (by omega) (by omega) (by norm_num)]
    simp [lastAddress, headAddress]

theorem Layout.appendBlock (hpages : bytes % pageSize = 0) :
    Layout (Heap.appendBlock s bytes env) (blocks ++ [grownBlock s bytes]) := by
  refine ⟨h.initialized, ?_, ?_, h.linked_appendBlock env hbytes hroom, ?_, hroom, ?_, ?_⟩
  · rcases eq_nil_or_concat' blocks with rfl | ⟨pre, d, rfl⟩
    · have hlast : s.heap.last = 0 := h.last
      simp only [Heap.appendBlock, hlast]
      rfl
    have hlast : s.heap.last = d.address := by rw [h.last]; simp [lastAddress]
    have hd0 := h.address_ne_zero (b := d) (by simp)
    simp only [Heap.appendBlock, hlast, ne_eq, hd0, not_false_eq_true, if_true, h.first]
    cases pre <;> rfl
  · simp [lastAddress, grownBlock, Heap.appendBlock]
  · refine tiles_append.mpr ⟨_, h.tiles, rfl, ?_⟩
    simp only [Tiles, grownBlock, Block.span, Heap.appendBlock]
    omega
  · rw [forall_mem_append, forall_mem_singleton]
    simp only [grownBlock, headerSize, pageSize, heapAlignment] at *
    exact ⟨h.sized, by omega⟩
  have : (Heap.appendBlock s bytes env).heap.activeAllocations = s.heap.activeAllocations := rfl
  rw [this, h.active]
  simp [grownBlock]

end
end

def withoutLast (s : HeapState σ) (pre : List Block) (b : Block) (env : σ) : HeapState σ :=
  { mem := if lastAddress 0 pre ≠ 0 then setNext s.mem (lastAddress 0 pre) 0 else s.mem
    env
    heap := { s.heap with
      first := if lastAddress 0 pre ≠ 0 then s.heap.first else 0
      last := lastAddress 0 pre
      mappedBytes := s.heap.mappedBytes - b.span } }

lemma Layout.withoutLast (h : Layout s (pre ++ [b])) (hfree : b.free = true) (env : σ) :
    Layout (Heap.withoutLast s pre b env) pre := by
  obtain ⟨m, hpre, hm, hend⟩ := tiles_append.mp h.tiles
  have hend : m + b.span = heapBase + s.heap.mappedBytes := hend
  have hbase := hpre.le
  have hmap : heapBase + (s.heap.mappedBytes - b.span) = m := by omega
  refine ⟨h.initialized, ?_, rfl, ?_, ?_, ?_, fun c hc => h.sized c (by simp [hc]), ?_⟩
  · rcases eq_nil_or_concat' pre with rfl | ⟨init, d, rfl⟩
    · rfl
    have hd0 := h.address_ne_zero (b := d) (by simp)
    simp only [Heap.withoutLast, lastAddress_append, lastAddress, ne_eq, hd0, not_false_eq_true,
      if_true, h.first]
    cases init <;> rfl
  · rcases eq_nil_or_concat' pre with rfl | ⟨init, d, rfl⟩
    · trivial
    have h' : Layout s (init ++ d :: [b]) := by simpa using h
    have hd0 := h.address_ne_zero (b := d) (by simp)
    simp only [Heap.withoutLast, lastAddress_append, lastAddress, ne_eq, hd0, not_false_eq_true,
      if_true]
    refine (linked_append.mp h.linked).1.relinkLast ?_ (header_setNext_self _ (by norm_num))
    exact fun c hc => header_setNext_far _ _ (far_of_span_le (h'.far_pre hc)).symm
  · exact hmap ▸ hpre
  · exact (Nat.sub_le _ _).trans h.mapped_le
  have : (Heap.withoutLast s pre b env).heap.activeAllocations = s.heap.activeAllocations := rfl
  rw [this, h.active]
  simp [hfree]

lemma reclaimTrailingBlock_cases (B : PageBackend σ) {blocks : List Block} (h : Layout s blocks) :
    (∃ env, reclaimTrailingBlock B s = { s with env }) ∨
      ∃ pre b env, blocks = pre ++ [b] ∧ b.free = true ∧
        reclaimTrailingBlock B s = withoutLast s pre b env := by
  unfold reclaimTrailingBlock
  rcases eq_nil_or_concat' blocks with rfl | ⟨pre, b, rfl⟩
  · have hlast : s.heap.last = 0 := h.last
    exact .inl ⟨s.env, if_pos (.inl hlast)⟩
  have hlast : s.heap.last = b.address := by rw [h.last]; simp [lastAddress]
  simp only [hlast, h.free_eq, h.size_eq, h.previous_eq]
  rcases reclaimPages B b.address (range ((headerSize + b.size) / pageSize)) s.env with
    ⟨done, env⟩
  split_ifs with hskip hpage hend hdone hprev
  · exact .inl ⟨s.env, rfl⟩
  · exact .inl ⟨s.env, rfl⟩
  · exact .inl ⟨s.env, rfl⟩
  · exact .inl ⟨env, rfl⟩
  all_goals
    push Not at hskip
    refine .inr ⟨pre, b, env, rfl, by simpa using hskip.2.1, ?_⟩
    simp [withoutLast, hprev, Block.span]

end KosKernel.Heap
