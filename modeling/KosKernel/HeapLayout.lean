import KosKernel.HeapChain

/-! The layout of the heap between and inside calls, and what each list operation of the
source does to it. The list of blocks is explicit, so every operation is a rewriting of
`pre ++ b :: post`. -/
namespace KosKernel.Heap
open ByteMemory Segments List
variable {σ : Type}

structure Layout (s : HeapState σ) (blocks : List Block) : Prop where
  initialized : s.heap.initialized = true
  first : s.heap.first = headAddress 0 blocks
  last : s.heap.last = lastAddress 0 blocks
  linked : Linked s.mem 0 blocks 0
  tiles : Tiles Block.address Block.span heapBase blocks (heapBase + s.heap.mappedBytes)
  mapped_le : s.heap.mappedBytes ≤ heapMaximumBytes
  sized : ∀ b ∈ blocks, 0 < b.size ∧ b.size % heapAlignment = 0
  active : s.heap.activeAllocations = blocks.countP (fun b => !b.free)

def Coalesced (blocks : List Block) : Prop :=
  blocks.IsChain (fun a b => a.free = false ∨ b.free = false)

section
variable {s : HeapState σ} {blocks pre post : List Block} {b c : Block}

section
variable (h : Layout s blocks) (hb : b ∈ blocks)
include h hb

lemma Layout.bounds : heapBase ≤ b.address ∧ b.address + b.span ≤ heapBase + heapMaximumBytes := by
  obtain ⟨h1, h2⟩ := h.tiles.bounds hb
  have := h.mapped_le
  exact ⟨h1, by omega⟩

lemma Layout.address_ne_zero : b.address ≠ 0 := by
  have := (h.bounds hb).1
  unfold heapBase at this
  omega

lemma Layout.lt_two_pow : b.address + b.span < 2 ^ 64 := by
  have := (h.bounds hb).2
  unfold heapBase heapMaximumBytes at this
  omega

end

lemma Layout.length_le (h : Layout s blocks) : blocks.length ≤ walkFuel := by
  have hsum : ∀ (bs : List Block) (a e : ℕ), Tiles Block.address Block.span a bs e →
      a + headerSize * bs.length ≤ e := by
    intro bs
    induction bs with
    | nil => intro a e ht; exact Nat.le_of_eq ht
    | cons b bs ih =>
      intro a e ht
      have := ih _ _ ht.2
      simp only [length_cons, Block.span, headerSize] at this ⊢
      omega
  have := hsum _ _ _ h.tiles
  have := h.mapped_le
  unfold walkFuel headerSize heapMaximumBytes at *
  omega

lemma Layout.far_pre (h : Layout s (pre ++ b :: post)) (hc : c ∈ pre) :
    c.address + c.span ≤ b.address :=
  (pairwise_append.mp h.tiles.pairwise).2.2 c hc b mem_cons_self

lemma Layout.far_post (h : Layout s (pre ++ b :: post)) (hc : c ∈ post) :
    b.address + b.span ≤ c.address :=
  (pairwise_cons.mp (pairwise_append.mp h.tiles.pairwise).2.1).1 c hc

lemma far_of_span_le (h : b.address + b.span ≤ c.address) : Far b.address c.address := by
  unfold Block.span at h
  exact Or.inl (by omega)

lemma Far.symm {a b : ℕ} (h : Far a b) : Far b a := Or.symm h

lemma Layout.post_far (h : Layout s (pre ++ post)) :
    post.Pairwise (fun a b => Far a.address b.address) :=
  (pairwise_append.mp h.tiles.pairwise).2.1.imp far_of_span_le

lemma Layout.headAddress_lt (h : Layout s (pre ++ post)) : headAddress 0 post < 2 ^ 64 := by
  cases post with
  | nil => exact Nat.two_pow_pos 64
  | cons d rest =>
    exact lt_of_le_of_lt (Nat.le_add_right _ _) (h.lt_two_pow (b := d) (by simp))

end

variable {s : HeapState σ} {blocks : List Block}

lemma Layout.withEnv (h : Layout s blocks) (env : σ) : Layout { s with env } blocks :=
  ⟨h.initialized, h.first, h.last, h.linked, h.tiles, h.mapped_le, h.sized, h.active⟩

lemma Layout.withMem (h : Layout s blocks) {m : Memory}
    (hm : ∀ b ∈ blocks, header m b.address = header s.mem b.address) :
    Layout { s with mem := m } blocks :=
  ⟨h.initialized, h.first, h.last, h.linked.frame hm, h.tiles, h.mapped_le, h.sized, h.active⟩

lemma Layout.eq_of_address {b c : Block} (h : Layout s blocks) (hb : b ∈ blocks) (hc : c ∈ blocks)
    (hbc : b.address = c.address) : b = c := by
  by_contra hne
  have := h.tiles.apart hb hc hne
  unfold Block.span headerSize at this
  omega

lemma Layout.setFree {pre post : List Block} {b : Block} (h : Layout s (pre ++ b :: post))
    (v : Bool) :
    Linked (Heap.setFree s.mem b.address v) 0 (pre ++ ⟨b.address, b.size, v⟩ :: post) 0 := by
  obtain ⟨hpre, hb, hpost⟩ := linked_append.mp h.linked
  refine linked_append.mpr ⟨hpre.frame fun c hc => ?_, ?_, hpost.frame fun c hc => ?_⟩
  · exact header_setFree_far _ _ (far_of_span_le (h.far_pre hc)).symm
  · rw [header_setFree_self, hb]
  · exact header_setFree_far _ _ (far_of_span_le (h.far_post hc))

variable {s : HeapState σ} {pre post : List Block} {b c : Block}

def joined (b c : Block) : Block := ⟨b.address, b.size + (headerSize + c.size), b.free⟩

section
variable (h : Layout s (pre ++ b :: post))
include h

lemma Layout.next_eq : blockNext s.mem b.address = headAddress 0 post :=
  congrArg Header.next h.linked.header_eq

lemma Layout.size_eq : blockSize s.mem b.address = b.size :=
  congrArg Header.size h.linked.header_eq

lemma Layout.free_eq : blockFree s.mem b.address = b.free :=
  congrArg Header.free h.linked.header_eq

lemma Layout.previous_eq : blockPrevious s.mem b.address = lastAddress 0 pre :=
  congrArg Header.previous h.linked.header_eq

end

lemma joined_tiles {m n : ℕ} (h : Tiles Block.address Block.span m [b, c] n) :
    Tiles Block.address Block.span m [joined b c] n := by
  obtain ⟨h1, h2, h3⟩ := h
  refine ⟨h1, ?_⟩
  simp only [Tiles, Block.span, joined] at *
  omega

lemma mergeWithNext_last (h : Layout s (pre ++ [b])) : mergeWithNext s b.address = s := by
  unfold mergeWithNext
  have hn : blockNext s.mem b.address = 0 := h.next_eq
  simp [hn]

variable (h : Layout s (pre ++ b :: c :: post))
include h

lemma mergeWithNext_allocated (hc : c.free = false) : mergeWithNext s b.address = s := by
  have hn : blockNext s.mem b.address = c.address := h.next_eq
  have h' : Layout s ((pre ++ [b]) ++ c :: post) := by simpa using h
  have hf : blockFree s.mem c.address = false := h'.free_eq.trans hc
  unfold mergeWithNext
  simp [hn, hf]

/-- The heap after a merge that takes place, with the two link cases as one. -/
lemma mergeWithNext_eq (hc : c.free = true) :
    mergeWithNext s b.address =
      { s with
        mem := relinkHead (setNext (setSize s.mem b.address (b.size + (headerSize + c.size)))
          b.address (headAddress 0 post)) post b.address
        heap := { s.heap with last := lastAddress b.address post } } := by
  have h' : Layout s ((pre ++ [b]) ++ c :: post) := by simpa using h
  have hpost : Layout s ((pre ++ [b, c]) ++ post) := by simpa using h
  have hfar : Far b.address c.address := far_of_span_le (h.far_post mem_cons_self)
  have hc0 : c.address ≠ 0 := h.address_ne_zero (b := c) (by simp)
  have hadj : b.address + headerSize + b.size = c.address := by
    obtain ⟨m, -, h1, h2⟩ := tiles_append.mp h.tiles
    have := h2.1
    unfold Block.span at this
    omega
  have hcnext : ∀ v w, blockNext (setNext (setSize s.mem b.address v) b.address w) c.address =
      headAddress 0 post := fun v w =>
    (congrArg Header.next ((header_setNext_far _ _ hfar).trans (header_setSize_far _ _ hfar))).trans
      h'.next_eq
  have hcnext1 : ∀ v, blockNext (setSize s.mem b.address v) c.address = headAddress 0 post :=
    fun v => (congrArg Header.next (header_setSize_far _ _ hfar)).trans h'.next_eq
  have hnext : blockNext s.mem b.address = c.address := h.next_eq
  unfold mergeWithNext
  rw [hnext, if_neg (by simp [hc0, h'.free_eq, hc, blocksAreAdjacent, h.size_eq, hadj])]
  simp only [h.size_eq, h'.size_eq, hcnext1, hcnext]
  cases post with
  | nil => rfl
  | cons d rest =>
    have hd : headAddress 0 (d :: rest) ≠ 0 := h.address_ne_zero (b := d) (by simp)
    have hl : s.heap.last = lastAddress b.address (d :: rest) := by
      rw [h.last]
      simp [lastAddress]
    rw [if_pos hd, ← hl]
    rfl

lemma mergeWithNext_free (hc : c.free = true) :
    Layout (mergeWithNext s b.address) (pre ++ joined b c :: post) := by
  have hpost : Layout s ((pre ++ [b, c]) ++ post) := by simpa using h
  have hbound := h.lt_two_pow (b := c) (by simp)
  have hbc : b.address + b.span ≤ c.address := h.far_post mem_cons_self
  unfold Block.span at hbound hbc
  set m := setNext (setSize s.mem b.address (b.size + (headerSize + c.size))) b.address
    (headAddress 0 post) with hm
  have hfar : ∀ x, Far b.address x → header m x = header s.mem x :=
    fun x hx => by rw [hm, header_setNext_far _ _ hx, header_setSize_far _ _ hx]
  have hself : header m b.address =
      ⟨b.size + (headerSize + c.size), lastAddress 0 pre, headAddress 0 post, b.free⟩ := by
    rw [hm, header_setNext_self _ hpost.headAddress_lt, header_setSize_self _ (by omega),
      h.linked.header_eq]
  have hprefar : ∀ d ∈ pre, Far b.address d.address :=
    fun d hd => (far_of_span_le (h.far_pre hd)).symm
  have hpostfar : ∀ d ∈ post, Far b.address d.address :=
    fun d hd => far_of_span_le (h.far_post (mem_cons_of_mem c hd))
  rw [mergeWithNext_eq h hc]
  refine ⟨h.initialized, ?_, ?_, ?_, ?_, h.mapped_le, ?_, ?_⟩
  · rw [h.first]
    cases pre <;> rfl
  · simp [lastAddress, joined]
  · obtain ⟨hlpre, -, -, hlpost⟩ := linked_append.mp h.linked
    refine linked_append.mpr ⟨hlpre.frame fun d hd => ?_, ?_, ?_⟩
    · rw [header_relinkHead_far, hfar _ (hprefar d hd)]
      exact fun e he => far_of_span_le (h.tiles.pairwise |> pairwise_append.mp |>.2.2 d hd e
        (by simp [he])) |>.symm
    · exact (header_relinkHead_far _ fun e he => (hpostfar e he).symm).trans hself
    · exact (hlpost.frame fun d hd => hfar _ (hpostfar d hd)).relinkHead
        (show b.address < 2 ^ 64 by omega) hpost.post_far
  · exact Tiles.replace [b, c] h.tiles fun _ _ => joined_tiles
  · have hsized := h.sized
    simp only [forall_mem_append, forall_mem_cons, joined, headerSize, heapAlignment] at hsized ⊢
    exact ⟨hsized.1, by omega, hsized.2.2.2⟩
  · rw [h.active]
    simp [countP_append, countP_cons, joined, hc]

end KosKernel.Heap
