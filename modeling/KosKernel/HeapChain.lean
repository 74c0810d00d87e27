import KosKernel.HeapState
import KosKernel.Segments

/-! Block headers as records and the block list as a doubly linked chain in memory. -/
namespace KosKernel.Heap
open ByteMemory

structure Header where
  size : ℕ
  previous : ℕ
  next : ℕ
  free : Bool
  deriving DecidableEq

def header (m : Memory) (block : ℕ) : Header :=
  ⟨blockSize m block, blockPrevious m block, blockNext m block, blockFree m block⟩

def Far (a b : ℕ) : Prop := a + headerSize ≤ b ∨ b + headerSize ≤ a

variable {m m' : Memory}

lemma header_congr {b : ℕ}
    (h : ∀ x, b ≤ x → x < b + headerSize → m x = m' x) : header m b = header m' b := by
  unfold headerSize at h
  simp only [header, blockSize, blockPrevious, blockNext, blockFree]
  rw [readBytes_congr (n := 8) (a := b) fun x h1 h2 => h x (by omega) (by omega),
    readBytes_congr (n := 8) (a := b + 8) fun x h1 h2 => h x (by omega) (by omega),
    readBytes_congr (n := 8) (a := b + 16) fun x h1 h2 => h x (by omega) (by omega),
    readBytes_congr (n := 1) (a := b + 24) fun x h1 h2 => h x (by omega) (by omega)]

variable {previous : ℕ}

section
variable (m : Memory) {a b : ℕ}

lemma header_writeBytes_far (offset n v : ℕ) (hn : offset + n ≤ headerSize) (h : Far a b) :
    header (writeBytes m (a + offset) n v) b = header m b :=
  header_congr fun x h1 h2 => writeBytes_of_outside _ _ _ _ (by unfold Far at h; omega)

lemma header_setSize_far (v : ℕ) (h : Far a b) : header (setSize m a v) b = header m b :=
  header_writeBytes_far m 0 8 v (by decide) h

lemma header_setPrevious_far (v : ℕ) (h : Far a b) : header (setPrevious m a v) b = header m b :=
  header_writeBytes_far m 8 8 v (by decide) h

lemma header_setNext_far (v : ℕ) (h : Far a b) : header (setNext m a v) b = header m b :=
  header_writeBytes_far m 16 8 v (by decide) h

lemma header_setFree_far (v : Bool) (h : Far a b) : header (setFree m a v) b = header m b :=
  header_writeBytes_far m 24 1 v.toNat (by decide) h

section
variable {v : ℕ} (hv : v < 2 ^ 64)
include hv

lemma header_setSize_self : header (setSize m b v) b = { header m b with size := v } := by
  simp only [header, setSize, blockSize, blockPrevious, blockNext, blockFree]
  rw [readBytes_writeBytes_self, Nat.mod_eq_of_lt (by omega)]
  iterate 3 rw [readBytes_writeBytes_disjoint _ _ (by omega)]

lemma header_setPrevious_self :
    header (setPrevious m b v) b = { header m b with previous := v } := by
  simp only [header, setPrevious, blockSize, blockPrevious, blockNext, blockFree]
  rw [readBytes_writeBytes_self, Nat.mod_eq_of_lt (by omega)]
  iterate 3 rw [readBytes_writeBytes_disjoint _ _ (by omega)]

lemma header_setNext_self : header (setNext m b v) b = { header m b with next := v } := by
  simp only [header, setNext, blockSize, blockPrevious, blockNext, blockFree]
  rw [readBytes_writeBytes_self, Nat.mod_eq_of_lt (by omega)]
  iterate 3 rw [readBytes_writeBytes_disjoint _ _ (by omega)]

end

lemma header_setFree_self (v : Bool) :
    header (setFree m b v) b = { header m b with free := v } := by
  simp only [header, setFree, blockSize, blockPrevious, blockNext, blockFree]
  rw [readBytes_writeBytes_self]
  iterate 3 rw [readBytes_writeBytes_disjoint _ _ (by omega)]
  cases v <;> rfl

/-- The four writes that make a new free block, as `grow_heap` and `kmalloc` do them. -/
def writeHeader (block size previous next : ℕ) : Memory :=
  setFree (setNext (setPrevious (setSize m block size) block previous) block next) block true

lemma header_writeHeader_far (size previous next : ℕ) (h : Far a b) :
    header (writeHeader m a size previous next) b = header m b := by
  unfold writeHeader
  rw [header_setFree_far _ _ h, header_setNext_far _ _ h, header_setPrevious_far _ _ h,
    header_setSize_far _ _ h]

lemma header_writeHeader_self {size next : ℕ} (hsize : size < 2 ^ 64)
    (hprev : previous < 2 ^ 64) (hnext : next < 2 ^ 64) :
    header (writeHeader m b size previous next) b = ⟨size, previous, next, true⟩ := by
  unfold writeHeader
  rw [header_setFree_self, header_setNext_self _ hnext, header_setPrevious_self _ hprev,
    header_setSize_self _ hsize]

end

/-- A block as the list sees it: where its header is, how long its payload is, and whether
it is free. -/
structure Block where
  address : ℕ
  size : ℕ
  free : Bool
  deriving DecidableEq

def Block.span (b : Block) : ℕ := headerSize + b.size

/-- The address that `kmalloc` hands out for a block. -/
def Block.payload (b : Block) : ℕ := b.address + headerSize

/-- The address a link to the front of a list holds, when `next` follows the list. -/
def headAddress (next : ℕ) : List Block → ℕ
  | [] => next
  | b :: _ => b.address

/-- The address a link to the back of a list holds, when `previous` precedes the list. -/
def lastAddress (previous : ℕ) : List Block → ℕ
  | [] => previous
  | b :: bs => lastAddress b.address bs

/-- The headers in memory form the doubly linked list `blocks` between two neighbours. -/
def Linked (m : Memory) : ℕ → List Block → ℕ → Prop
  | _, [], _ => True
  | previous, b :: bs, next =>
    header m b.address = ⟨b.size, previous, headAddress next bs, b.free⟩ ∧
      Linked m b.address bs next

@[simp] lemma headAddress_append (next : ℕ) (xs ys : List Block) :
    headAddress next (xs ++ ys) = headAddress (headAddress next ys) xs := by
  cases xs <;> rfl

@[simp] lemma lastAddress_append (previous : ℕ) (xs ys : List Block) :
    lastAddress previous (xs ++ ys) = lastAddress (lastAddress previous xs) ys := by
  induction xs generalizing previous with
  | nil => rfl
  | cons x xs ih => exact ih x.address

variable {m : Memory} {previous next : ℕ} {post : List Block}

lemma linked_append {xs ys : List Block} :
    Linked m previous (xs ++ ys) next ↔
      Linked m previous xs (headAddress next ys) ∧ Linked m (lastAddress previous xs) ys next := by
  induction xs generalizing previous with
  | nil => simp [Linked, lastAddress]
  | cons x xs ih => simp [Linked, lastAddress, ih, and_assoc]

variable {bs : List Block}

lemma Linked.frame (h : Linked m previous bs next)
    (hm : ∀ b ∈ bs, header m' b.address = header m b.address) : Linked m' previous bs next := by
  induction bs generalizing previous with
  | nil => trivial
  | cons b bs ih =>
    exact ⟨(hm b List.mem_cons_self).trans h.1, ih h.2 fun c hc => hm c (List.mem_cons_of_mem b hc)⟩

lemma Linked.header_eq {pre : List Block} {b : Block}
    (h : Linked m previous (pre ++ b :: post) next) :
    header m b.address = ⟨b.size, lastAddress previous pre, headAddress next post, b.free⟩ :=
  (linked_append.mp h).2.1

/-- The write that makes the block after an edited place point back to it, if there is one. -/
def relinkHead (m : Memory) (post : List Block) (previous : ℕ) : Memory :=
  match post with
  | [] => m
  | d :: _ => setPrevious m d.address previous

lemma header_relinkHead_far {x : ℕ} (previous : ℕ) (h : ∀ d ∈ post, Far d.address x) :
    header (relinkHead m post previous) x = header m x := by
  cases post with
  | nil => rfl
  | cons d rest => exact header_setPrevious_far _ _ (h d List.mem_cons_self)

lemma Linked.relinkHead {previous' : ℕ} (h : Linked m previous post next) (hv : previous' < 2 ^ 64)
    (hfar : post.Pairwise (fun a b => Far a.address b.address)) :
    Linked (relinkHead m post previous') previous' post next := by
  cases post with
  | nil => trivial
  | cons d rest =>
    refine ⟨?_, h.2.frame fun e he => ?_⟩
    · rw [Heap.relinkHead, header_setPrevious_self _ hv, h.1]
    · exact header_setPrevious_far _ _ ((List.pairwise_cons.mp hfar).1 e he)

lemma Linked.relinkLast {next' : ℕ} {b : Block} (h : Linked m previous (bs ++ [b]) next)
    (hbs : ∀ c ∈ bs, header m' c.address = header m c.address)
    (hb : header m' b.address = { header m b.address with next := next' }) :
    Linked m' previous (bs ++ [b]) next' := by
  obtain ⟨h1, h2, -⟩ := linked_append.mp h
  refine linked_append.mpr ⟨h1.frame hbs, ?_, trivial⟩
  rw [hb, h2]
  rfl

lemma findFreeBlock_spec (size : ℕ) {fuel : ℕ}
    (h : Linked m previous bs 0) (hpos : ∀ b ∈ bs, b.address ≠ 0) (hfuel : bs.length ≤ fuel) :
    findFreeBlock m size fuel (headAddress 0 bs) = some 0 ∨
      ∃ pre b post, bs = pre ++ b :: post ∧ b.free = true ∧ size ≤ b.size ∧
        findFreeBlock m size fuel (headAddress 0 bs) = some b.address := by
  induction bs generalizing previous fuel with
  | nil =>
    left
    unfold findFreeBlock
    exact if_pos rfl
  | cons b bs ih =>
    obtain ⟨hb, hrest⟩ := h
    cases fuel with
    | zero => simp at hfuel
    | succ fuel =>
      have hne : b.address ≠ 0 := hpos b List.mem_cons_self
      have hsize : blockSize m b.address = b.size := congrArg Header.size hb
      have hfree : blockFree m b.address = b.free := congrArg Header.free hb
      have hnext : blockNext m b.address = headAddress 0 bs := congrArg Header.next hb
      unfold findFreeBlock
      simp only [headAddress, if_neg hne, hsize, hfree, hnext]
      by_cases hfit : b.free = true ∧ b.size ≥ size
      · right
        exact ⟨[], b, bs, rfl, hfit.1, hfit.2, if_pos hfit⟩
      rw [if_neg hfit]
      rcases ih hrest (fun c hc => hpos c (List.mem_cons_of_mem b hc))
        (by simpa using hfuel) with h0 | ⟨pre, c, post, rfl, hc⟩
      · exact .inl h0
      · exact .inr ⟨b :: pre, c, post, rfl, hc⟩

lemma findBlock_spec (candidate : ℕ) {fuel : ℕ}
    (h : Linked m previous bs 0) (hpos : ∀ b ∈ bs, b.address ≠ 0) (hfuel : bs.length ≤ fuel) :
    (findBlock m candidate fuel (headAddress 0 bs) = some 0 ∧ ∀ b ∈ bs, b.address ≠ candidate) ∨
      ∃ pre b post, bs = pre ++ b :: post ∧ b.address = candidate ∧
        findBlock m candidate fuel (headAddress 0 bs) = some b.address := by
  induction bs generalizing previous fuel with
  | nil =>
    left
    unfold findBlock
    exact ⟨if_pos (.inl rfl), by simp⟩
  | cons b bs ih =>
    obtain ⟨hb, hrest⟩ := h
    cases fuel with
    | zero => simp at hfuel
    | succ fuel =>
      have hne : b.address ≠ 0 := hpos b List.mem_cons_self
      have hnext : blockNext m b.address = headAddress 0 bs := congrArg Header.next hb
      unfold findBlock
      simp only [headAddress, hnext]
      by_cases hhit : b.address = candidate
      · right
        exact ⟨[], b, bs, rfl, hhit, if_pos (.inr hhit)⟩
      rw [if_neg (by simp [hne, hhit])]
      rcases ih hrest (fun c hc => hpos c (List.mem_cons_of_mem b hc))
        (by simpa using hfuel) with ⟨h0, hall⟩ | ⟨pre, c, post, rfl, hc⟩
      · refine .inl ⟨h0, fun c hc => ?_⟩
        rcases List.mem_cons.mp hc with rfl | hc
        · exact hhit
        · exact hall c hc
      · exact .inr ⟨b :: pre, c, post, rfl, hc⟩

end KosKernel.Heap
