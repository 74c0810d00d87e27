import KosKernel.HeapCalls

/-! Histories of heap calls, with the allocations the callers hold. Between the calls the
holders may write their memory, and anyone may write outside the mapped heap. -/
namespace KosKernel.Heap
open Segments List

inductive HeapCall where
  | kmalloc (size : ℕ)
  | kfree (pointer : ℕ)
  | kcalloc (num size : ℕ)
  | krealloc (pointer newSize : ℕ)
  | store (address : ℕ) (value : BitVec 8)
  deriving DecidableEq

/-- What a caller holds: a pointer it was given and the size it asked for. -/
structure Allocation where
  pointer : ℕ
  requested : ℕ
  deriving DecidableEq

structure Session (σ : Type) where
  state : HeapState σ
  live : List Allocation

open Session

variable {σ : Type}

def dropPointer (live : List Allocation) (pointer : ℕ) : List Allocation :=
  live.filter fun a => a.pointer ≠ pointer

/-- Memory that callers may write: their own bytes, and everything outside the heap. -/
def Session.Writable (x : Session σ) (address : ℕ) : Prop :=
  address < heapBase ∨ heapBase + x.state.heap.mappedBytes ≤ address ∨
    ∃ a ∈ x.live, a.pointer ≤ address ∧ address < a.pointer + a.requested

instance (x : Session σ) (address : ℕ) : Decidable (x.Writable address) :=
  inferInstanceAs (Decidable (_ ∨ _ ∨ ∃ a ∈ x.live, _))

/-- One call, or one store by a caller; `none` would be a list walk that does not end. -/
def Session.step (B : PageBackend σ) (x : Session σ) : HeapCall → Option (Session σ)
  | .kmalloc size => do
    let (p, s) ← kmalloc B x.state size
    return ⟨s, if p = 0 then x.live else ⟨p, size⟩ :: x.live⟩
  | .kfree pointer => do
    let (freed, s) ← kfree B x.state pointer
    return ⟨s, if freed then dropPointer x.live pointer else x.live⟩
  | .kcalloc num size => do
    let (p, s) ← kcalloc B x.state num size
    return ⟨s, if p = 0 then x.live else ⟨p, num * size⟩ :: x.live⟩
  | .krealloc pointer newSize => do
    let (p, s) ← krealloc B x.state pointer newSize
    return ⟨s, if p ≠ 0 then ⟨p, newSize⟩ :: dropPointer x.live pointer
      else if newSize = 0 then dropPointer x.live pointer else x.live⟩
  | .store address value =>
    if x.Writable address then
      some { x with state := { x.state with mem := Function.update x.state.mem address value } }
    else some x

def Session.run (B : PageBackend σ) (x : Session σ) : List HeapCall → Option (Session σ)
  | [] => some x
  | call :: calls => do
    let x ← x.step B call
    x.run B calls

/-- The heap as `heap_initialize` leaves it, whatever was there before. -/
def Session.fresh (s : HeapState σ) : Session σ := ⟨heapInitialize s, []⟩

/-- The allocations held are the allocated blocks, each at least as large as requested. -/
structure Owned (U : Set Block) (live : List Allocation) : Prop where
  nodup : (live.map Allocation.pointer).Nodup
  block : ∀ a ∈ live, ∃ b ∈ U, b.payload = a.pointer ∧ a.requested ≤ b.size
  holder : ∀ b ∈ U, ∃ a ∈ live, a.pointer = b.payload

variable {b : Block} {size : ℕ}

section
variable {U U' : Set Block} {live : List Allocation} {b : Block}

lemma payload_inj {c : Block} : b.payload = c.payload ↔ b.address = c.address := by
  unfold Block.payload
  omega

variable {pointer : ℕ}

lemma mem_dropPointer {a : Allocation} :
    a ∈ dropPointer live pointer ↔ a ∈ live ∧ a.pointer ≠ pointer := by
  simp [dropPointer]

section
variable (h : Owned U live)
include h

lemma Owned.dropPointer_eq (hmiss : ∀ b ∈ U, b.payload ≠ pointer) :
    dropPointer live pointer = live := by
  refine filter_eq_self.mpr fun a ha => ?_
  obtain ⟨b, hb, hpayload, -⟩ := h.block a ha
  have := hmiss b hb
  simpa [← hpayload] using this

lemma Owned.granted (hU : U' = insert b U) (hfresh : ∀ c ∈ U, c.address ≠ b.address)
    (hsize : size ≤ b.size) : Owned U' (⟨b.payload, size⟩ :: live) := by
  subst hU
  refine ⟨?_, fun a ha => ?_, fun c hc => ?_⟩
  · rw [map_cons, nodup_cons]
    refine ⟨fun hmem => ?_, h.nodup⟩
    obtain ⟨a, ha, hptr⟩ := mem_map.mp hmem
    obtain ⟨c, hc, hpayload, -⟩ := h.block a ha
    exact hfresh c hc (payload_inj.mp (hpayload.trans hptr))
  · cases ha with
    | head => exact ⟨b, Set.mem_insert b U, rfl, hsize⟩
    | tail _ ha =>
      obtain ⟨c, hc, hrest⟩ := h.block a ha
      exact ⟨c, Set.mem_insert_of_mem b hc, hrest⟩
  rcases hc with rfl | hc
  · exact ⟨_, mem_cons_self, rfl⟩
  · obtain ⟨a, ha, hptr⟩ := h.holder c hc
    exact ⟨a, mem_cons_of_mem _ ha, hptr⟩

lemma Owned.revoked (hU : U' = {c ∈ U | c.address ≠ b.address}) :
    Owned U' (dropPointer live b.payload) := by
  subst hU
  refine ⟨h.nodup.sublist (filter_sublist.map _), fun a ha => ?_, fun c hc => ?_⟩
  · obtain ⟨ha, hne⟩ := mem_dropPointer.mp ha
    obtain ⟨c, hc, hpayload, hsize⟩ := h.block a ha
    exact ⟨c, ⟨hc, fun heq => hne (hpayload ▸ payload_inj.mpr heq)⟩, hpayload, hsize⟩
  obtain ⟨a, ha, hptr⟩ := h.holder c hc.1
  refine ⟨a, mem_dropPointer.mpr ⟨ha, fun heq => hc.2 ?_⟩, hptr⟩
  exact payload_inj.mp (hptr ▸ heq)

lemma Owned.resized (hb : b ∈ U) (hsize : size ≤ b.size) :
    Owned U (⟨b.payload, size⟩ :: dropPointer live b.payload) := by
  refine ⟨?_, fun a ha => ?_, fun c hc => ?_⟩
  · rw [map_cons, nodup_cons]
    refine ⟨fun hmem => ?_, h.nodup.sublist (filter_sublist.map _)⟩
    obtain ⟨a, ha, hptr⟩ := mem_map.mp hmem
    exact (mem_dropPointer.mp ha).2 hptr
  · cases ha with
    | head => exact ⟨b, hb, rfl, hsize⟩
    | tail _ ha => exact h.block a (mem_dropPointer.mp ha).1
  by_cases hcb : c.payload = b.payload
  · exact ⟨_, mem_cons_self, hcb.symm⟩
  · obtain ⟨a, ha, hptr⟩ := h.holder c hc
    exact ⟨a, mem_cons_of_mem _ (mem_dropPointer.mpr ⟨ha, hptr ▸ hcb⟩), hptr⟩

end
end

structure Session.Consistent (x : Session σ) (blocks : List Block) : Prop where
  layout : Layout x.state blocks
  coalesced : Coalesced blocks
  owned : Owned (used blocks) x.live

section
variable {x : Session σ} {blocks : List Block}

lemma fresh_consistent (s : HeapState σ) : (fresh s).Consistent [] := by
  refine ⟨⟨rfl, rfl, rfl, trivial, rfl, Nat.zero_le _, by simp, rfl⟩, isChain_nil, ?_⟩
  exact ⟨nodup_nil, by simp [fresh], by simp [used]⟩

section
variable (h : x.Consistent blocks)
include h

lemma Session.Consistent.withEnv (env : σ) :
    Session.Consistent ⟨{ x.state with env }, x.live⟩ blocks :=
  ⟨h.layout.withEnv env, h.coalesced, h.owned⟩

variable {s' : HeapState σ} {blocks' : List Block}

lemma Session.Consistent.granted (hg : Granted s' blocks blocks' b size) :
    Session.Consistent ⟨s', ⟨b.payload, size⟩ :: x.live⟩ blocks' :=
  ⟨hg.layout, hg.coalesced, h.owned.granted hg.used_eq hg.fresh hg.size_le⟩

lemma Session.Consistent.revoked (hr : Revoked s' blocks blocks' b) :
    Session.Consistent ⟨s', dropPointer x.live b.payload⟩ blocks' :=
  ⟨hr.layout, hr.coalesced, h.owned.revoked hr.used_eq⟩

end

lemma payload_ne_zero (b : Block) : b.payload ≠ 0 := by
  unfold Block.payload headerSize
  omega

section
variable (B : PageBackend σ) (h : x.Consistent blocks)
include B h

lemma Session.Consistent.kmalloc (size : ℕ) :
    ∃ x' blocks', x.step B (.kmalloc size) = some x' ∧ x'.Consistent blocks' := by
  rcases kmalloc_cases B h.layout h.coalesced size with ⟨env, hfail⟩ | ⟨s', b, blocks', hok, hg⟩
  · exact ⟨_, blocks, by simp [step, hfail], h.withEnv env⟩
  · exact ⟨_, blocks', by simp [step, hok, payload_ne_zero], h.granted hg⟩

lemma Session.Consistent.kcalloc (num size : ℕ) :
    ∃ x' blocks', x.step B (.kcalloc num size) = some x' ∧ x'.Consistent blocks' := by
  rcases kcalloc_cases B h.layout h.coalesced num size with
    ⟨env, hfail⟩ | ⟨s', b, blocks', hok, hg⟩
  · exact ⟨_, blocks, by simp [step, hfail], h.withEnv env⟩
  · exact ⟨_, blocks', by simp [step, hok, payload_ne_zero], h.granted hg⟩

lemma Session.Consistent.kfree (pointer : ℕ) :
    ∃ x' blocks', x.step B (.kfree pointer) = some x' ∧ x'.Consistent blocks' := by
  rcases kfree_cases B h.layout h.coalesced pointer with
    ⟨hfail, -⟩ | ⟨s', b, blocks', hok, -, rfl, hr⟩
  · exact ⟨x, blocks, by simp [step, hfail], h⟩
  · exact ⟨_, blocks', by simp [step, hok], h.revoked hr⟩

lemma Session.Consistent.krealloc (pointer newSize : ℕ) :
    ∃ x' blocks', x.step B (.krealloc pointer newSize) = some x' ∧ x'.Consistent blocks' := by
  by_cases hp : pointer = 0
  · have hdrop : dropPointer x.live pointer = x.live :=
      h.owned.dropPointer_eq fun b _ => hp ▸ payload_ne_zero b
    have hcall : Heap.krealloc B x.state pointer newSize = Heap.kmalloc B x.state newSize :=
      if_pos hp
    rcases kmalloc_cases B h.layout h.coalesced newSize with
      ⟨env, hfail⟩ | ⟨s', b, blocks', hok, hg⟩
    · exact ⟨_, blocks, by simp [step, hcall, hfail, hdrop], h.withEnv env⟩
    · exact ⟨_, blocks', by simp [step, hcall, hok, payload_ne_zero, hdrop], h.granted hg⟩
  by_cases hn : newSize = 0
  · rcases kfree_cases B h.layout h.coalesced pointer with
      ⟨hfail, hmiss⟩ | ⟨s', b, blocks', hok, -, rfl, hr⟩
    · have hdrop : dropPointer x.live pointer = x.live := h.owned.dropPointer_eq hmiss
      exact ⟨x, blocks, by simp [step, Heap.krealloc, hp, hn, hfail, hdrop], h⟩
    · exact ⟨_, blocks', by simp [step, Heap.krealloc, hp, hn, hok], h.revoked hr⟩
  rcases krealloc_cases B h.layout h.coalesced hp hn with
    ⟨env, hfail⟩ | ⟨b, hb, hpayload, hsize, hkept⟩ |
      ⟨s', s'', old, b, blocks', blocks'', hold, hpayload, hok, hg, hr⟩
  · exact ⟨_, blocks, by simp [step, hfail, hn], h.withEnv env⟩
  · refine ⟨⟨x.state, ⟨pointer, newSize⟩ :: dropPointer x.live pointer⟩, blocks,
      by simp [step, hkept, hp], h.layout, h.coalesced, ?_⟩
    exact hpayload ▸ h.owned.resized hb hsize
  have hne : b.payload ≠ pointer :=
    fun heq => hg.fresh old hold (payload_inj.mp (hpayload.trans heq.symm))
  have hdrop : dropPointer (⟨b.payload, newSize⟩ :: x.live) old.payload =
      ⟨b.payload, newSize⟩ :: dropPointer x.live pointer := by
    simp [dropPointer, hpayload, hne]
  exact ⟨_, blocks'', by simp [step, hok, payload_ne_zero], hdrop ▸ (h.granted hg).revoked hr⟩

lemma Session.Consistent.store (addr : ℕ) (value : BitVec 8) :
    ∃ x' blocks', x.step B (.store addr value) = some x' ∧ x'.Consistent blocks' := by
  by_cases hw : x.Writable addr
  · refine ⟨_, blocks, if_pos hw, ⟨?_, h.coalesced, h.owned⟩⟩
    by_cases hlive : ∃ a ∈ x.live, a.pointer ≤ addr ∧ addr < a.pointer + a.requested
    · obtain ⟨a, ha, hlow, hhigh⟩ := hlive
      obtain ⟨b, hb, hpayload, hsize⟩ := h.owned.block a ha
      exact h.layout.payloadWrite hb.1 fun y hy => Function.update_of_ne (by omega) _ _
    have hout : addr < heapBase ∨ heapBase + x.state.heap.mappedBytes ≤ addr := by
      rcases hw with hw | hw | hw
      · exact .inl hw
      · exact .inr hw
      · exact absurd hw hlive
    refine h.layout.withMem fun b hb => header_congr fun y hlow hhigh => ?_
    have hbounds := h.layout.tiles.bounds hb
    unfold Block.span at hbounds
    exact Function.update_of_ne (by omega) _ _
  · exact ⟨x, blocks, if_neg hw, h⟩

lemma Session.Consistent.step (call : HeapCall) :
    ∃ x' blocks', x.step B call = some x' ∧ x'.Consistent blocks' := by
  cases call with
  | kmalloc size => exact h.kmalloc B size
  | kfree pointer => exact h.kfree B pointer
  | kcalloc num size => exact h.kcalloc B num size
  | krealloc pointer newSize => exact h.krealloc B pointer newSize
  | store addr value => exact h.store B addr value

lemma Session.Consistent.run (calls : List HeapCall) :
    ∃ x' blocks', x.run B calls = some x' ∧ x'.Consistent blocks' := by
  induction calls generalizing x blocks with
  | nil => exact ⟨x, blocks, rfl, h⟩
  | cons call calls ih =>
    obtain ⟨mid, middle, hstep, hmid⟩ := h.step B call
    obtain ⟨x', blocks', hrun, hx'⟩ := ih hmid
    exact ⟨x', blocks', by simp [run, hstep, hrun], hx'⟩

end

lemma Session.Consistent.disjoint (h : x.Consistent blocks) :
    x.live.Pairwise fun a a' => ∀ b ∈ blocks, ∀ b' ∈ blocks, b.payload = a.pointer →
      b'.payload = a'.pointer →
      b.payload + b.size ≤ b'.payload ∨ b'.payload + b'.size ≤ b.payload := by
  refine (pairwise_map.mp h.owned.nodup).imp fun {a a'} hne b hb b' hb' hp hp' => ?_
  have hbb : b ≠ b' := fun heq => hne (by rw [← hp, ← hp', heq])
  have := h.layout.tiles.apart hb hb' hbb
  unfold Block.span at this
  unfold Block.payload
  omega

variable {s : HeapState σ}

lemma Layout.address_aligned (h : Layout s blocks)
    (hb : b ∈ blocks) : b.address % heapAlignment = 0 := by
  refine h.tiles.start_aligned (by decide) (fun c hc => ?_) hb
  have := (h.sized c hc).2
  unfold Block.span headerSize heapAlignment at *
  omega

lemma Layout.ordered (h : Layout s blocks) : blocks.Pairwise fun a b => a.address < b.address :=
  h.tiles.pairwise.imp fun {a b} hab => by
    unfold Block.span headerSize at hab
    omega

end

/-- After any history of calls, whatever the frame allocator and the page mapper answered: the
block list is doubly linked in address order and tiles the mapped heap, everything is aligned,
no free blocks are neighbours, the count of allocations is exact, and the allocations held are
the allocated blocks, disjoint and large enough. -/
theorem heap_history_invariant (B : PageBackend σ) (s : HeapState σ) (calls : List HeapCall) :
    ∃ x, (Session.fresh s).run B calls = some x ∧ ∃ blocks : List Block,
      x.state.heap.first = headAddress 0 blocks ∧ x.state.heap.last = lastAddress 0 blocks ∧
      Linked x.state.mem 0 blocks 0 ∧
      blocks.Pairwise (fun a b => a.address < b.address) ∧
      Tiles Block.address Block.span heapBase blocks (heapBase + x.state.heap.mappedBytes) ∧
      (∀ b ∈ blocks, b.address % heapAlignment = 0 ∧ b.size % heapAlignment = 0) ∧
      blocks.IsChain (fun a b => a.free = false ∨ b.free = false) ∧
      x.state.heap.activeAllocations = blocks.countP (fun b => !b.free) ∧
      (∀ a ∈ x.live, ∃ b ∈ blocks, b.free = false ∧ b.payload = a.pointer ∧
        a.requested ≤ b.size) ∧
      (∀ b ∈ blocks, b.free = false → ∃ a ∈ x.live, a.pointer = b.payload) ∧
      x.live.Pairwise (fun a a' => ∀ b ∈ blocks, ∀ b' ∈ blocks, b.payload = a.pointer →
        b'.payload = a'.pointer →
        b.payload + b.size ≤ b'.payload ∨ b'.payload + b'.size ≤ b.payload) := by
  obtain ⟨x, blocks, hrun, hx⟩ := (fresh_consistent s).run B calls
  refine ⟨x, hrun, blocks, hx.layout.first, hx.layout.last, hx.layout.linked, hx.layout.ordered,
    hx.layout.tiles, fun b hb => ⟨hx.layout.address_aligned hb, (hx.layout.sized b hb).2⟩,
    hx.coalesced, hx.layout.active, fun a ha => ?_, fun b hb hfree => ?_, hx.disjoint⟩
  · obtain ⟨b, hb, hpayload, hsize⟩ := hx.owned.block a ha
    exact ⟨b, hb.1, hb.2, hpayload, hsize⟩
  · exact hx.owned.holder b ⟨hb, hfree⟩

end KosKernel.Heap
