import KosKernel.SocketTypes
import KosKernel.HandleCounting

/-! A socket made by `SYS_socket` keeps the reference of its creation for ever, so closing its
handle does not give its pool slot back; a full handle table loses the slot at once. -/
namespace KosKernel.Syscall
open Handle Runs Function Finset HandleTable Option
variable {ν : Type*} (network : Network ν)

inductive LifetimeCall
  | socket (arg0 arg1 arg2 : BitVec 64)
  | close (arg0 : BitVec 64)
  deriving DecidableEq

def Kernel.lifetimeStep (k : Kernel ν) : LifetimeCall → Kernel ν
  | .socket arg0 arg1 arg2 =>
    (kosSyscallDispatch network k SYS_socket arg0 arg1 arg2 0#64 0#64 0#64).kernel
  | .close arg0 => (kosSyscallDispatch network k SYS_close arg0 0#64 0#64 0#64 0#64 0#64).kernel

def poolSlots (k : Kernel ν) : Finset ℕ :=
  (Finset.range maxSockets).filter fun i => (k.system.env.sockets (poolAddress i)).inUse = true

def socketSlots (k : Kernel ν) (table : HandleTable) : Finset ℕ :=
  table.used.filter fun i => (k.system.objects (table.entries i).object).type = .socket

def openSocketHandles (k : Kernel ν) : ℕ :=
  match k.current.bind k.system.handles with
  | none => 0
  | some table => (socketSlots k table).card

/-- The arguments are good, the pool has a free slot and the transport has a port. -/
structure SocketAccepted (s : SystemState ν) (domain type : BitVec 32) : Prop where
  domain_ok : domainOk domain = true
  type_ok : typeOk type = true
  pool : (freePoolSlot s.env).isSome = true
  port : baseType type = SOCK_DGRAM → (network.udpOpen s.env.net).1.isSome = true

/-- No socket handle is closed, and no socket is made for a process whose table is full. -/
def LifetimeCall.KeepsBalance (k : Kernel ν) : LifetimeCall → Prop
  | .socket arg0 arg1 _ =>
    SocketAccepted network k.system (arg0.setWidth 32) (arg1.setWidth 32) →
      ∃ table, k.current.bind k.system.handles = some table ∧ table.freeSlot.isSome = true
  | .close arg0 =>
    currentLookup k arg0 rightNone ≠ 0 →
      (k.system.objects (currentLookup k arg0 rightNone)).type ≠ .socket

section
lemma poolAddress_injective : Function.Injective poolAddress := by
  intro i j h
  simp only [poolAddress, poolBase, socketSize] at h
  omega

lemma poolAddress_ne_zero (i : ℕ) : poolAddress i ≠ 0 := by
  simp only [poolAddress, poolBase, socketSize]
  omega

lemma freePoolSlot_some {e : NetState ν} {j : ℕ} (h : freePoolSlot e = some j) :
    j < maxSockets ∧ (e.sockets (poolAddress j)).inUse = false := by
  have hmem := List.mem_of_find?_eq_some h
  have hfree := List.find?_some h
  exact ⟨List.mem_range.mp hmem, by simpa using hfree⟩

structure SlotTaken (s s' : SystemState ν) (j : ℕ) : Prop where
  slot : freePoolSlot s.env = some j
  handles : s'.handles = s.handles
  objects : s'.objects =
    update s.objects (poolAddress j) ⟨.socket, 1#32, some .socket⟩
  others : ∀ a, a ≠ poolAddress j → s'.env.sockets a = s.env.sockets a

lemma SlotTaken.set {s s' : SystemState ν} {j : ℕ} (h : SlotTaken s s' j) {e : NetState ν}
    (he : e.sockets = s'.env.sockets) (value : Socket) :
    SlotTaken s { s' with env := setSocket e (poolAddress j) value } j := by
  refine ⟨h.slot, h.handles, h.objects, ?_⟩
  intro a ha
  simp only [setSocket, update_of_ne ha, he]
  exact h.others a ha

lemma setSocket_same (e : NetState ν) (sock : ℕ) (value : Socket) :
    (setSocket e sock value).sockets sock = value :=
  update_self ..

lemma allocateSocketLocked_cases (s : SystemState ν) :
    allocateSocketLocked s = (none, s) ∨
    ∃ j s', allocateSocketLocked s = (some (poolAddress j), s') ∧ SlotTaken s s' j ∧
      (s'.env.sockets (poolAddress j)).inUse = true ∧ s'.env.net = s.env.net := by
  cases hslot : freePoolSlot s.env with
  | none => exact .inl (by simp only [allocateSocketLocked, hslot])
  | some j =>
    refine .inr ⟨j, _, by simp only [allocateSocketLocked, hslot]; rfl, ?_⟩
    rw [kosObjectInit, if_neg (poolAddress_ne_zero j)]
    refine ⟨⟨hslot, rfl, rfl, ?_⟩, ?_, rfl⟩
    · intro a ha
      exact update_of_ne ha ..
    dsimp only
    rw [setSocket_same]
    rfl

lemma kosSocket_cases (s : SystemState ν) (domain type protocol : BitVec 32) :
    (∃ ret, kosSocket network s domain type protocol = (ret, none, s)) ∨
    (∃ ret j s', kosSocket network s domain type protocol = (ret, none, s') ∧
      SlotTaken s s' j ∧ (s'.env.sockets (poolAddress j)).inUse = false) ∨
    ∃ j s', kosSocket network s domain type protocol = (0#32, some (poolAddress j), s') ∧
      SlotTaken s s' j ∧ (s'.env.sockets (poolAddress j)).inUse = true ∧
      SocketAccepted network s domain type := by
  unfold kosSocket
  by_cases hdomain : domainOk domain = false
  · exact .inl ⟨_, if_pos hdomain⟩
  rw [if_neg hdomain]
  by_cases htype : typeOk type = false
  · exact .inl ⟨_, if_pos htype⟩
  rw [if_neg htype]
  obtain halloc | ⟨j, s', halloc, htaken, huse, hnet⟩ := allocateSocketLocked_cases s
  · rw [halloc]
    exact .inl ⟨_, rfl⟩
  rw [halloc]
  have hacc : (baseType type = SOCK_DGRAM → (network.udpOpen s.env.net).1.isSome = true) →
      SocketAccepted network s domain type := by
    intro hport
    refine ⟨Bool.of_not_eq_false hdomain, Bool.of_not_eq_false htype, ?_, hport⟩
    rw [htaken.slot]
    rfl
  have hset := htaken.set (e := s'.env) rfl
  dsimp only
  split
  · split
    · refine .inr (.inl ⟨_, j, _, rfl, ?_, ?_⟩)
      · apply (hset _).set
        rfl
      · dsimp only
        rw [setSocket_same]
    · next port net hopen =>
      refine .inr (.inr ⟨j, _, rfl, ?_, ?_, hacc ?_⟩)
      · apply (hset _).set
        rfl
      · dsimp only
        rw [setSocket_same, setSocket_same]
        exact huse
      intro _
      rw [← hnet]
      exact congrArg (fun r => r.1.isSome) hopen
  · next hdgram =>
    refine .inr (.inr ⟨j, _, rfl, hset _, ?_, hacc fun h => absurd h hdgram⟩)
    dsimp only
    rw [setSocket_same]
    exact huse

end

section
/-- Each pool slot in use belongs to exactly one open handle. -/
structure Balanced (k : Kernel ν) (process : ℕ) (table : HandleTable) : Prop where
  current : k.current = some process
  handles : k.system.handles process = some table
  pooled : ∀ i ∈ table.used, (k.system.objects (table.entries i).object).type = .socket →
    ∃ j < maxSockets, (table.entries i).object = poolAddress j
  held : ∀ i ∈ table.used, ∀ j < maxSockets, (table.entries i).object = poolAddress j →
    (k.system.env.sockets (poolAddress j)).inUse = true
  opened : ∀ j < maxSockets, (k.system.env.sockets (poolAddress j)).inUse = true →
    (k.system.objects (poolAddress j)).type = .socket ∧
      ∃ i ∈ table.used, (table.entries i).object = poolAddress j
  once : ∀ i ∈ table.used, ∀ i' ∈ table.used, ∀ j < maxSockets,
    (table.entries i).object = poolAddress j → (table.entries i').object = poolAddress j → i = i'

variable {k : Kernel ν} {process : ℕ} {table : HandleTable}

lemma Balanced.card_eq (h : Balanced k process table) :
    (poolSlots k).card = openSocketHandles k := by
  have hopen : openSocketHandles k = (socketSlots k table).card := by
    simp only [openSocketHandles, h.current, bind_some, h.handles]
  have hmem : ∀ i, i ∈ socketSlots k table ↔
      i ∈ table.used ∧ (k.system.objects (table.entries i).object).type = .socket := by
    intro i
    rw [socketSlots, mem_filter]
  have hslot : ∀ i ∈ socketSlots k table, ∃ j ∈ poolSlots k,
      (table.entries i).object = poolAddress j := by
    intro i hi
    obtain ⟨hused, htype⟩ := (hmem i).mp hi
    obtain ⟨j, hj, hobj⟩ := h.pooled i hused htype
    exact ⟨j, mem_filter.mpr ⟨mem_range.mpr hj, h.held i hused j hj hobj⟩, hobj⟩
  rw [hopen]
  -- each pool slot in use goes to the handle of its socket
  refine (card_bij (fun i hi => (hslot i hi).choose) ?_ ?_ ?_).symm
  · intro i hi
    exact (hslot i hi).choose_spec.1
  · intro i hi i' hi' heq
    obtain ⟨hj, hobj⟩ := (hslot i hi).choose_spec
    obtain ⟨-, hobject'⟩ := (hslot i' hi').choose_spec
    rw [← heq] at hobject'
    exact h.once i ((hmem i).mp hi).1 i' ((hmem i').mp hi').1 _
      (mem_range.mp (mem_filter.mp hj).1) hobj hobject'
  intro j hj
  obtain ⟨hlt, huse⟩ := mem_filter.mp hj
  obtain ⟨htype, i, hi, hobj⟩ := h.opened j (mem_range.mp hlt) huse
  have hi' : i ∈ socketSlots k table := (hmem i).mpr ⟨hi, by rw [hobj]; exact htype⟩
  refine ⟨i, hi', poolAddress_injective ?_⟩
  rw [← hobj]
  exact (hslot i hi').choose_spec.2.symm

variable {j : ℕ} {s' : SystemState ν} {δ σ : Type*}

lemma Balanced.unused (h : Balanced k process table) (hslot : freePoolSlot k.system.env = some j)
    {i : ℕ} (hi : i ∈ table.used) : (table.entries i).object ≠ poolAddress j := by
  obtain ⟨hj, hfree⟩ := freePoolSlot_some hslot
  intro hobj
  have huse := h.held i hi j hj hobj
  rw [hfree] at huse
  cases huse

lemma SlotTaken.objects_other {s : SystemState ν} {a : ℕ} (h : SlotTaken s s' j)
    (ha : a ≠ poolAddress j) : s'.objects a = s.objects a := by
  rw [h.objects, update_of_ne ha]

lemma Balanced.returned (h : Balanced k process table) (htaken : SlotTaken k.system s' j)
    (huse : (s'.env.sockets (poolAddress j)).inUse = false) :
    Balanced { k with system := s' } process table := by
  have hbusy : ∀ j', (s'.env.sockets (poolAddress j')).inUse = true →
      poolAddress j' ≠ poolAddress j ∧ (k.system.env.sockets (poolAddress j')).inUse = true := by
    intro j' hj'
    have hne : poolAddress j' ≠ poolAddress j := by
      intro heq
      rw [heq, huse] at hj'
      cases hj'
    exact ⟨hne, htaken.others _ hne ▸ hj'⟩
  refine ⟨h.current, ?_, ?_, ?_, ?_, h.once⟩
  · dsimp only
    rw [htaken.handles, h.handles]
  · intro i hi htype
    dsimp only at htype
    rw [htaken.objects_other (h.unused htaken.slot hi)] at htype
    exact h.pooled i hi htype
  · intro i hi j' hj' hobj
    dsimp only
    rw [htaken.others _ (hobj ▸ h.unused htaken.slot hi)]
    exact h.held i hi j' hj' hobj
  intro j' hj' hin
  obtain ⟨hne, hin'⟩ := hbusy j' hin
  dsimp only
  rw [htaken.objects_other hne]
  exact h.opened j' hj' hin'

lemma kosObjectRef_type (s : HandleSystem δ σ) (o a : ℕ) :
    ((kosObjectRef s o).objects a).type = (s.objects a).type := by
  unfold kosObjectRef
  split
  · rfl
  obtain rfl | ha := eq_or_ne a o
  · simp [addRefcount]
  · rw [addRefcount_other _ ha]

lemma kosObjectRef_env_eq (s : HandleSystem δ σ) (o : ℕ) : (kosObjectRef s o).env = s.env := by
  unfold kosObjectRef
  split <;> rfl

lemma mem_used {table : HandleTable} {i : ℕ} :
    i ∈ table.used ↔ i < handleTableCapacity ∧ (table.entries i).inUse = true := by
  rw [HandleTable.used, mem_filter, mem_range]

lemma handleCreate_some {s : HandleSystem δ σ} {table : HandleTable} {process o : ℕ}
    (rights : BitVec 32) (htable : s.handles process = some table)
    (hfree : table.freeSlot.isSome = true) (ho : o ≠ 0) :
    ∃ i, i < handleTableCapacity ∧ (table.entries i).inUse = false ∧
      (handleCreate s process o rights).2 =
        kosObjectRef (setTable s process (table.fill i o rights)) o := by
  obtain ⟨i, hi⟩ := isSome_iff_exists.mp hfree
  obtain ⟨hlt, huse⟩ := freeSlot_some hi
  refine ⟨i, hlt, huse, ?_⟩
  simp only [handleCreate, if_neg ho, htable, hi]

lemma Balanced.created (h : Balanced k process table) (htaken : SlotTaken k.system s' j)
    (huse : (s'.env.sockets (poolAddress j)).inUse = true) (rights : BitVec 32)
    (hfree : table.freeSlot.isSome = true) :
    ∃ table', Balanced { k with system := (handleCreate s' process (poolAddress j) rights).2 }
      process table' := by
  have htable : s'.handles process = some table := by rw [htaken.handles, h.handles]
  obtain ⟨i, hi, hunused, hcreate⟩ := handleCreate_some rights htable hfree (poolAddress_ne_zero j)
  have hj : j < maxSockets := (freePoolSlot_some htaken.slot).1
  have hused : ∀ i', i' ∈ (table.fill i (poolAddress j) rights).used → i' ≠ i →
      i' ∈ table.used ∧ (table.fill i (poolAddress j) rights).entries i' = table.entries i' := by
    intro i' hi' hne
    rw [used_fill hi] at hi'
    exact ⟨mem_of_mem_insert_of_ne hi' hne, fill_other hne⟩
  have hold : ∀ i' ∈ table.used, i' ∈ (table.fill i (poolAddress j) rights).used ∧
      (table.fill i (poolAddress j) rights).entries i' = table.entries i' := by
    intro i' hi'
    have hne : i' ≠ i := by
      rintro rfl
      rw [mem_used, hunused] at hi'
      exact absurd hi'.2 (by decide)
    refine ⟨?_, fill_other hne⟩
    rw [used_fill hi]
    exact mem_insert_of_mem hi'
  refine ⟨table.fill i (poolAddress j) rights, h.current, ?_, ?_, ?_, ?_, ?_⟩
  · dsimp only
    rw [hcreate, kosObjectRef_handles]
    exact update_self ..
  · intro i' hi' htype
    obtain rfl | hne := eq_or_ne i' i
    · exact ⟨j, hj, by rw [fill_same]⟩
    obtain ⟨hi'', hentry⟩ := hused i' hi' hne
    dsimp only at htype
    rw [hcreate, kosObjectRef_type, hentry] at htype
    rw [hentry]
    apply h.pooled i' hi''
    rw [← htaken.objects_other (h.unused htaken.slot hi'')]
    exact htype
  · intro i' hi' j' hj' hobj
    dsimp only
    rw [hcreate, kosObjectRef_env_eq]
    obtain rfl | hne := eq_or_ne i' i
    · rw [fill_same] at hobj
      rw [← hobj]
      exact huse
    obtain ⟨hi'', hentry⟩ := hused i' hi' hne
    rw [hentry] at hobj
    have hother := htaken.others _ (hobj ▸ h.unused htaken.slot hi'')
    exact (congrArg Socket.inUse hother).trans (h.held i' hi'' j' hj' hobj)
  · intro j' hj' hin
    dsimp only at hin ⊢
    rw [hcreate, kosObjectRef_env_eq] at hin
    rw [hcreate, kosObjectRef_type]
    obtain rfl | hsame := eq_or_ne j' j
    · refine ⟨?_, i, ?_, by rw [fill_same]⟩
      · simp only [setTable, htaken.objects, update_self]
      · rw [used_fill hi]
        exact mem_insert_self _ _
    have hne : poolAddress j' ≠ poolAddress j := fun heq => hsame (poolAddress_injective heq)
    have hin' : (k.system.env.sockets (poolAddress j')).inUse = true := by
      rw [← htaken.others _ hne]
      exact hin
    obtain ⟨htype, i', hi', hobj⟩ := h.opened j' hj' hin'
    obtain ⟨hmem, hentry⟩ := hold i' hi'
    refine ⟨?_, i', hmem, by rw [hentry, hobj]⟩
    simp only [setTable]
    rw [htaken.objects_other hne]
    exact htype
  · -- the new handle is the only one of its slot
    have hnew : ∀ i' ∈ (table.fill i (poolAddress j) rights).used, i' ≠ i →
        ((table.fill i (poolAddress j) rights).entries i').object ≠ poolAddress j := by
      intro i' hi' hne
      obtain ⟨hi'', hentry⟩ := hused i' hi' hne
      rw [hentry]
      exact h.unused htaken.slot hi''
    intro i₁ hi₁ i₂ hi₂ j' hj' h₁ h₂
    obtain rfl | hsame := eq_or_ne j' j
    · by_contra hne
      by_cases hi₁i : i₁ = i
      · exact hnew i₂ hi₂ (fun h => hne (hi₁i.trans h.symm)) h₂
      · exact hnew i₁ hi₁ hi₁i h₁
    have hold' : ∀ i' ∈ (table.fill i (poolAddress j) rights).used,
        ((table.fill i (poolAddress j) rights).entries i').object = poolAddress j' →
        i' ∈ table.used ∧ (table.entries i').object = poolAddress j' := by
      intro i' hi' hobj
      have hne : i' ≠ i := by
        rintro rfl
        rw [fill_same] at hobj
        exact hsame (poolAddress_injective hobj.symm)
      obtain ⟨hi'', hentry⟩ := hused i' hi' hne
      exact ⟨hi'', hentry ▸ hobj⟩
    obtain ⟨hu₁, ho₁⟩ := hold' i₁ hi₁ h₁
    obtain ⟨hu₂, ho₂⟩ := hold' i₂ hi₂ h₂
    exact h.once i₁ hu₁ i₂ hu₂ j' hj' ho₁ ho₂

lemma kosObjectUnref_frame (s : SystemState ν) (o : ℕ) :
    (∀ a, ((kosObjectUnref (runKernelDestructor network) s o).objects a).type =
      (s.objects a).type) ∧
    ∀ a, a ≠ o → (kosObjectUnref (runKernelDestructor network) s o).env.sockets a =
      s.env.sockets a := by
  have htype : ∀ delta a, ((addRefcount s o delta).objects a).type = (s.objects a).type := by
    intro delta a
    obtain rfl | ha := eq_or_ne a o
    · simp [addRefcount]
    · rw [addRefcount_other _ ha]
  have hdestroy : ∀ (e : NetState ν) a, a ≠ o →
      (socketDestroy network o e).sockets a = e.sockets a := by
    intro e a ha
    unfold socketDestroy
    dsimp only
    split_ifs <;> simp [setSocket, update_of_ne ha]
  unfold kosObjectUnref
  split
  · exact ⟨fun _ => rfl, fun _ _ => rfl⟩
  split
  · refine ⟨?_, ?_⟩
    · intro a
      rw [runDestructor_objects]
      exact htype _ a
    intro a ha
    unfold runDestructor
    split
    · rfl
    · next destructor _ =>
      cases destructor with
      | socket => exact hdestroy _ a ha
      | event => rfl
      | waitQueue => rfl
  · exact ⟨htype _, fun _ _ => rfl⟩

section
variable (h : Balanced k process table)
include h

lemma Balanced.closed {handle : BitVec 32} {entry : HandleEntry}
    (hentry : table.resolve handle = some entry)
    (hother : entry.object ≠ 0 → (k.system.objects entry.object).type ≠ .socket) :
    Balanced { k with
      system := (kosObjectUnref (runKernelDestructor network)
        (setTable k.system process (table.clear (handleIndex handle))) entry.object) }
      process (table.clear (handleIndex handle)) := by
  obtain ⟨hi, rfl, huse, -⟩ := resolve_some hentry
  have hmem : handleIndex handle ∈ table.used := mem_used.mpr ⟨hi, huse⟩
  obtain ⟨htypes, hsockets⟩ := kosObjectUnref_frame network
    (setTable k.system process (table.clear (handleIndex handle)))
    (table.entries (handleIndex handle)).object
  -- the closed handle is not that of a pool slot
  have hpool : ∀ j < maxSockets, poolAddress j ≠ (table.entries (handleIndex handle)).object := by
    intro j hj heq
    have hbusy := h.held _ hmem j hj heq.symm
    refine hother ?_ ?_
    · rw [← heq]
      exact poolAddress_ne_zero j
    · rw [← heq]
      exact (h.opened j hj hbusy).1
  have hused : ∀ i ∈ (table.clear (handleIndex handle)).used, i ∈ table.used ∧
      (table.clear (handleIndex handle)).entries i = table.entries i := by
    intro i hi
    rw [used_clear] at hi
    exact ⟨mem_of_mem_erase hi, clear_other (ne_of_mem_erase hi)⟩
  refine ⟨h.current, ?_, ?_, ?_, ?_, ?_⟩
  · dsimp only
    rw [kosObjectUnref_handles]
    exact update_self ..
  · intro i hi htype
    obtain ⟨hi', hsame⟩ := hused i hi
    dsimp only at htype
    rw [htypes, hsame] at htype
    rw [hsame]
    exact h.pooled i hi' htype
  · intro i hi j hj hobj
    obtain ⟨hi', hsame⟩ := hused i hi
    dsimp only
    rw [hsockets _ (hpool j hj)]
    rw [hsame] at hobj
    exact h.held i hi' j hj hobj
  · intro j hj hin
    dsimp only at hin ⊢
    rw [hsockets _ (hpool j hj)] at hin
    rw [htypes]
    obtain ⟨htype, i, hi, hobj⟩ := h.opened j hj hin
    have hne : i ≠ handleIndex handle := by
      rintro rfl
      exact hpool j hj hobj.symm
    refine ⟨htype, i, ?_, by rw [clear_other hne, hobj]⟩
    rw [used_clear]
    exact mem_erase_of_ne_of_mem hne hi
  · intro i₁ hi₁ i₂ hi₂ j hj h₁ h₂
    obtain ⟨hu₁, hs₁⟩ := hused i₁ hi₁
    obtain ⟨hu₂, hs₂⟩ := hused i₂ hi₂
    exact h.once i₁ hu₁ i₂ hu₂ j hj (hs₁ ▸ h₁) (hs₂ ▸ h₂)

lemma Balanced.socket (arg0 arg1 arg2 : BitVec 64)
    (hcall : (LifetimeCall.socket arg0 arg1 arg2).KeepsBalance network k) :
    ∃ table', Balanced (sysSocket network k arg0 arg1 arg2).kernel process table' := by
  obtain ⟨ret, hrefuse⟩ | ⟨ret, j, s', hreturned, htaken, huse⟩ |
    ⟨j, s', hmade, htaken, huse, hacc⟩ := kosSocket_cases network k.system
      (arg0.setWidth 32) (arg1.setWidth 32) (arg2.setWidth 32)
  · refine ⟨table, ?_⟩
    simp only [sysSocket, hrefuse]
    exact h
  · refine ⟨table, ?_⟩
    simp only [sysSocket, hreturned]
    exact h.returned htaken huse
  obtain ⟨table', htable', hfree⟩ := hcall hacc
  rw [h.current, bind_some, h.handles] at htable'
  cases htable'
  obtain ⟨table', hnew⟩ := h.created htaken huse (rightRead ||| rightWrite ||| rightDestroy) hfree
  have hkernel : (sysSocket network k arg0 arg1 arg2).kernel = { k with
      system := (handleCreate s' process (poolAddress j)
        (rightRead ||| rightWrite ||| rightDestroy)).2 } := by
    simp only [sysSocket, hmade, h.current]
    rfl
  rw [hkernel]
  exact ⟨table', hnew⟩

lemma Balanced.close (arg0 : BitVec 64) (hcall : (LifetimeCall.close arg0).KeepsBalance network k) :
    ∃ table', Balanced (sysClose network k arg0).kernel process table' := by
  have hkernel : (sysClose network k arg0).kernel = { k with
      system := (handleClose (runKernelDestructor network) k.system process
        (arg0.setWidth 32)).2 } := by
    simp only [sysClose, h.current]
    rfl
  rw [hkernel]
  obtain hfail | ⟨table', entry, hclear, hclose⟩ := handleClose_cases (s := k.system)
    (runKernelDestructor network) process (arg0.setWidth 32)
  · rw [hfail]
    exact ⟨table, h⟩
  have htable := hclear.table_eq
  rw [h.handles] at htable
  cases htable
  have hlookup : currentLookup k arg0 rightNone = entry.object := by
    simp [currentLookup, h.current, handleLookup, h.handles, hclear.resolve_eq, rightNone]
  rw [LifetimeCall.KeepsBalance, hlookup] at hcall
  rw [hclose]
  exact ⟨_, h.closed network hclear.resolve_eq hcall⟩

end
end

/-- An empty pool, and a process none of whose handles is that of a socket. -/
structure PoolEmpty (k : Kernel ν) (process : ℕ) : Prop where
  current : k.current = some process
  table : ∃ table, k.system.handles process = some table ∧ ∀ i ∈ table.used,
    (k.system.objects (table.entries i).object).type ≠ .socket ∧
      ∀ j < maxSockets, (table.entries i).object ≠ poolAddress j
  pool : ∀ j < maxSockets, (k.system.env.sockets (poolAddress j)).inUse = false

lemma PoolEmpty.balanced {k : Kernel ν} {process : ℕ} (h : PoolEmpty k process) :
    ∃ table, Balanced k process table := by
  obtain ⟨table, htable, hothers⟩ := h.table
  refine ⟨table, h.current, htable, ?_, ?_, ?_, ?_⟩
  · intro i hi htype
    exact absurd htype (hothers i hi).1
  · intro i hi j hj hobj
    exact absurd hobj ((hothers i hi).2 j hj)
  · intro j hj hin
    rw [h.pool j hj] at hin
    cases hin
  · intro i hi i' _ j hj hobj
    exact absurd hobj ((hothers i hi).2 j hj)

theorem socket_pool_balanced (k : Kernel ν) (process : ℕ) (hempty : PoolEmpty k process)
    (calls : List LifetimeCall)
    (hcalls : Along (Kernel.lifetimeStep network) (fun k call => call.KeepsBalance network k) k
      calls) :
    (poolSlots (run (Kernel.lifetimeStep network) k calls)).card =
      openSocketHandles (run (Kernel.lifetimeStep network) k calls) := by
  have hstep : ∀ (k : Kernel ν) (call : LifetimeCall), (∃ table, Balanced k process table) →
      call.KeepsBalance network k → ∃ table, Balanced (k.lifetimeStep network call) process table := by
    rintro k call ⟨table, h⟩ hcall
    cases call with
    | socket arg0 arg1 arg2 => exact h.socket network arg0 arg1 arg2 hcall
    | close arg0 => exact h.close network arg0 hcall
  obtain ⟨table, h⟩ := run_invariant hstep hempty.balanced calls hcalls
  exact h.card_eq

def freshKernel : Kernel Unit :=
  idleKernel (fun _ => some handleTableCreate) fun _ => ⟨.none, 0#32, none⟩

lemma freshKernel_empty : PoolEmpty freshKernel 1 := by
  refine ⟨rfl, ⟨handleTableCreate, rfl, ?_⟩, fun _ _ => rfl⟩
  intro i hi
  have hunused := (mem_used.mp hi).2
  cases hunused

/-- A stream and a datagram socket, and a close of a handle that does not exist. -/
def socketCalls : List LifetimeCall :=
  [.socket 2#64 1#64 0#64, .socket 2#64 2#64 0#64, .close 7#64]

theorem socket_pool_balanced_sample :
    openSocketHandles (run (Kernel.lifetimeStep silentNetwork) freshKernel socketCalls) = 2 ∧
      (poolSlots (run (Kernel.lifetimeStep silentNetwork) freshKernel socketCalls)).card =
        openSocketHandles (run (Kernel.lifetimeStep silentNetwork) freshKernel socketCalls) := by
  refine ⟨by decide +kernel, ?_⟩
  apply socket_pool_balanced silentNetwork freshKernel 1 freshKernel_empty
  refine ⟨fun _ => ⟨handleTableCreate, rfl, by decide⟩, fun _ => ⟨_, rfl, by decide +kernel⟩,
    fun hfound => absurd (by decide +kernel) hfound, trivial⟩

/-- A stream socket that is made and closed leaves its pool slot in use. -/
theorem closed_socket_leaks :
    PoolEmpty freshKernel 1 ∧
    (poolSlots (run (Kernel.lifetimeStep silentNetwork) freshKernel
      [.socket 2#64 1#64 0#64, .close 0x10000#64])).card = 1 ∧
    openSocketHandles (run (Kernel.lifetimeStep silentNetwork) freshKernel
      [.socket 2#64 1#64 0#64, .close 0x10000#64]) = 0 := by
  refine ⟨freshKernel_empty, ?_, ?_⟩
  · decide +kernel
  · decide +kernel

end KosKernel.Syscall
