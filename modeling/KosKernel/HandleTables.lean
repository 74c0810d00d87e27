import KosKernel.HandleState

/-! What the calls of `kernel/handle.c` do to the handle tables. -/
namespace KosKernel.Handle
open Function HandleTable BitVec
variable {δ σ : Type*} {destroy : δ → ℕ → σ → σ} {s : HandleSystem δ σ}

section
lemma and_low_toNat (h : BitVec 32) : (h &&& 0x0000FFFF#32).toNat = h.toNat % 2 ^ 16 := by
  rw [toNat_and]
  exact Nat.and_two_pow_sub_one_eq_mod _ 16

section
variable {i : ℕ} (hi : i < handleTableCapacity)
include hi

lemma makeHandle_eq (g : BitVec 16) : (makeHandle i g).toNat = 2 ^ 16 * g.toNat + i := by
  have hi : i < 64 := hi
  have hlow : (BitVec.ofNat 32 i &&& 0x0000FFFF#32).toNat = i := by
    rw [and_low_toNat, BitVec.toNat_ofNat]
    omega
  have hhigh : (g.setWidth 32 <<< 16).toNat = 2 ^ 16 * g.toNat := by
    rw [BitVec.toNat_shiftLeft, BitVec.toNat_setWidth, Nat.shiftLeft_eq]
    have := g.isLt
    omega
  rw [makeHandle, BitVec.toNat_or, hlow, hhigh]
  exact (Nat.two_pow_add_eq_or_of_lt (by omega) g.toNat).symm

lemma handleIndex_makeHandle (g : BitVec 16) : handleIndex (makeHandle i g) = i := by
  have hi' : i < 64 := hi
  rw [handleIndex, and_low_toNat, makeHandle_eq hi]
  omega

lemma handleGen_makeHandle (g : BitVec 16) : handleGen (makeHandle i g) = g := by
  have hi' : i < 64 := hi
  apply eq_of_toNat_eq
  rw [handleGen, toNat_setWidth, toNat_ushiftRight, makeHandle_eq hi, Nat.shiftRight_eq_div_pow]
  have := g.isLt
  omega

lemma makeHandle_ne_invalid {g : BitVec 16} (hg : g ≠ 0#16) : makeHandle i g ≠ invalidHandle := by
  intro h
  apply hg
  rw [← handleGen_makeHandle hi g, h]
  rfl

end

lemma issuedGeneration_ne_zero (entry : HandleEntry) : issuedGeneration entry ≠ 0#16 := by
  unfold issuedGeneration
  split
  · decide
  · assumption

end

section
abbrev RightsLe (r r' : BitVec 32) : Prop := r &&& r' = r

lemma RightsLe.refl (r : BitVec 32) : RightsLe r r := and_self

lemma RightsLe.trans {r r' r'' : BitVec 32} (h : RightsLe r r') (h' : RightsLe r' r'') :
    RightsLe r r'' := by
  rw [RightsLe, ← h, BitVec.and_assoc, h']

lemma rightsLe_of_and_not {r r' : BitVec 32} (h : r &&& ~~~r' = 0#32) : RightsLe r r' := by
  ext i hi
  have hbit : (r &&& ~~~r').getLsbD i = false := by rw [h]; exact getLsbD_zero
  simp [getLsbD_eq_getElem hi] at hbit ⊢
  exact hbit

lemma targetRights_le {newRights r : BitVec 32} (h : targetRights newRights r &&& ~~~r = 0#32) :
    RightsLe (targetRights newRights r) r :=
  rightsLe_of_and_not h

/-- The mask is one bit, so it is among the rights as soon as it meets them. -/
lemma rightsLe_duplicate {r : BitVec 32} (h : r &&& rightDuplicate ≠ 0#32) :
    RightsLe rightDuplicate r := by
  have hmask : r &&& rightDuplicate = if r.getLsbD 5 then rightDuplicate else 0#32 :=
    BitVec.and_twoPow r 5
  rw [RightsLe, BitVec.and_comm, hmask]
  rw [hmask] at h
  by_cases hbit : r.getLsbD 5 = true
  · exact if_pos hbit
  · exact absurd (if_neg hbit) h

end

section
variable {table : HandleTable} {i j object : ℕ} {rights handle : BitVec 32} {entry : HandleEntry}

lemma HandleTable.freeSlot_some (h : table.freeSlot = some i) :
    i < handleTableCapacity ∧ (table.entries i).inUse = false := by
  have hmem := List.mem_of_find?_eq_some h
  have hfree := List.find?_some h
  exact ⟨List.mem_range.mp hmem, by simpa using hfree⟩

@[simp] lemma HandleTable.fill_same :
    (table.fill i object rights).entries i =
      ⟨object, rights, issuedGeneration (table.entries i), true⟩ :=
  update_self ..

lemma HandleTable.fill_other (h : j ≠ i) :
    (table.fill i object rights).entries j = table.entries j :=
  update_of_ne h ..

@[simp] lemma HandleTable.clear_same :
    (table.clear i).entries i =
      ⟨0, rightNone, nextGeneration (table.entries i).generation, false⟩ :=
  update_self ..

lemma HandleTable.clear_other (h : j ≠ i) : (table.clear i).entries j = table.entries j :=
  update_of_ne h ..

lemma HandleTable.resolve_some (h : table.resolve handle = some entry) :
    handleIndex handle < handleTableCapacity ∧ entry = table.entries (handleIndex handle) ∧
      entry.inUse = true ∧ entry.generation = handleGen handle := by
  unfold resolve at h
  split at h
  · cases h
  rename_i hvalid
  split at h
  · cases h
  rename_i hlive
  push Not at hvalid hlive
  cases h
  exact ⟨hvalid.2, rfl, by simpa using hlive.1, hlive.2⟩

end

section
variable {object object' : ℕ}

@[simp] lemma addRefcount_handles (delta : BitVec 32) :
    (addRefcount s object delta).handles = s.handles := rfl

@[simp] lemma kosObjectRef_handles : (kosObjectRef s object).handles = s.handles := by
  unfold kosObjectRef
  split <;> rfl

@[simp] lemma runDestructor_handles : (runDestructor destroy s object).handles = s.handles := by
  unfold runDestructor
  split <;> rfl

@[simp] lemma kosObjectUnref_handles : (kosObjectUnref destroy s object).handles = s.handles := by
  unfold kosObjectUnref
  split
  · rfl
  split
  · exact runDestructor_handles
  · rfl

end

variable (destroy)

structure Filled (before after : ℕ → Option HandleTable) (process object : ℕ)
    (rights handle : BitVec 32) (table : HandleTable) (i : ℕ) : Prop where
  table_eq : before process = some table
  object_ne : object ≠ 0
  slot_lt : i < handleTableCapacity
  slot_free : (table.entries i).inUse = false
  handle_eq : handle = makeHandle i (issuedGeneration (table.entries i))
  after_eq : after = update before process (some (table.fill i object rights))

section
variable {before after : ℕ → Option HandleTable} {process object i : ℕ} {rights handle : BitVec 32}
  {table : HandleTable} (h : Filled before after process object rights handle table i)
include h

lemma Filled.handle_ne : handle ≠ invalidHandle := by
  rw [h.handle_eq]
  exact makeHandle_ne_invalid h.slot_lt (issuedGeneration_ne_zero _)

lemma Filled.index_eq : handleIndex handle = i := by
  rw [h.handle_eq]
  exact handleIndex_makeHandle h.slot_lt _

end

structure Cleared (before after : ℕ → Option HandleTable) (process : ℕ) (handle : BitVec 32)
    (table : HandleTable) (entry : HandleEntry) : Prop where
  table_eq : before process = some table
  resolve_eq : table.resolve handle = some entry
  after_eq : after =
    update before process (some (table.clear (handleIndex handle)))

lemma handleCreate_cases (process object : ℕ) (rights : BitVec 32) :
    handleCreate s process object rights = (invalidHandle, s) ∨
    ∃ table i, Filled s.handles (handleCreate s process object rights).2.handles process object
        rights (handleCreate s process object rights).1 table i ∧
      (handleCreate s process object rights).2 =
        kosObjectRef (setTable s process (table.fill i object rights)) object := by
  unfold handleCreate
  by_cases hobj : object = 0
  · exact .inl (if_pos hobj)
  simp only [if_neg hobj]
  cases htable : s.handles process with
  | none => exact .inl rfl
  | some table =>
    cases hslot : table.freeSlot with
    | none => exact .inl (by simp only [hslot])
    | some i =>
      obtain ⟨hi, hfree⟩ := freeSlot_some hslot
      refine .inr ⟨table, i, ?_, by simp only [hslot]⟩
      simp only [hslot]
      exact ⟨htable, hobj, hi, hfree, rfl, by rw [kosObjectRef_handles]; rfl⟩

lemma handleClose_cases (process : ℕ) (handle : BitVec 32) :
    handleClose destroy s process handle = (false, s) ∨
    ∃ table entry, Cleared s.handles (handleClose destroy s process handle).2.handles process
        handle table entry ∧
      handleClose destroy s process handle = (true,
        kosObjectUnref destroy (setTable s process (table.clear (handleIndex handle)))
          entry.object) := by
  unfold handleClose
  cases htable : s.handles process with
  | none => exact .inl rfl
  | some table =>
    cases hentry : table.resolve handle with
    | none => exact .inl (by simp only [hentry])
    | some entry =>
      refine .inr ⟨table, entry, ?_, by simp only [hentry]⟩
      simp only [hentry]
      exact ⟨htable, hentry, by rw [kosObjectUnref_handles]; rfl⟩

/-- A duplication that passes the checks on the source handle. -/
structure Duplicable (s : HandleSystem δ σ) (source : ℕ) (handle newRights : BitVec 32)
    (table : HandleTable) (entry : HandleEntry) : Prop where
  table_eq : s.handles source = some table
  resolve_eq : table.resolve handle = some entry
  duplicate : entry.rights &&& rightDuplicate ≠ 0#32
  rights_le : RightsLe (targetRights newRights entry.rights) entry.rights
  object_ne : entry.object ≠ 0

lemma handleDuplicate_cases (src dest : ℕ) (handle newRights : BitVec 32) :
    handleDuplicate destroy s src dest handle newRights = (invalidHandle, s) ∨
    ∃ table entry, Duplicable s src handle newRights table entry ∧
      handleDuplicate destroy s src dest handle newRights =
        ((handleCreate (kosObjectRef s entry.object) dest entry.object
            (targetRights newRights entry.rights)).1,
          kosObjectUnref destroy (handleCreate (kosObjectRef s entry.object) dest
            entry.object (targetRights newRights entry.rights)).2 entry.object) := by
  unfold handleDuplicate
  cases hsrc : s.handles src with
  | none => exact .inl rfl
  | some table =>
    cases hdest : s.handles dest with
    | none => exact .inl rfl
    | some _ =>
      cases hentry : table.resolve handle with
      | none => exact .inl (by simp only [hentry])
      | some entry =>
        simp only [hentry]
        by_cases hdup : entry.rights &&& rightDuplicate = 0#32
        · exact .inl (if_pos hdup)
        by_cases hrights : targetRights newRights entry.rights &&& ~~~entry.rights ≠ 0#32
        · exact .inl (by rw [if_neg hdup, if_pos hrights])
        by_cases hobj : entry.object = 0
        · exact .inl (by rw [if_neg hdup, if_neg hrights, if_pos hobj])
        refine .inr ⟨table, entry,
          ⟨hsrc, hentry, hdup, targetRights_le (not_not.mp hrights), hobj⟩, ?_⟩
        rw [if_neg hdup, if_neg hrights, if_neg hobj]

lemma handleDuplicate_handles (src dest : ℕ) (handle newRights : BitVec 32) :
    ((handleDuplicate destroy s src dest handle newRights).1 = invalidHandle ∧
      (handleDuplicate destroy s src dest handle newRights).2.handles = s.handles) ∨
    ∃ table entry target i, Duplicable s src handle newRights table entry ∧
      Filled s.handles (handleDuplicate destroy s src dest handle newRights).2.handles
        dest entry.object (targetRights newRights entry.rights)
        (handleDuplicate destroy s src dest handle newRights).1 target i := by
  obtain h | ⟨table, entry, hdup, h⟩ := handleDuplicate_cases destroy src dest handle newRights
  · left
    rw [h]
    exact ⟨rfl, rfl⟩
  rw [h]
  obtain hc | ⟨target, i, hfill, -⟩ := handleCreate_cases (s := kosObjectRef s entry.object)
    dest entry.object (targetRights newRights entry.rights)
  · left
    rw [hc]
    exact ⟨rfl, by simp⟩
  refine .inr ⟨table, entry, target, i, hdup, ?_⟩
  rw [kosObjectRef_handles] at hfill
  rw [kosObjectUnref_handles]
  exact hfill

end KosKernel.Handle
