import KosKernel.HandleTables

/-! The reference count of an object against the references that are outstanding: those of
external holders and one for each table entry that points to it. -/
namespace KosKernel.Handle
open Function HandleTable Finset
variable {δ σ : Type*}

/-- The slots in use, over all processes, that point to an object. -/
def pointing (handles : ℕ → Option HandleTable) (object : ℕ) : Set (ℕ × ℕ) :=
  {x | ∃ table, handles x.1 = some table ∧ x.2 < handleTableCapacity ∧
    (table.entries x.2).inUse = true ∧ (table.entries x.2).object = object}

noncomputable def outstanding (handles : ℕ → Option HandleTable) (external : ℕ → ℕ)
    (object : ℕ) : ℕ :=
  external object + (pointing handles object).ncard

def HandleTable.used (table : HandleTable) : Finset ℕ :=
  (Finset.range handleTableCapacity).filter fun i => (table.entries i).inUse = true

/-- The counters agree, modulo the width of the machine integer, with the references. -/
structure Counted (s : HandleSystem δ σ) (external : ℕ → ℕ) : Prop where
  finite : ∀ object, (pointing s.handles object).Finite
  refcount : ∀ object, 0 < outstanding s.handles external object →
    object ≠ 0 ∧ (s.objects object).refcount =
      BitVec.ofNat 32 (outstanding s.handles external object)
  tables : ∀ process table, s.handles process = some table → table.count = table.used.card

section
variable {before after : ℕ → Option HandleTable} {process object o i : ℕ}
  {rights handle : BitVec 32} {table : HandleTable} {entry : HandleEntry}

lemma mem_pointing_update {table' : HandleTable} {x : ℕ × ℕ} :
    x ∈ pointing (update before process (some table')) o ↔
      (x.1 = process ∧ x.2 < handleTableCapacity ∧ (table'.entries x.2).inUse = true ∧
        (table'.entries x.2).object = o) ∨ (x.1 ≠ process ∧ x ∈ pointing before o) := by
  by_cases hx : x.1 = process
  · simp [pointing, hx]
  · simp [pointing, hx]

section
variable (h : Filled before after process object rights handle table i)
include h

lemma Filled.notMem_pointing : (process, i) ∉ pointing before o := by
  rintro ⟨t, ht, -, huse, -⟩
  rw [h.table_eq] at ht
  cases ht
  rw [h.slot_free] at huse
  cases huse

lemma Filled.pointing_same :
    pointing after object = insert (process, i) (pointing before object) := by
  ext x
  rw [h.after_eq, mem_pointing_update, Set.mem_insert_iff]
  obtain ⟨p, j⟩ := x
  obtain rfl | hp := eq_or_ne p process
  · by_cases hj : j = i
    · subst hj
      simp [h.slot_lt]
    · simp [pointing, h.table_eq, fill_other hj, hj]
  · simp [hp]

lemma Filled.pointing_other (ho : o ≠ object) : pointing after o = pointing before o := by
  ext x
  rw [h.after_eq, mem_pointing_update]
  obtain ⟨p, j⟩ := x
  obtain rfl | hp := eq_or_ne p process
  · by_cases hj : j = i
    · subst hj
      simp [pointing, h.table_eq, h.slot_free, ho.symm]
    · simp [pointing, h.table_eq, fill_other hj]
  · simp [hp]

end

section
variable (h : Cleared before after process handle table entry)
include h

lemma Cleared.mem_pointing : (process, handleIndex handle) ∈ pointing before entry.object := by
  obtain ⟨hi, rfl, huse, -⟩ := resolve_some h.resolve_eq
  exact ⟨table, h.table_eq, hi, huse, rfl⟩

lemma Cleared.pointing_eq :
    pointing after o = pointing before o \ {(process, handleIndex handle)} := by
  ext x
  rw [h.after_eq, mem_pointing_update, Set.mem_sdiff, Set.mem_singleton_iff]
  obtain ⟨p, j⟩ := x
  obtain rfl | hp := eq_or_ne p process
  · by_cases hj : j = handleIndex handle
    · subst hj
      simp
    · simp [pointing, h.table_eq, clear_other hj, hj]
  · simp [hp]

lemma Cleared.notMem_pointing (ho : o ≠ entry.object) :
    (process, handleIndex handle) ∉ pointing before o := by
  obtain ⟨-, rfl, -⟩ := resolve_some h.resolve_eq
  rintro ⟨t, ht, -, -, hobj⟩
  rw [h.table_eq] at ht
  cases ht
  exact ho hobj.symm

end

def HandleTable.slotsTo (table : HandleTable) (object : ℕ) : Finset ℕ :=
  table.used.filter fun i => (table.entries i).object = object

lemma pointing_table (htable : before process = some table) :
    pointing before o = pointing (update before process none) o ∪
      Prod.mk process '' (table.slotsTo o : Set ℕ) := by
  ext x
  obtain ⟨p, j⟩ := x
  obtain rfl | hp := eq_or_ne p process
  · simp [pointing, htable, HandleTable.slotsTo, HandleTable.used, and_assoc]
  · simp [pointing, update_of_ne hp, Ne.symm hp]

lemma count_objects (ho : o ≠ 0) : table.objects.count o = (table.slotsTo o).card := by
  have hfilter : ∀ n, ((List.range n).filterMap fun i =>
      if (table.entries i).inUse ∧ (table.entries i).object ≠ 0 then
        some (table.entries i).object else none).count o =
      ((range n).filter fun i =>
        (table.entries i).inUse = true ∧ (table.entries i).object = o).card := by
    intro n
    induction n with
    | zero => rfl
    | succ n ih =>
      rw [List.range_succ, List.filterMap_append, List.count_append, ih, range_add_one,
        filter_insert]
      by_cases hn : (table.entries n).inUse = true ∧ (table.entries n).object = o
      · rw [if_pos hn, card_insert_of_notMem (by simp)]
        simp [hn.1, hn.2, ho]
      rw [if_neg hn]
      simp only [List.filterMap_cons, List.filterMap_nil]
      split
      · simp
      rename_i b hb
      split at hb
      · cases hb
        rename_i huse
        have hne : (table.entries n).object ≠ o := fun h => hn ⟨huse.1, h⟩
        simp [hne]
      · cases hb
  rw [HandleTable.slotsTo, HandleTable.used, filter_filter]
  exact hfilter handleTableCapacity

end

section
variable {table : HandleTable} {i object : ℕ} {rights : BitVec 32}

lemma HandleTable.used_fill (hi : i < handleTableCapacity) :
    (table.fill i object rights).used = insert i table.used := by
  ext j
  obtain rfl | hj := eq_or_ne j i
  · simp [used, hi]
  · simp [used, fill_other hj, hj]

lemma HandleTable.used_clear : (table.clear i).used = table.used.erase i := by
  ext j
  obtain rfl | hj := eq_or_ne j i
  · simp [used]
  · simp [used, clear_other hj, hj]

section
variable (hcount : table.count = table.used.card) (hi : i < handleTableCapacity)
include hcount hi

lemma HandleTable.count_fill (hfree : (table.entries i).inUse = false) :
    (table.fill i object rights).count = (table.fill i object rights).used.card := by
  have hnot : i ∉ table.used := by simp [used, hfree]
  rw [used_fill hi, card_insert_of_notMem hnot, ← hcount]
  rfl

lemma HandleTable.count_clear (huse : (table.entries i).inUse = true) :
    (table.clear i).count = (table.clear i).used.card := by
  have hmem : i ∈ table.used := by simp [used, hi, huse]
  have hpos : table.count > 0 := hcount ▸ card_pos.mpr ⟨i, hmem⟩
  rw [used_clear, card_erase_of_mem hmem, ← hcount]
  exact if_pos hpos

end
end

variable {s : HandleSystem δ σ} {external : ℕ → ℕ} {o : ℕ}

/-- References given to, or taken from, the external holders of one object. -/
def grant (external : ℕ → ℕ) (o n : ℕ) : ℕ → ℕ := update external o n

lemma outstanding_grant_same (handles : ℕ → Option HandleTable) (n : ℕ) :
    outstanding handles (grant external o n) o = n + (pointing handles o).ncard := by
  rw [outstanding, grant, update_self]

lemma outstanding_grant_other (handles : ℕ → Option HandleTable) (n : ℕ) {o' : ℕ} (h : o' ≠ o) :
    outstanding handles (grant external o n) o' = outstanding handles external o' := by
  rw [outstanding, grant, update_of_ne h, outstanding]

@[simp] lemma addRefcount_same (delta : BitVec 32) :
    ((addRefcount s o delta).objects o).refcount = (s.objects o).refcount + delta := by
  simp [addRefcount]

lemma addRefcount_other (delta : BitVec 32) {o' : ℕ} (h : o' ≠ o) :
    (addRefcount s o delta).objects o' = s.objects o' :=
  update_of_ne h ..

@[simp] lemma addRefcount_destructor (delta : BitVec 32) (o' : ℕ) :
    ((addRefcount s o delta).objects o').destructor = (s.objects o').destructor := by
  obtain rfl | h := eq_or_ne o' o
  · simp [addRefcount]
  · rw [addRefcount_other delta h]

lemma ofNat_add_neg_one {m n : ℕ} (h : m = n + 1) :
    BitVec.ofNat 32 m + -1#32 = BitVec.ofNat 32 n := by
  subst h
  rw [BitVec.ofNat_add, BitVec.add_assoc, BitVec.add_right_neg, BitVec.add_zero]

section
variable (h : Counted s external)
include h

lemma Counted.add (ho : o ≠ 0) {delta : BitVec 32} {n : ℕ}
    (hcount : (s.objects o).refcount + delta = BitVec.ofNat 32 (n + (pointing s.handles o).ncard)) :
    Counted (addRefcount s o delta) (grant external o n) := by
  refine ⟨h.finite, ?_, h.tables⟩
  intro o' hpos
  rw [addRefcount_handles] at hpos ⊢
  obtain rfl | hsame := eq_or_ne o' o
  · rw [addRefcount_same, outstanding_grant_same, hcount]
    exact ⟨ho, rfl⟩
  rw [outstanding_grant_other _ n hsame] at hpos ⊢
  rw [addRefcount_other delta hsame]
  exact h.refcount o' hpos

lemma Counted.ref (hlive : 0 < outstanding s.handles external o) :
    Counted (kosObjectRef s o) (grant external o (external o + 1)) := by
  obtain ⟨ho, hcount⟩ := h.refcount o hlive
  rw [kosObjectRef, if_neg ho]
  apply h.add ho
  rw [hcount, outstanding]
  apply BitVec.eq_of_toNat_eq
  simp only [BitVec.toNat_add, BitVec.toNat_ofNat]
  omega

lemma Counted.drop (hheld : 0 < external o) :
    Counted (addRefcount s o (-1#32)) (grant external o (external o - 1)) := by
  have hlive : 0 < outstanding s.handles external o := Nat.add_pos_left hheld _
  obtain ⟨ho, hcount⟩ := h.refcount o hlive
  apply h.add ho
  rw [hcount, outstanding]
  exact ofNat_add_neg_one (by omega)

end

@[simp] lemma runDestructor_objects (destroy : δ → ℕ → σ → σ) :
    (runDestructor destroy s o).objects = s.objects := by
  unfold runDestructor
  split <;> rfl

variable {s' : HandleSystem δ σ}

section
variable (h : Counted s external)
include h

lemma Counted.congr (hhandles : s'.handles = s.handles) (hobjects : s'.objects = s.objects) :
    Counted s' external :=
  ⟨hhandles ▸ h.finite, by rw [hhandles, hobjects]; exact h.refcount, hhandles ▸ h.tables⟩

lemma refcount_last (hheld : 0 < external o) (hsmall : outstanding s.handles external o < 2 ^ 32) :
    (s.objects o).refcount - 1#32 = 0#32 ↔ outstanding s.handles external o = 1 := by
  have hlive : 0 < outstanding s.handles external o := Nat.add_pos_left hheld _
  rw [(h.refcount o hlive).2]
  constructor
  · intro hzero
    have hnat := congrArg BitVec.toNat hzero
    simp only [BitVec.toNat_sub, BitVec.toNat_ofNat] at hnat
    omega
  intro hone
  rw [hone]
  rfl

lemma Counted.unref (destroy : δ → ℕ → σ → σ) (hheld : 0 < external o)
    (hsmall : outstanding s.handles external o < 2 ^ 32) :
    Counted (kosObjectUnref destroy s o) (grant external o (external o - 1)) ∧
    kosObjectUnref destroy s o = if outstanding s.handles external o = 1 then
        runDestructor destroy (addRefcount s o (-1#32)) o
      else addRefcount s o (-1#32) := by
  have ho : o ≠ 0 := (h.refcount o (Nat.add_pos_left hheld _)).1
  have hlast := refcount_last h hheld hsmall
  have heq : kosObjectUnref destroy s o = if outstanding s.handles external o = 1 then
        runDestructor destroy (addRefcount s o (-1#32)) o
      else addRefcount s o (-1#32) := by
    rw [kosObjectUnref, if_neg ho]
    simp only [hlast]
  refine ⟨?_, heq⟩
  have hdrop := h.drop hheld
  rw [heq]
  split
  · exact hdrop.congr runDestructor_handles (runDestructor_objects destroy)
  · exact hdrop

end

variable {process object i : ℕ} {rights handle : BitVec 32} {table : HandleTable}
  {entry : HandleEntry} {handles' : ℕ → Option HandleTable}

lemma tables_update (htables : ∀ process table, s.handles process = some table →
      table.count = table.used.card) {table' : HandleTable}
    (hnew : table'.count = table'.used.card) (p : ℕ) (t : HandleTable)
    (ht : update s.handles process (some table') p = some t) : t.count = t.used.card := by
  obtain rfl | hp := eq_or_ne p process
  · rw [update_self] at ht
    cases ht
    exact hnew
  · rw [update_of_ne hp] at ht
    exact htables p t ht

lemma Filled.outstanding_eq (hfill : Filled s.handles handles' process object rights handle table i)
    (hfinite : (pointing s.handles object).Finite) (hheld : 0 < external object) (o : ℕ) :
    outstanding handles' (grant external object (external object - 1)) o =
      outstanding s.handles external o := by
  obtain rfl | ho := eq_or_ne o object
  · rw [outstanding_grant_same, hfill.pointing_same,
      Set.ncard_insert_of_notMem hfill.notMem_pointing hfinite, outstanding]
    omega
  · rw [outstanding_grant_other _ _ ho, outstanding, hfill.pointing_other ho, outstanding]

lemma Counted.fill (h : Counted s external)
    (hfill : Filled s.handles s'.handles process object rights handle table i)
    (hobjects : s'.objects = s.objects) (hheld : 0 < external object) :
    Counted s' (grant external object (external object - 1)) := by
  refine ⟨?_, ?_, ?_⟩
  · intro o
    obtain rfl | ho := eq_or_ne o object
    · rw [hfill.pointing_same]
      exact (h.finite o).insert _
    · rw [hfill.pointing_other ho]
      exact h.finite o
  · intro o
    rw [hfill.outstanding_eq (h.finite object) hheld, hobjects]
    exact h.refcount o
  rw [hfill.after_eq]
  exact tables_update h.tables (count_fill (h.tables _ _ hfill.table_eq)
    hfill.slot_lt hfill.slot_free)

lemma Cleared.outstanding_eq (hclear : Cleared s.handles handles' process handle table entry)
    (hfinite : (pointing s.handles entry.object).Finite) (o : ℕ) :
    outstanding handles' (grant external entry.object (external entry.object + 1)) o =
      outstanding s.handles external o := by
  obtain rfl | ho := eq_or_ne o entry.object
  · have hpos : 0 < (pointing s.handles entry.object).ncard :=
      (Set.ncard_pos hfinite).mpr ⟨_, hclear.mem_pointing⟩
    rw [outstanding_grant_same, hclear.pointing_eq,
      Set.ncard_sdiff_singleton_of_mem hclear.mem_pointing, outstanding]
    omega
  · rw [outstanding_grant_other _ _ ho, outstanding, hclear.pointing_eq,
      Set.sdiff_singleton_eq_self (hclear.notMem_pointing ho), outstanding]

lemma Counted.clear (h : Counted s external)
    (hclear : Cleared s.handles s'.handles process handle table entry)
    (hobjects : s'.objects = s.objects) :
    Counted s' (grant external entry.object (external entry.object + 1)) := by
  refine ⟨?_, ?_, ?_⟩
  · intro o
    rw [hclear.pointing_eq]
    exact (h.finite o).sdiff
  · intro o
    rw [hclear.outstanding_eq (h.finite entry.object), hobjects]
    exact h.refcount o
  obtain ⟨hi, rfl, huse, -⟩ := resolve_some hclear.resolve_eq
  rw [hclear.after_eq]
  exact tables_update h.tables (count_clear (h.tables _ _ hclear.table_eq) hi huse)

lemma outstanding_freeTable (htable : s.handles process = some table)
    (hfinite : ∀ o, (pointing s.handles o).Finite) (o : ℕ) :
    outstanding (update s.handles process none)
        (fun o => external o + (table.slotsTo o).card) o =
      outstanding s.handles external o := by
  have hsplit := pointing_table (o := o) htable
  have hdisj : Disjoint (pointing (update s.handles process none) o)
      (Prod.mk process '' (table.slotsTo o : Set ℕ)) := by
    rw [Set.disjoint_right]
    rintro _ ⟨j, -, rfl⟩ ⟨t, ht, -⟩
    rw [update_self] at ht
    cases ht
  have hsub : pointing (update s.handles process none) o ⊆ pointing s.handles o := by
    rw [hsplit]
    exact Set.subset_union_left
  have hcard : (Prod.mk process '' (table.slotsTo o : Set ℕ)).ncard = (table.slotsTo o).card := by
    rw [Set.ncard_image_of_injective _ (Prod.mk_right_injective process), Set.ncard_coe_finset]
  have hncard : (pointing s.handles o).ncard =
      (pointing (update s.handles process none) o).ncard + (table.slotsTo o).card := by
    rw [hsplit, Set.ncard_union_eq hdisj ((hfinite o).subset hsub)
      ((table.slotsTo o).finite_toSet.image _), hcard]
  rw [outstanding, outstanding, hncard]
  omega

lemma Counted.freeTable (h : Counted s external) (htable : s.handles process = some table) :
    Counted { s with handles := update s.handles process none }
      (fun o => external o + (table.slotsTo o).card) := by
  refine ⟨?_, ?_, ?_⟩
  · intro o
    apply (h.finite o).subset
    rw [pointing_table htable]
    exact Set.subset_union_left
  · intro o
    dsimp only
    rw [outstanding_freeTable htable h.finite]
    exact h.refcount o
  intro p t ht
  dsimp only at ht
  obtain rfl | hp := eq_or_ne p process
  · rw [update_self] at ht
    cases ht
  · rw [update_of_ne hp] at ht
    exact h.tables p t ht

end KosKernel.Handle
