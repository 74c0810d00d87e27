import KosKernel.HandleCounting
import KosKernel.Runs

/-! Along any balanced sequence of calls the reference counts are exact, and the destructor of
an object runs in the very call that drops its last reference. -/
namespace KosKernel.Handle
open Runs Function List Set
variable {δ : Type*}

def logDestroy : δ → ℕ → List ℕ → List ℕ := fun _ object log => object :: log

inductive ObjectCall (δ : Type*)
  | init (object : ℕ) (type : ObjectType) (destructor : Option δ)
  | ref (object : ℕ)
  | unref (object : ℕ)
  | createTable (process : ℕ)
  | create (process object : ℕ) (rights : BitVec 32)
  | duplicate (source destination : ℕ) (handle newRights : BitVec 32)
  | close (process : ℕ) (handle : BitVec 32)
  | destroyTable (process : ℕ)
  deriving DecidableEq

/-- The system together with the references that external holders have to each object. -/
structure Holders (δ : Type*) where
  system : HandleSystem δ (List ℕ)
  external : ℕ → ℕ

open Holders

noncomputable def Holders.outstanding (x : Holders δ) (object : ℕ) : ℕ :=
  Handle.outstanding x.system.handles x.external object

def Holders.step (x : Holders δ) : ObjectCall δ → Holders δ
  | .init object type destructor =>
    ⟨kosObjectInit x.system object type destructor, grant x.external object 1⟩
  | .ref object => ⟨kosObjectRef x.system object, grant x.external object (x.external object + 1)⟩
  | .unref object =>
    ⟨kosObjectUnref logDestroy x.system object, grant x.external object (x.external object - 1)⟩
  | .createTable process => ⟨setTable x.system process handleTableCreate, x.external⟩
  | .create process object rights => ⟨(handleCreate x.system process object rights).2, x.external⟩
  | .duplicate source destination handle newRights =>
    ⟨(handleDuplicate logDestroy x.system source destination handle newRights).2, x.external⟩
  | .close process handle => ⟨(handleClose logDestroy x.system process handle).2, x.external⟩
  | .destroyTable process => ⟨handleTableDestroy logDestroy x.system process, x.external⟩

/-- Objects are initialised in fresh memory, and used only while somebody holds a reference;
a holder gives back only what it holds. -/
def ObjectCall.Balanced (x : Holders δ) : ObjectCall δ → Prop
  | .init object _ _ => object ≠ 0 ∧ x.outstanding object = 0
  | .ref object => 0 < x.outstanding object
  | .unref object => 0 < x.external object
  | .createTable process => x.system.handles process = none
  | .create _ object _ => object = 0 ∨ 0 < x.outstanding object
  | _ => True

def Holders.Small (x : Holders δ) : Prop := ∀ object, x.outstanding object < 2 ^ 31

section
/-- From one state to the next, the destructor of an object runs once if its last reference is
dropped, and not otherwise. -/
structure Tracks (x y : Holders δ) : Prop where
  dead : ∀ o, x.outstanding o = 0 → y.outstanding o = 0
  destructor : ∀ o, (y.system.objects o).destructor = (x.system.objects o).destructor
  runs : ∀ o, y.system.env.count o = x.system.env.count o +
    if 0 < x.outstanding o ∧ y.outstanding o = 0 ∧ (x.system.objects o).destructor.isSome then 1
    else 0

variable {x y z : Holders δ}

lemma Tracks.of_alive (hout : ∀ o, x.outstanding o = 0 ↔ y.outstanding o = 0)
    (hdestructor : ∀ o, (y.system.objects o).destructor = (x.system.objects o).destructor)
    (henv : y.system.env = x.system.env) : Tracks x y := by
  refine ⟨fun o => (hout o).mp, hdestructor, ?_⟩
  intro o
  rw [henv, if_neg]
  · rfl
  · rintro ⟨hpos, hzero, -⟩
    exact hpos.ne' ((hout o).mpr hzero)

lemma Tracks.refl (x : Holders δ) : Tracks x x := of_alive (fun _ => Iff.rfl) (fun _ => rfl) rfl

lemma Tracks.trans (h : Tracks x y) (h' : Tracks y z) : Tracks x z := by
  refine ⟨fun o ho => h'.dead o (h.dead o ho), fun o => (h'.destructor o).trans (h.destructor o), ?_⟩
  intro o
  rw [h'.runs, h.runs, h.destructor, add_assoc]
  congr 1
  -- the last reference goes in the first part, in the second, or not at all
  by_cases hx : 0 < x.outstanding o
  · by_cases hy : 0 < y.outstanding o
    · simp [hx, hy, hy.ne']
    · have hy0 : y.outstanding o = 0 := Nat.eq_zero_of_not_pos hy
      simp [hx, hy0, h'.dead o hy0]
  have hx0 : x.outstanding o = 0 := Nat.eq_zero_of_not_pos hx
  have hy0 : y.outstanding o = 0 := h.dead o hx0
  simp [hx0, hy0]

section
variable (s : HandleSystem δ (List ℕ))
include s

@[simp] lemma kosObjectRef_env (o : ℕ) : (kosObjectRef s o).env = s.env := by
  unfold kosObjectRef
  split <;> rfl

@[simp] lemma kosObjectRef_destructor (o o' : ℕ) :
    ((kosObjectRef s o).objects o').destructor = (s.objects o').destructor := by
  unfold kosObjectRef
  split
  · rfl
  · exact addRefcount_destructor _ _

lemma runDestructor_env (o : ℕ) :
    (runDestructor logDestroy s o).env =
      if (s.objects o).destructor.isSome then o :: s.env else s.env := by
  unfold runDestructor
  cases hd : (s.objects o).destructor with
  | none => rfl
  | some d => rfl

end

lemma Tracks.unref (h : Counted x.system x.external) {o : ℕ} (hheld : 0 < x.external o)
    (hsmall : x.outstanding o < 2 ^ 32) : Tracks x (x.step (.unref o)) := by
  obtain ⟨-, heq⟩ := h.unref logDestroy hheld hsmall
  have hsame : (x.step (.unref o)).outstanding o = x.outstanding o - 1 := by
    simp only [Holders.outstanding, Holders.step, kosObjectUnref_handles, outstanding_grant_same]
    rw [Handle.outstanding]
    omega
  have hother : ∀ o', o' ≠ o → (x.step (.unref o)).outstanding o' = x.outstanding o' := by
    intro o' ho'
    simp only [Holders.outstanding, Holders.step, kosObjectUnref_handles]
    exact outstanding_grant_other _ _ ho'
  have hpos : 0 < x.outstanding o := Nat.add_pos_left hheld _
  refine ⟨?_, ?_, ?_⟩
  · intro o' hzero
    obtain rfl | ho' := eq_or_ne o' o
    · omega
    · rw [hother o' ho', hzero]
  · intro o'
    simp only [Holders.step, heq]
    split
    · rw [runDestructor_objects, addRefcount_destructor]
    · rw [addRefcount_destructor]
  intro o'
  have henv : (x.step (.unref o)).system.env =
      if x.outstanding o = 1 ∧ (x.system.objects o).destructor.isSome then o :: x.system.env
      else x.system.env := by
    simp only [Holders.step, heq]
    by_cases hone : Handle.outstanding x.system.handles x.external o = 1
    · rw [if_pos hone, runDestructor_env, addRefcount_destructor]
      simp only [Holders.outstanding, hone, true_and]
      rfl
    · rw [if_neg hone, if_neg (fun hc => hone hc.1)]
      rfl
  rw [henv]
  obtain rfl | ho' := eq_or_ne o' o
  · have hlast : (x.step (.unref o')).outstanding o' = 0 ↔ x.outstanding o' = 1 := by omega
    simp only [hlast, hpos, true_and]
    split <;> simp
  have hnone : ¬(0 < x.outstanding o' ∧ x.outstanding o' = 0 ∧
      (x.system.objects o').destructor.isSome = true) := by
    rintro ⟨hlive, hzero, -⟩
    exact hlive.ne' hzero
  rw [hother o' ho', if_neg hnone]
  split
  · exact count_cons_of_ne (Ne.symm ho')
  · rfl

end

section
variable {x : Holders δ} {o : ℕ}

lemma grant_grant (external : ℕ → ℕ) (o m n : ℕ) :
    grant (grant external o m) o n = grant external o n := by
  rw [grant, grant, update_idem]
  rfl

lemma grant_self (external : ℕ → ℕ) (o : ℕ) : grant external o (external o) = external :=
  update_eq_self o external

lemma grant_apply (external : ℕ → ℕ) (o n : ℕ) : grant external o n o = n := update_self ..

lemma outstanding_ref (x : Holders δ) (o o' : ℕ) :
    (x.step (.ref o)).outstanding o' = x.outstanding o' + if o' = o then 1 else 0 := by
  simp only [Holders.outstanding, Holders.step, kosObjectRef_handles]
  obtain rfl | ho' := eq_or_ne o' o
  · rw [outstanding_grant_same, Handle.outstanding, if_pos rfl]
    omega
  · rw [outstanding_grant_other _ _ ho', if_neg ho', add_zero]

lemma Tracks.ref (hlive : 0 < x.outstanding o) : Tracks x (x.step (.ref o)) := by
  apply of_alive
  · intro o'
    rw [outstanding_ref]
    obtain rfl | ho' := eq_or_ne o' o
    · omega
    · rw [if_neg ho', add_zero]
  · intro o'
    exact kosObjectRef_destructor _ _ _
  · exact kosObjectRef_env _ _

/-- A holder that has a reference to spare hands it to a new entry. -/
lemma create_held (h : Counted x.system x.external) (proc : ℕ) (rights : BitVec 32)
    (hlive : o = 0 ∨ 0 < x.outstanding o) :
    Counted (handleCreate x.system proc o rights).2 x.external ∧
      Tracks x (x.step (.create proc o rights)) ∧
      ∀ o', (x.step (.create proc o rights)).outstanding o' ≤ x.outstanding o' + 1 := by
  obtain hfail | ⟨table, i, hfill, heq⟩ := handleCreate_cases (s := x.system) proc o rights
  · simp only [step, hfail]
    exact ⟨h, Tracks.refl x, fun _ => Nat.le_succ _⟩
  have ho : o ≠ 0 := hfill.object_ne
  replace hlive : 0 < x.outstanding o := hlive.resolve_left ho
  -- the entry is filled first; it makes no difference to take the reference before
  have hcomm : (handleCreate x.system proc o rights).2 =
      setTable (kosObjectRef x.system o) proc (table.fill i o rights) := by
    rw [heq, kosObjectRef, if_neg ho, kosObjectRef, if_neg ho]
    rfl
  have hfill' : Filled (kosObjectRef x.system o).handles
      (handleCreate x.system proc o rights).2.handles proc o rights
      (handleCreate x.system proc o rights).1 table i := by
    rw [kosObjectRef_handles]
    exact hfill
  have hheld : 0 < grant x.external o (x.external o + 1) o := by
    rw [grant_apply]
    exact Nat.succ_pos _
  have hcount := (h.ref hlive).fill hfill' (by rw [hcomm]; rfl) hheld
  rw [grant_apply, Nat.add_sub_cancel, grant_grant, grant_self] at hcount
  have hout : ∀ o', (x.step (.create proc o rights)).outstanding o' =
      (x.step (.ref o)).outstanding o' := by
    intro o'
    have hout := hfill'.outstanding_eq ((h.ref hlive).finite o) hheld o'
    rw [grant_apply, Nat.add_sub_cancel, grant_grant, grant_self] at hout
    exact hout
  refine ⟨hcount, (Tracks.ref hlive).trans (Tracks.of_alive ?_ ?_ ?_), ?_⟩
  · intro o'
    rw [hout]
  · intro o'
    simp only [step, hcomm]
    rfl
  · simp only [step, hcomm]
    rfl
  intro o'
  rw [hout, outstanding_ref]
  split <;> omega

lemma Duplicable.live {src : ℕ} {handle newRights : BitVec 32} {table : HandleTable}
    {entry : HandleEntry} (hdup : Duplicable x.system src handle newRights table entry)
    (h : Counted x.system x.external) : 0 < x.outstanding entry.object := by
  obtain ⟨hi, rfl, huse, -⟩ := HandleTable.resolve_some hdup.resolve_eq
  have hmem : (src, handleIndex handle) ∈
      pointing x.system.handles (table.entries (handleIndex handle)).object :=
    ⟨table, hdup.table_eq, hi, huse, rfl⟩
  exact Nat.add_pos_right _ ((ncard_pos (h.finite _)).mpr ⟨_, hmem⟩)

section
variable (h : Counted x.system x.external) (hsmall : x.Small)
include h hsmall

lemma duplicate_held (src dest : ℕ) (handle newRights : BitVec 32) :
    Counted (x.step (.duplicate src dest handle newRights)).system x.external ∧
      Tracks x (x.step (.duplicate src dest handle newRights)) := by
  obtain hfail | ⟨table, entry, hdup, heq⟩ := handleDuplicate_cases (s := x.system) logDestroy
    src dest handle newRights
  · simp only [step, hfail]
    exact ⟨h, Tracks.refl x⟩
  have hlive := hdup.live h
  -- the temporary reference, the new handle, and the temporary reference given back
  have href := h.ref hlive
  have hgrown : (x.step (.ref entry.object)).outstanding entry.object =
      x.outstanding entry.object + 1 := by
    rw [outstanding_ref, if_pos rfl]
  have hlive' : 0 < (x.step (.ref entry.object)).outstanding entry.object := by
    rw [hgrown]
    exact Nat.succ_pos _
  obtain ⟨hcreate, htracks, hle⟩ := create_held (x := x.step (.ref entry.object)) href dest
    (targetRights newRights entry.rights) (Or.inr hlive')
  have hbound : ((x.step (.ref entry.object)).step (.create dest entry.object
      (targetRights newRights entry.rights))).outstanding entry.object < 2 ^ 32 := by
    have h1 := hle entry.object
    have h2 := hsmall entry.object
    omega
  have hheld : 0 < ((x.step (.ref entry.object)).step (.create dest entry.object
      (targetRights newRights entry.rights))).external entry.object := by
    simp only [step, grant_apply]
    exact Nat.succ_pos _
  have hunref := (hcreate.unref logDestroy hheld hbound).1
  have htracks' := Tracks.unref hcreate hheld hbound
  have hstep : ((x.step (.ref entry.object)).step (.create dest entry.object
      (targetRights newRights entry.rights))).step (.unref entry.object) =
      x.step (.duplicate src dest handle newRights) := by
    simp only [step, heq, grant_apply, Nat.add_sub_cancel, grant_grant, grant_self]
  rw [hstep] at htracks'
  refine ⟨?_, ((Tracks.ref hlive).trans htracks).trans htracks'⟩
  simp only [step, grant_apply, Nat.add_sub_cancel, grant_grant, grant_self] at hunref
  simp only [step, heq]
  exact hunref

lemma close_held (proc : ℕ) (handle : BitVec 32) :
    Counted (x.step (.close proc handle)).system x.external ∧
      Tracks x (x.step (.close proc handle)) := by
  obtain hfail | ⟨table, entry, hclear, heq⟩ := handleClose_cases (s := x.system) logDestroy
    proc handle
  · simp only [step, hfail]
    exact ⟨h, Tracks.refl x⟩
  let y : Holders δ := ⟨setTable x.system proc (table.clear (handleIndex handle)),
    grant x.external entry.object (x.external entry.object + 1)⟩
  have hclear' : Cleared x.system.handles y.system.handles proc handle table entry :=
    ⟨hclear.table_eq, hclear.resolve_eq, rfl⟩
  have hy : Counted y.system y.external := h.clear hclear' rfl
  have hout : ∀ o, y.outstanding o = x.outstanding o :=
    fun o => hclear'.outstanding_eq (h.finite entry.object) o
  have hheld : 0 < y.external entry.object := by
    simp only [y, grant_apply]
    exact Nat.succ_pos _
  have hbound : y.outstanding entry.object < 2 ^ 32 := by
    rw [hout]
    exact (hsmall _).trans (by norm_num)
  have hunref := (hy.unref logDestroy hheld hbound).1
  have htracks := Tracks.unref hy hheld hbound
  have hstep : y.step (.unref entry.object) = x.step (.close proc handle) := by
    simp only [step, heq, y, grant_apply, Nat.add_sub_cancel, grant_grant, grant_self]
  rw [hstep] at htracks
  have hsame : Tracks x y := Tracks.of_alive (fun o => by rw [hout]) (fun _ => rfl) rfl
  refine ⟨?_, hsame.trans htracks⟩
  simp only [y, grant_apply, Nat.add_sub_cancel, grant_grant, grant_self] at hunref
  simp only [step, heq]
  exact hunref

end

lemma unref_all (objs : List ℕ) :
    ∀ {x : Holders δ}, Counted x.system x.external → (∀ o, x.outstanding o < 2 ^ 32) →
      (∀ o, objs.count o ≤ x.external o) →
      Counted (objs.foldl (kosObjectUnref logDestroy) x.system)
          (fun o => x.external o - objs.count o) ∧
        Tracks x ⟨objs.foldl (kosObjectUnref logDestroy) x.system,
          fun o => x.external o - objs.count o⟩ := by
  induction objs with
  | nil =>
    intro x h _ _
    exact ⟨h, Tracks.refl x⟩
  | cons o objs ih =>
    intro x h hsmall hheld
    have ho : 0 < x.external o := by
      have := hheld o
      rw [count_cons_self] at this
      omega
    have hrest : ∀ o', (x.step (.unref o)).external o' =
        x.external o' - if o' = o then 1 else 0 := by
      intro o'
      simp only [Holders.step, grant, update_apply]
      split
      · next heq => rw [heq]
      · rfl
    have hcount : ∀ o', (o :: objs).count o' = objs.count o' + if o' = o then 1 else 0 := by
      intro o'
      rw [count_cons]
      by_cases heq : o' = o
      · simp [heq]
      · simp [heq, Ne.symm heq]
    have hunref := (h.unref logDestroy ho (hsmall o)).1
    have htracks := Tracks.unref h ho (hsmall o)
    have hsmall' : ∀ o', (x.step (.unref o)).outstanding o' < 2 ^ 32 := by
      intro o'
      have hle : (x.step (.unref o)).outstanding o' ≤ x.outstanding o' := by
        simp only [Holders.outstanding, Handle.outstanding, hrest]
        simp only [Holders.step, kosObjectUnref_handles]
        omega
      exact hle.trans_lt (hsmall o')
    obtain ⟨hcounted, htracks'⟩ := ih (x := x.step (.unref o)) hunref hsmall' (by
      intro o'
      have := hheld o'
      rw [hcount] at this
      rw [hrest]
      omega)
    have hext : (fun o' => (x.step (.unref o)).external o' - objs.count o') =
        fun o' => x.external o' - (o :: objs).count o' := by
      funext o'
      rw [hrest, hcount]
      omega
    rw [hext] at hcounted htracks'
    exact ⟨hcounted, htracks.trans htracks'⟩

lemma destroyTable_held (h : Counted x.system x.external) (hsmall : x.Small) (proc : ℕ) :
    Counted (x.step (.destroyTable proc)).system x.external ∧
      Tracks x (x.step (.destroyTable proc)) := by
  cases htable : x.system.handles proc with
  | none =>
    simp only [Holders.step, handleTableDestroy, htable]
    exact ⟨h, Tracks.refl x⟩
  | some table =>
    let y : Holders δ := ⟨{ x.system with handles := update x.system.handles proc none },
      fun o => x.external o + (table.slotsTo o).card⟩
    have hy : Counted y.system y.external := h.freeTable htable
    have hout : ∀ o, y.outstanding o = x.outstanding o :=
      fun o => outstanding_freeTable htable h.finite o
    have hcount : ∀ o, table.objects.count o = (table.slotsTo o).card := by
      intro o
      by_cases ho : o = 0
      · -- no entry in use points to null
        have hzero : ¬0 < y.outstanding o := fun hpos => (hy.refcount o hpos).1 ho
        have hslots : (table.slotsTo o).card = 0 := by
          simp only [Holders.outstanding, Handle.outstanding, y] at hzero
          omega
        rw [hslots, count_eq_zero]
        subst ho
        simp [HandleTable.objects]
      · exact count_objects ho
    obtain ⟨hcounted, htracks⟩ := unref_all (x := y) table.objects hy
      (fun o => by rw [hout]; exact (hsmall o).trans (by norm_num))
      (fun o => by rw [hcount]; exact Nat.le_add_left _ _)
    have hext : (fun o => y.external o - table.objects.count o) = x.external := by
      funext o
      rw [hcount]
      exact Nat.add_sub_cancel _ _
    rw [hext] at hcounted htracks
    have hstep : x.step (.destroyTable proc) =
        ⟨table.objects.foldl (kosObjectUnref logDestroy) y.system, x.external⟩ := by
      simp only [Holders.step, handleTableDestroy, htable, y]
    have hsame : Tracks x y := Tracks.of_alive (fun o => by rw [hout]) (fun _ => rfl) rfl
    rw [hstep]
    exact ⟨hcounted, hsame.trans htracks⟩

end

section
variable {x : Holders δ}

lemma init_held (h : Counted x.system x.external) {o : ℕ} (ho : o ≠ 0)
    (hdead : x.outstanding o = 0) (type : ObjectType) (dtor : Option δ) :
    Counted (x.step (.init o type dtor)).system (x.step (.init o type dtor)).external := by
  have hzero : (pointing x.system.handles o).ncard = 0 := by
    simp only [Holders.outstanding, Handle.outstanding] at hdead
    omega
  have hinit : kosObjectInit x.system o type dtor = { x.system with
      objects := update x.system.objects o ⟨type, 1#32, dtor⟩ } :=
    if_neg ho
  simp only [Holders.step, hinit]
  refine ⟨h.finite, ?_, h.tables⟩
  intro o' hpos
  dsimp only at hpos ⊢
  obtain rfl | ho' := eq_or_ne o' o
  · rw [outstanding_grant_same, hzero, update_self]
    exact ⟨ho, rfl⟩
  rw [outstanding_grant_other _ _ ho'] at hpos ⊢
  rw [update_of_ne ho']
  exact h.refcount o' hpos

section
variable {handles : ℕ → Option HandleTable} {proc : ℕ} (hnone : handles proc = none)
include hnone

lemma pointing_createTable (o : ℕ) :
    pointing (update handles proc (some handleTableCreate)) o = pointing handles o := by
  ext ⟨p, j⟩
  rw [mem_pointing_update]
  obtain rfl | hp := eq_or_ne p proc
  · simp [pointing, hnone, handleTableCreate, freshEntry]
  · simp [hp]

lemma outstanding_createTable (external : ℕ → ℕ) (o : ℕ) :
    outstanding (update handles proc (some handleTableCreate)) external o =
      outstanding handles external o := by
  rw [outstanding, pointing_createTable hnone, outstanding]

end

lemma createTable_used : handleTableCreate.used.card = 0 := by
  simp [HandleTable.used, handleTableCreate, freshEntry]

lemma createTable_held (h : Counted x.system x.external) {proc : ℕ}
    (hnone : x.system.handles proc = none) :
    Counted (setTable x.system proc handleTableCreate) x.external := by
  refine ⟨?_, ?_, ?_⟩
  · intro o
    simp only [setTable]
    rw [pointing_createTable hnone]
    exact h.finite o
  · intro o
    simp only [setTable]
    rw [outstanding_createTable hnone]
    exact h.refcount o
  · exact tables_update h.tables createTable_used.symm

section
variable {call : ObjectCall δ} (h : Counted x.system x.external) (hcall : call.Balanced x)
  (hsmall : x.Small)
include h hcall hsmall

lemma Holders.counted_step : Counted (x.step call).system (x.step call).external := by
  cases call with
  | init o type dtor => exact init_held h hcall.1 hcall.2 type dtor
  | ref o => exact h.ref hcall
  | unref o => exact (h.unref logDestroy hcall ((hsmall o).trans (by norm_num))).1
  | createTable proc => exact createTable_held h hcall
  | create proc o rights => exact (create_held h proc rights hcall).1
  | duplicate src dest handle newRights =>
    exact (duplicate_held h hsmall src dest handle newRights).1
  | close proc handle => exact (close_held h hsmall proc handle).1
  | destroyTable proc => exact (destroyTable_held h hsmall proc).1

/-- The destructor of an object runs once in the call that drops its last reference. -/
lemma Holders.runs_step (o : ℕ) :
    (x.step call).system.env.count o = x.system.env.count o +
      if 0 < x.outstanding o ∧ (x.step call).outstanding o = 0 ∧
        (x.system.objects o).destructor.isSome then 1 else 0 := by
  cases call with
  | init o' type dtor =>
    have hinit : kosObjectInit x.system o' type dtor = { x.system with
        objects := update x.system.objects o' ⟨type, 1#32, dtor⟩ } :=
      if_neg hcall.1
    rw [if_neg]
    · simp only [step, hinit, Nat.add_zero]
    rintro ⟨hpos, hzero, -⟩
    simp only [outstanding, step, hinit] at hpos hzero
    obtain rfl | ho := eq_or_ne o o'
    · rw [outstanding_grant_same] at hzero
      omega
    · rw [outstanding_grant_other _ _ ho] at hzero
      omega
  | ref o' => exact (Tracks.ref hcall).runs o
  | unref o' => exact (Tracks.unref h hcall ((hsmall o').trans (by norm_num))).runs o
  | createTable proc =>
    have hsame : Tracks x (x.step (.createTable proc)) := by
      refine Tracks.of_alive ?_ (fun _ => rfl) rfl
      intro o'
      simp only [outstanding, step, setTable]
      rw [outstanding_createTable hcall]
    exact hsame.runs o
  | create proc o' rights => exact (create_held h proc rights hcall).2.1.runs o
  | duplicate src dest handle newRights =>
    exact (duplicate_held h hsmall src dest handle newRights).2.runs o
  | close proc handle => exact (close_held h hsmall proc handle).2.runs o
  | destroyTable proc => exact (destroyTable_held h hsmall proc).2.runs o

end

lemma duplicate_fails (destroy : δ → ℕ → List ℕ → List ℕ) (s : HandleSystem δ (List ℕ))
    (src dest : ℕ) (handle newRights : BitVec 32)
    (hfail : (handleDuplicate destroy s src dest handle newRights).1 = invalidHandle)
    (o : ℕ) :
    ((handleDuplicate destroy s src dest handle newRights).2.objects o).refcount =
      (s.objects o).refcount := by
  obtain heq | ⟨table, entry, hdup, heq⟩ := handleDuplicate_cases (s := s) destroy
    src dest handle newRights
  · rw [heq]
  rw [heq] at hfail ⊢
  obtain hcreate | ⟨target, i, hfill, -⟩ := handleCreate_cases (s := kosObjectRef s entry.object)
    dest entry.object (targetRights newRights entry.rights)
  · have hobjects : (kosObjectUnref destroy (kosObjectRef s entry.object)
        entry.object).objects = (addRefcount (addRefcount s entry.object 1#32) entry.object
          (-1#32)).objects := by
      rw [kosObjectRef, if_neg hdup.object_ne, kosObjectUnref, if_neg hdup.object_ne]
      split
      · exact runDestructor_objects destroy
      · rfl
    rw [hcreate]
    dsimp only
    rw [hobjects]
    obtain rfl | ho := eq_or_ne o entry.object
    · rw [addRefcount_same, addRefcount_same, BitVec.add_assoc, BitVec.add_right_neg,
        BitVec.add_zero]
    · rw [addRefcount_other _ ho, addRefcount_other _ ho]
  · exact absurd hfail hfill.handle_ne

end

/-- The counters of a state, and what the next call does with them. -/
structure Holders.Exact (x : Holders δ) : Prop where
  refcount : ∀ o, 0 < x.outstanding o → kosObjectGetRefcount x.system o = x.outstanding o
  tables : ∀ process table, x.system.handles process = some table →
    table.count = table.used.card
  destructor : ∀ call : ObjectCall δ, call.Balanced x → ∀ o,
    (x.step call).system.env.count o = x.system.env.count o +
      if 0 < x.outstanding o ∧ (x.step call).outstanding o = 0 ∧
        (x.system.objects o).destructor.isSome then 1 else 0
  create_fails : ∀ process object rights,
    (handleCreate x.system process object rights).1 = invalidHandle → ∀ o,
      ((handleCreate x.system process object rights).2.objects o).refcount =
        (x.system.objects o).refcount
  duplicate_fails : ∀ source destination handle newRights,
    (handleDuplicate logDestroy x.system source destination handle newRights).1 =
        invalidHandle → ∀ o,
      ((handleDuplicate logDestroy x.system source destination handle newRights).2.objects
        o).refcount = (x.system.objects o).refcount

lemma Counted.exact {x : Holders δ} (h : Counted x.system x.external) (hsmall : x.Small) :
    x.Exact := by
  refine ⟨?_, h.tables, fun call hcall o => runs_step h hcall hsmall o, ?_,
    duplicate_fails logDestroy x.system⟩
  · intro o hpos
    obtain ⟨ho, hcount⟩ := h.refcount o hpos
    have hlt : Handle.outstanding x.system.handles x.external o < 2 ^ 31 := hsmall o
    rw [kosObjectGetRefcount, if_neg ho, hcount, BitVec.toInt_eq_toNat_of_lt, BitVec.toNat_ofNat,
      Nat.mod_eq_of_lt (by omega)]
    · rfl
    · rw [BitVec.toNat_ofNat]
      omega
  · intro proc obj rights hfail o
    obtain heq | ⟨table, i, hfill, -⟩ := handleCreate_cases (s := x.system) proc obj rights
    · rw [heq]
    · exact absurd hfail hfill.handle_ne

def Holders.start (hasTable : ℕ → Bool) (objects : ℕ → ObjectHeader δ) : Holders δ where
  system :=
    { handles process := if hasTable process then some handleTableCreate else none
      objects := objects
      env := [] }
  external _ := 0

lemma Holders.start_counted (hasTable : ℕ → Bool) (objs : ℕ → ObjectHeader δ) :
    Counted (start hasTable objs).system (start hasTable objs).external := by
  have htable : ∀ proc table, (start hasTable objs).system.handles proc =
      some table → table = handleTableCreate := by
    intro proc table h
    simp only [start] at h
    split at h
    · exact (Option.some.inj h).symm
    · cases h
  have hempty : ∀ o, pointing (start hasTable objs).system.handles o = ∅ := by
    intro o
    rw [eq_empty_iff_forall_notMem]
    rintro x ⟨table, ht, -, huse, -⟩
    rw [htable _ _ ht] at huse
    cases huse
  refine ⟨fun o => by rw [hempty]; exact finite_empty, ?_, ?_⟩
  · intro o hpos
    rw [Handle.outstanding, hempty, ncard_empty] at hpos
    exact absurd hpos (lt_irrefl 0)
  intro proc table h
  rw [htable _ _ h, createTable_used]
  rfl

def CountedHolders (x : Holders δ) : Prop := Counted x.system x.external

theorem reference_counting_exact (hasTable : ℕ → Bool) (objects : ℕ → ObjectHeader δ)
    (calls : List (ObjectCall δ))
    (hcalls : Along Holders.step (fun x call => call.Balanced x ∧ x.Small)
      (Holders.start hasTable objects) calls)
    (hsmall : (run Holders.step (Holders.start hasTable objects) calls).Small) :
    (run Holders.step (Holders.start hasTable objects) calls).Exact := by
  have hstart : CountedHolders (start hasTable objects) := start_counted hasTable objects
  have hcounted : CountedHolders (run step (start hasTable objects) calls) :=
    run_invariant (fun x call hx hcall => x.counted_step hx hcall.1 hcall.2) hstart calls hcalls
  exact Counted.exact hcounted hsmall

def unitHolders : Holders Unit := Holders.start (fun _ => true) fun _ => ⟨.none, 0#32, none⟩

def manyRefs (n : ℕ) : List (ObjectCall Unit) :=
  .init 4096 .event none :: List.replicate n (.ref 4096)

structure Referenced (x : Holders Unit) (n : ℕ) : Prop where
  handles : x.system.handles = fun _ => some handleTableCreate
  external : x.external = grant (fun _ => 0) 4096 n
  refcount : (x.system.objects 4096).refcount = BitVec.ofNat 32 n

lemma pointing_fresh (o : ℕ) : pointing (fun _ => some handleTableCreate) o = ∅ := by
  rw [eq_empty_iff_forall_notMem]
  rintro x ⟨table, ht, -, huse, -⟩
  cases ht
  cases huse

variable {x : Holders Unit} {n : ℕ}

lemma Referenced.outstanding_eq (h : Referenced x n) (o : ℕ) :
    x.outstanding o = if o = 4096 then n else 0 := by
  rw [Holders.outstanding, outstanding, h.handles, pointing_fresh, ncard_empty, h.external,
    grant, update_apply]
  rfl

lemma Referenced.ref (h : Referenced x n) : Referenced (x.step (.ref 4096)) (n + 1) := by
  refine ⟨?_, ?_, ?_⟩
  · rw [← h.handles]
    exact kosObjectRef_handles
  · simp only [step, h.external, grant_grant, grant_apply]
  have href : (kosObjectRef x.system 4096).objects 4096 =
      (addRefcount x.system 4096 1#32).objects 4096 := rfl
  simp only [step, href, addRefcount_same, h.refcount, BitVec.ofNat_add]

lemma Referenced.init : Referenced (unitHolders.step (.init 4096 .event none)) 1 := ⟨rfl, rfl, rfl⟩

lemma Referenced.refs (k : ℕ) (h : Referenced x n) :
    Referenced (run step x (List.replicate k (.ref 4096))) (n + k) := by
  induction k generalizing x n with
  | zero => exact h
  | succ k ih =>
    have := ih h.ref
    rw [add_right_comm] at this
    exact this

variable {cond : Holders Unit → ObjectCall Unit → Prop}

lemma Referenced.along {bound : ℕ}
    (hcond : ∀ x n, Referenced x n → 0 < n → n < bound → cond x (.ref 4096)) (k : ℕ)
    (h : Referenced x n) (hpos : 0 < n) (hbound : n + k ≤ bound) :
    Along step cond x (List.replicate k (.ref 4096)) := by
  induction k generalizing x n with
  | zero => trivial
  | succ k ih => exact ⟨hcond x n h hpos (by omega), ih h.ref (Nat.succ_pos n) (by omega)⟩

lemma Referenced.balanced (h : Referenced x n) (hpos : 0 < n) :
    ObjectCall.Balanced x (.ref 4096) := by
  rw [ObjectCall.Balanced, h.outstanding_eq]
  exact hpos

lemma Referenced.small (h : Referenced x n) (hn : n < 2 ^ 31) : x.Small := by
  intro o
  rw [h.outstanding_eq]
  split
  · exact hn
  · norm_num

lemma unitHolders_outstanding (o : ℕ) : unitHolders.outstanding o = 0 := by
  have hhandles : unitHolders.system.handles = fun _ => some handleTableCreate := rfl
  rw [Holders.outstanding, outstanding, hhandles, pointing_fresh, ncard_empty]
  rfl

lemma manyRefs_referenced (n : ℕ) :
    Referenced (run step unitHolders (manyRefs n)) (1 + n) :=
  Referenced.init.refs n

lemma manyRefs_along (n : ℕ) (hinit : cond unitHolders (.init 4096 .event none))
    (hcond : ∀ x m, Referenced x m → 0 < m → m < 1 + n → cond x (.ref 4096)) :
    Along step cond unitHolders (manyRefs n) :=
  ⟨hinit, Referenced.along hcond n Referenced.init Nat.one_pos le_rfl⟩

lemma init_balanced : ObjectCall.Balanced unitHolders (.init 4096 .event none) :=
  ⟨by decide, unitHolders_outstanding 4096⟩

theorem reference_counting_exact_sample : (run Holders.step unitHolders (manyRefs 2)).Exact := by
  have hcalls : Along step (fun x call => call.Balanced x ∧ x.Small) unitHolders
      (manyRefs 2) := by
    apply manyRefs_along
    · refine ⟨init_balanced, fun o => ?_⟩
      rw [unitHolders_outstanding]
      norm_num
    · intro x n hx hpos hn
      exact ⟨hx.balanced hpos, hx.small (by omega)⟩
  exact reference_counting_exact _ _ (manyRefs 2) hcalls
    ((manyRefs_referenced 2).small (by norm_num))

/-- With 2^31 references outstanding the counter reads as a negative number. -/
theorem refcount_overflows :
    Along Holders.step (fun x call => call.Balanced x) unitHolders (manyRefs (2 ^ 31 - 1)) ∧
    (run Holders.step unitHolders (manyRefs (2 ^ 31 - 1))).outstanding 4096 = 2 ^ 31 ∧
    kosObjectGetRefcount (run Holders.step unitHolders (manyRefs (2 ^ 31 - 1))).system 4096 =
      -2 ^ 31 := by
  have hfinal := manyRefs_referenced (2 ^ 31 - 1)
  refine ⟨?_, ?_, ?_⟩
  · apply manyRefs_along
    · exact init_balanced
    · intro x n hx hpos _
      exact hx.balanced hpos
  · rw [hfinal.outstanding_eq]
    norm_num
  · rw [kosObjectGetRefcount, hfinal.refcount]
    decide

end KosKernel.Handle
