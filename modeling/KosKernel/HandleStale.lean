import KosKernel.HandleDerivation

/-! A closed handle stays dead as long as no slot closes the handle of its last generation;
after that the slot gives out its first handle again. -/
namespace KosKernel.Handle
open Runs Function HandleTable
variable {δ σ : Type*} (destroy : δ → ℕ → σ → σ)

/-- The system together with the handles that were closed, with the process that did. -/
structure Closing (δ σ : Type*) where
  system : HandleSystem δ σ
  closed : List (ℕ × BitVec 32)

open Closing

def Closing.step (c : Closing δ σ) : HandleCall → Closing δ σ
  | .create process object rights =>
    { c with system := (handleCreate c.system process object rights).2 }
  | .duplicate source destination handle newRights =>
    { c with system := (handleDuplicate destroy c.system source destination handle newRights).2 }
  | .close process handle =>
    match handleClose destroy c.system process handle with
    | (true, s) => ⟨s, (process, handle) :: c.closed⟩
    | (false, s) => { c with system := s }

def Closing.start (s : HandleSystem δ σ) : Closing δ σ := ⟨s, []⟩

def lastGeneration : BitVec 16 := 0xFFFF#16

def HandleCall.KeepsGeneration (s : HandleSystem δ σ) : HandleCall → Prop
  | .close process handle =>
    handleGen handle = lastGeneration → (s.handles process).bind (·.resolve handle) = none
  | _ => True

section
lemma le_issuedGeneration (entry : HandleEntry) :
    entry.generation.toNat ≤ (issuedGeneration entry).toNat := by
  unfold issuedGeneration
  split
  · rename_i h
    simp [h]
  · exact le_rfl

lemma nextGeneration_toNat {g : BitVec 16} (h : g ≠ lastGeneration) :
    (nextGeneration g).toNat = g.toNat + 1 := by
  have hlt : g.toNat < 2 ^ 16 - 1 := by
    by_contra hge
    apply h
    apply BitVec.eq_of_toNat_eq
    have := g.isLt
    have hlast : lastGeneration.toNat = 2 ^ 16 - 1 := rfl
    omega
  have hadd : (g + 1#16).toNat = g.toNat + 1 := by
    rw [BitVec.toNat_add]
    exact Nat.mod_eq_of_lt (by simpa using by omega)
  have hne : g + 1#16 ≠ 0#16 := by
    intro hzero
    rw [hzero] at hadd
    simp at hadd
  rw [nextGeneration, if_neg hne, hadd]

/-- The slot of each closed handle has moved on to a later generation. -/
def Closing.Outdated (c : Closing δ σ) : Prop :=
  ∀ process handle, (process, handle) ∈ c.closed → ∀ table, c.system.handles process = some table →
    (handleGen handle).toNat < (table.entries (handleIndex handle)).generation.toNat

variable {destroy} {c : Closing δ σ}

/-- Tables whose slots are at no earlier generation than before. -/
def GenerationsGrow (before after : ℕ → Option HandleTable) : Prop :=
  ∀ process table', after process = some table' → ∃ table, before process = some table ∧
    ∀ i, (table.entries i).generation.toNat ≤ (table'.entries i).generation.toNat

lemma generationsGrow_refl (handles : ℕ → Option HandleTable) : GenerationsGrow handles handles :=
  fun _ table h => ⟨table, h, fun _ => le_rfl⟩

variable {before after : ℕ → Option HandleTable} {process : ℕ} {table : HandleTable}
    {handle : BitVec 32}

lemma generationsGrow_update {table' : HandleTable} (htable : before process = some table)
    (hgrow : ∀ i, (table.entries i).generation.toNat ≤ (table'.entries i).generation.toNat) :
    GenerationsGrow before (update before process (some table')) := by
  intro p t ht
  obtain rfl | hp := eq_or_ne p process
  · rw [update_self] at ht
    cases ht
    exact ⟨table, htable, hgrow⟩
  · rw [update_of_ne hp] at ht
    exact ⟨t, ht, fun _ => le_rfl⟩

lemma Filled.grow {obj i : ℕ} {rights : BitVec 32}
    (h : Filled before after process obj rights handle table i) :
    GenerationsGrow before after := by
  rw [h.after_eq]
  apply generationsGrow_update h.table_eq
  intro j
  obtain rfl | hj := eq_or_ne j i
  · rw [fill_same]
    exact le_issuedGeneration _
  · rw [fill_other hj]

section
variable {entry : HandleEntry} (h : Cleared before after process handle table entry)
  (hlast : handleGen handle ≠ lastGeneration)
include h hlast

lemma Cleared.generation_lt :
    (handleGen handle).toNat <
      ((table.clear (handleIndex handle)).entries (handleIndex handle)).generation.toNat := by
  obtain ⟨-, rfl, -, hgen⟩ := resolve_some h.resolve_eq
  simp only [clear_same]
  rw [hgen, nextGeneration_toNat hlast]
  exact Nat.lt_succ_self _

lemma Cleared.grow : GenerationsGrow before after := by
  rw [h.after_eq]
  apply generationsGrow_update h.table_eq
  intro j
  by_cases hj : j = handleIndex handle
  · subst hj
    obtain ⟨-, rfl, -, hgen⟩ := resolve_some h.resolve_eq
    rw [hgen]
    exact (h.generation_lt hlast).le
  · rw [clear_other hj]

end

lemma Closing.Outdated.of_grow (h : c.Outdated) {s : HandleSystem δ σ}
    (hgrow : GenerationsGrow c.system.handles s.handles) : Closing.Outdated ⟨s, c.closed⟩ := by
  intro process handle hmem table' htable'
  obtain ⟨table, htable, hle⟩ := hgrow process table' htable'
  exact (h process handle hmem table htable).trans_le (hle _)

lemma Closing.Outdated.step (h : c.Outdated) {call : HandleCall}
    (hcall : call.KeepsGeneration c.system) : (c.step destroy call).Outdated := by
  cases call with
  | create process obj rights =>
    apply h.of_grow
    obtain hfail | ⟨table, i, hfill, -⟩ := handleCreate_cases (s := c.system) process obj rights
    · rw [hfail]
      exact generationsGrow_refl _
    · exact hfill.grow
  | duplicate src dest handle newRights =>
    apply h.of_grow
    obtain ⟨-, hsame⟩ | ⟨table, entry, target, i, -, hfill⟩ :=
      handleDuplicate_handles (s := c.system) destroy src dest handle newRights
    · rw [hsame]
      exact generationsGrow_refl _
    · exact hfill.grow
  | close process handle =>
    obtain hfail | ⟨table, entry, hclear, hdone⟩ :=
      handleClose_cases (s := c.system) destroy process handle
    · rw [Closing.step, hfail]
      exact h
    have hlast : handleGen handle ≠ lastGeneration := by
      intro hgen
      have hnone := hcall hgen
      rw [hclear.table_eq, Option.bind_some, hclear.resolve_eq] at hnone
      cases hnone
    have hold := h.of_grow (hclear.grow hlast)
    rw [hdone] at hclear hold
    rw [Closing.step, hdone]
    intro p x hmem t ht
    obtain heq | hmem := List.mem_cons.mp hmem
    · cases heq
      have ht' := ht
      dsimp only at ht'
      rw [hclear.after_eq, update_self] at ht'
      cases ht'
      exact hclear.generation_lt hlast
    · exact hold p x hmem t ht

end

theorem closed_handle_fails (hasTable : ℕ → Bool) (objects : ℕ → ObjectHeader δ) (env : σ)
    (calls : List HandleCall)
    (hcalls : Along (Closing.step destroy) (fun c call => call.KeepsGeneration c.system)
      (Closing.start (startSystem hasTable objects env)) calls) (process : ℕ) (handle : BitVec 32)
    (hclosed : (process, handle) ∈ (run (Closing.step destroy)
      (Closing.start (startSystem hasTable objects env)) calls).closed) (required : BitVec 32) :
    handleLookup (run (Closing.step destroy)
      (Closing.start (startSystem hasTable objects env)) calls).system process handle
        required = 0 := by
  have hstart : (start (startSystem hasTable objects env)).Outdated := by
    intro p h hmem
    cases hmem
  have hrun : Closing.Outdated (run (step destroy)
      (start (startSystem hasTable objects env)) calls) :=
    run_invariant (fun c call hc hcall => hc.step hcall) hstart calls hcalls
  by_contra hlookup
  obtain ⟨table, entry, htable, hentry, -, -⟩ := handleLookup_ne_zero hlookup
  obtain ⟨-, rfl, -, hgen⟩ := resolve_some hentry
  have hlt := hrun process handle hclosed table htable
  rw [hgen] at hlt
  exact lt_irrefl _ hlt

def unitStart : HandleSystem Unit Unit :=
  startSystem (fun _ => true) (fun _ => ⟨.event, 1#32, none⟩) ()

def keepEnv : Unit → ℕ → Unit → Unit := fun _ _ env => env

theorem closed_handle_fails_sample :
    handleLookup (run (Closing.step keepEnv) (Closing.start unitStart)
      [.create 1 4096 rightRead, .close 1 0x10000#32, .create 1 8192 rightRead]).system 1
        0x10000#32 rightRead = 0 := by
  have hcalls : Along (step keepEnv) (fun c call => call.KeepsGeneration c.system)
      (start unitStart)
      [.create 1 4096 rightRead, .close 1 0x10000#32, .create 1 8192 rightRead] := by
    refine ⟨trivial, ?_, trivial, trivial⟩
    intro hgen
    exact absurd hgen (by decide)
  exact closed_handle_fails keepEnv _ _ _ _ hcalls 1 0x10000#32 (by decide) rightRead

/-- The generation of a slot that was opened and closed so many times. -/
def slotGeneration (n : ℕ) : BitVec 16 := BitVec.ofNat 16 (n % 65535 + 1)

lemma slotGeneration_toNat (n : ℕ) : (slotGeneration n).toNat = n % 65535 + 1 := by
  rw [slotGeneration, BitVec.toNat_ofNat]
  omega

lemma slotGeneration_ne_zero (n : ℕ) : slotGeneration n ≠ 0#16 := by
  intro h
  have := congrArg BitVec.toNat h
  rw [slotGeneration_toNat] at this
  simp at this

lemma nextGeneration_slotGeneration (n : ℕ) :
    nextGeneration (slotGeneration n) = slotGeneration (n + 1) := by
  apply BitVec.eq_of_toNat_eq
  rw [slotGeneration_toNat]
  by_cases hlast : slotGeneration n = lastGeneration
  · have hn : n % 65535 = 65534 := by
      have := congrArg BitVec.toNat hlast
      rw [slotGeneration_toNat] at this
      have hval : lastGeneration.toNat = 65535 := rfl
      omega
    have hnext : (nextGeneration lastGeneration).toNat = 1 := rfl
    rw [hlast, hnext]
    omega
  · have hn : n % 65535 ≠ 65534 := by
      intro hn
      apply hlast
      rw [slotGeneration, hn]
      rfl
    rw [nextGeneration_toNat hlast, slotGeneration_toNat]
    omega

def reopenings (n : ℕ) : List HandleCall :=
  (List.range n).flatMap fun k =>
    [.create 1 4096 rightRead, .close 1 (makeHandle 0 (slotGeneration k))]

/-- The first slot is free at its next generation, and its first handle was closed. -/
structure Reopened (c : Closing Unit Unit) (n : ℕ) : Prop where
  slot : ∃ table, c.system.handles 1 = some table ∧
    table.entries 0 = ⟨0, rightNone, slotGeneration n, false⟩
  closed : 0 < n → (1, makeHandle 0 (slotGeneration 0)) ∈ c.closed

lemma freeSlot_zero {table : HandleTable} (h : (table.entries 0).inUse = false) :
    table.freeSlot = some 0 := by
  have hrange : List.range handleTableCapacity = 0 :: List.range' 1 63 := rfl
  rw [HandleTable.freeSlot, hrange, List.find?_cons, h]
  rfl

variable {c : Closing Unit Unit}

lemma Reopened.create {n : ℕ} (h : Reopened c n) :
    ∃ table, (c.step keepEnv (.create 1 4096 rightRead)).system.handles 1 = some table ∧
      table.entries 0 = ⟨4096, rightRead, slotGeneration n, true⟩ := by
  obtain ⟨table, htable, hentry⟩ := h.slot
  have hfree : table.freeSlot = some 0 := freeSlot_zero (by rw [hentry])
  refine ⟨table.fill 0 4096 rightRead, ?_, ?_⟩
  · simp only [step, handleCreate, htable, hfree, setTable]
    rfl
  · rw [fill_same, hentry, issuedGeneration, if_neg (slotGeneration_ne_zero n)]

lemma resolve_zero {table : HandleTable} {g : BitVec 16} {entry : HandleEntry} (hg : g ≠ 0#16)
    (hentry : table.entries 0 = entry) (huse : entry.inUse = true) (hgen : entry.generation = g) :
    table.resolve (makeHandle 0 g) = some entry := by
  have hindex : handleIndex (makeHandle 0 g) = 0 := handleIndex_makeHandle (by decide) g
  have hsame : handleGen (makeHandle 0 g) = g := handleGen_makeHandle (by decide) g
  have hvalid : ¬(makeHandle 0 g = invalidHandle ∨ (0 : ℕ) ≥ handleTableCapacity) := by
    rintro (h | h)
    · exact makeHandle_ne_invalid (by decide) hg h
    · exact absurd h (by decide)
  rw [HandleTable.resolve, hindex, hsame, if_neg hvalid, hentry, huse, hgen]
  simp

lemma Reopened.reopen {n : ℕ} (h : Reopened c n) : Reopened (run (step keepEnv) c
      [.create 1 4096 rightRead, .close 1 (makeHandle 0 (slotGeneration n))]) (n + 1) := by
  obtain ⟨table, htable, hentry⟩ := h.create
  have hresolve := resolve_zero (slotGeneration_ne_zero n) hentry rfl rfl
  have hindex : handleIndex (makeHandle 0 (slotGeneration n)) = 0 :=
    handleIndex_makeHandle (by decide) _
  constructor
  · refine ⟨table.clear 0, ?_, ?_⟩
    · simp only [run, List.foldl_cons, List.foldl_nil]
      generalize c.step keepEnv (.create 1 4096 rightRead) = c' at htable
      simp only [step, handleClose, htable, hresolve, kosObjectUnref_handles, setTable,
        hindex, update_self]
    · rw [clear_same, hentry, nextGeneration_slotGeneration]
  intro _
  have hclosed : (c.step keepEnv (.create 1 4096 rightRead)).closed = c.closed := rfl
  simp only [run, List.foldl_cons, List.foldl_nil]
  generalize c.step keepEnv (.create 1 4096 rightRead) = c' at htable hclosed
  simp only [step, handleClose, htable, hresolve, hclosed, List.mem_cons]
  obtain rfl | hn := eq_or_ne n 0
  · exact .inl rfl
  · exact .inr (h.closed (Nat.pos_of_ne_zero hn))

lemma reopenings_reopened (n : ℕ) :
    Reopened (run (step keepEnv) (start unitStart) (reopenings n)) n := by
  induction n with
  | zero => exact ⟨⟨handleTableCreate, rfl, rfl⟩, fun h => absurd h (lt_irrefl 0)⟩
  | succ n ih =>
    have happend : reopenings (n + 1) = reopenings n ++
        [.create 1 4096 rightRead, .close 1 (makeHandle 0 (slotGeneration n))] := by
      simp [reopenings, List.range_succ]
    rw [happend, run, List.foldl_append]
    exact ih.reopen

lemma Reopened.resolves_again {n : ℕ} (h : Reopened c n) (hpos : 0 < n)
    (hwrap : slotGeneration n = slotGeneration 0) :
    (1, 0x10000#32) ∈ (c.step keepEnv (.create 1 4096 rightRead)).closed ∧
      handleLookup (c.step keepEnv (.create 1 4096 rightRead)).system 1 0x10000#32 rightRead =
        4096 := by
  have hhandle : makeHandle 0 (slotGeneration 0) = 0x10000#32 := by decide
  obtain ⟨table, htable, hentry⟩ := h.create
  have hresolve := resolve_zero (slotGeneration_ne_zero n) hentry rfl rfl
  rw [hwrap, hhandle] at hresolve
  refine ⟨?_, ?_⟩
  · rw [← hhandle]
    exact h.closed hpos
  · simp only [handleLookup, htable, hresolve]
    decide

/-- After 65535 closes the first handle of the slot, closed first of all, resolves again. -/
theorem closed_handle_resolves_again :
    let c := run (Closing.step keepEnv) (Closing.start unitStart)
      (reopenings 65535 ++ [.create 1 4096 rightRead])
    (1, 0x10000#32) ∈ c.closed ∧ handleLookup c.system 1 0x10000#32 rightRead = 4096 := by
  have hwrap : slotGeneration 65535 = slotGeneration 0 := by decide
  have h := (reopenings_reopened 65535).resolves_again (by decide) hwrap
  rw [run, List.foldl_append]
  exact h

end KosKernel.Handle
