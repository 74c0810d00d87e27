import KosKernel.HandleTables
import KosKernel.Runs

/-! Along any sequence of calls, a handle that stems from another by duplications carries no
right that the other lacks. -/
namespace KosKernel.Handle
open Runs Function
variable {δ σ : Type*} (destroy : δ → ℕ → σ → σ)

inductive HandleCall
  | create (process object : ℕ) (rights : BitVec 32)
  | duplicate (source destination : ℕ) (handle newRights : BitVec 32)
  | close (process : ℕ) (handle : BitVec 32)
  deriving DecidableEq

/-- One handle that was given out. The origin of a duplicate is the grant it was made from,
with the rights that the source entry had when it was duplicated. -/
structure Grant where
  process : ℕ
  handle : BitVec 32
  rights : BitVec 32
  origin : Option (ℕ × BitVec 32)
  deriving DecidableEq

/-- The system together with all grants so far and the grant that each slot in use holds. -/
structure Derivation (δ σ : Type*) where
  system : HandleSystem δ σ
  grants : List Grant
  holder : ℕ → ℕ → Option ℕ

def rightsOf (s : HandleSystem δ σ) (process : ℕ) (handle : BitVec 32) : BitVec 32 :=
  match s.handles process with
  | none => rightNone
  | some table => (table.entries (handleIndex handle)).rights

/-- The rights of a grant are those that its entry has in the tables. -/
def Derivation.record (d : Derivation δ σ) (s : HandleSystem δ σ) (process : ℕ)
    (handle : BitVec 32) (origin : Option (ℕ × BitVec 32)) : Derivation δ σ :=
  if handle = invalidHandle then { d with system := s }
  else
    { system := s
      grants := d.grants ++ [⟨process, handle, rightsOf s process handle, origin⟩]
      holder := update d.holder process
        (update (d.holder process) (handleIndex handle) (some d.grants.length)) }

def Derivation.step (d : Derivation δ σ) : HandleCall → Derivation δ σ
  | .create process object rights =>
    match handleCreate d.system process object rights with
    | (handle, s) => d.record s process handle none
  | .duplicate source destination handle newRights =>
    match handleDuplicate destroy d.system source destination handle newRights with
    | (duplicate, s) =>
      d.record s destination duplicate
        ((d.holder source (handleIndex handle)).map fun k => (k, rightsOf d.system source handle))
  | .close process handle =>
    match handleClose destroy d.system process handle with
    | (_, s) => { d with system := s }

def startSystem (hasTable : ℕ → Bool) (objects : ℕ → ObjectHeader δ) (env : σ) :
    HandleSystem δ σ where
  handles process := if hasTable process then some handleTableCreate else none
  objects := objects
  env := env

def Derivation.start (s : HandleSystem δ σ) : Derivation δ σ := ⟨s, [], fun _ _ => none⟩

def DuplicateOf (grants : List Grant) (k parent : ℕ) : Prop :=
  ∃ g r, grants[k]? = some g ∧ g.origin = some (parent, r)

def OnChain (grants : List Grant) : ℕ → ℕ → Prop := Relation.ReflTransGen (DuplicateOf grants)

section
/-- What the source had when it was duplicated: the DUPLICATE right, and no fewer rights than
its duplicate. -/
structure DuplicationSound (grants : List Grant) : Prop where
  source : ∀ (k : ℕ) (g : Grant) (parent : ℕ) (r : BitVec 32), grants[k]? = some g →
    g.origin = some (parent, r) →
    ∃ source : Grant, grants[parent]? = some source ∧ source.rights = r ∧
      RightsLe rightDuplicate r ∧ RightsLe g.rights r

section
variable {grants : List Grant} (h : DuplicationSound grants)
include h

lemma DuplicationSound.rights_le {k a : ℕ} {g ga : Grant} (hk : grants[k]? = some g)
    (ha : grants[a]? = some ga) (hchain : OnChain grants k a) : RightsLe g.rights ga.rights := by
  induction hchain generalizing ga with
  | refl =>
    rw [hk] at ha
    cases ha
    exact RightsLe.refl _
  | tail _ hdup ih =>
    obtain ⟨gb, r, hb, horigin⟩ := hdup
    obtain ⟨src, hsrc, rfl, -, hle⟩ := h.source _ gb _ r hb horigin
    rw [hsrc] at ha
    cases ha
    exact (ih hb).trans hle

lemma DuplicationSound.append {g : Grant}
    (hg : ∀ parent r, g.origin = some (parent, r) → ∃ src, grants[parent]? = some src ∧ src.rights = r ∧ RightsLe rightDuplicate r ∧ RightsLe g.rights r) :
    DuplicationSound (grants ++ [g]) := by
  have hold : ∀ {k : ℕ} {x : Grant}, grants[k]? = some x → (grants ++ [g])[k]? = some x := by
    intro k x hx
    rw [List.getElem?_append_left (List.getElem?_eq_some_iff.mp hx).1, hx]
  constructor
  intro k x parent r hx horigin
  have hsrc : ∃ src, grants[parent]? = some src ∧ src.rights = r ∧
      RightsLe rightDuplicate r ∧ RightsLe x.rights r := by
    by_cases hk : k < grants.length
    · rw [List.getElem?_append_left hk] at hx
      exact h.source k x parent r hx horigin
    rw [List.getElem?_append_right (not_lt.mp hk), List.getElem?_singleton] at hx
    split at hx
    · cases hx
      exact hg parent r horigin
    · cases hx
  obtain ⟨src, hs, hrest⟩ := hsrc
  exact ⟨src, hold hs, hrest⟩

end

/-- Each slot in use holds the grant of the handle that resolves to it. -/
structure Derivation.Sound (d : Derivation δ σ) : Prop where
  held : ∀ process table i, d.system.handles process = some table → i < handleTableCapacity →
    (table.entries i).inUse = true →
    ∃ k g, d.holder process i = some k ∧ d.grants[k]? = some g ∧ g.process = process ∧
      g.handle = makeHandle i (table.entries i).generation ∧ g.rights = (table.entries i).rights
  duplications : DuplicationSound d.grants

variable {destroy} {d : Derivation δ σ}

lemma Derivation.Sound.start (hasTable : ℕ → Bool) (objs : ℕ → ObjectHeader δ) (env : σ) :
    (Derivation.start (startSystem hasTable objs env)).Sound := by
  constructor
  · intro process table i htable hi huse
    simp only [Derivation.start, startSystem] at htable
    split at htable
    · cases htable
      exact absurd huse (by simp [handleTableCreate, freshEntry])
    · cases htable
  constructor
  intro k g parent r hk
  simp [Derivation.start] at hk

variable {s : HandleSystem δ σ} {process : ℕ} {handle : BitVec 32} {table : HandleTable}

lemma Derivation.Sound.of_handles (h : d.Sound) (hs : s.handles = d.system.handles) :
    ({ d with system := s } : Derivation δ σ).Sound := by
  refine ⟨?_, h.duplications⟩
  simpa only [hs] using h.held

lemma rightsOf_filled {before : ℕ → Option HandleTable} {obj i : ℕ} {rights : BitVec 32}
    (hfill : Filled before s.handles process obj rights handle table i) :
    rightsOf s process handle = rights := by
  rw [rightsOf, hfill.after_eq, update_self, hfill.index_eq]
  simp

lemma Derivation.Sound.fill (h : d.Sound) {obj i : ℕ} {rights : BitVec 32}
    {origin : Option (ℕ × BitVec 32)}
    (hfill : Filled d.system.handles s.handles process obj rights handle table i)
    (horigin : ∀ parent r, origin = some (parent, r) →
      ∃ src, d.grants[parent]? = some src ∧ src.rights = r ∧
        RightsLe rightDuplicate r ∧ RightsLe rights r) :
    (d.record s process handle origin).Sound := by
  rw [Derivation.record, if_neg hfill.handle_ne]
  constructor
  · intro p t j ht hj huse
    dsimp only at ht ⊢
    rw [hfill.after_eq] at ht
    rw [hfill.index_eq]
    obtain rfl | hp := eq_or_ne p process
    · rw [update_self] at ht
      cases ht
      by_cases hij : j = i
      · -- the slot that was filled holds the new grant
        subst hij
        refine ⟨d.grants.length, ⟨p, handle, rightsOf s p handle, origin⟩, ?_, ?_, rfl, ?_, ?_⟩
        · rw [update_self, update_self]
        · simp
        · simpa using hfill.handle_eq
        · simpa using rightsOf_filled hfill
      · rw [HandleTable.fill_other hij] at huse ⊢
        obtain ⟨k, g, hk, hg, hrest⟩ := h.held p table j hfill.table_eq hj huse
        refine ⟨k, g, ?_, ?_, hrest⟩
        · rw [update_self, update_of_ne hij, hk]
        · rw [List.getElem?_append_left (List.getElem?_eq_some_iff.mp hg).1, hg]
    · rw [update_of_ne hp] at ht
      obtain ⟨k, g, hk, hg, hrest⟩ := h.held p t j ht hj huse
      refine ⟨k, g, ?_, ?_, hrest⟩
      · rw [update_of_ne hp, hk]
      · rw [List.getElem?_append_left (List.getElem?_eq_some_iff.mp hg).1, hg]
  · apply h.duplications.append
    intro parent r hr
    rw [rightsOf_filled hfill]
    exact horigin parent r hr

lemma Derivation.Sound.clear (h : d.Sound) {entry : HandleEntry}
    (hclear : Cleared d.system.handles s.handles process handle table entry) :
    ({ d with system := s } : Derivation δ σ).Sound := by
  refine ⟨?_, h.duplications⟩
  intro p t j ht hj huse
  dsimp only at ht ⊢
  rw [hclear.after_eq] at ht
  obtain rfl | hp := eq_or_ne p process
  · rw [update_self] at ht
    cases ht
    by_cases hij : j = handleIndex handle
    · subst hij
      simp at huse
    · rw [HandleTable.clear_other hij] at huse ⊢
      exact h.held p table j hclear.table_eq hj huse
  · rw [update_of_ne hp] at ht
    exact h.held p t j ht hj huse

lemma Derivation.Sound.source_grant (h : d.Sound) {newRights : BitVec 32} {entry : HandleEntry}
    (hdup : Duplicable d.system process handle newRights table entry) :
    ∃ k g, d.holder process (handleIndex handle) = some k ∧ d.grants[k]? = some g ∧
      g.rights = entry.rights ∧ rightsOf d.system process handle = entry.rights := by
  obtain ⟨hi, hentry, huse, -⟩ := HandleTable.resolve_some hdup.resolve_eq
  subst hentry
  obtain ⟨k, g, hk, hg, -, -, hrights⟩ := h.held process table _ hdup.table_eq hi huse
  refine ⟨k, g, hk, hg, hrights, ?_⟩
  simp only [rightsOf, hdup.table_eq]

lemma Derivation.Sound.step (h : d.Sound) (call : HandleCall) : (d.step destroy call).Sound := by
  cases call with
  | create process obj rights =>
    obtain hfail | ⟨table, i, hfill, -⟩ := handleCreate_cases (s := d.system) process obj rights
    · rw [Derivation.step, hfail]
      exact h
    apply h.fill hfill
    intro parent r horigin
    cases horigin
  | duplicate src dest handle newRights =>
    obtain ⟨hfail, hhandles⟩ | ⟨table, entry, target, i, hdup, hfill⟩ :=
      handleDuplicate_handles destroy src dest handle newRights
    · simp only [Derivation.step, Derivation.record]
      rw [if_pos hfail]
      exact h.of_handles hhandles
    obtain ⟨k, g, hk, hg, hrights, hof⟩ := h.source_grant hdup
    apply h.fill hfill
    intro parent r horigin
    rw [hk, hof] at horigin
    cases horigin
    exact ⟨g, hg, hrights, rightsLe_duplicate hdup.duplicate, hdup.rights_le⟩
  | close process handle =>
    obtain hfail | ⟨table, entry, hclear, -⟩ := handleClose_cases destroy process handle
    · rw [Derivation.step, hfail]
      exact h
    · exact h.clear hclear

end

section
variable {s : HandleSystem δ σ} {process : ℕ} {handle required : BitVec 32}

lemma handleLookup_ne_zero (h : handleLookup s process handle required ≠ 0) :
    ∃ table entry, s.handles process = some table ∧ table.resolve handle = some entry ∧
      RightsLe required entry.rights ∧ handleLookup s process handle required = entry.object := by
  unfold handleLookup at h ⊢
  cases htable : s.handles process with
  | none => exact absurd (by simp only [htable]) h
  | some table =>
    cases hentry : table.resolve handle with
    | none => exact absurd (by simp only [htable, hentry]) h
    | some entry =>
      simp only [htable, hentry] at h ⊢
      by_cases hrights : entry.rights &&& required ≠ required
      · exact absurd (if_pos hrights) h
      refine ⟨table, entry, rfl, hentry, ?_, if_neg hrights⟩
      rw [RightsLe, BitVec.and_comm]
      exact not_not.mp hrights

end

/-- The live handle of a slot in use, its grant, and the chain that leads to it. -/
structure Attenuated (d : Derivation δ σ) (process i : ℕ) (entry : HandleEntry) : Prop where
  granted : ∃ k g, d.holder process i = some k ∧ d.grants[k]? = some g ∧ g.process = process ∧
    g.handle = makeHandle i entry.generation ∧ g.rights = entry.rights ∧
    -- its rights are among those of every grant on the chain
    (∀ a ga, OnChain d.grants k a → d.grants[a]? = some ga → RightsLe entry.rights ga.rights) ∧
    -- every source on the chain had the right to be duplicated when it was
    (∀ a ga parent r, OnChain d.grants k a → d.grants[a]? = some ga →
      ga.origin = some (parent, r) → RightsLe rightDuplicate r ∧
        ∃ source, d.grants[parent]? = some source ∧ source.rights = r) ∧
    -- and a lookup gives out no more than the chain allows
    ∀ required, handleLookup d.system process (makeHandle i entry.generation) required ≠ 0 →
      ∀ a ga, OnChain d.grants k a → d.grants[a]? = some ga → RightsLe required ga.rights

lemma Derivation.Sound.attenuated {d : Derivation δ σ} (h : d.Sound) {process i : ℕ}
    {table : HandleTable} (htable : d.system.handles process = some table)
    (hi : i < handleTableCapacity) (huse : (table.entries i).inUse = true) :
    Attenuated d process i (table.entries i) := by
  obtain ⟨k, g, hk, hg, hproc, hhandle, hrights⟩ := h.held process table i htable hi huse
  have hle : ∀ a ga, OnChain d.grants k a → d.grants[a]? = some ga →
      RightsLe (table.entries i).rights ga.rights := by
    intro a ga hchain ha
    rw [← hrights]
    exact h.duplications.rights_le hg ha hchain
  refine ⟨k, g, hk, hg, hproc, hhandle, hrights, hle, ?_, ?_⟩
  · intro a ga parent r _ ha horigin
    obtain ⟨src, hs, hr, hdup, -⟩ := h.duplications.source a ga parent r ha horigin
    exact ⟨hdup, src, hs, hr⟩
  intro required hlookup a ga hchain ha
  obtain ⟨table', entry, htable', hentry, hrequired, -⟩ := handleLookup_ne_zero hlookup
  rw [htable] at htable'
  cases htable'
  obtain ⟨-, rfl, -⟩ := HandleTable.resolve_some hentry
  rw [handleIndex_makeHandle hi] at hrequired
  exact hrequired.trans (hle a ga hchain ha)

/-- Along any calls by any processes, every live handle is attenuated. -/
theorem rights_never_amplify (hasTable : ℕ → Bool) (objects : ℕ → ObjectHeader δ) (env : σ)
    (calls : List HandleCall) (process : ℕ) (table : HandleTable) (i : ℕ)
    (htable : (run (Derivation.step destroy)
      (Derivation.start (startSystem hasTable objects env)) calls).system.handles process =
        some table) (hi : i < handleTableCapacity) (huse : (table.entries i).inUse = true) :
    Attenuated (run (Derivation.step destroy)
      (Derivation.start (startSystem hasTable objects env)) calls) process i (table.entries i) := by
  have hsound : Derivation.Sound (run (Derivation.step destroy)
      (Derivation.start (startSystem hasTable objects env)) calls) :=
    run_preserves (fun d call hd => hd.step call) (Derivation.Sound.start hasTable objects env) calls
  exact hsound.attenuated htable hi huse

def sampleHandleCalls : List HandleCall :=
  [.create 1 4096 (rightRead ||| rightDuplicate), .duplicate 1 2 0x10000#32 rightRead,
    .close 1 0x10000#32]

def sampleDerivation : Derivation Unit Unit :=
  run (Derivation.step fun _ _ env => env) (Derivation.start (startSystem (fun _ => true)
    (fun _ => ⟨.event, 1#32, none⟩) ())) sampleHandleCalls

theorem rights_never_amplify_sample : ∃ table,
    sampleDerivation.system.handles 2 = some table ∧
      Attenuated sampleDerivation 2 0 (table.entries 0) := by
  have hsome : (sampleDerivation.system.handles 2).isSome = true := by decide
  have huse : (sampleDerivation.system.handles 2).map (fun t => (t.entries 0).inUse) =
      some true := by decide
  obtain ⟨table, htable⟩ := Option.isSome_iff_exists.mp hsome
  rw [htable] at huse
  exact ⟨table, htable, rights_never_amplify _ _ _ _ _ 2 table 0 htable (by decide)
    (Option.some.inj huse)⟩

end KosKernel.Handle
