import KosKernel.VmmSteps

/-! What the walks of `vmm_map_page_in` and `vmm_unmap_page_in` do to a user tree. -/
namespace KosKernel.Vmm
open RadixTree List
variable {held held' : Set ℕ} {root depth : ℕ} {origin s : VmmState} {p : List ℕ} {i t : ℕ}

variable {a : ℕ}

section
variable (h : UserTree origin root depth held s) (hD : UserPath (i :: p)) (hlen : p.length ≤ 2)
  (hp : frameAt s root p = some t)
include h hD hlen hp

lemma UserTree.nextTable_cases {va : ℕ} (hva : va < userLimit) (flags : BitVec 64) :
    (∃ t', frameAt s root (i :: p) = some t' ∧ nextTable s t i va flags = (some t', false, s)) ∨
    (entryAt s root (i :: p) = 0#64 ∧ nextTable s t i va flags = (none, false, s)) ∨
    ∃ f s', entryAt s root (i :: p) = 0#64 ∧ nextTable s t i va flags = (some f, true, s') ∧
      UserTree origin root depth held s' ∧ Rewrites s s' root (i :: p) (tableEntry f true) ∧
      frameAt s' root (i :: p) = some f ∧ UserTable (tableEntry f true) := by
  have hentry := entryAt_cons hp i
  have hq : (i :: p).length ≤ 3 := by
    simp only [length_cons]
    omega
  unfold nextTable
  by_cases hz : entryAt s root (i :: p) = 0#64
  · right
    have habsent : has (s.mem t i) pagePresent = false := by
      rw [← hentry, hz]
      decide
    simp only [habsent, hva, decide_true, Bool.true_or]
    rcases allocateFrame_cases h.wf with hnone | ⟨f, pmm', heq, hf⟩
    · left
      simp [hnone, hz]
    right
    have hrw := h.grow_rewrites hD hlen hp hz hf
    refine ⟨f, withTable s t i f pmm' true, hz, ?_, h.grow hD hlen hp hz hf, hrw, ?_,
      tableEntry_user hf.wasFree.1 hf.lt⟩
    · simp [heq, hf.pos, withTable]
    · rw [frameAt, hrw _ hD (by omega), if_pos rfl, tableEntry_next hf.wasFree.1 hf.lt]
  · left
    have ht := (h.tables _ hD hq).resolve_left hz
    have hsame : s.mem t i ||| vmmPageUser = s.mem t i :=
      or_bit_of_has _ (by norm_num) (hentry ▸ ht.user)
    have hwrite : write s.mem t i (s.mem t i) = s.mem := by simp [write]
    refine ⟨entryAddress (entryAt s root (i :: p)), ht.next, ?_⟩
    rw [hentry] at ht ⊢
    simp [ht.present, ht.small, hva, hsame, hwrite]

section
variable (ha : frameAt s root (i :: p) = some a)
include ha

omit hp in
lemma UserTree.isEmpty_iff :
    pageTableIsEmpty s.mem a = true ↔ ∀ j, j < 512 → entryAt s root (j :: i :: p) = 0#64 := by
  simp only [pageTableIsEmpty, all_eq_true, mem_range, Bool.not_eq_eq_eq_not, Bool.not_true]
  refine forall₂_congr fun j hj => ?_
  rw [← entryAt_cons ha]
  exact h.absent_iff (hD.cons hj) (by simp only [length_cons]; omega)

lemma UserTree.release_empty (hempty : ∀ j, j < 512 → entryAt s root (j :: i :: p) = 0#64) :
    ∃ s', releaseOwnedEmptyTable s t i = (true, s') ∧ UserTree origin root depth held s' ∧
      Rewrites s s' root (i :: p) 0#64 := by
  have hentry := entryAt_cons hp i
  have hq : (i :: p).length ≤ 3 := by
    simp only [length_cons]
    omega
  have hd := h.depth_range.1
  have hne : entryAt s root (i :: p) ≠ 0#64 := fun hz => by simp [frameAt, hz] at ha
  have ht := (h.tables _ hD hq).resolve_left hne
  have hadd : entryAddress (s.mem t i) = a := by
    rw [← hentry]
    exact Option.some.inj (ht.next.symm.trans ha)
  obtain ⟨husable, hpos, hfree, -⟩ := h.frame_allocated hD (by omega) ha
  obtain ⟨pmm', heq, hr⟩ := freeFrame_success h.wf hpos husable hfree
  obtain ⟨htree, hrw⟩ := h.remove hD (by omega) (by omega) hp ha (fun _ => hempty) hr
  refine ⟨_, ?_, htree, hrw⟩
  rw [hentry] at ht
  have hisEmpty := (h.isEmpty_iff hD hlen ha).mpr hempty
  simp [releaseOwnedEmptyTable, hasAll_ownedTable, ht.present, ht.owned, hadd, hisEmpty, pmmFree,
    heq, withoutTable]

lemma UserTree.release_full {j : ℕ} (hj : j < 512) (hfull : entryAt s root (j :: i :: p) ≠ 0#64) :
    releaseOwnedEmptyTable s t i = (false, s) := by
  have hentry := entryAt_cons hp i
  have hadd : entryAddress (s.mem t i) = a := by
    rw [frameAt, hentry, pageNext] at ha
    split_ifs at ha
    exact Option.some.inj ha
  have hnot : pageTableIsEmpty s.mem a = false := by
    rw [Bool.eq_false_iff]
    exact fun hempty => hfull ((h.isEmpty_iff hD hlen ha).mp hempty j hj)
  unfold releaseOwnedEmptyTable
  dsimp only
  split_ifs with h1 h2
  · rfl
  · rfl
  · exact absurd hnot (hadd ▸ h2)

end
end

def SameEntries (s s' : VmmState) (root : ℕ) : Prop :=
  ∀ r, UserPath r → r.length ≤ 4 → entryAt s' root r = entryAt s root r

/-- A page has been mapped at `q`: no other page has changed, no table is lost, and every new
table holds something. -/
structure Mapped (s s' : VmmState) (root : ℕ) (q : List ℕ) (e : BitVec 64) : Prop where
  was_free : entryAt s root q = 0#64
  leaf : ∀ r, UserPath r → r.length = 4 →
    entryAt s' root r = if r = q then e else entryAt s root r
  keeps : ∀ r, UserPath r → r.length ≤ 3 → entryAt s root r ≠ 0#64 →
    entryAt s' root r = entryAt s root r
  fills : ∀ r, UserPath r → r.length ≤ 3 → entryAt s' root r ≠ 0#64 →
    entryAt s root r ≠ 0#64 ∨ ∃ j, UserPath (j :: r) ∧ entryAt s' root (j :: r) ≠ 0#64

variable {q : List ℕ}

variable {s1 s2 : VmmState}

lemma Mapped.after_created {e c : BitVec 64} {k : ℕ}
    (h : Mapped s1 s2 root q e) (hrw : Rewrites s s1 root (i :: p) c)
    (hz : entryAt s root (i :: p) = 0#64) (hlen : (i :: p).length ≤ 3)
    (hDk : UserPath (k :: i :: p)) (hhead : entryAt s2 root (k :: i :: p) ≠ 0#64)
    (hq : q.length = 4) (hDq : UserPath q) : Mapped s s2 root q e := by
  have hleafne : ∀ r : List ℕ, r.length = 4 → r ≠ i :: p := fun r hr heq => by
    rw [heq] at hr
    omega
  refine ⟨?_, ?_, ?_, ?_⟩
  · have := h.was_free
    rwa [hrw q hDq hq.le, if_neg (hleafne q hq)] at this
  · intro r hr hrlen
    rw [h.leaf r hr hrlen, hrw r hr hrlen.le, if_neg (hleafne r hrlen)]
  · intro r hr hrlen hne
    have hri : r ≠ i :: p := fun heq => hne (heq ▸ hz)
    have hsame : entryAt s1 root r = entryAt s root r := by rw [hrw r hr (by omega), if_neg hri]
    rw [h.keeps r hr hrlen (hsame ▸ hne), hsame]
  intro r hr hrlen hne
  by_cases hri : r = i :: p
  · exact .inr ⟨k, hri ▸ hDk, hri ▸ hhead⟩
  rcases h.fills r hr hrlen hne with hold | hchild
  · rw [hrw r hr (by omega), if_neg hri] at hold
    exact .inl hold
  · exact .inr hchild

variable {i t : ℕ} {p : List ℕ}

section
variable {va pa : ℕ} {flags : BitVec 64}

lemma UserTree.mapWalk_leaf (h : UserTree origin root depth held s) (hD : UserPath (i :: p))
    (hlen : p.length = 3) (hp : frameAt s root p = some t) (hleaf : UserLeaf (leafEntry pa flags))
    (hheld : LeafTaken depth (entryAddress (leafEntry pa flags)) held held') :
    mapWalk va pa flags [i] s t = (false, s) ∧ entryAt s root (i :: p) ≠ 0#64 ∨
      ∃ s', mapWalk va pa flags [i] s t = (true, s') ∧ UserTree origin root depth held' s' ∧
        Mapped s s' root (i :: p) (leafEntry pa flags) ∧
        entryAt s' root (i :: p) ≠ 0#64 := by
  have hentry := entryAt_cons hp i
  have hq : (i :: p).length = 4 := by simp [hlen]
  simp only [mapWalk, ← hentry]
  by_cases hz : entryAt s root (i :: p) = 0#64
  · right
    obtain ⟨htree, hrw⟩ := h.mapLeaf hD hlen hp hz hleaf hheld
    have habsent := (h.absent_iff hD hq.le).mpr hz
    refine ⟨_, by simp [habsent], htree, ⟨hz, fun r hr hrlen => hrw r hr hrlen.le, ?_, ?_⟩, ?_⟩
    · intro r hr hrlen _
      rw [hrw r hr (by omega), if_neg (fun heq => by rw [heq] at hrlen; omega)]
    · intro r hr hrlen hne'
      rw [hrw r hr (by omega), if_neg (fun heq => by rw [heq] at hrlen; omega)] at hne'
      exact .inl hne'
    · rw [hrw _ hD hq.le, if_pos rfl]
      exact hleaf.ne_zero
  · left
    simp [(h.frameAt_of_ne_zero hD hq.le hz).1, hz]

lemma UserTree.undo_created (h2 : UserTree origin root depth held s2)
    (hD : UserPath (i :: p)) (hlen : p.length ≤ 2) (hp : frameAt s root p = some t)
    (hz : entryAt s root (i :: p) = 0#64) {f : ℕ}
    (hrw : Rewrites s s1 root (i :: p) (tableEntry f true))
    (hf : frameAt s1 root (i :: p) = some f) (hsame : SameEntries s1 s2 root) :
    ∃ s3, releaseOwnedEmptyTable s2 t i = (true, s3) ∧ UserTree origin root depth held s3 ∧
      SameEntries s s3 root := by
  have hq : (i :: p).length ≤ 3 := by
    simp only [length_cons]
    omega
  have hpne : p ≠ i :: p := fun heq => by simpa using congrArg length heq
  have hp2 : frameAt s2 root p = some t := by
    rw [frameAt, hsame p hD.tail (by omega), hrw p hD.tail (by omega), if_neg hpne]
    exact hp
  have hf2 : frameAt s2 root (i :: p) = some f := by
    rw [frameAt, hsame _ hD (by omega)]
    exact hf
  have hempty : ∀ j, j < 512 → entryAt s2 root (j :: i :: p) = 0#64 := by
    intro j hj
    have hDj : UserPath (j :: i :: p) := hD.cons hj
    have hjlen : (j :: i :: p).length ≤ 4 := by
      simp only [length_cons] at hq ⊢
      omega
    have hne : j :: i :: p ≠ i :: p := fun heq => by simpa using congrArg length heq
    rw [hsame _ hDj hjlen, hrw _ hDj hjlen, if_neg hne]
    exact entryAt_below_zero hz j
  obtain ⟨s3, heq, h3, hrw3⟩ := h2.release_empty hD hlen hp2 hf2 hempty
  refine ⟨s3, heq, h3, fun r hr hrlen => ?_⟩
  rw [hrw3 r hr hrlen, hsame r hr hrlen, hrw r hr hrlen]
  split_ifs with hri
  · rw [hri, hz]
  · rfl

theorem UserTree.mapWalk_spec (hva : va < userLimit) (hleaf : UserLeaf (leafEntry pa flags))
    (hheld : LeafTaken depth (entryAddress (leafEntry pa flags)) held held') (rest : List ℕ) {s : VmmState} (h : UserTree origin root depth held s)
    (hD : UserPath (rest.reverse ++ i :: p)) (hlen : p.length + rest.length = 3)
    (hp : frameAt s root p = some t) :
    (∃ s', mapWalk va pa flags (i :: rest) s t = (false, s') ∧
        UserTree origin root depth held s' ∧ SameEntries s s' root) ∨
      ∃ s', mapWalk va pa flags (i :: rest) s t = (true, s') ∧ UserTree origin root depth held' s' ∧
        Mapped s s' root (rest.reverse ++ i :: p) (leafEntry pa flags) ∧
        entryAt s' root (i :: p) ≠ 0#64 := by
  induction rest generalizing i t p s with
  | nil =>
    rcases h.mapWalk_leaf hD hlen hp hleaf hheld with ⟨heq, -⟩ | hmapped
    · exact .inl ⟨s, heq, h, fun r _ _ => rfl⟩
    · exact .inr hmapped
  | cons k rest ih =>
    have hpath : (k :: rest).reverse ++ i :: p = rest.reverse ++ k :: i :: p := by simp
    rw [hpath] at hD ⊢
    simp only [length_cons] at hlen
    have hDk : UserPath (k :: i :: p) := hD.of_append
    have hDi : UserPath (i :: p) := hDk.tail
    have hlen2 : p.length ≤ 2 := by omega
    have hlen3 : (i :: p).length + rest.length = 3 := by
      simp only [length_cons]
      omega
    rcases h.nextTable_cases hDi hlen2 hp hva flags with
      ⟨t', ht', hnext⟩ | ⟨-, hnext⟩ | ⟨f, s1, hz, hnext, h1, hrw, hf, htable⟩
    · -- the table is there
      rcases ih h hD hlen3 ht' with ⟨s', heq, htree, hsame⟩ | ⟨s', heq, htree, hmapped, -⟩
      · exact .inl ⟨s', by simp [mapWalk, hnext, heq, rollback], htree, hsame⟩
      refine .inr ⟨s', by simp [mapWalk, hnext, heq], htree, hmapped, ?_⟩
      have hne : entryAt s root (i :: p) ≠ 0#64 := fun hz => by simp [frameAt, hz] at ht'
      rw [hmapped.keeps _ hDi (by simp only [length_cons]; omega) hne]
      exact hne
    · exact .inl ⟨s, by simp [mapWalk, hnext], h, fun r _ _ => rfl⟩
    -- the table is new: on failure below it is released again
    rcases ih h1 hD hlen3 hf with ⟨s2, heq, h2, hsame⟩ | ⟨s2, heq, h2, hmapped, hhead⟩
    · left
      obtain ⟨s3, hrelease, h3, hsame3⟩ := h2.undo_created hDi hlen2 hp hz hrw hf hsame
      exact ⟨s3, by simp [mapWalk, hnext, heq, rollback, hrelease], h3, hsame3⟩
    refine .inr ⟨s2, by simp [mapWalk, hnext, heq], h2, ?_, ?_⟩
    · exact hmapped.after_created hrw hz (by simp only [length_cons]; omega) hDk hhead
        (by simp only [length_append, length_reverse, length_cons]; omega) hD
    rw [hmapped.keeps _ hDi (by simp only [length_cons]; omega)]
    all_goals rw [hrw _ hDi (by simp only [length_cons]; omega), if_pos rfl]
    all_goals exact htable.ne_zero

end

/-- A page has been unmapped at `q`: no other page has changed and no table is new. -/
structure Unmapped (s s' : VmmState) (root : ℕ) (q : List ℕ) : Prop where
  leaf : ∀ r, UserPath r → r.length = 4 →
    entryAt s' root r = if r = q then 0#64 else entryAt s root r
  keeps : ∀ r, UserPath r → r.length ≤ 3 → entryAt s' root r ≠ 0#64 →
    entryAt s' root r = entryAt s root r

def NoEmptyTable (s : VmmState) (root : ℕ) : Prop :=
  ∀ r, UserPath r → 1 ≤ r.length → r.length ≤ 3 → entryAt s root r ≠ 0#64 →
    ∃ j, UserPath (j :: r) ∧ entryAt s root (j :: r) ≠ 0#64

/-- No table is empty, but for the one at `p` while the tables above it are still to be
released. -/
def NoEmptyTableBut (s : VmmState) (root : ℕ) (p : List ℕ) (releasing : Bool) : Prop :=
  ∀ r, UserPath r → 1 ≤ r.length → r.length ≤ 3 → entryAt s root r ≠ 0#64 →
    (∃ j, UserPath (j :: r) ∧ entryAt s root (j :: r) ≠ 0#64) ∨ r = p ∧ releasing = true

lemma entryAt_append_zero (hz : entryAt s root p = 0#64) (xs : List ℕ) :
    entryAt s root (xs ++ p) = 0#64 := by
  induction xs with
  | nil => exact hz
  | cons x xs ih => exact entryAt_below_zero ih x

lemma UserTree.unmapWalk_leaf (h : UserTree origin root depth held s) (hfull : NoEmptyTable s root)
    (hD : UserPath (i :: p)) (hlen : p.length = 3) (hp : frameAt s root p = some t)
    (hheld : LeafReturned depth (entryAddress (entryAt s root (i :: p))) held held') :
    unmapWalk [i] s t = none ∧ entryAt s root (i :: p) = 0#64 ∨
      ∃ s', unmapWalk [i] s t = some (entryAddress (entryAt s root (i :: p)), true, s') ∧
        entryAt s root (i :: p) ≠ 0#64 ∧ UserTree origin root depth held' s' ∧
        Unmapped s s' root (i :: p) ∧ frameAt s' root p = some t ∧
        NoEmptyTableBut s' root p true := by
  have hentry := entryAt_cons hp i
  have hq : (i :: p).length = 4 := by simp [hlen]
  have hoff : ∀ r : List ℕ, r.length ≤ 3 → r ≠ i :: p := fun r hr heq => by
    rw [heq] at hr
    omega
  simp only [unmapWalk, ← hentry, hasAll_ownedMapping]
  by_cases hz : entryAt s root (i :: p) = 0#64
  · left
    have habsent := (h.absent_iff hD hq.le).mpr hz
    exact ⟨by simp [habsent], hz⟩
  right
  have hl := (h.leaves _ hD hq).resolve_left hz
  obtain ⟨htree, hrw⟩ := h.unmapLeaf hD hlen hp hl.next hheld
  refine ⟨_, by simp [hl.present, hl.owned], hz, htree, ⟨fun r hr hrlen => hrw r hr hrlen.le,
    fun r hr hrlen _ => ?_⟩, ?_, ?_⟩
  · rw [hrw r hr (by omega), if_neg (hoff r hrlen)]
  · rw [hrw.frameAt le_rfl p hD.tail (by omega), if_neg (hoff p hlen.le)]
    exact hp
  intro r hr h1 h3 hne
  rw [hrw r hr (by omega), if_neg (hoff r h3)] at hne
  obtain ⟨j, hj, hchild⟩ := hfull r hr h1 h3 hne
  by_cases hjr : j :: r = i :: p
  · exact .inr ⟨(cons.inj hjr).2, rfl⟩
  · refine .inl ⟨j, hj, ?_⟩
    rwa [hrw _ hj (by simp only [length_cons]; omega), if_neg hjr]

lemma Unmapped.frameAt_above {s' : VmmState} (hun : Unmapped s s' root q)
    (hD : UserPath (i :: p)) (hlen : (i :: p).length ≤ 3) (ha : frameAt s' root (i :: p) = some a) (hp : frameAt s root p = some t) :
    frameAt s' root p = some t := by
  have hne : entryAt s' root p ≠ 0#64 := by
    intro hz
    rw [frameAt, entryAt_below_zero hz, pageNext_zero] at ha
    cases ha
  rw [frameAt, hun.keeps p hD.tail (by simp only [length_cons] at hlen; omega) hne]
  exact hp

/-- On the way up, the table at `i :: p` is released if it has become empty. -/
lemma UserTree.release_above {s0 : VmmState}
    (h : UserTree origin root depth held s) (hD : UserPath (i :: p)) (hlen : p.length ≤ 2)
    (hp : frameAt s root p = some t) (ha : frameAt s root (i :: p) = some a)
    (hun : Unmapped s0 s root q) (hbut : NoEmptyTableBut s root (i :: p) true) :
    ∃ released s', releaseOwnedEmptyTable s t i = (released, s') ∧
      UserTree origin root depth held s' ∧ Unmapped s0 s' root q ∧ frameAt s' root p = some t ∧
      NoEmptyTableBut s' root p released := by
  have hpne : p ≠ i :: p := fun heq => by simpa using congrArg length heq
  by_cases hempty : ∀ j, j < 512 → entryAt s root (j :: i :: p) = 0#64
  · obtain ⟨s', hrelease, h', hrw⟩ := h.release_empty hD hlen hp ha hempty
    have hsame : ∀ r, UserPath r → r.length ≤ 4 → entryAt s' root r ≠ 0#64 →
        r ≠ i :: p ∧ entryAt s' root r = entryAt s root r := by
      intro r hr hrlen hne
      rw [hrw r hr hrlen] at hne ⊢
      split_ifs at hne ⊢ with hri
      · exact absurd rfl hne
      · exact ⟨hri, rfl⟩
    refine ⟨true, s', hrelease, h', ⟨fun r hr hrlen => ?_, fun r hr hrlen hne => ?_⟩, ?_, ?_⟩
    · have hri : r ≠ i :: p := fun heq => by
        rw [heq, length_cons] at hrlen
        omega
      rw [hrw r hr hrlen.le, if_neg hri, hun.leaf r hr hrlen]
    · have hkeep := (hsame r hr (by omega) hne).2
      rw [hkeep]
      exact hun.keeps r hr hrlen (hkeep ▸ hne)
    · rw [hrw.frameAt le_rfl p hD.tail (by omega), if_neg hpne]
      exact hp
    intro r hr h1 h3 hne
    obtain ⟨hri, hkeep⟩ := hsame r hr (by omega) hne
    rcases hbut r hr h1 h3 (hkeep ▸ hne) with ⟨j, hj, hchild⟩ | ⟨heq, -⟩
    · by_cases hjr : j :: r = i :: p
      · exact .inr ⟨(cons.inj hjr).2, rfl⟩
      · refine .inl ⟨j, hj, ?_⟩
        rwa [hrw _ hj (by simp only [length_cons]; omega), if_neg hjr]
    · exact absurd heq hri
  · push Not at hempty
    obtain ⟨j, hj, hfull⟩ := hempty
    refine ⟨false, s, h.release_full hD hlen hp ha hj hfull, h, hun, hp, fun r hr h1 h3 hne => ?_⟩
    rcases hbut r hr h1 h3 hne with hchild | ⟨heq, -⟩
    · exact .inl hchild
    · exact .inl ⟨j, heq ▸ hD.cons hj, heq ▸ hfull⟩

lemma unmapWalk_cons (k : ℕ) (rest : List ℕ)
    (hpresent : has (s.mem t i) pagePresent = true) (hsmall : has (s.mem t i) pageHuge = false) :
    unmapWalk (i :: k :: rest) s t =
      match unmapWalk (k :: rest) s (entryAddress (s.mem t i)) with
      | none => none
      | some (a, false, s) => some (a, false, s)
      | some (a, true, s) =>
        match releaseOwnedEmptyTable s t i with
        | (released, s) => some (a, released, s) := by
  rw [unmapWalk]
  exact if_neg (by simp [hpresent, hsmall])

theorem UserTree.unmapWalk_spec (rest : List ℕ)
    (h : UserTree origin root depth held s) (hfull : NoEmptyTable s root)
    (hD : UserPath (rest.reverse ++ i :: p)) (hlen : p.length + rest.length = 3)
    (hp : frameAt s root p = some t)
    (hheld : LeafReturned depth (entryAddress (entryAt s root (rest.reverse ++ i :: p))) held
      held') :
    unmapWalk (i :: rest) s t = none ∧ entryAt s root (rest.reverse ++ i :: p) = 0#64 ∨
      ∃ releasing s', unmapWalk (i :: rest) s t =
          some (entryAddress (entryAt s root (rest.reverse ++ i :: p)), releasing, s') ∧
        entryAt s root (rest.reverse ++ i :: p) ≠ 0#64 ∧ UserTree origin root depth held' s' ∧
        Unmapped s s' root (rest.reverse ++ i :: p) ∧ frameAt s' root p = some t ∧
        NoEmptyTableBut s' root p releasing := by
  induction rest generalizing i t p with
  | nil =>
    rcases h.unmapWalk_leaf hfull hD hlen hp hheld with hnone | ⟨s', heq, hrest⟩
    · exact .inl hnone
    · exact .inr ⟨true, s', heq, hrest⟩
  | cons k rest ih =>
    have hpath : (k :: rest).reverse ++ i :: p = rest.reverse ++ k :: i :: p := by simp
    rw [hpath] at hD hheld ⊢
    simp only [length_cons] at hlen
    have hDk : UserPath (k :: i :: p) := hD.of_append
    have hDi : UserPath (i :: p) := hDk.tail
    have hq : (i :: p).length ≤ 3 := by
      simp only [length_cons]
      omega
    have hlen3 : (i :: p).length + rest.length = 3 := by
      simp only [length_cons]
      omega
    have hentry := entryAt_cons hp i
    by_cases hz : entryAt s root (i :: p) = 0#64
    · left
      have habsent := (h.absent_iff hDi (by omega)).mpr hz
      rw [hentry] at habsent
      exact ⟨by simp [unmapWalk, habsent], entryAt_append_zero (entryAt_below_zero hz k) _⟩
    have ht := (h.tables _ hDi hq).resolve_left hz
    have hstep := unmapWalk_cons k rest (by rw [← hentry]; exact ht.present)
      (by rw [← hentry]; exact ht.small)
    rw [← hentry] at hstep
    rcases ih hD hlen3 ht.next hheld with
      ⟨hnone, hqz⟩ | ⟨releasing, s1, heq, hqne, h1, hun, ht1, hbut⟩
    · exact .inl ⟨by rw [hstep, hnone], hqz⟩
    right
    cases releasing with
    | false =>
      refine ⟨false, s1, by rw [hstep, heq], hqne, h1, hun, hun.frameAt_above hDi hq ht1 hp,
        fun r hr hr1 hr3 hne => .inl ((hbut r hr hr1 hr3 hne).resolve_right (by simp))⟩
    | true =>
      have hp1 := hun.frameAt_above hDi hq ht1 hp
      obtain ⟨released, s2, hrelease, h2, hun2, hp2, hbut2⟩ :=
        h1.release_above hDi (by omega) hp1 ht1 hun hbut
      exact ⟨released, s2, by simp only [hstep, heq, hrelease], hqne, h2, hun2, hp2, hbut2⟩

end KosKernel.Vmm
