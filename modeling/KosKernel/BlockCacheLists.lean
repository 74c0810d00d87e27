import KosKernel.BlockCacheState

/-! The lists of the cache: every entry is on the LRU list, and the hash buckets hold the valid
entries. What is cached for a sector is then what its one valid entry says. -/
namespace KosKernel.BlockCache
open Function
variable {D α : Type*} {layer : BlockLayer D α} {devId : ℕ → BitVec 32} {c c' : Cache D α}

abbrev Key := ℕ × BitVec 64

def Cache.Holds (c : Cache D α) (i : ℕ) (k : Key) : Prop :=
  (c.entries i).valid = true ∧ (c.entries i).dev = some k.1 ∧ (c.entries i).lba = k.2

structure WellFormed (devId : ℕ → BitVec 32) (c : Cache D α) : Prop where
  lru_perm : c.lru.Perm (List.range cacheCapacity)
  in_bucket : ∀ i, (c.entries i).valid = true → i < cacheCapacity ∧
    ∃ dev, (c.entries i).dev = some dev ∧ i ∈ c.hash (cacheHash (devId dev) (c.entries i).lba)
  unique : ∀ i j k, c.Holds i k → c.Holds j k → i = j
  linked : ∀ bucket i, i ∈ c.hash bucket → (c.entries i).valid = true
  nodup : ∀ bucket, (c.hash bucket).Nodup

/-- The data cached for a sector and whether it is newer than the device. -/
def view (devId : ℕ → BitVec 32) (c : Cache D α) (k : Key) : Option (α × Bool) :=
  (cacheLookupLocked devId c k.1 k.2).map fun i => ((c.entries i).data, (c.entries i).dirty)

variable {k : Key} {i : ℕ}

lemma matches_iff : c.matches k.1 k.2 i = true ↔ c.Holds i k := by simp [Cache.matches, Cache.Holds]

lemma Cache.Holds.key_eq {k' : Key} (h : c.Holds i k) (h' : c.Holds i k') : k = k' := by
  have hdev : some k.1 = some k'.1 := h.2.1.symm.trans h'.2.1
  exact Prod.ext (Option.some.inj hdev) (h.2.2.symm.trans h'.2.2)

lemma WellFormed.mem_lru (h : WellFormed devId c) : i ∈ c.lru ↔ i < cacheCapacity := by
  rw [h.lru_perm.mem_iff, List.mem_range]

lemma WellFormed.lookup_of_holds (h : WellFormed devId c) (hi : c.Holds i k) :
    cacheLookupLocked devId c k.1 k.2 = some i := by
  obtain ⟨-, dev, hdev, hmem⟩ := h.in_bucket i hi.1
  rw [hi.2.1] at hdev
  cases hdev
  rw [hi.2.2] at hmem
  cases hfind : cacheLookupLocked devId c k.1 k.2 with
  | none =>
    rw [cacheLookupLocked, List.find?_eq_none] at hfind
    exact absurd (matches_iff.mpr hi) (hfind i hmem)
  | some j =>
    have hj : c.Holds j k := matches_iff.mp (List.find?_some hfind)
    rw [h.unique j i k hj hi]

lemma holds_of_lookup (h : cacheLookupLocked devId c k.1 k.2 = some i) : c.Holds i k :=
  matches_iff.mp (List.find?_some h)

section
variable (h : WellFormed devId c)
include h

lemma WellFormed.lookup_none_iff :
    cacheLookupLocked devId c k.1 k.2 = none ↔ ∀ i, ¬c.Holds i k := by
  constructor
  · intro hnone i hi
    rw [h.lookup_of_holds hi] at hnone
    cases hnone
  intro hnone
  cases hfind : cacheLookupLocked devId c k.1 k.2 with
  | none => rfl
  | some i => exact absurd (holds_of_lookup hfind) (hnone i)

lemma WellFormed.view_of_holds (hi : c.Holds i k) :
    view devId c k = some ((c.entries i).data, (c.entries i).dirty) := by
  rw [view, h.lookup_of_holds hi, Option.map_some]

lemma WellFormed.view_of_none (hk : ∀ i, ¬c.Holds i k) : view devId c k = none := by
  rw [view, h.lookup_none_iff.mpr hk, Option.map_none]

end

lemma holds_of_view {x : α × Bool} (h : view devId c k = some x) :
    ∃ i, c.Holds i k ∧ ((c.entries i).data, (c.entries i).dirty) = x := by
  obtain ⟨i, hi, hx⟩ := Option.map_eq_some_iff.mp h
  exact ⟨i, holds_of_lookup hi, hx⟩

section
variable (h : WellFormed devId c) (h' : WellFormed devId c')
include h h'

lemma WellFormed.view_congr {k' : Key} (hiff : ∀ i, c'.Holds i k' ↔ c.Holds i k)
    (hsame : ∀ i, c.Holds i k → c'.entries i = c.entries i) :
    view devId c' k' = view devId c k := by
  by_cases hk : ∃ i, c.Holds i k
  · obtain ⟨i, hi⟩ := hk
    rw [h.view_of_holds hi, h'.view_of_holds ((hiff i).mpr hi), hsame i hi]
  · push Not at hk
    rw [h.view_of_none hk, h'.view_of_none fun i hi => hk i ((hiff i).mp hi)]

lemma WellFormed.view_set (hi : c'.Holds i k) (hothers : ∀ j, j ≠ i → c'.entries j = c.entries j)
    (hold : ∀ k', c.Holds i k' → k' = k) :
    view devId c' = update (view devId c) k (some ((c'.entries i).data, (c'.entries i).dirty)) := by
  funext k'
  obtain rfl | hk := eq_or_ne k' k
  · rw [update_self, h'.view_of_holds hi]
  rw [update_of_ne hk]
  have hnew : ¬c'.Holds i k' := by
    intro hi'
    exact hk (hi'.key_eq hi)
  apply h.view_congr h'
  · intro j
    obtain rfl | hj := eq_or_ne j i
    · exact iff_of_false hnew fun hi' => hk (hold k' hi')
    · rw [Cache.Holds, hothers j hj, Cache.Holds]
  intro j hj
  apply hothers
  rintro rfl
  exact hk (hold k' hj)

lemma WellFormed.view_clear (hi : c.Holds i k) (hinvalid : (c'.entries i).valid = false)
    (hothers : ∀ j, j ≠ i → c'.entries j = c.entries j) :
    view devId c' = update (view devId c) k none := by
  have hgone : ∀ k', ¬c'.Holds i k' := by
    rintro k' ⟨hvalid, -⟩
    rw [hinvalid] at hvalid
    cases hvalid
  have hsame : ∀ j k', j ≠ i → (c'.Holds j k' ↔ c.Holds j k') := by
    intro j k' hj
    rw [Cache.Holds, hothers j hj, Cache.Holds]
  funext k'
  obtain rfl | hk := eq_or_ne k' k
  · rw [update_self]
    apply h'.view_of_none
    intro j hj
    obtain rfl | hji := eq_or_ne j i
    · exact hgone k' hj
    · exact hji (h.unique j i k' ((hsame j k' hji).mp hj) hi)
  rw [update_of_ne hk]
  have hnot : ¬c.Holds i k' := by
    intro hi'
    exact hk (hi'.key_eq hi)
  apply h.view_congr h'
  · intro j
    obtain rfl | hji := eq_or_ne j i
    · exact iff_of_false (hgone k') hnot
    · exact hsame j k' hji
  intro j hj
  apply hothers
  rintro rfl
  exact hnot hj

end

lemma Cache.setEntry_same (i : ℕ) (entry : CacheEntry α) : (c.setEntry i entry).entries i = entry :=
  update_self ..

lemma Cache.setEntry_other {i j : ℕ} (entry : CacheEntry α) (h : j ≠ i) :
    (c.setEntry i entry).entries j = c.entries j :=
  update_of_ne h ..

variable (h : WellFormed devId c)
include h

section
variable (hlru : c'.lru.Perm c.lru) (hhash : c'.hash = c.hash)
include hlru hhash

lemma WellFormed.of_entries
    (hents : ∀ i, (c'.entries i).valid = (c.entries i).valid ∧ (c'.entries i).dev = (c.entries i).dev ∧ (c'.entries i).lba = (c.entries i).lba) :
    WellFormed devId c' := by
  have hholds : ∀ i k, c'.Holds i k ↔ c.Holds i k := by
    intro i k
    rw [Cache.Holds, Cache.Holds, (hents i).1, (hents i).2.1, (hents i).2.2]
  refine ⟨hlru.trans h.lru_perm, ?_, ?_, ?_, ?_⟩
  · intro i hi
    rw [(hents i).2.1, (hents i).2.2, hhash]
    exact h.in_bucket i ((hents i).1 ▸ hi)
  · intro i j k hi hj
    exact h.unique i j k ((hholds i k).mp hi) ((hholds j k).mp hj)
  · intro bucket i hi
    rw [(hents i).1]
    exact h.linked bucket i (hhash ▸ hi)
  · rw [hhash]
    exact h.nodup

lemma WellFormed.of_unused {i : ℕ} (hold : (c.entries i).valid = false)
    (hnew : (c'.entries i).valid = false) (hothers : ∀ j, j ≠ i → c'.entries j = c.entries j) :
    WellFormed devId c' ∧ view devId c' = view devId c := by
  have hne : ∀ j, (c'.entries j).valid = true → j ≠ i := by
    rintro j hj rfl
    rw [hnew] at hj
    cases hj
  have hne' : ∀ j, (c.entries j).valid = true → j ≠ i := by
    rintro j hj rfl
    rw [hold] at hj
    cases hj
  have hholds : ∀ j k, c'.Holds j k ↔ c.Holds j k := by
    intro j k
    obtain rfl | hji := eq_or_ne j i
    · exact iff_of_false (fun hj => hne j hj.1 rfl) fun hj => hne' j hj.1 rfl
    · rw [Cache.Holds, hothers j hji, Cache.Holds]
  have hwf : WellFormed devId c' := by
    refine ⟨hlru.trans h.lru_perm, ?_, ?_, ?_, ?_⟩
    · intro j hj
      have hji := hne j hj
      rw [hothers j hji] at hj ⊢
      rw [hhash]
      exact h.in_bucket j hj
    · intro j j' k hj hj'
      exact h.unique j j' k ((hholds j k).mp hj) ((hholds j' k).mp hj')
    · intro bucket j hj
      rw [hhash] at hj
      have hvalid := h.linked bucket j hj
      rw [hothers j (hne' j hvalid)]
      exact hvalid
    · rw [hhash]
      exact h.nodup
  refine ⟨hwf, ?_⟩
  funext k
  exact h.view_congr hwf (fun j => hholds j k) fun j hj => hothers j (hne' j hj.1)

end

lemma touch_perm {i : ℕ} (hi : i < cacheCapacity) : (cacheTouchLocked c i).lru.Perm c.lru :=
  (List.perm_cons_erase (h.mem_lru.mpr hi)).symm

lemma WellFormed.touch {i : ℕ} (hi : i < cacheCapacity) : WellFormed devId (cacheTouchLocked c i) :=
  h.of_entries (touch_perm h hi) rfl fun _ => ⟨rfl, rfl, rfl⟩

lemma WellFormed.unlink {i : ℕ} (hlru : c'.lru = c.lru)
    (hhash : c'.hash = fun bucket => (c.hash bucket).erase i)
    (hinvalid : (c'.entries i).valid = false) (hothers : ∀ j, j ≠ i → c'.entries j = c.entries j) :
    WellFormed devId c' := by
  have hne : ∀ j, (c'.entries j).valid = true → j ≠ i := by
    rintro j hj rfl
    rw [hinvalid] at hj
    cases hj
  have hholds : ∀ j k, c'.Holds j k → c.Holds j k := by
    intro j k hj
    rw [Cache.Holds, hothers j (hne j hj.1)] at hj
    exact hj
  refine ⟨hlru ▸ h.lru_perm, ?_, ?_, ?_, ?_⟩
  · intro j hj
    have hji := hne j hj
    rw [hothers j hji] at hj ⊢
    obtain ⟨hlt, dev, hdev, hmem⟩ := h.in_bucket j hj
    refine ⟨hlt, dev, hdev, ?_⟩
    rw [hhash]
    exact (List.mem_erase_of_ne hji).mpr hmem
  · intro j j' k hj hj'
    exact h.unique j j' k (hholds j k hj) (hholds j' k hj')
  · intro bucket j hj
    rw [hhash] at hj
    have hji : j ≠ i := by
      rintro rfl
      exact (h.nodup bucket).not_mem_erase hj
    rw [hothers j hji]
    exact h.linked bucket j (List.mem_of_mem_erase hj)
  · intro bucket
    rw [hhash]
    exact (h.nodup bucket).erase i

/-- An invalid entry enters the bucket of a sector that is not cached as it becomes valid. -/
lemma WellFormed.link {i : ℕ} {k : Key} (hi : i < cacheCapacity)
    (hfree : (c.entries i).valid = false) (habsent : ∀ j, ¬c.Holds j k) (hlru : c'.lru.Perm c.lru)
    (hhash : c'.hash = update c.hash (cacheHash (devId k.1) k.2) (i :: c.hash (cacheHash (devId k.1) k.2)))
    (hnew : c'.Holds i k) (hothers : ∀ j, j ≠ i → c'.entries j = c.entries j) :
    WellFormed devId c' := by
  have hnotin : ∀ bucket, i ∉ c.hash bucket := by
    intro bucket hmem
    have hvalid := h.linked bucket i hmem
    rw [hfree] at hvalid
    cases hvalid
  have hmem : ∀ bucket j, j ∈ c'.hash bucket ↔
      (j = i ∧ bucket = cacheHash (devId k.1) k.2) ∨ j ∈ c.hash bucket := by
    intro bucket j
    rw [hhash]
    by_cases hb : bucket = cacheHash (devId k.1) k.2
    · subst hb
      rw [update_self, List.mem_cons]
      simp
    · rw [update_of_ne hb]
      simp [hb]
  have hholds : ∀ j k', j ≠ i → (c'.Holds j k' ↔ c.Holds j k') := by
    intro j k' hj
    rw [Cache.Holds, hothers j hj, Cache.Holds]
  have hkey : ∀ k', c'.Holds i k' → k' = k := by
    intro k' hi'
    exact hi'.key_eq hnew
  refine ⟨hlru.trans h.lru_perm, ?_, ?_, ?_, ?_⟩
  · intro j hj
    obtain rfl | hji := eq_or_ne j i
    · refine ⟨hi, k.1, hnew.2.1, ?_⟩
      rw [hnew.2.2, hmem]
      exact .inl ⟨rfl, rfl⟩
    rw [hothers j hji] at hj ⊢
    obtain ⟨hlt, dev, hdev, hin⟩ := h.in_bucket j hj
    exact ⟨hlt, dev, hdev, (hmem _ _).mpr (.inr hin)⟩
  · intro j j' k' hj hj'
    obtain rfl | hji := eq_or_ne j i
    · by_contra hne
      have hk := hkey k' hj
      subst hk
      exact habsent j' ((hholds j' k' (Ne.symm hne)).mp hj')
    obtain rfl | hji' := eq_or_ne j' i
    · have hk := hkey k' hj'
      subst hk
      exact absurd ((hholds j k' hji).mp hj) (habsent j)
    · exact h.unique j j' k' ((hholds j k' hji).mp hj) ((hholds j' k' hji').mp hj')
  · intro bucket j hj
    obtain ⟨rfl, -⟩ | hj := (hmem bucket j).mp hj
    · exact hnew.1
    have hji : j ≠ i := by
      rintro rfl
      exact hnotin bucket hj
    rw [hothers j hji]
    exact h.linked bucket j hj
  · intro bucket
    rw [hhash]
    by_cases hb : bucket = cacheHash (devId k.1) k.2
    · subst hb
      rw [update_self]
      exact List.nodup_cons.mpr ⟨hnotin _, h.nodup _⟩
    · rw [update_of_ne hb]
      exact h.nodup bucket

end KosKernel.BlockCache
