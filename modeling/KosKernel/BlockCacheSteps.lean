import KosKernel.BlockCacheLists

/-! What each step of the cache does to what is cached and to the devices, for any layer below. -/
namespace KosKernel.BlockCache
open Function List Cache
variable {D α : Type*} (layer : BlockLayer D α) {devId : ℕ → BitVec 32} {c : Cache D α}

def victim (c : Cache D α) : Option ℕ :=
  match c.lru.reverse.find? fun i => !(c.entries i).valid with
  | some _ => none
  | none => c.lru.getLast?

section
variable {i : ℕ} {k : Key}

def writeBack (c : Cache D α) (i : ℕ) (k : Key) : Bool × D :=
  layer.write c.disk k.1 k.2 (c.entries i).data

structure FlushedEntry (devId : ℕ → BitVec 32) (c c' : Cache D α) (i : ℕ) (k : Key) (ok : Bool) :
    Prop where
  wf : WellFormed devId c'
  initialized : c'.initialized = c.initialized
  result : ok = (writeBack layer c i k).1
  disk : c'.disk = (writeBack layer c i k).2
  holds : c'.Holds i k
  data : (c'.entries i).data = (c.entries i).data
  dirty : (c'.entries i).dirty = !ok
  others : ∀ j, j ≠ i → c'.entries j = c.entries j
  lru : c'.lru = c.lru
  hash : c'.hash = c.hash

lemma cacheFlushEntry_eq (hi : c.Holds i k) (hdirty : (c.entries i).dirty = true) {ok : Bool}
    {disk : D} (hres : writeBack layer c i k = (ok, disk)) :
    cacheFlushEntryLocked layer c i = (ok,
      if ok then setEntry { c with disk := disk } i { c.entries i with dirty := false }
      else { c with disk := disk }) := by
  have hcond : ¬((c.entries i).valid = false ∨ (c.entries i).dirty = false) := by
    simp [hi.1, hdirty]
  have hwrite : layer.write c.disk k.1 (c.entries i).lba (c.entries i).data = (ok, disk) := by
    rw [hi.2.2]
    exact hres
  unfold cacheFlushEntryLocked
  split
  · next hnone =>
    rw [hi.2.1] at hnone
    cases hnone
  · next dev hdev =>
    rw [hi.2.1] at hdev
    cases hdev
    cases ok with
    | true => simp only [if_neg hcond, hwrite, if_true]
    | false => simp only [if_neg hcond, hwrite, Bool.false_eq_true, if_false]

lemma cacheFlushEntry_spec (h : WellFormed devId c) (hi : c.Holds i k)
    (hdirty : (c.entries i).dirty = true) :
    FlushedEntry layer devId c (cacheFlushEntryLocked layer c i).2 i k
      (cacheFlushEntryLocked layer c i).1 := by
  cases hres : writeBack layer c i k with
  | mk ok disk =>
    rw [cacheFlushEntry_eq layer hi hdirty hres]
    cases ok with
    | false =>
      exact ⟨h.of_entries (List.Perm.refl _) rfl fun _ => ⟨rfl, rfl, rfl⟩, rfl, by rw [hres],
        by rw [hres]; rfl, hi, rfl, hdirty, fun _ _ => rfl, rfl, rfl⟩
    | true =>
      rw [if_pos rfl]
      have hents : ∀ j, j ≠ i → (setEntry { c with disk := disk } i
          { c.entries i with dirty := false }).entries j = c.entries j :=
        fun j hj => update_of_ne hj ..
      have hentry : (setEntry { c with disk := disk } i
          { c.entries i with dirty := false }).entries i = { c.entries i with dirty := false } :=
        update_self ..
      refine ⟨h.of_entries (List.Perm.refl _) rfl ?_, rfl, by rw [hres], by rw [hres]; rfl,
        ?_, by rw [hentry], by rw [hentry]; rfl, hents, rfl, rfl⟩
      · intro j
        obtain rfl | hj := eq_or_ne j i
        · rw [hentry]
          exact ⟨rfl, rfl, rfl⟩
        · rw [hents j hj]
          exact ⟨rfl, rfl, rfl⟩
      · rw [Cache.Holds, hentry]
        exact hi

lemma FlushedEntry.view_eq {c' : Cache D α} {ok : Bool} (hf : FlushedEntry layer devId c c' i k ok)
    (h : WellFormed devId c) (hi : c.Holds i k) :
    view devId c' = update (view devId c) k (some ((c.entries i).data, !ok)) := by
  rw [h.view_set hf.wf hf.holds hf.others, hf.data, hf.dirty]
  intro k' hk'
  exact hk'.key_eq hi

end

section
variable {i : ℕ} {k : Key}

/-- An entry is dropped; a dirty one after its device write, whatever the result. -/
structure Dropped (devId : ℕ → BitVec 32) (c c' : Cache D α) (i : ℕ) (k : Key) : Prop where
  wf : WellFormed devId c'
  initialized : c'.initialized = c.initialized
  disk : c'.disk = if (c.entries i).dirty then (writeBack layer c i k).2 else c.disk
  view_eq : view devId c' = update (view devId c) k none
  invalid : (c'.entries i).valid = false
  others : ∀ j, j ≠ i → c'.entries j = c.entries j

lemma dropped_of_clear (h : WellFormed devId c) (hi : c.Holds i k) (entry : CacheEntry α → CacheEntry α)
    (hentry : ∀ e, (entry e).valid = false) {c₁ : Cache D α}
    (hc₁ : c₁ = if (c.entries i).dirty then (cacheFlushEntryLocked layer c i).2 else c) :
    Dropped layer devId c ((c₁.hashDel i).setEntry i (entry (c₁.entries i))) i k := by
  have hflushed : WellFormed devId c₁ ∧ c₁.initialized = c.initialized ∧
      c₁.disk = (if (c.entries i).dirty then (writeBack layer c i k).2 else c.disk) ∧
      c₁.Holds i k ∧ (∀ j, j ≠ i → c₁.entries j = c.entries j) ∧
      update (view devId c₁) k none = update (view devId c) k none := by
    rw [hc₁]
    by_cases hdirty : (c.entries i).dirty = true
    · have hf := cacheFlushEntry_spec layer h hi hdirty
      rw [if_pos hdirty, if_pos hdirty]
      refine ⟨hf.wf, hf.initialized, hf.disk, hf.holds, hf.others, ?_⟩
      rw [hf.view_eq layer h hi, update_idem]
    · rw [if_neg hdirty, if_neg hdirty]
      exact ⟨h, rfl, rfl, hi, fun _ _ => rfl, rfl⟩
  obtain ⟨hwf, hinit, hdisk, hholds, hothers, hview⟩ := hflushed
  have hinvalid : (((c₁.hashDel i).setEntry i (entry (c₁.entries i))).entries i).valid = false := by
    rw [setEntry_same]
    exact hentry _
  have hrest : ∀ j, j ≠ i →
      ((c₁.hashDel i).setEntry i (entry (c₁.entries i))).entries j = c₁.entries j :=
    fun j hj => setEntry_other _ hj
  have hwf' : WellFormed devId ((c₁.hashDel i).setEntry i (entry (c₁.entries i))) :=
    hwf.unlink rfl rfl hinvalid hrest
  refine ⟨hwf', hinit, hdisk, ?_, hinvalid, fun j hj => (hrest j hj).trans (hothers j hj)⟩
  rw [hwf.view_clear hwf' hholds hinvalid hrest, hview]

lemma evict_spec (h : WellFormed devId c) (hi : c.Holds i k) :
    Dropped layer devId c (evict layer c i) i k :=
  dropped_of_clear layer h hi (fun e => { e with valid := false }) (fun _ => rfl) rfl

end

section
/-- Room was made in the cache: an entry was unused, or the victim was dropped. -/
structure RoomMade (devId : ℕ → BitVec 32) (c c' : Cache D α) (i : ℕ) : Prop where
  wf : WellFormed devId c'
  initialized : c'.initialized = c.initialized
  slot_lt : i < cacheCapacity
  unused : (c'.entries i).valid = false
  how : (c' = c ∧ victim c = none) ∨ ∃ k, victim c = some i ∧ c.Holds i k ∧
    Dropped layer devId c c' i k

lemma freeEntry_spec (h : WellFormed devId c) :
    ∃ i c', freeEntry layer c = some (i, c') ∧ RoomMade layer devId c c' i := by
  unfold freeEntry
  cases hfind : c.lru.reverse.find? (fun i => !(c.entries i).valid) with
  | some i =>
    have hmem := mem_of_find?_eq_some hfind
    have hinvalid := find?_some hfind
    rw [mem_reverse, h.mem_lru] at hmem
    exact ⟨i, c, rfl, h, rfl, hmem, by simpa using hinvalid,
      .inl ⟨rfl, by simp only [victim, hfind]⟩⟩
  | none =>
    have hlen : c.lru ≠ [] := by
      intro hnil
      have hperm := h.lru_perm.length_eq
      rw [hnil, length_range] at hperm
      exact absurd hperm (by decide)
    have hlast : c.lru.getLast? = some (c.lru.getLast hlen) := getLast?_eq_some_getLast hlen
    have hmem : c.lru.getLast hlen ∈ c.lru := getLast_mem hlen
    rw [hlast]
    have hvalid : (c.entries (c.lru.getLast hlen)).valid = true := by
      have hall := find?_eq_none.mp hfind _ (mem_reverse.mpr hmem)
      simpa using hall
    obtain ⟨hlt, dev, hdev, -⟩ := h.in_bucket _ hvalid
    have hi : c.Holds (c.lru.getLast hlen)
        (dev, (c.entries (c.lru.getLast hlen)).lba) := ⟨hvalid, hdev, rfl⟩
    have hdrop := evict_spec layer h hi
    exact ⟨_, _, rfl, hdrop.wf, hdrop.initialized, hlt, hdrop.invalid,
      .inr ⟨_, by simp only [victim, hfind, hlast], hi, hdrop⟩⟩

section
variable {c' : Cache D α} {i : ℕ} (hr : RoomMade layer devId c c' i)
include hr

lemma RoomMade.absent {k : Key} (hk : ∀ j, ¬c.Holds j k) (j : ℕ) : ¬c'.Holds j k := by
  obtain ⟨rfl, -⟩ | ⟨k', -, hi, hdrop⟩ := hr.how
  · exact hk j
  intro hj
  have hji : j ≠ i := by
    rintro rfl
    have hvalid := hj.1
    rw [hdrop.invalid] at hvalid
    cases hvalid
  apply hk j
  rw [Cache.Holds, hdrop.others j hji] at hj
  exact hj

lemma RoomMade.view_none (h : WellFormed devId c) {k : Key} (hk : view devId c k = none) :
    view devId c' k = none := by
  apply hr.wf.view_of_none
  apply hr.absent layer
  intro j hj
  rw [h.view_of_holds hj] at hk
  cases hk

end
end

section
variable (devId)

/-- A sector that was not cached is put into the cache with new data. -/
structure Installed (c c' : Cache D α) (k : Key) (v : α) (dirty : Bool) : Prop where
  wf : WellFormed devId c'
  initialized : c'.initialized = c.initialized
  view_eq : view devId c' = update (view devId c) k (some (v, dirty))

variable {devId}

variable {k : Key} {c' c₁ : Cache D α} {i : ℕ} {v : α}

lemma installed_of_room (hwf : WellFormed devId c₁) (hlt : i < cacheCapacity)
    (hunused : (c₁.entries i).valid = false) (habsent : ∀ j, ¬c₁.Holds j k)
    (hinit : c'.initialized = c₁.initialized) (hlru : c'.lru.Perm c₁.lru)
    (hhash : c'.hash = update c₁.hash (cacheHash (devId k.1) k.2)
      (i :: c₁.hash (cacheHash (devId k.1) k.2))) (hnew : c'.Holds i k)
    (hothers : ∀ j, j ≠ i → c'.entries j = c₁.entries j) :
    Installed devId c₁ c' k (c'.entries i).data (c'.entries i).dirty := by
  have hwf' := hwf.link hlt hunused habsent hlru hhash hnew hothers
  refine ⟨hwf', hinit, hwf.view_set hwf' hnew hothers ?_⟩
  rintro k' ⟨hvalid, -⟩
  rw [hunused] at hvalid
  cases hvalid

structure Associated (devId : ℕ → BitVec 32) (c c' : Cache D α) (i : ℕ) (k : Key) : Prop where
  lru : c'.lru.Perm c.lru
  hash : c'.hash = update c.hash (cacheHash (devId k.1) k.2)
    (i :: c.hash (cacheHash (devId k.1) k.2))
  others : ∀ j, j ≠ i → c'.entries j = c.entries j
  initialized : c'.initialized = c.initialized
  disk : c'.disk = c.disk
  dev : (c'.entries i).dev = some k.1
  lba : (c'.entries i).lba = k.2

lemma associate_spec (h : WellFormed devId c) (hi : i < cacheCapacity) (k : Key) :
    Associated devId c (associate devId c i k.1 k.2) i k := by
  have hentry : (associate devId c i k.1 k.2).entries i = { c.entries i with
      dev := some k.1, lba := k.2, dirty := false, valid := false } :=
    update_self ..
  exact ⟨touch_perm h hi, rfl, fun j hj => update_of_ne hj .., rfl, rfl, by rw [hentry],
    by rw [hentry]⟩

variable {dirty : Bool}

section
variable {c₂ : Cache D α} (ha : Associated devId c₁ c₂ i k) (hwf : WellFormed devId c₁)
include ha hwf

lemma Associated.hash_del (hunused : (c₁.entries i).valid = false) :
    (fun bucket => (c₂.hash bucket).erase i) = c₁.hash := by
  have hnotin : ∀ bucket, i ∉ c₁.hash bucket := by
    intro bucket hmem
    have hvalid := hwf.linked bucket i hmem
    rw [hunused] at hvalid
    cases hvalid
  funext bucket
  rw [ha.hash]
  by_cases hb : bucket = cacheHash (devId k.1) k.2
  · subst hb
    rw [update_self, erase_cons_head]
  · rw [update_of_ne hb, erase_of_not_mem (hnotin bucket)]

lemma Associated.filled (hlt : i < cacheCapacity) (hunused : (c₁.entries i).valid = false)
    (habsent : ∀ j, ¬c₁.Holds j k) (hlru : c'.lru.Perm c₂.lru) (hhash : c'.hash = c₂.hash)
    (hinit : c'.initialized = c₂.initialized)
    (hentry : c'.entries i = ⟨some k.1, k.2, v, true, dirty⟩)
    (hothers : ∀ j, j ≠ i → c'.entries j = c₂.entries j) : Installed devId c₁ c' k v dirty := by
  have hholds : c'.Holds i k := by
    rw [Cache.Holds, hentry]
    exact ⟨rfl, rfl, rfl⟩
  have hinstalled := installed_of_room hwf hlt hunused habsent (hinit.trans ha.initialized)
    (hlru.trans ha.lru) (hhash.trans ha.hash) hholds
    fun j hj => (hothers j hj).trans (ha.others j hj)
  rw [hentry] at hinstalled
  exact hinstalled

end

inductive SectorRead (devId : ℕ → BitVec 32) (c : Cache D α) (k : Key) :
    Option α → Cache D α → Prop
  | hit {v : α} {dirty : Bool} {c' : Cache D α} (hcached : view devId c k = some (v, dirty))
      (hwf : WellFormed devId c') (hinit : c'.initialized = c.initialized)
      (hview : view devId c' = view devId c) (hdisk : c'.disk = c.disk) :
      SectorRead devId c k (some v) c'
  | miss {v : α} {i : ℕ} {c₁ c' : Cache D α} (hcached : view devId c k = none)
      (hroom : RoomMade layer devId c c₁ i)
      (hread : (layer.read c₁.disk k.1 k.2).1 = some v)
      (hdisk : c'.disk = (layer.read c₁.disk k.1 k.2).2)
      (hnew : Installed devId c₁ c' k v false) : SectorRead devId c k (some v) c'
  | fail {i : ℕ} {c₁ c' : Cache D α} (hcached : view devId c k = none)
      (hroom : RoomMade layer devId c c₁ i)
      (hread : (layer.read c₁.disk k.1 k.2).1 = none)
      (hdisk : c'.disk = (layer.read c₁.disk k.1 k.2).2)
      (hwf : WellFormed devId c') (hinit : c'.initialized = c₁.initialized)
      (hview : view devId c' = view devId c₁) : SectorRead devId c k none c'

lemma readSector_spec (h : WellFormed devId c) (k : Key) :
    SectorRead layer devId c k (readSector layer devId c k.1 k.2).1
      (readSector layer devId c k.1 k.2).2 := by
  unfold readSector
  cases hlookup : cacheLookupLocked devId c k.1 k.2 with
  | some i =>
    have hi := holds_of_lookup hlookup
    have hlt := (h.in_bucket i hi.1).1
    refine .hit (h.view_of_holds hi) (h.touch hlt) rfl ?_ rfl
    funext k'
    exact h.view_congr (h.touch hlt) (fun _ => Iff.rfl) fun _ _ => rfl
  | none =>
    have habsent := h.lookup_none_iff.mp hlookup
    have hcache := h.view_of_none habsent
    obtain ⟨i, c₁, hfree, hroom⟩ := freeEntry_spec layer h
    have ha := associate_spec hroom.wf hroom.slot_lt k
    have habsent₁ := hroom.absent layer habsent
    simp only [cacheAllocateSlotLocked, hfree]
    generalize associate devId c₁ i k.1 k.2 = c₂ at ha
    cases hread : layer.read c₂.disk k.1 k.2 with
    | mk data disk =>
      have hread₁ : layer.read c₁.disk k.1 k.2 = (data, disk) := by rw [← ha.disk, hread]
      cases data with
      | none =>
        have hhash : (hashDel (setEntry { c₂ with disk := disk } i
            { c₂.entries i with valid := false }) i).hash = c₁.hash :=
          ha.hash_del hroom.wf hroom.unused
        have hunused : WellFormed devId (hashDel (setEntry { c₂ with disk := disk } i
              { c₂.entries i with valid := false }) i) ∧
            view devId (hashDel (setEntry { c₂ with disk := disk } i
              { c₂.entries i with valid := false }) i) = view devId c₁ := by
          apply hroom.wf.of_unused (i := i)
          · exact ha.lru
          · exact hhash
          · exact hroom.unused
          · rw [hashDel, setEntry_same]
          · exact fun j hj => (setEntry_other _ hj).trans (ha.others j hj)
        exact .fail hcache hroom (by rw [hread₁]) (by rw [hread₁]; rfl) hunused.1 ha.initialized
          hunused.2
      | some v =>
        refine .miss hcache hroom (by rw [hread₁]) (by rw [hread₁]; rfl) ?_
        apply ha.filled hroom.wf hroom.slot_lt hroom.unused habsent₁
        · exact List.Perm.refl _
        · rfl
        · rfl
        · rw [setEntry_same, ← ha.dev, ← ha.lba]
        · exact fun j hj => update_of_ne hj ..

lemma SectorRead.wf {result : Option α} (h : SectorRead layer devId c k result c') :
    WellFormed devId c' ∧ c'.initialized = c.initialized := by
  cases h with
  | hit hcache hwf hinit hview hdisk => exact ⟨hwf, hinit⟩
  | miss hcache hroom hread hdisk hnew => exact ⟨hnew.wf, hnew.initialized.trans hroom.initialized⟩
  | fail hcache hroom hread hdisk hwf hinit hview => exact ⟨hwf, hinit.trans hroom.initialized⟩

lemma readSector_of_view (h : WellFormed devId c)
    (hk : view devId c k = some (v, dirty)) : (readSector layer devId c k.1 k.2).1 = some v := by
  have hspec := readSector_spec layer h k
  generalize (readSector layer devId c k.1 k.2).1 = result at hspec
  cases hspec with
  | hit hcache => rw [hcache] at hk; exact congrArg some (congrArg Prod.fst (Option.some.inj hk))
  | miss hcache => rw [hcache] at hk; cases hk
  | fail hcache => rw [hcache] at hk; cases hk

inductive SectorWrite (devId : ℕ → BitVec 32) (c : Cache D α) (k : Key) (v : α) :
    Cache D α → Prop
  | hit {c' : Cache D α} (hcached : view devId c k ≠ none) (hdisk : c'.disk = c.disk)
      (hnew : Installed devId c c' k v true) : SectorWrite devId c k v c'
  | miss {i : ℕ} {c₁ c' : Cache D α} (hcached : view devId c k = none)
      (hroom : RoomMade layer devId c c₁ i) (hdisk : c'.disk = c₁.disk)
      (hnew : Installed devId c₁ c' k v true) : SectorWrite devId c k v c'

lemma writeSector_spec (h : WellFormed devId c) (k : Key) (v : α) :
    (writeSector layer devId c k.1 k.2 v).1 = true ∧
      SectorWrite layer devId c k v (writeSector layer devId c k.1 k.2 v).2 := by
  unfold writeSector
  cases hlookup : cacheLookupLocked devId c k.1 k.2 with
  | some i =>
    have hi := holds_of_lookup hlookup
    have hlt := (h.in_bucket i hi.1).1
    refine ⟨rfl, .hit (by rw [h.view_of_holds hi]; exact Option.some_ne_none _) rfl ?_⟩
    have hentry : (cacheTouchLocked (c.setEntry i { c.entries i with data := v, dirty := true })
        i).entries i = { c.entries i with data := v, dirty := true } :=
      setEntry_same ..
    have hothers : ∀ j, j ≠ i → (cacheTouchLocked (c.setEntry i
        { c.entries i with data := v, dirty := true }) i).entries j = c.entries j :=
      fun j hj => setEntry_other _ hj
    have hholds : (cacheTouchLocked (c.setEntry i { c.entries i with data := v, dirty := true })
        i).Holds i k := by
      rw [Cache.Holds, hentry]
      exact hi
    have hwf : WellFormed devId (cacheTouchLocked (c.setEntry i
        { c.entries i with data := v, dirty := true }) i) := by
      refine h.of_entries (touch_perm h hlt) rfl ?_
      intro j
      obtain rfl | hj := eq_or_ne j i
      · rw [hentry]
        exact ⟨rfl, rfl, rfl⟩
      · rw [hothers j hj]
        exact ⟨rfl, rfl, rfl⟩
    refine ⟨hwf, rfl, ?_⟩
    rw [h.view_set hwf hholds hothers, hentry]
    intro k' hk'
    exact hk'.key_eq hi
  | none =>
    have habsent := h.lookup_none_iff.mp hlookup
    obtain ⟨i, c₁, hfree, hroom⟩ := freeEntry_spec layer h
    have ha := associate_spec hroom.wf hroom.slot_lt k
    have hfirst : (associate devId c₁ i k.1 k.2).lru.head? = some i := rfl
    simp only [cacheAllocateSlotLocked, hfree]
    generalize associate devId c₁ i k.1 k.2 = c₂ at ha hfirst
    refine ⟨trivial, .miss (h.view_of_none habsent) hroom ha.disk ?_⟩
    have hperm : (cacheTouchLocked c₂ i).lru.Perm c₂.lru :=
      (perm_cons_erase (mem_of_mem_head? hfirst)).symm
    apply ha.filled hroom.wf hroom.slot_lt hroom.unused (hroom.absent layer habsent)
    · exact hperm
    · rfl
    · rfl
    · rw [cacheTouchLocked, setEntry_same, ← ha.dev, ← ha.lba]
    · exact fun j hj => update_of_ne hj ..

lemma SectorWrite.wf (h : SectorWrite layer devId c k v c') :
    WellFormed devId c' ∧ c'.initialized = c.initialized := by
  cases h with
  | hit hcache hdisk hnew => exact ⟨hnew.wf, hnew.initialized⟩
  | miss hcache hroom hdisk hnew => exact ⟨hnew.wf, hnew.initialized.trans hroom.initialized⟩

end

variable {count : ℕ} {data : List α}

section
variable (devId)

variable {dev : ℕ} {lba : BitVec 64} {v : α}

section
variable (h : (readSector layer devId c dev lba).1 = some v)
include h

lemma readLoop_succ_of_some : readLoop layer devId dev (count + 1) lba c =
      ((readLoop layer devId dev count (lba + 1#64) (readSector layer devId c dev lba).2).1.map
          (v :: ·),
        (readLoop layer devId dev count (lba + 1#64) (readSector layer devId c dev lba).2).2) := by
  rw [readLoop]
  cases hread : readSector layer devId c dev lba with
  | mk data c' =>
    rw [hread] at h
    cases h
    rfl

lemma readLoop_one : (readLoop layer devId dev 1 lba c).1 = some [v] :=
  congrArg Prod.fst (readLoop_succ_of_some layer devId h)

end

lemma readLoop_succ_of_none (h : (readSector layer devId c dev lba).1 = none) :
    readLoop layer devId dev (count + 1) lba c = (none, (readSector layer devId c dev lba).2) := by
  rw [readLoop]
  cases hread : readSector layer devId c dev lba with
  | mk data c' =>
    rw [hread] at h
    cases h
    rfl

lemma writeLoop_cons_of_true (h : (writeSector layer devId c dev lba v).1 = true) :
    writeLoop layer devId dev (v :: data) lba c =
      writeLoop layer devId dev data (lba + 1#64) (writeSector layer devId c dev lba v).2 := by
  rw [writeLoop]
  cases hwrite : writeSector layer devId c dev lba v with
  | mk ok c' =>
    rw [hwrite] at h
    cases h
    rfl

variable {devId} {i : ℕ}

def ToFlush (c : Cache D α) (dev : Option ℕ) (i : ℕ) : Prop :=
  (c.entries i).valid = true ∧ (c.entries i).dirty = true ∧
    (dev = none ∨ (c.entries i).dev = dev)

lemma flushTurn_cases (h : WellFormed devId c) (dev : Option ℕ) (ok : Bool) (i : ℕ) :
    (¬ToFlush c dev i ∧ flushTurn layer dev (ok, c) i = (ok, c)) ∨
    ∃ k ok' c', ToFlush c dev i ∧ c.Holds i k ∧
      flushTurn layer dev (ok, c) i = (ok && ok', c') ∧ FlushedEntry layer devId c c' i k ok' := by
  by_cases hflush : ToFlush c dev i
  · obtain ⟨-, d, hdev, -⟩ := h.in_bucket i hflush.1
    have hi : c.Holds i (d, (c.entries i).lba) := ⟨hflush.1, hdev, rfl⟩
    exact .inr ⟨_, _, _, hflush, hi, if_pos hflush, cacheFlushEntry_spec layer h hi hflush.2.1⟩
  · exact .inl ⟨hflush, if_neg hflush⟩

lemma invalidateTurn_cases (h : WellFormed devId c) (dev i : ℕ) :
    (¬((c.entries i).valid = true ∧ (c.entries i).dev = some dev) ∧
      invalidateTurn layer dev c i = c) ∨
    ∃ k, k.1 = dev ∧ c.Holds i k ∧ Dropped layer devId c (invalidateTurn layer dev c i) i k := by
  by_cases hdrop : (c.entries i).valid = true ∧ (c.entries i).dev = some dev
  · have hi : c.Holds i (dev, (c.entries i).lba) := ⟨hdrop.1, hdrop.2, rfl⟩
    refine .inr ⟨_, rfl, hi, ?_⟩
    rw [invalidateTurn, if_pos hdrop]
    exact dropped_of_clear layer h hi
      (fun e => { e with valid := false, dirty := false, dev := none }) (fun _ => rfl) rfl
  · exact .inl ⟨hdrop, if_neg hdrop⟩

end

section
variable (devId)

def written (logical : Key → Option α) (dev : ℕ) : BitVec 64 → List α → Key → Option α
  | _, [] => logical
  | lba, v :: data => written (update logical (dev, lba) (some v)) dev (lba + 1#64) data

variable (hinit : c.initialized = true)
include hinit

variable {lba : BitVec 64}

lemma blockCacheRead_eq {dev : ℕ} (hcount : count ≠ 0) :
    blockCacheRead layer devId c (some dev) lba count = readLoop layer devId dev count lba c := by
  rw [blockCacheRead, if_neg (by simp [hinit, hcount])]

lemma blockCacheWrite_eq {dev : ℕ} (hdata : data ≠ []) :
    blockCacheWrite layer devId c (some dev) lba data = writeLoop layer devId dev data lba c := by
  rw [blockCacheWrite, if_neg (by simp [hinit, hdata])]

lemma blockCacheFlushDevice_eq (dev : Option ℕ) : blockCacheFlushDevice layer c dev =
    (range cacheCapacity).foldl (flushTurn layer dev) (true, c) := by
  rw [blockCacheFlushDevice, if_neg (by simp [hinit])]

lemma blockCacheInvalidateDevice_eq (dev : ℕ) : blockCacheInvalidateDevice layer c (some dev) =
    (range cacheCapacity).foldl (invalidateTurn layer dev) c := by
  rw [blockCacheInvalidateDevice, if_neg (by simp [hinit])]

end

lemma init_wellFormed (data : ℕ → α) (disk : D) : WellFormed devId (blockCacheInit data disk) := by
  constructor
  case lru_perm => rw [blockCacheInit]
  case in_bucket =>
    intro i hi
    cases hi
  case unique =>
    intro i j k hi
    cases hi.1
  case linked =>
    intro bucket i hi
    cases hi
  case nodup => exact fun _ => nodup_nil

lemma init_view (data : ℕ → α) (disk : D) (k : Key) :
    view devId (blockCacheInit data disk) k = none := rfl

end KosKernel.BlockCache
