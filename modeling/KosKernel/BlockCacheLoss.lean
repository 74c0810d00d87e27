import KosKernel.Runs
import KosKernel.WriteBack
import KosKernel.BlockCacheSteps

/-! Writes that the cache has accepted, over devices that may fail in any way. Data is lost
without a report where an entry is displaced whose device write fails. -/
namespace KosKernel.BlockCache
open WriteBack Function
variable {D α : Type*} (base : BlockLayer D α) {devId : ℕ → BitVec 32}

/-- A layer of devices, with a record of the data that reached each sector last. -/
def recording : BlockLayer (D × (Key → Option α)) α where
  read d dev lba := ((base.read d.1 dev lba).1, (base.read d.1 dev lba).2, d.2)
  write d dev lba v := ((base.write d.1 dev lba v).1, (base.write d.1 dev lba v).2,
    if (base.write d.1 dev lba v).1 then update d.2 (dev, lba) (some v) else d.2)

abbrev RecordedCache (D α : Type*) := Cache (D × (Key → Option α)) α

variable {c c' : RecordedCache D α} {accepted : Key → Option α}

section
variable {i : ℕ} {k : Key}

lemma writeBack_record (c : RecordedCache D α) (i : ℕ) (k : Key) :
    (writeBack (recording base) c i k).2.2 = if (writeBack (recording base) c i k).1 then
      update c.disk.2 k (some (c.entries i).data) else c.disk.2 := rfl

lemma view_of_dirty (h : WellFormed devId c) (hi : c.Holds i k)
    (hdirty : (c.entries i).dirty = true) : view devId c k = some ((c.entries i).data, true) := by
  rw [h.view_of_holds hi, hdirty]

lemma kept_of_dropped (h : WellFormed devId c) (hkept : Kept (view devId c) c.disk.2 accepted)
    (hi : c.Holds i k) (hdrop : Dropped (recording base) devId c c' i k)
    (hok : (c.entries i).dirty = true → (writeBack (recording base) c i k).1 = true) :
    Kept (view devId c') c'.disk.2 accepted := by
  rw [hdrop.view_eq, hdrop.disk]
  by_cases hdirty : (c.entries i).dirty = true
  · rw [if_pos hdirty, writeBack_record, if_pos (hok hdirty)]
    have hclean := hkept.write_back (view_of_dirty h hi hdirty)
    have hgone := hclean.replace (k := k) (by simp) none (by simp)
    rwa [update_idem] at hgone
  rw [if_neg hdirty]
  apply hkept.replace
  · intro v hv
    rw [h.view_of_holds hi] at hv
    exact hdirty (congrArg Prod.snd (Option.some.inj hv))
  · simp

lemma kept_of_lost (hkept : Kept (view devId c) c.disk.2 accepted)
    (hdirty : (c.entries i).dirty = true) (hdrop : Dropped (recording base) devId c c' i k)
    (hfail : (writeBack (recording base) c i k).1 = false) :
    Kept (view devId c') c'.disk.2 (update accepted k none) := by
  rw [hdrop.view_eq, hdrop.disk, if_pos hdirty, writeBack_record, hfail]
  exact hkept.lose k

end

variable {dev : ℕ}

section
variable (devId)

/-- The entry that a write of the sector displaces, if it is dirty, can be written back. -/
def WriteKeeps (c : RecordedCache D α) (k : Key) : Prop :=
  view devId c k = none → ∀ i k', victim c = some i → c.Holds i k' → (c.entries i).dirty = true →
    (writeBack (recording base) c i k').1 = true

/-- The entry that a read of the sector displaces, if it is dirty, can be written back, or it is of
the same device and that fails to read the sector as well. -/
def ReadKeeps (c : RecordedCache D α) (k : Key) : Prop :=
  view devId c k = none → ∀ i k', victim c = some i → c.Holds i k' → (c.entries i).dirty = true →
    (writeBack (recording base) c i k').1 = true ∨
      (k'.1 = k.1 ∧
        ((recording base).read (writeBack (recording base) c i k').2 k.1 k.2).1 = none)

variable {devId}

section
variable (h : WellFormed devId c) (hkept : Kept (view devId c) c.disk.2 accepted)
include h hkept

lemma kept_of_room {i : ℕ} (hroom : RoomMade (recording base) devId c c' i)
    (hok : ∀ k, victim c = some i → c.Holds i k → (c.entries i).dirty = true → (writeBack (recording base) c i k).1 = true) :
    Kept (view devId c') c'.disk.2 accepted := by
  obtain ⟨rfl, -⟩ | ⟨k, hvictim, hi, hdrop⟩ := hroom.how
  · exact hkept
  · exact kept_of_dropped base h hkept hi hdrop (hok k hvictim hi)

lemma writeSector_kept {k : Key} (hok : WriteKeeps base devId c k) (v : α) :
    Kept (view devId (writeSector (recording base) devId c k.1 k.2 v).2)
      (writeSector (recording base) devId c k.1 k.2 v).2.disk.2
      (update accepted k (some v)) := by
  obtain ⟨-, hspec⟩ := writeSector_spec (recording base) h k v
  generalize (writeSector (recording base) devId c k.1 k.2 v).2 = c' at hspec
  cases hspec with
  | hit hcache hdisk hnew =>
    rw [hnew.view_eq, hdisk]
    exact hkept.put k v
  | miss hcache hroom hdisk hnew =>
    rw [hnew.view_eq, hdisk]
    exact (kept_of_room base h hkept hroom fun k' => hok hcache _ k').put k v

end

/-- What a call lost, which it reports as a failure. -/
structure Reported (devId : ℕ → BitVec 32) (c c' : RecordedCache D α) (dev : ℕ) (failed : Prop)
    (lost : Key) : Prop where
  device : lost.1 = dev
  failed : failed
  before : ∃ v, view devId c lost = some (v, true)
  after : view devId c' lost = none

def KeptOrReported (devId : ℕ → BitVec 32) (c c' : RecordedCache D α) (accepted : Key → Option α)
    (dev : ℕ) (failed : Prop) : Prop :=
  Kept (view devId c') c'.disk.2 accepted ∨
    ∃ lost, Reported devId c c' dev failed lost ∧
      Kept (view devId c') c'.disk.2 (update accepted lost none)

/-- What is still accepted after a call on a device failed: not what it displaced there. -/
def unreported (devId : ℕ → BitVec 32) (dev : ℕ) (c c' : RecordedCache D α)
    (accepted : Key → Option α) (k : Key) : Option α :=
  if k.1 = dev ∧ (view devId c k).isSome ∧ view devId c' k = none then none else accepted k

lemma unreported_same (dev : ℕ) : unreported devId dev c c accepted = accepted := by
  funext k
  apply if_neg
  rintro ⟨-, hsome, hnone⟩
  rw [hnone] at hsome
  cases hsome

lemma KeptOrReported.unreported {failed : Prop}
    (h : KeptOrReported devId c c' accepted dev failed) :
    Kept (view devId c') c'.disk.2 (unreported devId dev c c' accepted) := by
  obtain hkept | ⟨lost, hlost, hkept⟩ := h
  · apply hkept.restrict
    intro k
    rw [BlockCache.unreported]
    split
    · next hk => exact .inr ⟨rfl, by simp [hk.2.2]⟩
    · exact .inl rfl
  apply hkept.restrict
  intro k
  rw [BlockCache.unreported]
  split
  · next hk => exact .inr ⟨rfl, by simp [hk.2.2]⟩
  · next hk =>
    have hne : k ≠ lost := by
      rintro rfl
      obtain ⟨w, hw⟩ := hlost.before
      exact hk ⟨hlost.device, by rw [hw]; rfl, hlost.after⟩
    exact .inl (update_of_ne hne ..).symm

lemma KeptOrReported.imp {failed failed' : Prop}
    (h : KeptOrReported devId c c' accepted dev failed) (himp : failed → failed') :
    KeptOrReported devId c c' accepted dev failed' := by
  obtain hkept | ⟨lost, hlost, hkept⟩ := h
  · exact .inl hkept
  · exact .inr ⟨lost, ⟨hlost.device, himp hlost.failed, hlost.before, hlost.after⟩, hkept⟩

lemma readSector_kept (h : WellFormed devId c) (hkept : Kept (view devId c) c.disk.2 accepted)
    {k : Key} (hok : ReadKeeps base devId c k) :
    KeptOrReported devId c (readSector (recording base) devId c k.1 k.2).2 accepted k.1
      ((readSector (recording base) devId c k.1 k.2).1 = none) := by
  have hspec := readSector_spec (recording base) h k
  generalize (readSector (recording base) devId c k.1 k.2).1 = result at hspec
  generalize (readSector (recording base) devId c k.1 k.2).2 = c' at hspec
  cases hspec with
  | hit hcache hwf hinit hview hdisk =>
    left
    rw [hview, hdisk]
    exact hkept
  | miss hcache hroom hread hdisk hnew =>
    left
    have hroom' := kept_of_room base h hkept hroom ?_
    · rw [hnew.view_eq, hdisk]
      apply hroom'.replace
      · simp [hroom.view_none (recording base) h hcache]
      · simp
    intro k' hvictim hi hdirty
    -- The sector was read, so the write of the victim cannot have been excused.
    obtain hwrite | ⟨-, hnone⟩ := hok hcache _ k' hvictim hi hdirty
    · exact hwrite
    obtain ⟨-, hnot⟩ | ⟨k'', -, hi', hdrop⟩ := hroom.how
    · rw [hvictim] at hnot
      cases hnot
    rw [hi.key_eq hi'] at hnone
    rw [hdrop.disk, if_pos hdirty, hnone] at hread
    cases hread
  | @fail i c₁ _ hcache hroom hread hdisk hwf hinit hview =>
    have hdisk' : c'.disk.2 = c₁.disk.2 := by
      rw [hdisk]
      rfl
    rw [KeptOrReported, hdisk', hview]
    obtain ⟨heq, hnot⟩ | ⟨k', hvictim, hi, hdrop⟩ := hroom.how
    · left
      rw [heq]
      exact hkept
    by_cases hlost : (c.entries i).dirty = true ∧ (writeBack (recording base) c i k').1 = false
    · right
      obtain hwrite | ⟨hdev, -⟩ := hok hcache i k' hvictim hi hlost.1
      · rw [hlost.2] at hwrite
        cases hwrite
      refine ⟨k', ⟨hdev, rfl, ⟨_, view_of_dirty h hi hlost.1⟩, ?_⟩,
        kept_of_lost base hkept hlost.1 hdrop hlost.2⟩
      rw [hview, hdrop.view_eq, update_self]
    · left
      apply kept_of_dropped base h hkept hi hdrop
      intro hdirty
      by_contra hwrite
      exact hlost ⟨hdirty, Bool.eq_false_of_not_eq_true hwrite⟩

lemma readSector_dirty (h : WellFormed devId c) {k j : Key} {v : α}
    (hj : view devId (readSector (recording base) devId c k.1 k.2).2 j = some (v, true)) :
    view devId c j = some (v, true) := by
  have room : ∀ {c₁ : RecordedCache D α} {i : ℕ}, RoomMade (recording base) devId c c₁ i →
      view devId c₁ j = some (v, true) → view devId c j = some (v, true) := by
    intro c₁ i hroom hj
    obtain ⟨heq, -⟩ | ⟨k', -, hi, hdrop⟩ := hroom.how
    · rwa [heq] at hj
    rw [hdrop.view_eq] at hj
    obtain rfl | hjk := eq_or_ne j k'
    · rw [update_self] at hj
      cases hj
    · rwa [update_of_ne hjk] at hj
  have hspec := readSector_spec (recording base) h k
  generalize (readSector (recording base) devId c k.1 k.2).1 = result at hspec
  generalize (readSector (recording base) devId c k.1 k.2).2 = c' at hspec hj
  cases hspec with
  | hit hcache hwf hinit hview hdisk => rwa [hview] at hj
  | miss hcache hroom hread hdisk hnew =>
    rw [hnew.view_eq] at hj
    obtain rfl | hjk := eq_or_ne j k
    · rw [update_self] at hj
      cases hj
    · rw [update_of_ne hjk] at hj
      exact room hroom hj
  | fail hcache hroom hread hdisk hwf hinit hview =>
    rw [hview] at hj
    exact room hroom hj

end

section
variable (devId)

/-- Each sector of the range is read without a loss that is not reported. -/
def ReadRangeKeeps (dev : ℕ) : ℕ → BitVec 64 → RecordedCache D α → Prop
  | 0, _, _ => True
  | count + 1, lba, c => ReadKeeps base devId c (dev, lba) ∧
    ((readSector (recording base) devId c dev lba).1 ≠ none →
      ReadRangeKeeps dev count (lba + 1#64) (readSector (recording base) devId c dev lba).2)

def WriteRangeKeeps (dev : ℕ) : List α → BitVec 64 → RecordedCache D α → Prop
  | [], _, _ => True
  | v :: data, lba, c => WriteKeeps base devId c (dev, lba) ∧
    WriteRangeKeeps dev data (lba + 1#64) (writeSector (recording base) devId c dev lba v).2

/-- Each dirty entry of the device can be written back when its turn comes. -/
def InvalidateKeeps (dev : ℕ) : List ℕ → RecordedCache D α → Prop
  | [], _ => True
  | i :: entries, c =>
    (∀ k, c.Holds i k → k.1 = dev → (c.entries i).dirty = true →
      (writeBack (recording base) c i k).1 = true) ∧
    InvalidateKeeps dev entries (invalidateTurn (recording base) dev c i)

variable {devId}

lemma readLoop_kept (count : ℕ) (lba : BitVec 64) (h : WellFormed devId c)
    (hkept : Kept (view devId c) c.disk.2 accepted)
    (hok : ReadRangeKeeps base devId dev count lba c) :
    WellFormed devId (readLoop (recording base) devId dev count lba c).2 ∧
      (readLoop (recording base) devId dev count lba c).2.initialized = c.initialized ∧
      KeptOrReported devId c (readLoop (recording base) devId dev count lba c).2 accepted dev
        ((readLoop (recording base) devId dev count lba c).1 = none) := by
  induction count generalizing lba c with
  | zero => exact ⟨h, rfl, .inl hkept⟩
  | succ count ih =>
    obtain ⟨hwf₁, hinit₁⟩ := (readSector_spec (recording base) h (dev, lba)).wf
    have hsector := readSector_kept base h hkept hok.1
    cases hread : (readSector (recording base) devId c dev lba).1 with
    | none =>
      rw [readLoop_succ_of_none _ devId hread]
      exact ⟨hwf₁, hinit₁, hsector.imp fun _ => rfl⟩
    | some v =>
      rw [readLoop_succ_of_some _ devId hread]
      have hne : (readSector (recording base) devId c dev lba).1 ≠ none := by
        rw [hread]
        exact Option.some_ne_none v
      have hkept₁ := hsector.resolve_right fun ⟨lost, hlost, _⟩ => hne hlost.failed
      obtain ⟨hwf₂, hinit₂, hrest⟩ := ih (lba + 1#64) hwf₁ hkept₁ (hok.2 hne)
      refine ⟨hwf₂, hinit₂.trans hinit₁, hrest.imp_right ?_⟩
      rintro ⟨lost, hlost, hkept₂⟩
      obtain ⟨w, hw⟩ := hlost.before
      exact ⟨lost, ⟨hlost.device, by rw [hlost.failed, Option.map_none],
        ⟨w, readSector_dirty base h hw⟩, hlost.after⟩, hkept₂⟩

lemma writeLoop_kept (data : List α) (lba : BitVec 64) (h : WellFormed devId c)
    (hkept : Kept (view devId c) c.disk.2 accepted)
    (hok : WriteRangeKeeps base devId dev data lba c) :
    (writeLoop (recording base) devId dev data lba c).1 = true ∧
      WellFormed devId (writeLoop (recording base) devId dev data lba c).2 ∧
      (writeLoop (recording base) devId dev data lba c).2.initialized = c.initialized ∧
      Kept (view devId (writeLoop (recording base) devId dev data lba c).2)
        (writeLoop (recording base) devId dev data lba c).2.disk.2
        (written accepted dev lba data) := by
  induction data generalizing lba c accepted with
  | nil => exact ⟨rfl, h, rfl, hkept⟩
  | cons v data ih =>
    obtain ⟨htrue, hspec⟩ := writeSector_spec (recording base) h (dev, lba) v
    obtain ⟨hwf₁, hinit₁⟩ := hspec.wf
    have hkept₁ := writeSector_kept base h hkept hok.1 v
    rw [writeLoop_cons_of_true _ devId htrue]
    obtain ⟨htrue', hwf₂, hinit₂, hkept₂⟩ := ih (lba + 1#64) hwf₁ hkept₁ hok.2
    exact ⟨htrue', hwf₂, hinit₂.trans hinit₁, hkept₂⟩

lemma flushLoop_kept (dev : Option ℕ) (entries : List ℕ) (ok : Bool) (h : WellFormed devId c)
    (hkept : Kept (view devId c) c.disk.2 accepted) :
    WellFormed devId (entries.foldl (flushTurn (recording base) dev) (ok, c)).2 ∧
      (entries.foldl (flushTurn (recording base) dev) (ok, c)).2.initialized = c.initialized ∧
      Kept (view devId (entries.foldl (flushTurn (recording base) dev) (ok, c)).2)
        (entries.foldl (flushTurn (recording base) dev) (ok, c)).2.disk.2 accepted := by
  induction entries generalizing c ok with
  | nil => exact ⟨h, rfl, hkept⟩
  | cons j entries ih =>
    rw [List.foldl_cons]
    obtain ⟨-, hturn⟩ | ⟨k, ok', c₁, hflush, hi, hturn, hspec⟩ :=
      flushTurn_cases (recording base) h dev ok j
    · rw [hturn]
      exact ih ok h hkept
    rw [hturn]
    have hview := view_of_dirty h hi hflush.2.1
    have hkept₁ : Kept (view devId c₁) c₁.disk.2 accepted := by
      rw [hspec.view_eq _ h hi, hspec.disk, writeBack_record, ← hspec.result]
      cases ok' with
      | true => exact hkept.write_back hview
      | false =>
        -- The entry stays dirty.
        rw [Bool.not_false, ← hview, update_eq_self]
        exact hkept
    obtain ⟨hwf₂, hinit₂, hkept₂⟩ := ih (ok && ok') hspec.wf hkept₁
    exact ⟨hwf₂, hinit₂.trans hspec.initialized, hkept₂⟩

lemma invalidateLoop_kept (dev : ℕ) (entries : List ℕ) (h : WellFormed devId c)
    (hkept : Kept (view devId c) c.disk.2 accepted) (hok : InvalidateKeeps base dev entries c) :
    WellFormed devId (entries.foldl (invalidateTurn (recording base) dev) c) ∧
      (entries.foldl (invalidateTurn (recording base) dev) c).initialized = c.initialized ∧
      Kept (view devId (entries.foldl (invalidateTurn (recording base) dev) c))
        (entries.foldl (invalidateTurn (recording base) dev) c).disk.2 accepted := by
  induction entries generalizing c with
  | nil => exact ⟨h, rfl, hkept⟩
  | cons j entries ih =>
    rw [List.foldl_cons]
    obtain ⟨-, hturn⟩ | ⟨k, hdev, hi, hdrop⟩ := invalidateTurn_cases (recording base) h dev j
    · have hrest := hok.2
      rw [hturn] at hrest ⊢
      exact ih h hkept hrest
    have hkept₁ := kept_of_dropped base h hkept hi hdrop (hok.1 k hi hdev)
    obtain ⟨hwf₂, hinit₂, hkept₂⟩ := ih hdrop.wf hkept₁ hok.2
    exact ⟨hwf₂, hinit₂.trans hdrop.initialized, hkept₂⟩

end

/-- The cache, with the data last accepted for each sector unless its loss was reported. -/
structure AckSession (D α : Type*) where
  cache : RecordedCache D α
  accepted : Key → Option α

open AckSession

def AckSession.start (data : ℕ → α) (disk : D) : AckSession D α where
  cache := blockCacheInit data (disk, fun _ => none)
  accepted := fun _ => none

variable (devId)

/-- A read that fails reports the loss of what it displaced on its device. -/
def AckSession.step (s : AckSession D α) : Call α → AckSession D α
  | .read dev lba count =>
    match blockCacheRead (recording base) devId s.cache (some dev) lba count with
    | (some _, c) => { s with cache := c }
    | (none, c) => { cache := c, accepted := unreported devId dev s.cache c s.accepted }
  | .write dev lba data =>
    match blockCacheWrite (recording base) devId s.cache (some dev) lba data with
    | (true, c) => { cache := c, accepted := written s.accepted dev lba data }
    | (false, c) => { s with cache := c }
  | .flush dev => { s with cache := (blockCacheFlushDevice (recording base) s.cache dev).2 }
  | .sync => { s with cache := (blockCacheSync (recording base) s.cache).2 }
  | .invalidate dev => { s with cache := blockCacheInvalidateDevice (recording base) s.cache dev }

def Call.Keeps (s : AckSession D α) : Call α → Prop
  | .read dev lba count => ReadRangeKeeps base devId dev count lba s.cache
  | .write dev lba data => WriteRangeKeeps base devId dev data lba s.cache
  | .invalidate (some dev) => InvalidateKeeps base dev (List.range cacheCapacity) s.cache
  | _ => True

structure AckSession.Ok (s : AckSession D α) : Prop where
  wf : WellFormed devId s.cache
  initialized : s.cache.initialized = true
  kept : Kept (view devId s.cache) s.cache.disk.2 s.accepted

variable {devId} {s : AckSession D α}

lemma AckSession.ok_start (data : ℕ → α) (disk : D) : (start data disk).Ok devId := by
  refine ⟨init_wellFormed data _, rfl, ?_, ?_⟩
  · intro k v hv
    rw [start, init_view] at hv
    cases hv
  · intro k v hv
    cases hv

section
variable (hs : s.Ok devId)
include hs

lemma AckSession.Ok.read {lba : BitVec 64} {count : ℕ}
    (hcall : ReadRangeKeeps base devId dev count lba s.cache) :
    (s.step base devId (.read dev lba count)).Ok devId := by
  obtain rfl | hcount := eq_or_ne count 0
  · have heq : blockCacheRead (recording base) devId s.cache (some dev) lba 0 = (none, s.cache) :=
      if_pos (.inr rfl)
    have hstep : s.step base devId (.read dev lba 0) = s := by
      simp only [step, heq]
      rw [unreported_same]
    rw [hstep]
    exact hs
  · obtain ⟨hwf, hinit, hkept⟩ := readLoop_kept base count lba hs.wf hs.kept hcall
    rw [← blockCacheRead_eq _ devId hs.initialized hcount] at hwf hinit hkept
    rw [step]
    generalize blockCacheRead (recording base) devId s.cache (some dev) lba count = r
      at hwf hinit hkept
    obtain ⟨result, c⟩ := r
    cases result with
    | some values =>
      refine ⟨hwf, hinit.trans hs.initialized, hkept.resolve_right ?_⟩
      rintro ⟨lost, hlost, -⟩
      cases hlost.failed
    | none => exact ⟨hwf, hinit.trans hs.initialized, hkept.unreported⟩

lemma AckSession.Ok.write {lba : BitVec 64} {data : List α}
    (hcall : WriteRangeKeeps base devId dev data lba s.cache) :
    (s.step base devId (.write dev lba data)).Ok devId := by
  by_cases hdata : data = []
  · subst hdata
    have heq : blockCacheWrite (recording base) devId s.cache (some dev) lba [] = (false, s.cache) :=
      if_pos (.inr rfl)
    have hstep : s.step base devId (.write dev lba []) = s := by simp only [step, heq]
    rw [hstep]
    exact hs
  obtain ⟨htrue, hwf, hinit, hkept⟩ := writeLoop_kept base data lba hs.wf hs.kept hcall
  rw [← blockCacheWrite_eq _ devId hs.initialized hdata] at htrue hwf hinit hkept
  rw [step]
  generalize blockCacheWrite (recording base) devId s.cache (some dev) lba data = r
    at htrue hwf hinit hkept
  obtain ⟨ok, c⟩ := r
  subst htrue
  exact ⟨hwf, hinit.trans hs.initialized, hkept⟩

lemma AckSession.Ok.flush (dev : Option ℕ) : (s.step base devId (.flush dev)).Ok devId := by
  obtain ⟨hwf, hinit, hkept⟩ : WellFormed devId (blockCacheFlushDevice (recording base) s.cache dev).2 ∧
      (blockCacheFlushDevice (recording base) s.cache dev).2.initialized = s.cache.initialized ∧
      Kept (view devId (blockCacheFlushDevice (recording base) s.cache dev).2)
        (blockCacheFlushDevice (recording base) s.cache dev).2.disk.2 s.accepted := by
    rw [blockCacheFlushDevice_eq _ hs.initialized]
    generalize List.range cacheCapacity = entries
    exact flushLoop_kept base dev entries true hs.wf hs.kept
  exact ⟨hwf, hinit.trans hs.initialized, hkept⟩

lemma AckSession.Ok.step (call : Call α) (hcall : call.Keeps base devId s) :
    (s.step base devId call).Ok devId := by
  cases call with
  | read dev lba count => exact hs.read base hcall
  | write dev lba data => exact hs.write base hcall
  | flush dev => exact hs.flush base dev
  | sync => exact hs.flush base none
  | invalidate dev =>
    cases dev with
    | none => exact hs
    | some dev =>
      rw [Call.Keeps] at hcall
      rw [AckSession.step, blockCacheInvalidateDevice_eq _ hs.initialized]
      generalize List.range cacheCapacity = entries at hcall ⊢
      obtain ⟨hwf, hinit, hkept⟩ := invalidateLoop_kept base dev entries hs.wf hs.kept hcall
      exact ⟨hwf, hinit.trans hs.initialized, hkept⟩

end

/-- For devices that fail in any way: data that was accepted is read from the cache or has reached
its device, or its loss was reported, in every state that is reached by calls which displace no
dirty entry that the device refuses. -/
theorem acknowledged_writes_kept (base : BlockLayer D α) (devId : ℕ → BitVec 32) (data : ℕ → α)
    (disk : D) (calls : List (Call α))
    (hcalls : Runs.Along (AckSession.step base devId) (fun s call => call.Keeps base devId s)
      (AckSession.start data disk) calls) :
    let s := Runs.run (AckSession.step base devId) (AckSession.start data disk) calls
    ∀ k v, s.accepted k = some v →
      (blockCacheRead (recording base) devId s.cache (some k.1) k.2 1).1 = some [v] ∨
        s.cache.disk.2 k = some v := by
  intro s k v hv
  have hs : s.Ok devId := Runs.run_invariant (fun s call hs hcall => hs.step base call hcall)
    (ok_start data disk) calls hcalls
  refine (hs.kept.kept k v hv).imp_left ?_
  intro hview
  rw [blockCacheRead_eq _ devId hs.initialized one_ne_zero]
  have hsector := readSector_of_view (recording base) hs.wf hview
  have hloop := readLoop_one (recording base) devId hsector
  rw [hloop]

section
variable {base} (haccept : ∀ d dev lba v, (base.write d dev lba v).1 = true)
include haccept

lemma readRangeKeeps_of_accepting (dev count : ℕ) (lba : BitVec 64) (c : RecordedCache D α) :
    ReadRangeKeeps base devId dev count lba c := by
  induction count generalizing lba c with
  | zero => trivial
  | succ count ih => exact ⟨fun _ _ _ _ _ _ => .inl (haccept ..), fun _ => ih ..⟩

lemma writeRangeKeeps_of_accepting (dev : ℕ) (data : List α) (lba : BitVec 64)
    (c : RecordedCache D α) : WriteRangeKeeps base devId dev data lba c := by
  induction data generalizing lba c with
  | nil => trivial
  | cons v data ih => exact ⟨fun _ _ _ _ _ _ => haccept .., ih ..⟩

lemma invalidateKeeps_of_accepting (dev : ℕ) (entries : List ℕ) (c : RecordedCache D α) :
    InvalidateKeeps base dev entries c := by
  induction entries generalizing c with
  | nil => trivial
  | cons i entries ih => exact ⟨fun _ _ _ _ => haccept .., ih ..⟩

/-- Over devices that accept every write no call loses anything. -/
lemma keeps_of_accepting (call : Call α) (s : AckSession D α) : call.Keeps base devId s := by
  cases call with
  | read dev lba count => exact readRangeKeeps_of_accepting haccept dev count lba s.cache
  | write dev lba data => exact writeRangeKeeps_of_accepting haccept dev data lba s.cache
  | flush dev => trivial
  | sync => trivial
  | invalidate dev =>
    cases dev with
    | none => trivial
    | some dev =>
      rw [Call.Keeps]
      generalize List.range cacheCapacity = entries
      exact invalidateKeeps_of_accepting haccept dev entries s.cache

end

def constantDevice (ok : Bool) : BlockLayer Unit ℕ where
  read _ _ _ := (some 0, ())
  write _ _ _ _ := (ok, ())

theorem acknowledged_writes_kept_invalidated :
    let s := Runs.run (AckSession.step (constantDevice true) fun _ => 1#32)
      (AckSession.start (fun _ => 0) ()) [.write 0 0#64 [5], .invalidate (some 0)]
    (blockCacheRead (recording (constantDevice true)) (fun _ => 1#32) s.cache (some 0) 0#64 1).1 =
      some [5] ∨ s.cache.disk.2 (0, 0#64) = some 5 := by
  have hcalls : Runs.Along (step (constantDevice true) fun _ => 1#32)
      (fun s call => call.Keeps (constantDevice true) (fun _ => 1#32) s)
      (start (fun _ => 0) ()) [.write 0 0#64 [5], .invalidate (some 0)] :=
    Runs.along_of_all fun s call => keeps_of_accepting (fun _ _ _ _ => rfl) call s
  exact acknowledged_writes_kept (constantDevice true) (fun _ => 1#32) (fun _ => 0) ()
    [.write 0 0#64 [5], .invalidate (some 0)] hcalls (0, 0#64) 5 (by decide +kernel)

/-- The write was accepted and every call that could report its loss succeeded. -/
theorem refused_write_back_lost :
    let s := Runs.run (AckSession.step (constantDevice false) fun _ => 1#32)
      (AckSession.start (fun _ => 0) ()) [.write 0 0#64 [5], .invalidate (some 0)]
    s.accepted (0, 0#64) = some 5 ∧
    (blockCacheRead (recording (constantDevice false)) (fun _ => 1#32) s.cache (some 0) 0#64 1).1 =
      some [0] ∧ s.cache.disk.2 (0, 0#64) = none := by
  decide +kernel

end KosKernel.BlockCache
