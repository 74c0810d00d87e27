import KosKernel.Runs
import KosKernel.WriteBack
import KosKernel.BlockCacheSteps
import KosKernel.BlockDevices

/-! The cache is transparent over devices that do not fail and share no sector: every read
returns what was written last, and a flush brings the device up to date. -/
namespace KosKernel.BlockCache
open WriteBack Function List
variable {D α : Type*} {layer : BlockLayer D α} {devId : ℕ → BitVec 32} {c c' : Cache D α}

/-- A layer of sectors that are read and written without failure, each on its own. -/
structure Reliable (layer : BlockLayer D α) (stored : D → Key → Option α) : Prop where
  read_eq : ∀ d k, (stored d k).isSome → layer.read d k.1 k.2 = (stored d k, d)
  write_ok : ∀ d k v, (stored d k).isSome → (layer.write d k.1 k.2 v).1 = true
  write_eq : ∀ d k v, (stored d k).isSome →
    stored (layer.write d k.1 k.2 v).2 = update (stored d) k (some v)

/-- The state of the cache when `logical` is what should be read. -/
structure Transparent (stored : D → Key → Option α) (devId : ℕ → BitVec 32) (c : Cache D α)
    (logical : Key → Option α) : Prop where
  wf : WellFormed devId c
  initialized : c.initialized = true
  coherent : Coherent (view devId c) (stored c.disk) logical
  inRange : ∀ k, (stored c.disk k).isSome = (logical k).isSome

section
variable {stored : D → Key → Option α} (hlayer : Reliable layer stored) {logical : Key → Option α}
  {i : ℕ} {k : Key}
include hlayer

section
variable (h : Transparent stored devId c logical)
include h

lemma Transparent.write_back (hi : c.Holds i k) (hdirty : (c.entries i).dirty = true) :
    (writeBack layer c i k).1 = true ∧ stored (writeBack layer c i k).2 =
        update (stored c.disk) k (some (c.entries i).data) ∧
      Coherent (update (view devId c) k (some ((c.entries i).data, false)))
        (stored (writeBack layer c i k).2) logical ∧
      ∀ k', (stored (writeBack layer c i k).2 k').isSome = (logical k').isSome := by
  have hview : view devId c k = some ((c.entries i).data, true) := by
    rw [h.wf.view_of_holds hi, hdirty]
  have hlogical := h.coherent.hit k _ true hview
  have hstored : (stored c.disk k).isSome := by
    rw [h.inRange, hlogical]
    rfl
  have hwrite := hlayer.write_eq c.disk k (c.entries i).data hstored
  refine ⟨hlayer.write_ok c.disk k _ hstored, hwrite, ?_, ?_⟩
  · rw [writeBack, hwrite]
    exact h.coherent.write_back hview
  intro k'
  rw [writeBack, hwrite]
  by_cases hk : k' = k
  · subst hk
    rw [update_self, hlogical, Option.isSome_some]
  · rw [update_of_ne hk, h.inRange]

lemma Transparent.dropped (hi : c.Holds i k) (hdrop : Dropped layer devId c c' i k) :
    Transparent stored devId c' logical := by
  have hinit := hdrop.initialized.trans h.initialized
  by_cases hdirty : (c.entries i).dirty = true
  · obtain ⟨-, -, hcoherent, hrange⟩ := h.write_back hlayer hi hdirty
    have hdisk : c'.disk = (writeBack layer c i k).2 := by rw [hdrop.disk, if_pos hdirty]
    refine ⟨hdrop.wf, hinit, ?_, by rwa [hdisk]⟩
    have hgone := hcoherent.drop (k := k) (by simp)
    rw [update_idem] at hgone
    rwa [hdrop.view_eq, hdisk]
  have hdisk : c'.disk = c.disk := by rw [hdrop.disk, if_neg hdirty]
  refine ⟨hdrop.wf, hinit, ?_, by rw [hdisk]; exact h.inRange⟩
  rw [hdrop.view_eq, hdisk]
  apply h.coherent.drop
  intro v hv
  rw [h.wf.view_of_holds hi] at hv
  exact hdirty (congrArg Prod.snd (Option.some.inj hv))

lemma Transparent.room (hroom : RoomMade layer devId c c' i) :
    Transparent stored devId c' logical := by
  obtain ⟨rfl, -⟩ | ⟨k, -, hi, hdrop⟩ := hroom.how
  · exact h
  · exact h.dropped hlayer hi hdrop

lemma Transparent.flushed (hi : c.Holds i k) (hdirty : (c.entries i).dirty = true) {ok : Bool}
    (hflush : FlushedEntry layer devId c c' i k ok) :
    ok = true ∧ Transparent stored devId c' logical := by
  obtain ⟨hok, -, hcoherent, hrange⟩ := h.write_back hlayer hi hdirty
  have hres : ok = true := hflush.result.trans hok
  refine ⟨hres, hflush.wf, hflush.initialized.trans h.initialized, ?_, ?_⟩
  · rw [hflush.view_eq layer h.wf hi, hflush.disk, hres]
    exact hcoherent
  · rw [hflush.disk]
    exact hrange

lemma Transparent.read_sector {v : α} (hk : logical k = some v) :
    (readSector layer devId c k.1 k.2).1 = some v ∧
      Transparent stored devId (readSector layer devId c k.1 k.2).2 logical := by
  have hspec := readSector_spec layer h.wf k
  generalize (readSector layer devId c k.1 k.2).1 = result at hspec
  generalize (readSector layer devId c k.1 k.2).2 = c' at hspec
  have hread : ∀ {c₁ : Cache D α}, Transparent stored devId c₁ logical →
      (layer.read c₁.disk k.1 k.2).1 = stored c₁.disk k ∧
        (layer.read c₁.disk k.1 k.2).2 = c₁.disk := by
    intro c₁ h₁
    rw [hlayer.read_eq c₁.disk k (by rw [h₁.inRange, hk]; rfl)]
    exact ⟨rfl, rfl⟩
  cases hspec with
  | hit hcache hwf hinit hview hdisk =>
    have hv := h.coherent.hit k _ _ hcache
    rw [hk] at hv
    refine ⟨hv.symm, hwf, hinit.trans h.initialized, ?_, ?_⟩
    · rw [hview, hdisk]
      exact h.coherent
    · rw [hdisk]
      exact h.inRange
  | miss hcache hroom hvalue hdisk hnew =>
    have h₁ := h.room hlayer hroom
    rw [(hread h₁).1] at hvalue
    rw [(hread h₁).2] at hdisk
    have hnone := hroom.view_none layer h.wf hcache
    have hlogical := h₁.coherent.clean k (by simp [hnone])
    rw [hvalue, hk] at hlogical
    refine ⟨hlogical, hnew.wf, hnew.initialized.trans h₁.initialized, ?_, ?_⟩
    · rw [hnew.view_eq, hdisk]
      exact h₁.coherent.load hnone hvalue
    · rw [hdisk]
      exact h₁.inRange
  | fail hcache hroom hvalue hdisk hwf hinit hview =>
    have h₁ := h.room hlayer hroom
    rw [(hread h₁).1] at hvalue
    have hrange := h₁.inRange k
    rw [hk, hvalue] at hrange
    cases hrange

lemma Transparent.write_sector (hk : (logical k).isSome) (v : α) :
    (writeSector layer devId c k.1 k.2 v).1 = true ∧
      Transparent stored devId (writeSector layer devId c k.1 k.2 v).2
        (update logical k (some v)) := by
  have put : ∀ {c₁ c' : Cache D α}, Transparent stored devId c₁ logical → c'.disk = c₁.disk →
      Installed devId c₁ c' k v true →
      Transparent stored devId c' (update logical k (some v)) := by
    intro c₁ c' h₁ hdisk hnew
    refine ⟨hnew.wf, hnew.initialized.trans h₁.initialized, ?_, ?_⟩
    · rw [hnew.view_eq, hdisk]
      exact h₁.coherent.put k v
    intro k'
    rw [hdisk, h₁.inRange]
    by_cases hk' : k' = k
    · subst hk'
      rw [update_self, hk]
      rfl
    · rw [update_of_ne hk']
  obtain ⟨hok, hspec⟩ := writeSector_spec layer h.wf k v
  refine ⟨hok, ?_⟩
  generalize (writeSector layer devId c k.1 k.2 v).2 = c' at hspec
  cases hspec with
  | hit hcache hdisk hnew => exact put h hdisk hnew
  | miss hcache hroom hdisk hnew => exact put (h.room hlayer hroom) hdisk hnew

end
end

variable {dev : ℕ}

section
variable {stored : D → Key → Option α} (hlayer : Reliable layer stored)

def contents (logical : Key → Option α) (dev : ℕ) (lba : BitVec 64) (count : ℕ) :
    List (Option α) :=
  (range count).map fun j => logical (dev, lba + BitVec.ofNat 64 j)

lemma contents_succ (logical : Key → Option α) (dev : ℕ) (lba : BitVec 64) (count : ℕ) :
    contents logical dev lba (count + 1) =
      logical (dev, lba) :: contents logical dev (lba + 1#64) count := by
  rw [contents, range_succ_eq_map, map_cons, map_map, contents]
  congr 1
  · rw [show BitVec.ofNat 64 0 = 0#64 from rfl, BitVec.add_zero]
  apply map_congr_left
  intro j _
  rw [comp_apply, BitVec.add_assoc, Nat.succ_eq_one_add, BitVec.ofNat_add]

include hlayer

variable {logical : Key → Option α}

lemma Transparent.read_loop (count : ℕ) (lba : BitVec 64) (h : Transparent stored devId c logical)
    (hrange : ∀ x ∈ contents logical dev lba count, x.isSome) :
    (readLoop layer devId dev count lba c).1.map (map some) =
        some (contents logical dev lba count) ∧
      Transparent stored devId (readLoop layer devId dev count lba c).2 logical := by
  induction count generalizing lba c with
  | zero => exact ⟨rfl, h⟩
  | succ count ih =>
    rw [contents_succ] at hrange ⊢
    obtain ⟨v, hv⟩ := Option.isSome_iff_exists.mp (hrange _ mem_cons_self)
    obtain ⟨hread, h₁⟩ := h.read_sector hlayer hv
    obtain ⟨hrest, h₂⟩ := ih (lba + 1#64) h₁ fun x hx => hrange x (mem_cons_of_mem _ hx)
    rw [readLoop_succ_of_some layer devId hread]
    refine ⟨?_, h₂⟩
    obtain ⟨data, hdata, hmap⟩ := Option.map_eq_some_iff.mp hrest
    rw [hdata, Option.map_some, Option.map_some, map_cons, hmap, hv]

lemma Transparent.write_loop (data : List α) (lba : BitVec 64)
    (h : Transparent stored devId c logical)
    (hrange : ∀ x ∈ contents logical dev lba data.length, x.isSome) :
    (writeLoop layer devId dev data lba c).1 = true ∧
      Transparent stored devId (writeLoop layer devId dev data lba c).2
        (written logical dev lba data) := by
  induction data generalizing lba c logical with
  | nil => exact ⟨rfl, h⟩
  | cons v data ih =>
    rw [length_cons, contents_succ] at hrange
    obtain ⟨hok, h₁⟩ := h.write_sector hlayer (hrange _ mem_cons_self) v
    rw [writeLoop_cons_of_true layer devId hok]
    apply ih (lba + 1#64) h₁
    -- The sector that was written stays in range.
    intro x hx
    obtain ⟨j, hj, rfl⟩ := mem_map.mp hx
    by_cases hkey : ((dev, lba + 1#64 + BitVec.ofNat 64 j) : Key) = (dev, lba)
    · rw [hkey, update_self]
      rfl
    · rw [update_of_ne hkey]
      exact hrange _ (mem_cons_of_mem _ (mem_map.mpr ⟨j, hj, rfl⟩))

lemma Transparent.flush_loop (dev : Option ℕ) (entries : List ℕ) (hents : entries.Nodup)
    (h : Transparent stored devId c logical) :
    (entries.foldl (flushTurn layer dev) (true, c)).1 = true ∧
      Transparent stored devId (entries.foldl (flushTurn layer dev) (true, c)).2 logical ∧
      (∀ i ∈ entries, ¬ToFlush (entries.foldl (flushTurn layer dev) (true, c)).2 dev i) ∧
      ∀ i ∉ entries, (entries.foldl (flushTurn layer dev) (true, c)).2.entries i = c.entries i := by
  induction entries generalizing c with
  | nil => exact ⟨rfl, h, fun i hi => absurd hi not_mem_nil, fun _ _ => rfl⟩
  | cons j entries ih =>
    rw [nodup_cons] at hents
    obtain ⟨c₁, hturn, h₁, hdone, hothers⟩ : ∃ c₁, flushTurn layer dev (true, c) j = (true, c₁) ∧
        Transparent stored devId c₁ logical ∧ ¬ToFlush c₁ dev j ∧
        ∀ i, i ≠ j → c₁.entries i = c.entries i := by
      obtain ⟨hnot, hturn⟩ | ⟨k, ok, c₁, hflush, hi, hturn, hspec⟩ :=
        flushTurn_cases layer h.wf dev true j
      · exact ⟨c, hturn, h, hnot, fun _ _ => rfl⟩
      obtain ⟨hok, h₁⟩ := h.flushed hlayer hi hflush.2.1 hspec
      subst hok
      refine ⟨c₁, hturn, h₁, ?_, hspec.others⟩
      rintro ⟨-, hdirty, -⟩
      rw [hspec.dirty] at hdirty
      cases hdirty
    rw [foldl_cons, hturn]
    obtain ⟨hok, h₂, hclean, hsame⟩ := ih hents.2 h₁
    refine ⟨hok, h₂, ?_, ?_⟩
    · intro i hi
      obtain rfl | hi := mem_cons.mp hi
      · rw [ToFlush, hsame i hents.1]
        exact hdone
      · exact hclean i hi
    intro i hi
    rw [mem_cons, not_or] at hi
    rw [hsame i hi.2, hothers i hi.1]

lemma Transparent.invalidate_loop (dev : ℕ) (entries : List ℕ)
    (h : Transparent stored devId c logical) :
    Transparent stored devId (entries.foldl (invalidateTurn layer dev) c) logical := by
  induction entries generalizing c with
  | nil => exact h
  | cons j entries ih =>
    rw [foldl_cons]
    apply ih
    obtain ⟨-, hturn⟩ | ⟨k, -, hi, hdrop⟩ := invalidateTurn_cases layer h.wf dev j
    · rw [hturn]
      exact h
    · exact h.dropped hlayer hi hdrop

end

variable {lba : BitVec 64}

section
variable {stored : D → Key → Option α} (hlayer : Reliable layer stored)
  {logical : Key → Option α}
include hlayer

section
variable (h : Transparent stored devId c logical)
include h

lemma Transparent.read {count : ℕ} (hcount : count ≠ 0)
    (hrange : ∀ x ∈ contents logical dev lba count, x.isSome) :
    (blockCacheRead layer devId c (some dev) lba count).1.map (map some) =
        some (contents logical dev lba count) ∧
      Transparent stored devId (blockCacheRead layer devId c (some dev) lba count).2 logical := by
  rw [blockCacheRead_eq layer devId h.initialized hcount]
  exact h.read_loop hlayer count lba hrange

lemma Transparent.write {data : List α} (hdata : data ≠ [])
    (hrange : ∀ x ∈ contents logical dev lba data.length, x.isSome) :
    (blockCacheWrite layer devId c (some dev) lba data).1 = true ∧
      Transparent stored devId (blockCacheWrite layer devId c (some dev) lba data).2
        (written logical dev lba data) := by
  rw [blockCacheWrite_eq layer devId h.initialized hdata]
  exact h.write_loop hlayer data lba hrange

lemma Transparent.flush (dev : Option ℕ) :
    (blockCacheFlushDevice layer c dev).1 = true ∧
      Transparent stored devId (blockCacheFlushDevice layer c dev).2 logical ∧
      ∀ k : Key, (dev = none ∨ dev = some k.1) →
        stored (blockCacheFlushDevice layer c dev).2.disk k = logical k := by
  rw [blockCacheFlushDevice_eq layer h.initialized]
  obtain ⟨hok, h', hclean, -⟩ := h.flush_loop hlayer dev _ nodup_range
  generalize (range cacheCapacity).foldl (flushTurn layer dev) (true, c) = r
    at hok h' hclean ⊢
  refine ⟨hok, h', fun k hk => h'.coherent.clean k ?_⟩
  intro v hv
  obtain ⟨i, hi, hentry⟩ := holds_of_view hv
  apply hclean i (mem_range.mpr (h'.wf.in_bucket i hi.1).1)
  refine ⟨hi.1, congrArg Prod.snd hentry, hk.imp_right ?_⟩
  intro hdev
  rw [hdev, hi.2.1]

lemma Transparent.invalidate (dev : Option ℕ) :
    Transparent stored devId (blockCacheInvalidateDevice layer c dev) logical := by
  cases dev with
  | none => exact h
  | some dev =>
    rw [blockCacheInvalidateDevice_eq layer h.initialized]
    exact h.invalidate_loop hlayer dev _

end
end

section
variable {device : ℕ → Device} {registered : ℕ → Bool}

def InRange (device : ℕ → Device) (registered : ℕ → Bool) (k : Key) : Prop :=
  registered k.1 = true ∧ k.2 < (device k.1).totalBlocks

instance (device : ℕ → Device) (registered : ℕ → Bool) (k : Key) :
    Decidable (InRange device registered k) :=
  inferInstanceAs (Decidable (_ ∧ _))

/-- Accesses within the registered devices arrive, and no two sectors of these are one. -/
structure Independent (device : ℕ → Device) (registered : ℕ → Bool) : Prop where
  arrives : ∀ k, InRange device registered k → (locate device true maxDevices k.1 k.2).isSome
  apart : ∀ k k', InRange device registered k → InRange device registered k' →
    locate device true maxDevices k.1 k.2 = locate device true maxDevices k'.1 k'.2 → k = k'

def stored (device : ℕ → Device) (registered : ℕ → Bool) (disks : Disks α) (k : Key) : Option α :=
  if InRange device registered k then blockRead device disks k.1 k.2 else none

lemma Independent.isSome_iff (h : Independent device registered) {disks : Disks α} {k : Key} :
    (stored device registered disks k).isSome ↔ InRange device registered k := by
  rw [stored]
  split
  · next hk =>
    obtain ⟨place, hplace⟩ := Option.isSome_iff_exists.mp (h.arrives k hk)
    rw [blockRead, locate_write hplace]
    exact iff_of_true rfl hk
  · next hk => exact iff_of_false Bool.false_ne_true hk

lemma Independent.reliable (h : Independent device registered) :
    Reliable (deviceLayer (α := α) device) (stored device registered) := by
  constructor
  · intro disks k hk
    rw [stored, if_pos (h.isSome_iff.mp hk)]
    rfl
  · intro disks k v hk
    obtain ⟨place, hplace⟩ := Option.isSome_iff_exists.mp (h.arrives k (h.isSome_iff.mp hk))
    show (blockWrite device disks k.1 k.2 v).1 = true
    rw [blockWrite, hplace]
  intro disks k v hk
  have hin := h.isSome_iff.mp hk
  obtain ⟨place, hplace⟩ := Option.isSome_iff_exists.mp (h.arrives k hin)
  have hwrite : ((deviceLayer device).write disks k.1 k.2 v).2 = update disks place v := by
    show (blockWrite device disks k.1 k.2 v).2 = _
    rw [blockWrite, hplace]
  rw [hwrite]
  funext k'
  by_cases hk' : k' = k
  · subst hk'
    rw [update_self, stored, if_pos hin, blockRead, locate_write hplace,
      Option.map_some, update_self]
  rw [update_of_ne hk', stored, stored]
  split
  · next hin' =>
    obtain ⟨place', hplace'⟩ := Option.isSome_iff_exists.mp (h.arrives k' hin')
    have hne : place' ≠ place := by
      rintro rfl
      exact hk' (h.apart k' k hin' hin (hplace'.trans hplace.symm))
    rw [blockRead, blockRead, locate_write hplace', Option.map_some, Option.map_some,
      update_of_ne hne]
  · rfl

lemma independent_of_disks (h : ∀ dev, registered dev = true → (device dev).online = true ∧
    (device dev).writable = true ∧ (device dev).parent = none) : Independent device registered := by
  have harrives : ∀ k, InRange device registered k →
      locate device true maxDevices k.1 k.2 = some k := by
    intro k hk
    obtain ⟨honline, hwritable, hparent⟩ := h k.1 hk.1
    exact locate_disk honline hwritable hk.2 hparent
  constructor
  · intro k hk
    rw [harrives k hk]
    rfl
  intro k k' hk hk' heq
  rw [harrives k hk, harrives k' hk'] at heq
  exact Option.some.inj heq

end

/-- The cache, with what a user of the devices expects to read. -/
structure Session (α : Type*) where
  cache : Cache (Disks α) α
  logical : Key → Option α

variable (device : ℕ → Device) (registered : ℕ → Bool) (devId : ℕ → BitVec 32)

def Session.start (data : ℕ → α) (disks : Disks α) : Session α where
  cache := blockCacheInit data disks
  logical := stored device registered disks

def Session.step (s : Session α) : Call α → Session α
  | .read dev lba count =>
    { s with cache := (blockCacheRead (deviceLayer device) devId s.cache (some dev) lba count).2 }
  | .write dev lba data =>
    { cache := (blockCacheWrite (deviceLayer device) devId s.cache (some dev) lba data).2
      logical := written s.logical dev lba data }
  | .flush dev => { s with cache := (blockCacheFlushDevice (deviceLayer device) s.cache dev).2 }
  | .sync => { s with cache := (blockCacheSync (deviceLayer device) s.cache).2 }
  | .invalidate dev =>
    { s with cache := blockCacheInvalidateDevice (deviceLayer device) s.cache dev }

def RangeOk (dev : ℕ) (lba : BitVec 64) (count : ℕ) : Prop :=
  ∀ j < count, InRange device registered (dev, lba + BitVec.ofNat 64 j)

instance (dev : ℕ) (lba : BitVec 64) (count : ℕ) :
    Decidable (RangeOk device registered dev lba count) :=
  inferInstanceAs (Decidable (∀ j < count, InRange device registered (dev, lba + BitVec.ofNat 64 j)))

def Call.InRange : Call α → Prop
  | .read dev lba count => RangeOk device registered dev lba count
  | .write dev lba data => RangeOk device registered dev lba data.length
  | _ => True

/-- The cache serves what is expected, of the sectors in range. -/
structure Session.Ok (s : Session α) : Prop where
  transparent : Transparent (stored device registered) devId s.cache s.logical
  inRange : ∀ k, (s.logical k).isSome ↔ InRange device registered k

variable {device registered devId} (h : Independent device registered) {s : Session α}

lemma Session.Ok.contents_isSome (hs : s.Ok device registered devId)
    {count : ℕ} (hrange : RangeOk device registered dev lba count) :
    ∀ x ∈ contents s.logical dev lba count, x.isSome := by
  intro x hx
  obtain ⟨j, hj, rfl⟩ := mem_map.mp hx
  exact (hs.inRange _).mpr (hrange j (mem_range.mp hj))

include h

lemma Session.ok_start (data : ℕ → α) (disks : Disks α) :
    (start device registered data disks).Ok device registered devId := by
  refine ⟨⟨init_wellFormed data disks, rfl, ?_, fun _ => rfl⟩, fun k => h.isSome_iff⟩
  constructor
  · intro k v dirty hcache
    rw [start, init_view] at hcache
    cases hcache
  · exact fun _ _ => rfl

/-- The sectors in range are those of the devices, whatever was written. -/
lemma Session.Ok.of_transparent {c : Cache (Disks α) α} {logical : Key → Option α}
    (hc : Transparent (stored device registered) devId c logical) :
    Session.Ok device registered devId ⟨c, logical⟩ := by
  refine ⟨hc, fun k => ?_⟩
  rw [← hc.inRange k]
  exact h.isSome_iff

lemma Session.Ok.step (hs : s.Ok device registered devId) (call : Call α)
    (hcall : call.InRange device registered) :
    (s.step device devId call).Ok device registered devId := by
  have hlayer := h.reliable (α := α)
  cases call with
  | read dev lba count =>
    apply of_transparent h
    by_cases hcount : count = 0
    · have heq : blockCacheRead (deviceLayer device) devId s.cache (some dev) lba count =
          (none, s.cache) := if_pos (Or.inr hcount)
      rw [heq]
      exact hs.transparent
    · exact (hs.transparent.read hlayer hcount (hs.contents_isSome hcall)).2
  | write dev lba data =>
    apply of_transparent h
    by_cases hdata : data = []
    · subst hdata
      have heq : blockCacheWrite (deviceLayer device) devId s.cache (some dev) lba [] =
          (false, s.cache) := if_pos (Or.inr rfl)
      rw [heq]
      exact hs.transparent
    · exact (hs.transparent.write hlayer hdata (hs.contents_isSome hcall)).2
  | flush dev => exact of_transparent h (hs.transparent.flush hlayer dev).2.1
  | sync => exact of_transparent h (hs.transparent.flush hlayer none).2.1
  | invalidate dev => exact of_transparent h (hs.transparent.invalidate hlayer dev)

/-- In every state that calls within the devices lead to, a read returns what was written last,
or what the device held at the start, and after a flush that is what the device holds. -/
theorem block_cache_transparent (devId : ℕ → BitVec 32) (data : ℕ → α) (disks : Disks α) (calls : List (Call α))
    (hcalls : ∀ call ∈ calls, call.InRange device registered) :
    let s := Runs.run (Session.step device devId) (Session.start device registered data disks) calls
    (∀ dev lba count, count ≠ 0 → RangeOk device registered dev lba count →
      (blockCacheRead (deviceLayer device) devId s.cache (some dev) lba count).1.map
          (map some) = some (contents s.logical dev lba count)) ∧
    (∀ dev, (blockCacheFlushDevice (deviceLayer device) s.cache (some dev)).1 = true ∧
      ∀ lba, stored device registered
        (blockCacheFlushDevice (deviceLayer device) s.cache (some dev)).2.disk (dev, lba) =
          s.logical (dev, lba)) ∧
    (blockCacheSync (deviceLayer device) s.cache).1 = true ∧
      stored device registered (blockCacheSync (deviceLayer device) s.cache).2.disk =
        s.logical := by
  intro s
  have hs : s.Ok device registered devId := by
    have hrun : Runs.Along (Session.step device devId)
        (fun _ call => call.InRange device registered)
        (Session.start device registered data disks) calls := Runs.along_of_forall hcalls
    exact Runs.run_invariant (fun s call hs hcall => hs.step h call hcall)
      (Session.ok_start h data disks) calls hrun
  have hlayer := h.reliable (α := α)
  refine ⟨?_, ?_, ?_⟩
  · intro dev lba count hcount hrange
    exact (hs.transparent.read hlayer hcount (hs.contents_isSome hrange)).1
  · intro dev
    obtain ⟨hok, -, hclean⟩ := hs.transparent.flush hlayer (some dev)
    exact ⟨hok, fun lba => hclean (dev, lba) (Or.inr rfl)⟩
  · obtain ⟨hok, -, hclean⟩ := hs.transparent.flush hlayer none
    exact ⟨hok, funext fun k => hclean k (Or.inl rfl)⟩

omit h

def dividedDisk (dev : ℕ) : Device :=
  if dev = 1 then ⟨true, 4#64, true, some (0, 3#64)⟩ else ⟨true, 10#64, true, none⟩

theorem block_cache_transparent_whole_disk :
    let s := Runs.run (Session.step dividedDisk fun _ => 1#32)
      (Session.start dividedDisk (· == 0) (fun _ => 0) fun _ => 0) [.write 0 3#64 [5, 6]]
    (blockCacheRead (deviceLayer dividedDisk) (fun _ => 1#32) s.cache (some 0) 3#64 2).1.map
        (map some) = some [some 5, some 6] := by
  have hdisk : Independent dividedDisk (· == 0) := by
    apply independent_of_disks
    intro dev hdev
    rw [beq_iff_eq] at hdev
    subst hdev
    exact ⟨rfl, rfl, rfl⟩
  have hrange : RangeOk dividedDisk (· == 0) 0 3#64 2 := by decide
  have hread := (block_cache_transparent hdisk (fun _ => 1#32) (fun _ => 0) (fun _ => 0)
    [.write 0 3#64 [5, 6]] (by simpa [Call.InRange] using hrange)).1 0 3#64 2 (by decide) hrange
  exact hread.trans (by decide)

/-- A disk and its partition, each in range and without failure: what is written to the partition
turns up in the sector of the disk, to which nothing was written. -/
theorem partition_seen_through_disk :
    (∀ k, InRange dividedDisk (· < 2) k →
      (locate dividedDisk true maxDevices k.1 k.2).isSome) ∧
    let s := Runs.run (Session.step dividedDisk fun dev => BitVec.ofNat 32 (dev + 1))
      (Session.start dividedDisk (· < 2) (fun _ => 0) fun _ => 0) [.write 1 0#64 [5], .flush (some 1)]
    RangeOk dividedDisk (· < 2) 0 3#64 1 ∧
    (blockCacheRead (deviceLayer dividedDisk) (fun dev => BitVec.ofNat 32 (dev + 1)) s.cache
      (some 0) 3#64 1).1 = some [5] ∧ contents s.logical 0 3#64 1 = [some 0] := by
  refine ⟨?_, by decide, by decide +kernel, by decide⟩
  rintro ⟨dev, lba⟩ ⟨hdev, hlba⟩
  obtain rfl | rfl : dev = 0 ∨ dev = 1 := by
    have := of_decide_eq_true hdev
    omega
  · have hdisk : locate dividedDisk true maxDevices 0 lba = some (0, lba) :=
      locate_disk rfl rfl hlba rfl
    rw [hdisk]
    rfl
  have hinside : 3#64 + lba < (dividedDisk 0).totalBlocks := by
    have hlba' : lba < 4#64 := hlba
    show 3#64 + lba < 10#64
    bv_omega
  have hpartition : locate dividedDisk true maxDevices 1 lba = some (0, 3#64 + lba) :=
    (locate_partition rfl rfl hlba rfl).trans (locate_disk rfl rfl hinside rfl)
  rw [hpartition]
  rfl

end KosKernel.BlockCache
