import KosKernel.VolumeState
import KosKernel.VfsPaths

/-! Requests go to the device of their letter as long as one FAT32 volume is mounted at a time. -/
namespace KosKernel.Volumes
open Vfs List

def isFat (volume : Volume Backing) : Bool :=
  match volume.backend.handle with
  | .fat _ => true
  | .other _ => false

/-- A FAT32 device is mounted only while no letter has a FAT32 volume. -/
def mountsAlone (s : Manager) : Call → Bool
  | .mountDevice request => !request.probes || s.volumes.all fun volume => !isFat volume
  | .unmountLetter _ => true

/-- At most one letter has a FAT32 volume. It is the active one, and its entry tells whether it
is mounted. -/
structure Single (s : Manager) : Prop where
  entry_volume : ∀ entry ∈ s.entries, entry.isMounted = true →
    (∃ volume, findVolume s.volumes entry.letter = some volume ∧
      volume.backend = fatBackend entry.handle) ∧
    s.fatVolumes[entry.handle]? = some ⟨entry.device, true⟩
  fat_active : ∀ volume ∈ s.volumes, ∀ handle, volume.backend.handle = .fat handle →
    s.active = some handle
  fat_entry : ∀ volume ∈ s.volumes, ∀ handle, volume.backend.handle = .fat handle →
    ∀ device, s.fatVolumes[handle]? = some ⟨device, true⟩ →
      ∃ entry ∈ s.entries, entry.isMounted = true ∧ normalizeLetter entry.letter = volume.letter
  one_entry : s.entries.Pairwise fun a b => ¬(a.isMounted = true ∧ b.isMounted = true)

variable {volume : Volume Backing}

variable {handle : ℕ}

section
variable {s : Manager} (h : Single s) (hplain : ∀ volume ∈ s.volumes, isFat volume = false)
include h hplain

lemma Single.unmounted : ∀ entry ∈ s.entries, ¬entry.isMounted = true := by
  intro entry hentry hmount
  obtain ⟨⟨volume, hfind, hbackend⟩, -⟩ := h.entry_volume entry hentry hmount
  have hfat := hplain volume (findVolume_letter hfind).1
  simp [isFat, hbackend, fatBackend] at hfat

omit h in
lemma plain_handle (hvolume : volume ∈ s.volumes)
    (hhandle : volume.backend.handle = .fat handle) : False := by
  have hfat := hplain volume hvolume
  simp [isFat, hhandle] at hfat

lemma Single.refused (fatVolumes : List FatVolume) (active : Option ℕ) :
    Single { s with fatVolumes, active } where
  entry_volume entry hentry hmount := absurd hmount (h.unmounted hplain entry hentry)
  fat_active _ hvolume _ hhandle := (plain_handle hplain hvolume hhandle).elim
  fat_entry _ hvolume _ hhandle := (plain_handle hplain hvolume hhandle).elim
  one_entry := h.one_entry

lemma Single.mounted {letter : Character} (hfree : findVolume s.volumes letter = none)
    (label : List Character) (device : ℕ) :
    Single
      { volumes := s.volumes ++ [⟨normalizeLetter letter, label, fatBackend s.fatVolumes.length⟩]
        entries := s.entries ++ [⟨letter, device, s.fatVolumes.length, true⟩]
        fatVolumes := s.fatVolumes ++ [⟨device, true⟩]
        active := some s.fatVolumes.length } where
  entry_volume entry hentry hmount := by
    rcases mem_append.mp hentry with hold | hnew
    · exact absurd hmount (h.unmounted hplain entry hold)
    obtain rfl := mem_singleton.mp hnew
    refine ⟨⟨⟨normalizeLetter letter, label, fatBackend s.fatVolumes.length⟩, ?_, rfl⟩, by simp⟩
    rw [findVolume, find?_append]
    rw [findVolume] at hfree
    rw [hfree]
    simp
  fat_active volume hvolume handle hhandle := by
    rcases mem_append.mp hvolume with hold | hnew
    · exact (plain_handle hplain hold hhandle).elim
    · obtain rfl := mem_singleton.mp hnew
      exact congrArg some (Backing.fat.inj hhandle)
  fat_entry volume hvolume handle hhandle device' _ := by
    rcases mem_append.mp hvolume with hold | hnew
    · exact (plain_handle hplain hold hhandle).elim
    · obtain rfl := mem_singleton.mp hnew
      exact ⟨_, mem_append_right _ (mem_singleton_self _), rfl, rfl⟩
  one_entry := by
    refine pairwise_append.mpr ⟨h.one_entry, pairwise_singleton _ _, ?_⟩
    intro entry hentry _ _ hboth
    exact h.unmounted hplain entry hentry hboth.1

end

variable {s : Manager} {letter : Character}

lemma Single.mountDevice (h : Single s) {request : MountRequest}
    (halone : mountsAlone s (.mountDevice request) = true) :
    Single (volumeManagerMountDevice s request).2 := by
  unfold volumeManagerMountDevice
  split
  · exact h
  split
  · exact h
  · next letter hletter =>
    split
    · exact h
    · next hprobes =>
      split
      · exact h
      have hplain : ∀ volume ∈ s.volumes, isFat volume = false := by
        simpa [mountsAlone, hprobes] using halone
      rcases vfsMountVolume_cases s.volumes letter (some (volumeLabel request.label))
        (some (fatBackend s.fatVolumes.length)) with
        hrefuse | ⟨name, target, hname, htarget, hfree, hmount⟩
      · simp only [hrefuse]
        exact h.refused hplain _ _
      obtain rfl := Option.some.inj htarget
      simp only [hmount]
      exact h.mounted hplain hfree name request.device

lemma unmountEntry_eq_some {entries entries' : List Entry} {entry : Entry}
    (h : unmountEntry letter entries = some (entry, entries')) :
    ∃ before after, entries = before ++ entry :: after ∧
      entries' = before ++ { entry with isMounted := false } :: after ∧
      entry.letter = letter ∧ entry.isMounted = true := by
  induction entries generalizing entries' with
  | nil => cases h
  | cons first rest ih =>
    rw [unmountEntry] at h
    split at h
    · next hfirst =>
      obtain ⟨rfl, rfl⟩ := Prod.mk.inj (Option.some.inj h)
      exact ⟨[], rest, rfl, rfl, hfirst⟩
    obtain ⟨⟨found, rest'⟩, hfound, hpair⟩ := Option.map_eq_some_iff.mp h
    obtain ⟨rfl, rfl⟩ : found = entry ∧ first :: rest' = entries' := by simpa using hpair
    obtain ⟨before, after, rfl, rfl, hfacts⟩ := ih hfound
    exact ⟨first :: before, after, rfl, rfl, hfacts⟩

lemma vfsUnmountVolume_subset (volumes : Vfs.Volumes Backing) (letter : Character) (h : volume ∈ (vfsUnmountVolume volumes letter).2) :
    volume ∈ volumes := by
  rcases vfsUnmountVolume_cases volumes letter with hrefuse | ⟨-, hunmounted⟩
  · rwa [hrefuse] at h
  · rw [hunmounted] at h
    exact mem_of_mem_eraseP h

lemma Single.unmountLetter (h : Single s) (letter : Character) :
    Single (volumeManagerUnmountLetter s letter).2 := by
  unfold volumeManagerUnmountLetter
  split
  · exact h
  · next entry entries' hfound =>
    obtain ⟨before, after, hents, rfl, -, hmount⟩ := unmountEntry_eq_some hfound
    have hentry : entry ∈ s.entries := by simp [hents]
    -- the entry was the only one that was mounted
    have hone := h.one_entry
    rw [hents, pairwise_append, pairwise_cons] at hone
    have hnone : ∀ e ∈ before ++ { entry with isMounted := false } :: after,
        ¬e.isMounted = true := by
      intro e he hon
      rcases mem_append.mp he with hbefore | hrest
      · exact hone.2.2 e hbefore entry mem_cons_self ⟨hon, hmount⟩
      rcases mem_cons.mp hrest with rfl | hafter
      · cases hon
      · exact hone.2.1.1 e hafter ⟨hmount, hon⟩
    -- its volume was the active one, and is now unmounted
    obtain ⟨⟨volume, hfind, hbackend⟩, -⟩ := h.entry_volume entry hentry hmount
    have hact : s.active = some entry.handle :=
      h.fat_active volume (findVolume_letter hfind).1 entry.handle (by rw [hbackend]; rfl)
    refine ⟨fun e he hon => absurd hon (hnone e he), ?_, ?_, ?_⟩
    · intro v hv handle hhandle
      exact h.fat_active v (vfsUnmountVolume_subset s.volumes letter hv) handle hhandle
    · intro v hv handle hhandle device hdevice
      have hsame := h.fat_active v (vfsUnmountVolume_subset s.volumes letter hv) handle hhandle
      obtain rfl : entry.handle = handle := Option.some.inj (hact.symm.trans hsame)
      rw [fat32Unmount, getElem?_modify_eq] at hdevice
      cases hfat : s.fatVolumes[entry.handle]? <;> simp [hfat] at hdevice
    · exact pairwise_of_forall_mem_list fun a ha _ _ hboth => hnone a ha hboth.1

lemma Single.step (h : Single s) {call : Call} (halone : mountsAlone s call = true) :
    Single (step s call) := by
  cases call with
  | mountDevice request => exact h.mountDevice halone
  | unmountLetter letter => exact h.unmountLetter letter

/-- A request that the VFS does not turn away before it reads the path. -/
def accepted : Request → Prop
  | .read _ => True
  | .write _ data size => data = none → size = 0
  | .unlink _ => True

variable {volumes : Vfs.Volumes Backing}

lemma findVolume_congr {a b : Character}
    (h : normalizeLetter a = normalizeLetter b) : findVolume volumes a = findVolume volumes b := by
  rw [findVolume, findVolume, h]

variable {request : Request} {relative : List Character}

lemma target_eq
    (hparse : parsePath request.path = some (letter, relative)) (hacc : accepted request) (hfind : findVolume volumes letter = some volume)
    (hbackend : volume.backend = fatBackend handle) :
    request.target volumes = some (fatBackend handle, relative) := by
  have hlock : parsePathLocked volumes request.path = some (fatBackend handle, relative) := by
    simp [parsePathLocked, hparse, hfind, hbackend]
  cases request with
  | read path =>
    rw [Request.path] at hlock
    simp [Request.target, vfsReadFile, reach, hlock, fatBackend]
  | write path data size =>
    rw [Request.path] at hlock
    have hvalid : ¬(data = none ∧ size ≠ 0) := fun hbad => hbad.2 (hacc hbad.1)
    rw [Request.target, vfsWriteFile, if_neg hvalid]
    simp [reach, hlock, fatBackend]
  | unlink path =>
    rw [Request.path] at hlock
    simp [Request.target, vfsUnlinkFile, reach, hlock, fatBackend]

lemma Single.routed (h : Single s)
    (hparse : parsePath request.path = some (letter, relative)) (hacc : accepted request) :
    operatedDevice s request = mountedAt s letter := by
  unfold mountedAt
  cases hentry : s.entries.find? fun entry =>
      entry.isMounted && normalizeLetter entry.letter == normalizeLetter letter with
  | some entry =>
    have hfound := find?_some hentry
    simp only [Bool.and_eq_true, beq_iff_eq] at hfound
    obtain ⟨⟨volume, hfind, hbackend⟩, hfat⟩ :=
      h.entry_volume entry (mem_of_find?_eq_some hentry) hfound.1
    have hact : s.active = some entry.handle :=
      h.fat_active volume (findVolume_letter hfind).1 entry.handle (by rw [hbackend]; rfl)
    rw [findVolume_congr hfound.2] at hfind
    rw [operatedDevice, target_eq hparse hacc hfind hbackend]
    simp [fatBackend, activeDevice, hact, hfat]
  | none =>
    rw [Option.map_none]
    cases htarget : request.target s.volumes with
    | none => simp [operatedDevice, htarget]
    | some target =>
      obtain ⟨backend, relative'⟩ := target
      obtain ⟨letter', volume, hparse', hfind, rfl⟩ :=
        parsePathLocked_eq_some (Request.target_parsed htarget)
      obtain ⟨rfl, rfl⟩ : letter = letter' ∧ relative = relative' := by
        simpa using hparse.symm.trans hparse'
      obtain ⟨hmem, hletter⟩ := findVolume_letter hfind
      rw [operatedDevice, htarget]
      cases hhandle : volume.backend.handle with
      | other id => simp [hhandle]
      | fat handle =>
        -- the volume has no entry that is mounted, so it is unmounted itself
        simp only [hhandle, activeDevice, h.fat_active volume hmem handle hhandle]
        split
        · rfl
        · next f hf =>
          rw [if_neg]
          intro hmount
          obtain ⟨entry, hin, hon, hsame⟩ :=
            h.fat_entry volume hmem handle hhandle f.device (by rw [hf, ← hmount])
          have hnot := find?_eq_none.mp hentry entry hin
          simp [hon, hsame, hletter] at hnot

/-- The state when the volume manager starts: other file systems may have letters. -/
def start (volumes : Vfs.Volumes Backing) : Manager := ⟨volumes, [], [], none⟩

/-- Along every sequence of calls that mounts FAT32 devices one at a time, a request works on the
device that is mounted at its letter. -/
theorem letters_route_to_devices (volumes : Vfs.Volumes Backing)
    (hplain : ∀ volume ∈ volumes, isFat volume = false) (calls : List Call)
    (halone : Runs.Along step (fun s call => mountsAlone s call = true) (start volumes) calls)
    (request : Request) (letter : Character) (relative : List Character)
    (hparse : parsePath request.path = some (letter, relative)) (haccepted : accepted request) :
    operatedDevice (Runs.run step (start volumes) calls) request =
      mountedAt (Runs.run step (start volumes) calls) letter := by
  have hstart : Single (start volumes) := by
    refine ⟨by simp [start], ?_, ?_, List.Pairwise.nil⟩
    · exact fun volume hvolume handle hhandle => (plain_handle hplain hvolume hhandle).elim
    · exact fun volume hvolume handle hhandle => (plain_handle hplain hvolume hhandle).elim
  have hrun := Runs.run_invariant (fun (s : Manager) call (h : Single s) hc => h.step hc) hstart
    calls halone
  exact hrun.routed hparse haccepted

def systemVolumes : Vfs.Volumes Backing :=
  [⟨letterC, systemLabel, ⟨.other 0, true, false, true, true, false⟩⟩]

def firstDevice : MountRequest := ⟨1, 0, none, true, true⟩
def secondDevice : MountRequest := ⟨2, 0, none, true, true⟩

def fileOnE : Path := ⟨[0x45, 0x3a, 0x2f, 0x41], by decide⟩

theorem letters_route_to_devices_remounted :
    operatedDevice
        (Runs.run step (start systemVolumes)
          [.mountDevice firstDevice, .unmountLetter 0x45, .mountDevice secondDevice])
        (.read fileOnE) =
      mountedAt
        (Runs.run step (start systemVolumes)
          [.mountDevice firstDevice, .unmountLetter 0x45, .mountDevice secondDevice]) 0x45 :=
  letters_route_to_devices systemVolumes (by decide) _ (by decide +kernel) (.read fileOnE) 0x45
    [0x41] (by decide) trivial

/-- The second mount takes over the first letter. -/
theorem second_mount_takes_over_letter :
    mountedAt
        (Runs.run step (start systemVolumes) [.mountDevice firstDevice, .mountDevice secondDevice])
        0x45 = some 1 ∧
      operatedDevice
        (Runs.run step (start systemVolumes) [.mountDevice firstDevice, .mountDevice secondDevice])
        (.read fileOnE) = some 2 := by
  decide +kernel

end KosKernel.Volumes
