import KosKernel.VfsState

/-! The volume manager of `fs/volume.c` over the FAT32 volumes of `fs/fat32.c`. All FAT32 volumes
hand the same functions to the VFS, and these work on the one volume that was set last. -/
namespace KosKernel.Volumes
open Vfs

def maxEntries : ℕ := 16
def maxFatVolumes : ℕ := 8

/-- What stands behind a backend: a volume in the table of FAT32, or another file system. -/
inductive Backing where
  | fat (index : ℕ)
  | other (id : ℕ)
  deriving DecidableEq

structure FatVolume where
  device : ℕ
  mounted : Bool
  deriving DecidableEq

structure Entry where
  letter : Character
  device : ℕ
  handle : ℕ
  isMounted : Bool
  deriving DecidableEq

structure Manager where
  volumes : Vfs.Volumes Backing
  entries : List Entry
  fatVolumes : List FatVolume
  /-- `g_active_vfs_vol`. -/
  active : Option ℕ
  deriving DecidableEq

/-- A call of `volume_manager_mount_device`, with the answers of the device: whether it probes as
FAT32, and whether `fat32_mount` then reads its boot sector and takes it. -/
structure MountRequest where
  device : ℕ
  requested : Character
  label : Option (List Character)
  probes : Bool
  boots : Bool
  deriving DecidableEq

inductive Call where
  | mountDevice (request : MountRequest)
  | unmountLetter (letter : Character)
  deriving DecidableEq

def blockLetters : List Character := (List.range 22).map fun i => 0x45 + BitVec.ofNat 8 i

def getNextAvailableLetter (volumes : Vfs.Volumes Backing) : Option Character :=
  blockLetters.find? fun letter => (findVolume volumes letter).isNone

def targetLetter (volumes : Vfs.Volumes Backing) (requested : Character) : Option Character :=
  if requested = 0 ∨ (findVolume volumes requested).isSome then getNextAvailableLetter volumes
  else some requested

def defaultLabel : List Character := [0x46, 0x41, 0x54, 0x33, 0x32, 0x5f, 0x56, 0x4f, 0x4c]

def volumeLabel : Option (List Character) → List Character
  | none => defaultLabel
  | some [] => defaultLabel
  | some label => label

/-- `fat32_get_vfs_backend` sets all functions. -/
def fatBackend (handle : ℕ) : Backend Backing := ⟨.fat handle, true, true, true, true, true⟩

def fat32Unmount (fatVolumes : List FatVolume) (handle : ℕ) : List FatVolume :=
  fatVolumes.modify handle fun volume => { volume with mounted := false }

def volumeManagerMountDevice (s : Manager) (request : MountRequest) : Bool × Manager :=
  if maxEntries ≤ s.entries.length then (false, s)
  else
    match targetLetter s.volumes request.requested with
    | none => (false, s)
    | some letter =>
      if request.probes = false then (false, s)
      else if request.boots = false ∨ maxFatVolumes ≤ s.fatVolumes.length then (false, s)
      else
        let handle := s.fatVolumes.length
        let fatVolumes := s.fatVolumes ++ [⟨request.device, true⟩]
        match vfsMountVolume s.volumes letter (some (volumeLabel request.label))
          (some (fatBackend handle)) with
        | (false, volumes) =>
          (false,
            { s with volumes, fatVolumes := fat32Unmount fatVolumes handle, active := some handle })
        | (true, volumes) =>
          (true,
            { volumes
              entries := s.entries ++ [⟨letter, request.device, handle, true⟩]
              fatVolumes
              active := some handle })

/-- The first entry that is mounted at the letter, and the entries with it unmounted. -/
def unmountEntry (letter : Character) : List Entry → Option (Entry × List Entry)
  | [] => none
  | entry :: rest =>
    if entry.letter = letter ∧ entry.isMounted = true then
      some (entry, { entry with isMounted := false } :: rest)
    else (unmountEntry letter rest).map fun found => (found.1, entry :: found.2)

def volumeManagerUnmountLetter (s : Manager) (letter : Character) : Bool × Manager :=
  match unmountEntry letter s.entries with
  | none => (false, s)
  | some (entry, entries) =>
    (true,
      { s with
        volumes := (vfsUnmountVolume s.volumes letter).2
        entries
        fatVolumes := fat32Unmount s.fatVolumes entry.handle })

def step (s : Manager) : Call → Manager
  | .mountDevice request => (volumeManagerMountDevice s request).2
  | .unmountLetter letter => (volumeManagerUnmountLetter s letter).2

/-- The device that the functions of FAT32 work on; they refuse a volume that is not mounted. -/
def activeDevice (s : Manager) : Option ℕ :=
  match s.active with
  | none => none
  | some handle =>
    match s.fatVolumes[handle]? with
    | none => none
    | some volume => if volume.mounted then some volume.device else none

def operatedDevice (s : Manager) (request : Request) : Option ℕ :=
  match request.target s.volumes with
  | none => none
  | some (backend, _) =>
    match backend.handle with
    | .fat _ => activeDevice s
    | .other _ => none

def mountedAt (s : Manager) (letter : Character) : Option ℕ :=
  (s.entries.find? fun entry =>
    entry.isMounted && normalizeLetter entry.letter == normalizeLetter letter).map Entry.device

end KosKernel.Volumes
