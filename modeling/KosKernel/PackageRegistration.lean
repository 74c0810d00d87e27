import KosKernel.PackageIntegrity
import Mathlib.Data.Finset.Card

/-! What a registration enters in the package database. It is complete exactly when the table of
files has room and no path is cut off. -/
namespace KosKernel.PackageDatabase
open LittleEndian Kpkg List

/-- The name of the package that is found to own the path. -/
def pkgDbIsFileOwned (db : Database) (path : List Byte) : Option (List Byte) :=
  if db.initialized then
    ((range maxFilesTotal).find? fun i => (db.files i).inUse && (db.files i).path = path &&
      (db.files i).pkgIndex < maxPackages &&
      (db.packages (db.files i).pkgIndex).state = .installed).map
        fun i => (db.packages (db.files i).pkgIndex).appId
  else none

def fullPath (installPath : List Byte) (f : FileEntry) : List Byte :=
  installPath ++ [0x2f] ++ f.path

namespace Database
variable (db : Database)

def freeFiles : Finset ℕ := {g ∈ Finset.range maxFilesTotal | (db.files g).inUse = false}

/-- A file record of the package has the path. -/
def Owns (slot : ℕ) (path : List Byte) : Prop :=
  ∃ g < maxFilesTotal, (db.files g).inUse = true ∧ (db.files g).path = path ∧
    (db.files g).pkgIndex = slot

end Database

variable {db db' : Database} {slot g : ℕ} {path : List Byte} {files : List FileEntry}

lemma freeFiles_of_none (h : freeFile db = none) : db.freeFiles = ∅ := by
  unfold freeFile at h
  rw [Database.freeFiles, Finset.filter_eq_empty_iff]
  intro g hg hunused
  have hused := find?_eq_none.mp h g (mem_range.mpr (Finset.mem_range.mp hg))
  rw [hunused] at hused
  exact hused rfl

lemma card_freeFiles_setFile (slot : ℕ) (path : List Byte) (h : freeFile db = some g)
    (f : FileEntry) :
    (db.setFile g (fileRecord slot path f)).freeFiles.card + 1 = db.freeFiles.card := by
  have hg : g ∈ db.freeFiles := by simpa [Database.freeFiles] using freeFile_spec h
  have hless : (db.setFile g (fileRecord slot path f)).freeFiles = db.freeFiles.erase g := by
    ext g'
    obtain rfl | hne := eq_or_ne g' g
    · simp [Database.freeFiles, setFile_self, fileRecord]
    · simp [Database.freeFiles, setFile_other, hne]
  rw [hless, Finset.card_erase_add_one hg]

lemma registerFiles_count {indices : List ℕ} (h : indices.length + files.length ≤ maxFiles) :
    (registerFiles slot path files db indices).2.length =
      indices.length + min files.length db.freeFiles.card := by
  induction files generalizing db indices with
  | nil => simp [registerFiles]
  | cons f fs ih =>
    rw [length_cons] at h
    rw [registerFiles, if_neg (by omega)]
    cases hfree : freeFile db with
    | none =>
      dsimp only
      rw [ih (by omega), freeFiles_of_none hfree]
      simp
    | some g =>
      have hcard := card_freeFiles_setFile slot path hfree f
      dsimp only
      rw [ih (by rw [length_append, length_singleton]; omega), length_append, length_singleton,
        length_cons]
      omega

lemma registerFiles_filled {indices : List ℕ} (h : indices.length + files.length ≤ maxFiles)
    (hroom : files.length ≤ db.freeFiles.card) {f : FileEntry} (hf : f ∈ files) :
    ∃ g < maxFilesTotal, (registerFiles slot path files db indices).1.files g =
      fileRecord slot path f := by
  induction files generalizing db indices with
  | nil => cases hf
  | cons f' fs ih =>
    rw [length_cons] at h hroom
    rw [registerFiles, if_neg (by omega)]
    cases hfree : freeFile db with
    | none => simp [freeFiles_of_none hfree] at hroom
    | some g =>
      have hcard := card_freeFiles_setFile slot path hfree f'
      obtain rfl | hf := mem_cons.mp hf
      · -- The record just taken is in use, so no later file gets it.
        obtain ⟨taken, -, -, htaken, -, hkept⟩ := registerFiles_spec slot path fs
          (db.setFile g (fileRecord slot path f)) (indices ++ [g])
        have hnot : g ∉ taken := fun hmem => by simpa [setFile_self, fileRecord] using htaken g hmem
        exact ⟨g, (freeFile_spec hfree).1, (hkept g hnot).trans (setFile_self ..)⟩
      · exact ih (by rw [length_append, length_singleton]; omega) (by omega) hf

section
variable {manifest : Manifest} {dataPath : CharPointer} {now : ℕ}
  (hpaths : ∀ g, (db.files g).path.length < maxPathLen)
  (h : pkgDbRegister db manifest path dataPath files now = some db')
include hpaths h

lemma register_paths (g : ℕ) : (db'.files g).path.length < maxPathLen := by
  obtain ⟨slot, -, -, -, -, -, -, hfiles, -⟩ := register_spec h
  obtain ⟨taken, -, -, -, hfilled, hkept⟩ := registerFiles_spec slot path files (db.clear slot) []
  rw [hfiles]
  by_cases hg : g ∈ taken
  · obtain ⟨f, hf⟩ := hfilled g hg
    rw [hf, fileRecord, snprintfPath, length_take]
    exact (min_le_left _ _).trans_lt (by decide)
  · have hclear : ((db.clear slot).files g).path = (db.files g).path := by
      unfold Database.clear
      split
      · change ((db.releaseFiles _).files g).path = _
        rw [releaseFiles_files]
        split <;> rfl
      · rfl
    rw [hkept g hg, hclear]
    exact hpaths g

lemma not_owned_of_long {p : List Byte} (hp : maxPathLen ≤ p.length) :
    pkgDbIsFileOwned db' p = none := by
  have hne : ∀ g, (db'.files g).path ≠ p := fun g heq => by
    have := register_paths hpaths h g
    rw [heq] at this
    omega
  simp [pkgDbIsFileOwned, hne]

end

lemma Database.Owns.isFileOwned (h : db.Owns slot path) (hinit : db.initialized = true)
    (hslot : slot < maxPackages) (hstate : (db.packages slot).state = .installed) :
    (pkgDbIsFileOwned db path).isSome := by
  obtain ⟨g, hg, huse, hpath, rfl⟩ := h
  rw [pkgDbIsFileOwned, if_pos hinit, Option.isSome_map, find?_isSome]
  exact ⟨g, mem_range.mpr hg, by simp [huse, hpath, hslot, hstate]⟩

theorem register_complete_iff {manifest : Manifest} {dataPath : CharPointer} {now : ℕ}
    (hpaths : ∀ g, (db.files g).path.length < maxPathLen) (hcount : files.length ≤ maxFiles)
    (hslot : registerSlot db manifest.appId = some slot)
    (h : pkgDbRegister db manifest path dataPath files now = some db') :
    ((db'.packages slot).fileIndices.length = files.length ∧
        ∀ f ∈ files, (pkgDbIsFileOwned db' (fullPath path f)).isSome ∧
          db'.Owns slot (fullPath path f)) ↔
      files.length ≤ (db.clear slot).freeFiles.card ∧
        ∀ f ∈ files, (fullPath path f).length < maxPathLen := by
  obtain ⟨slot', hslot', -, hinit, hstate, -, -, hfiles, hindices⟩ := register_spec h
  obtain rfl := Option.some.inj (hslot'.symm.trans hslot)
  have hlt : slot' < maxPackages := by
    obtain hfind | ⟨-, hfind⟩ := Option.or_eq_some_iff.mp hslot <;>
      exact mem_range.mp (mem_of_find?_eq_some hfind)
  have hlist : ([] : List ℕ).length + files.length ≤ maxFiles := by rwa [length_nil, Nat.zero_add]
  rw [hindices, registerFiles_count hlist]
  constructor
  · rintro ⟨hlength, howned⟩
    refine ⟨by rw [length_nil] at hlength; omega, fun f hf => ?_⟩
    obtain ⟨g, -, -, hpath, -⟩ := (howned f hf).2
    rw [← hpath]
    exact register_paths hpaths h g
  · rintro ⟨hroom, hshort⟩
    refine ⟨by rw [length_nil]; omega, fun f hf => ?_⟩
    obtain ⟨g, hg, hrecord⟩ := registerFiles_filled hlist hroom hf
    rw [← hfiles] at hrecord
    have hpath : snprintfPath (fullPath path f) = fullPath path f :=
      take_of_length_le (Nat.le_sub_one_of_lt (hshort f hf))
    have howns : db'.Owns slot' (fullPath path f) := by
      refine ⟨g, hg, ?_⟩
      rw [hrecord]
      exact ⟨rfl, hpath, rfl⟩
    exact ⟨howns.isFileOwned hinit hlt hstate, howns⟩

def emptyDatabase : Database := { Database.zero with initialized := true }

/-- A file with a path of 250 letters. -/
def longFile : FileEntry := ⟨replicate 250 0x61, 1, 0, replicate 32 0⟩

def smallFile : FileEntry := ⟨[0x62], 1, 0, replicate 32 0⟩

lemma emptyDatabase_slot : registerSlot emptyDatabase [0x61] = some 0 := by decide

lemma emptyDatabase_paths (g : ℕ) : (emptyDatabase.files g).path.length < maxPathLen :=
  (by decide : 0 < maxPathLen)

/-- The manifest of a package with a name of one letter. -/
def smallManifest : Manifest := ⟨[0x61], [], [], 0, [], 0⟩

lemma emptyDatabase_register (path : List Byte) (files : List FileEntry) :
    ∃ db', pkgDbRegister emptyDatabase smallManifest path (.text []) files 0 = some db' := by
  have hinit : emptyDatabase.initialized = true := rfl
  have hslot : registerSlot emptyDatabase smallManifest.appId = some 0 := emptyDatabase_slot
  unfold pkgDbRegister
  rw [if_pos hinit, hslot]
  exact ⟨_, rfl⟩

/-- One file, registered in the empty database. -/
theorem register_complete_iff_sample :
    ∃ db', pkgDbRegister emptyDatabase smallManifest [0x41] (.text []) [smallFile] 0 = some db' ∧
      (db'.packages 0).fileIndices.length = 1 ∧
      (pkgDbIsFileOwned db' [0x41, 0x2f, 0x62]).isSome ∧ db'.Owns 0 [0x41, 0x2f, 0x62] := by
  obtain ⟨db', hdb⟩ := emptyDatabase_register [0x41] [smallFile]
  have hroom : 0 ∈ (emptyDatabase.clear 0).freeFiles :=
    Finset.mem_filter.mpr ⟨Finset.mem_range.mpr (by decide), by decide⟩
  have h := (register_complete_iff emptyDatabase_paths (by decide) emptyDatabase_slot hdb).mpr
    ⟨Finset.card_pos.mpr ⟨0, hroom⟩, by decide⟩
  exact ⟨db', hdb, h.1, h.2 smallFile (mem_singleton_self _)⟩

/-- The path is valid in a package, but does not fit the record behind `C:/Apps`. -/
theorem long_path_not_owned : kpkgValidatePath longFile.path = true ∧
    ∃ db', pkgDbRegister emptyDatabase smallManifest
        [0x43, 0x3a, 0x2f, 0x41, 0x70, 0x70, 0x73] (.text []) [longFile] 0 = some db' ∧
      pkgDbIsFileOwned db' (fullPath [0x43, 0x3a, 0x2f, 0x41, 0x70, 0x70, 0x73] longFile) = none := by
  obtain ⟨db', hdb⟩ := emptyDatabase_register [0x43, 0x3a, 0x2f, 0x41, 0x70, 0x70, 0x73] [longFile]
  exact ⟨by decide +kernel, db', hdb,
    not_owned_of_long emptyDatabase_paths hdb (by decide +kernel)⟩

end KosKernel.PackageDatabase
