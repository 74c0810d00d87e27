import KosKernel.KpkgState

/-! The database of installed packages, `kernel/pkg_db.c`. Every function is one section under
its lock. Character arrays are the strings in them. -/
namespace KosKernel.PackageDatabase
open LittleEndian Kpkg Function List

def maxPackages : ℕ := 64
def maxFilesTotal : ℕ := 1024

/-- What `snprintf` leaves in an array of `KPKG_MAX_PATH_LEN` characters. -/
def snprintfPath (text : List Byte) : List Byte := text.take (maxPathLen - 1)

inductive PkgState
  | unused | installed | staged | broken
  deriving DecidableEq

structure PkgFileRecord where
  path : List Byte
  size : ℕ
  sha256 : List Byte
  pkgIndex : ℕ
  inUse : Bool
  deriving DecidableEq

/-- The first `file_count` entries of `file_indices` are a list. -/
structure PkgRecord where
  id : ℕ
  state : PkgState
  appId : List Byte
  name : List Byte
  version : List Byte
  versionCode : ℕ
  installPath : List Byte
  dataPath : List Byte
  entryPoint : List Byte
  permissions : ℕ
  installTimestamp : ℕ
  fileIndices : List ℕ
  deriving DecidableEq

def PkgRecord.zero : PkgRecord := ⟨0, .unused, [], [], [], 0, [], [], [], 0, 0, []⟩

structure Database where
  packages : ℕ → PkgRecord
  files : ℕ → PkgFileRecord
  initialized : Bool

structure Manifest where
  appId : List Byte
  name : List Byte
  version : List Byte
  versionCode : ℕ
  entryPoint : List Byte
  permissions : ℕ
  deriving DecidableEq

def manifestOf (pkg : Package) : Manifest :=
  ⟨pkg.appId, pkg.name, pkg.version, pkg.versionCode, pkg.entryPoint, pkg.permissions⟩

/-- A string argument: an array of the caller, or the data path of a record in the table. -/
inductive CharPointer
  | text (chars : List Byte)
  | dataPathOf (slot : ℕ)

def CharPointer.load (db : Database) : CharPointer → List Byte
  | .text chars => chars
  | .dataPathOf slot => (db.packages slot).dataPath

namespace Database
variable (db : Database)

def isInstalledAs (appId : List Byte) (slot : ℕ) : Bool :=
  (db.packages slot).state = .installed && (db.packages slot).appId = appId

def setPackage (slot : ℕ) (record : PkgRecord) : Database :=
  { db with packages := update db.packages slot record }

def releaseFile (db : Database) (index : ℕ) : Database :=
  if index < maxFilesTotal then
    { db with files := update db.files index { db.files index with inUse := false } }
  else db

def releaseFiles (indices : List ℕ) : Database := indices.foldl releaseFile db

end Database

def pkgDbFind (db : Database) (appId : List Byte) : Option ℕ :=
  if db.initialized then (range maxPackages).find? (db.isInstalledAs appId) else none

/-- The slot of the package itself, or else the first unused one. -/
def registerSlot (db : Database) (appId : List Byte) : Option ℕ :=
  ((range maxPackages).find? (db.isInstalledAs appId)).or
    ((range maxPackages).find? fun i => (db.packages i).state = .unused)

/-- The search is kept from unfolding: the elaborator would lay out the whole table. -/
@[irreducible] def freeFile (db : Database) : Option ℕ :=
  (range maxFilesTotal).find? fun g => !(db.files g).inUse

def fileRecord (slot : ℕ) (installPath : List Byte) (f : FileEntry) : PkgFileRecord where
  path := snprintfPath (installPath ++ [0x2f] ++ f.path)
  size := f.size
  sha256 := f.sha256
  pkgIndex := slot
  inUse := true

def Database.setFile (db : Database) (g : ℕ) (record : PkgFileRecord) : Database :=
  { db with files := update db.files g record }

/-- The loop over the files. A file that finds no free record is passed over. -/
def registerFiles (slot : ℕ) (installPath : List Byte) :
    List FileEntry → Database → List ℕ → Database × List ℕ
  | [], db, indices => (db, indices)
  | f :: fs, db, indices =>
    if maxFiles ≤ indices.length then (db, indices)
    else
      match freeFile db with
      | none => registerFiles slot installPath fs db indices
      | some g => registerFiles slot installPath fs
          (db.setFile g (fileRecord slot installPath f)) (indices ++ [g])

/-- The record is cleared before the strings are copied into it, so a data path that is its own
is gone by then. -/
def pkgDbRegister (db : Database) (manifest : Manifest) (installPath : List Byte)
    (dataPath : CharPointer) (files : List FileEntry) (now : ℕ) : Option Database :=
  if db.initialized then
    match registerSlot db manifest.appId with
    | none => none
    | some slot =>
      let released := if (db.packages slot).state = .installed then
          db.releaseFiles (db.packages slot).fileIndices
        else db
      let cleared := released.setPackage slot .zero
      let (registered, indices) := registerFiles slot installPath files cleared []
      some (registered.setPackage slot
        { id := slot + 1
          state := .installed
          appId := manifest.appId.take (maxAppIdLen - 1)
          name := manifest.name.take (maxNameLen - 1)
          version := manifest.version.take (maxVerLen - 1)
          versionCode := manifest.versionCode
          installPath := installPath.take (maxPathLen - 1)
          dataPath := (dataPath.load cleared).take (maxPathLen - 1)
          entryPoint := manifest.entryPoint.take (maxPathLen - 1)
          permissions := manifest.permissions
          installTimestamp := now
          fileIndices := indices })
  else none

def pkgDbUnregister (db : Database) (appId : List Byte) : Option Database :=
  match pkgDbFind db appId with
  | none => none
  | some slot => some ((db.releaseFiles (db.packages slot).fileIndices).setPackage slot .zero)

section
variable {db : Database} {appId : List Byte} {slot : ℕ}

lemma pkgDbFind_eq_some_iff : pkgDbFind db appId = some slot ↔ db.initialized = true ∧
    (range maxPackages).find? (db.isInstalledAs appId) = some slot := by
  unfold pkgDbFind
  cases db.initialized <;> simp

lemma registerSlot_of_find (h : pkgDbFind db appId = some slot) :
    registerSlot db appId = some slot := by
  rw [registerSlot, (pkgDbFind_eq_some_iff.mp h).2]
  rfl

lemma registerSlot_of_not_find (hinit : db.initialized = true) (hfind : pkgDbFind db appId = none)
    (h : registerSlot db appId = some slot) :
    slot < maxPackages ∧ (db.packages slot).state = .unused ∧
      ∀ i < maxPackages, db.isInstalledAs appId i = false := by
  have hnone : (range maxPackages).find? (db.isInstalledAs appId) = none := by
    rwa [pkgDbFind, if_pos hinit] at hfind
  rw [registerSlot, hnone, Option.none_or] at h
  refine ⟨mem_range.mp (mem_of_find?_eq_some h), ?_, fun i hi => ?_⟩
  · have hstate := find?_some h
    exact of_decide_eq_true hstate
  · exact Bool.eq_false_iff.mpr (find?_eq_none.mp hnone i (mem_range.mpr hi))

end

section
variable (db : Database)
include db

lemma releaseFile_files (index g : ℕ) :
    (db.releaseFile index).files g =
      if g = index ∧ index < maxFilesTotal then { db.files g with inUse := false }
      else db.files g := by
  unfold Database.releaseFile
  by_cases hindex : index < maxFilesTotal
  · rw [if_pos hindex]
    obtain rfl | hg := eq_or_ne g index
    · rw [if_pos ⟨rfl, hindex⟩]
      exact update_self _ _ _
    · rw [if_neg fun h => hg h.1]
      exact update_of_ne hg _ _
  · rw [if_neg hindex, if_neg fun h => hindex h.2]

lemma releaseFile_packages (index : ℕ) :
    (db.releaseFile index).packages = db.packages ∧
      (db.releaseFile index).initialized = db.initialized := by
  unfold Database.releaseFile
  split <;> exact ⟨rfl, rfl⟩

lemma releaseFiles_packages (indices : List ℕ) :
    (db.releaseFiles indices).packages = db.packages ∧
      (db.releaseFiles indices).initialized = db.initialized := by
  induction indices generalizing db with
  | nil => exact ⟨rfl, rfl⟩
  | cons index indices ih =>
    have hstep : db.releaseFiles (index :: indices) = (db.releaseFile index).releaseFiles indices :=
      rfl
    rw [hstep, (ih _).1, (ih _).2]
    exact releaseFile_packages db index

lemma releaseFiles_files (indices : List ℕ) (g : ℕ) :
    (db.releaseFiles indices).files g =
      if g ∈ indices ∧ g < maxFilesTotal then { db.files g with inUse := false }
      else db.files g := by
  induction indices generalizing db with
  | nil => rw [if_neg (by simp)]; rfl
  | cons index indices ih =>
    have hstep : db.releaseFiles (index :: indices) = (db.releaseFile index).releaseFiles indices :=
      rfl
    rw [hstep, ih, releaseFile_files]
    by_cases hg : g < maxFilesTotal
    · obtain rfl | hindex := eq_or_ne g index
      · simp [hg]
      · simp [hg, hindex]
    have hindex : ¬ (g = index ∧ index < maxFilesTotal) := by
      rintro ⟨rfl, h⟩
      exact hg h
    simp [hg, hindex]

lemma setPackage_self (slot : ℕ) (record : PkgRecord) :
    (db.setPackage slot record).packages slot = record :=
  update_self _ _ _

lemma setPackage_other (record : PkgRecord) {slot i : ℕ} (h : i ≠ slot) :
    (db.setPackage slot record).packages i = db.packages i :=
  update_of_ne h _ _

lemma setFile_other (record : PkgFileRecord) {g g' : ℕ} (h : g' ≠ g) :
    (db.setFile g record).files g' = db.files g' :=
  update_of_ne h _ _

lemma setFile_self (g : ℕ) (record : PkgFileRecord) : (db.setFile g record).files g = record :=
  update_self _ _ _

end

lemma freeFile_spec {db : Database} {g : ℕ} (h : freeFile db = some g) :
    g < maxFilesTotal ∧ (db.files g).inUse = false := by
  unfold freeFile at h
  have hfree := find?_some h
  rw [Bool.not_eq_true'] at hfree
  exact ⟨mem_range.mp (mem_of_find?_eq_some h), hfree⟩

section
variable (slot : ℕ) (installPath : List Byte) (fs : List FileEntry) (db : Database)
  (indices : List ℕ)
include slot installPath fs db indices

lemma registerFiles_packages :
    (registerFiles slot installPath fs db indices).1.packages = db.packages ∧
      (registerFiles slot installPath fs db indices).1.initialized = db.initialized := by
  induction fs generalizing db indices with
  | nil => simp only [registerFiles, and_self]
  | cons f fs ih =>
    rw [registerFiles]
    split
    · exact ⟨rfl, rfl⟩
    cases freeFile db with
    | none => exact ih db indices
    | some g => exact ih (db.setFile g (fileRecord slot installPath f)) (indices ++ [g])

lemma registerFiles_spec :
    ∃ taken, (registerFiles slot installPath fs db indices).2 = indices ++ taken ∧ taken.Nodup ∧
      (∀ g ∈ taken, g < maxFilesTotal ∧ (db.files g).inUse = false) ∧
      (∀ g ∈ taken, ∃ f, (registerFiles slot installPath fs db indices).1.files g =
        fileRecord slot installPath f) ∧
      ∀ g ∉ taken, (registerFiles slot installPath fs db indices).1.files g = db.files g := by
  induction fs generalizing db indices with
  | nil =>
    rw [registerFiles]
    exact ⟨[], (append_nil _).symm, nodup_nil, by simp, by simp, fun _ _ => rfl⟩
  | cons f fs ih =>
    rw [registerFiles]
    split
    · exact ⟨[], (append_nil _).symm, nodup_nil, by simp, by simp, fun _ _ => rfl⟩
    cases hfree : freeFile db with
    | none => exact ih db indices
    | some g =>
      have hg := freeFile_spec hfree
      obtain ⟨taken, hinds, hnodup, htaken, hfilled, hother⟩ :=
        ih (db.setFile g (fileRecord slot installPath f)) (indices ++ [g])
      -- The record just taken is in use for the rest of the loop.
      have hnot : g ∉ taken := by
        intro hmem
        have h := (htaken g hmem).2
        rw [setFile_self] at h
        cases h
      refine ⟨g :: taken, by rw [hinds, append_assoc]; rfl, nodup_cons.mpr ⟨hnot, hnodup⟩, ?_,
        forall_mem_cons.mpr ⟨⟨f, ?_⟩, hfilled⟩, fun g' hg' => ?_⟩
      · refine forall_mem_cons.mpr ⟨hg, fun g' hg' => ⟨(htaken g' hg').1, ?_⟩⟩
        have h := (htaken g' hg').2
        have hne : g' ≠ g := ne_of_mem_of_not_mem hg' hnot
        rwa [setFile_other _ _ hne] at h
      · rw [hother g hnot, setFile_self]
      · rw [mem_cons, not_or] at hg'
        rw [hother g' hg'.2, setFile_other _ _ hg'.1]

lemma registerFiles_length (h : indices.length ≤ maxFiles) :
    (registerFiles slot installPath fs db indices).2.length ≤ maxFiles := by
  induction fs generalizing db indices with
  | nil =>
    rw [registerFiles]
    exact h
  | cons f fs ih =>
    rw [registerFiles]
    split
    · exact h
    rename_i hroom
    cases freeFile db with
    | none => exact ih db indices h
    | some g =>
      refine ih _ _ ?_
      rw [length_append, length_singleton]
      omega

end

/-- The databases agree on the packages and files that are in use. -/
structure SameContents (db db' : Database) : Prop where
  packages : ∀ i, db.packages i = db'.packages i ∨
    (db.packages i).state = .unused ∧ (db'.packages i).state = .unused
  files : ∀ g, db.files g = db'.files g ∨
    (db.files g).inUse = false ∧ (db'.files g).inUse = false
  initialized : db.initialized = db'.initialized

/-- The record of a slot cleared, and its file records released if it was installed. -/
def Database.clear (db : Database) (slot : ℕ) : Database :=
  (if (db.packages slot).state = .installed then
    db.releaseFiles (db.packages slot).fileIndices else db).setPackage slot .zero

lemma clear_packages (db : Database) {slot i : ℕ} (hi : i ≠ slot) :
    (db.clear slot).packages i = db.packages i := by
  rw [Database.clear, setPackage_other _ _ hi]
  split
  · rw [(releaseFiles_packages _ _).1]
  · rfl

section
variable {db db' : Database} {manifest : Manifest} {installPath : List Byte}
  {dataPath : CharPointer} {files : List FileEntry} {now : ℕ}
  (h : pkgDbRegister db manifest installPath dataPath files now = some db')
include h

/-- What a registration leaves: the files are entered after the slot is cleared. -/
lemma register_spec : ∃ slot, registerSlot db manifest.appId = some slot ∧
    db.initialized = true ∧ db'.initialized = true ∧ (db'.packages slot).state = .installed ∧
    (db'.packages slot).appId = manifest.appId.take (maxAppIdLen - 1) ∧
    (∀ i ≠ slot, db'.packages i = db.packages i) ∧
    db'.files = (registerFiles slot installPath files (db.clear slot) []).1.files ∧
    (db'.packages slot).fileIndices =
      (registerFiles slot installPath files (db.clear slot) []).2 := by
  unfold pkgDbRegister at h
  split at h
  · rename_i hinit
    cases hslot : registerSlot db manifest.appId with
    | none =>
      rw [hslot] at h
      cases h
    | some slot =>
      rw [hslot] at h
      dsimp only at h
      rw [← Database.clear] at h
      have hpkgs := registerFiles_packages slot installPath files (db.clear slot) []
      have hcleared : (db.clear slot).initialized = db.initialized := by
        rw [Database.clear]
        split
        · exact (releaseFiles_packages _ _).2
        · rfl
      cases h
      refine ⟨slot, rfl, hinit, hpkgs.2.trans (hcleared.trans hinit), ?_⟩
      rw [setPackage_self]
      refine ⟨rfl, rfl, fun i hi => ?_, rfl, rfl⟩
      rw [setPackage_other _ _ hi, hpkgs.1, clear_packages db hi]
  · cases h

lemma register_new (hfind : pkgDbFind db manifest.appId = none) :
    ∃ slot, slot < maxPackages ∧ (db.packages slot).state = .unused ∧
      (∀ i < maxPackages, db.isInstalledAs manifest.appId i = false) ∧
      (db'.packages slot).state = .installed ∧
      (db'.packages slot).appId = manifest.appId.take (maxAppIdLen - 1) ∧
      (∀ i ≠ slot, db'.packages i = db.packages i) ∧
      (∀ g ∈ (db'.packages slot).fileIndices, g < maxFilesTotal ∧ (db.files g).inUse = false) ∧
      (∀ g ∉ (db'.packages slot).fileIndices, db'.files g = db.files g) ∧
      db.initialized = true ∧ db'.initialized = true := by
  obtain ⟨slot, hslot, hinit, hinit', hstate, happ, hother, hfiles, hinds⟩ := register_spec h
  obtain ⟨hlt, hunused, hothers⟩ := registerSlot_of_not_find hinit hfind hslot
  have hcleared : (db.clear slot).files = db.files := by
    rw [Database.clear, if_neg (by rw [hunused]; decide)]
    rfl
  obtain ⟨taken, htook, -, htaken, -, hkept⟩ :=
    registerFiles_spec slot installPath files (db.clear slot) []
  rw [hcleared] at htaken hkept
  refine ⟨slot, hlt, hunused, hothers, hstate, happ, hother, ?_, ?_, hinit, hinit'⟩
  · rwa [hinds, htook, nil_append]
  · rwa [hinds, htook, nil_append, hfiles]

end

/-- A package that is known is registered again in its slot. By then its record is cleared. -/
lemma register_known {db : Database} (manifest : Manifest) {slot : ℕ}
    (hfind : pkgDbFind db manifest.appId = some slot) (installPath : List Byte)
    (files : List FileEntry) (now : ℕ) :
    ∃ db', pkgDbRegister db manifest installPath (.dataPathOf slot) files now = some db' ∧
      (db'.packages slot).dataPath = [] := by
  unfold pkgDbRegister
  rw [if_pos (pkgDbFind_eq_some_iff.mp hfind).1, registerSlot_of_find hfind]
  refine ⟨_, rfl, ?_⟩
  rw [setPackage_self]
  dsimp only [CharPointer.load]
  rw [setPackage_self]
  rfl

theorem unregister_register {db db' : Database} {manifest : Manifest} {installPath : List Byte}
    {dataPath : CharPointer} {files : List FileEntry} {now : ℕ}
    (hname : manifest.appId.length < maxAppIdLen) (hfind : pkgDbFind db manifest.appId = none)
    (h : pkgDbRegister db manifest installPath dataPath files now = some db') :
    ∃ slot db'', pkgDbFind db' manifest.appId = some slot ∧
      pkgDbUnregister db' manifest.appId = some db'' ∧ SameContents db'' db := by
  obtain ⟨slot, hlt, hunused, hothers, hstate, happ, hpkgs, htaken, hkept, hinit, hinit'⟩ :=
    register_new h hfind
  have hfound : pkgDbFind db' manifest.appId = some slot := by
    rw [pkgDbFind_eq_some_iff, find?_range_eq_some]
    refine ⟨hinit', ?_, mem_range.mpr hlt, fun i hi => ?_⟩
    · rw [Database.isInstalledAs, hstate, happ, take_of_length_le (by omega)]
      simp
    have hother := hothers i (by omega)
    rw [Database.isInstalledAs] at hother ⊢
    rw [hpkgs i hi.ne, hother]
    rfl
  refine ⟨slot, _, hfound, by rw [pkgDbUnregister, hfound], fun i => ?_, fun g => ?_, ?_⟩
  · obtain rfl | hi := eq_or_ne i slot
    · rw [setPackage_self]
      exact .inr ⟨rfl, hunused⟩
    · rw [setPackage_other _ _ hi, (releaseFiles_packages _ _).1]
      exact .inl (hpkgs i hi)
  · have hfiles : ((db'.releaseFiles (db'.packages slot).fileIndices).setPackage slot .zero).files g =
        (db'.releaseFiles (db'.packages slot).fileIndices).files g := rfl
    rw [hfiles, releaseFiles_files]
    by_cases hg : g ∈ (db'.packages slot).fileIndices
    · rw [if_pos ⟨hg, (htaken g hg).1⟩]
      exact .inr ⟨rfl, (htaken g hg).2⟩
    · rw [if_neg fun h => hg h.1]
      exact .inl (hkept g hg)
  · exact (releaseFiles_packages _ _).2.trans (hinit'.trans hinit.symm)

end KosKernel.PackageDatabase
