import KosKernel.PackageDatabase
import KosKernel.StagedWrites

/-! The package installer, `kernel/installer.c`, over a map of files. Paths are compared after a
backslash is rewritten to a slash; every write may fail, an unlink does not. -/
namespace KosKernel.Installer
open LittleEndian Kpkg PackageDatabase StagedWrites

abbrev Files := List Byte → Option (List Byte)
abbrev Vfs := Store (List Byte) (List Byte)

inductive Status
  | ok
  | invalidHeader
  | invalidManifest
  | pathTraversal
  | quotaExceeded
  | integrityFail
  | authFail
  | stagingFail
  | commitFail
  | rollbackFail
  | notFound
  | alreadyInstalled
  | versionDowngrade
  | io
  deriving DecidableEq

structure Options where
  verifySignature : Bool
  trustedPubkey : Option (List Byte)
  allowDowngrade : Bool

/-- The calls of `kmalloc` that a package makes. -/
inductive Allocation
  | index
  | signature
  | integrity
  | extract (index : ℕ)
  deriving DecidableEq

/-- What the installer does not decide: the hash, the memory it gets, the writes that fail and
the time. -/
structure Environment where
  sha256 : List Byte → List Byte
  grants : Allocation → Bool
  fails : ℕ → Bool
  now : ℕ

structure System where
  vfs : Vfs
  db : Database

def slash : Byte := 0x2f

def pathKey (path : List Byte) : List Byte := path.map fun c => if c = 0x5c then slash else c

/-- The characters of `D:/Apps`. -/
def baseDir : List Byte := [0x44, 0x3a, 0x2f, 0x41, 0x70, 0x70, 0x73]

/-- The characters of `D:/Data`. -/
def dataDir : List Byte := [0x44, 0x3a, 0x2f, 0x44, 0x61, 0x74, 0x61]

/-- The characters of `.staging_`. -/
def stagingName : List Byte := [0x2e, 0x73, 0x74, 0x61, 0x67, 0x69, 0x6e, 0x67, 0x5f]

/-- The characters of `.backup_`. -/
def backupName : List Byte := [0x2e, 0x62, 0x61, 0x63, 0x6b, 0x75, 0x70, 0x5f]

/-- The characters of `/.keep`. -/
def keepName : List Byte := [0x2f, 0x2e, 0x6b, 0x65, 0x65, 0x70]

/-- The text of the marker file, `KOS App Data Directory` and a newline. -/
def markerData : List Byte :=
  [0x4b, 0x4f, 0x53, 0x20, 0x41, 0x70, 0x70, 0x20, 0x44, 0x61, 0x74, 0x61, 0x20, 0x44, 0x69, 0x72,
    0x65, 0x63, 0x74, 0x6f, 0x72, 0x79, 0x0a]

def installPath (appId : List Byte) : List Byte := snprintfPath (baseDir ++ slash :: appId)
def dataPath (appId : List Byte) : List Byte := snprintfPath (dataDir ++ slash :: appId)

def stagePrefix (appId : List Byte) : List Byte :=
  snprintfPath (baseDir ++ slash :: (stagingName ++ appId))

def backupPrefix (appId : List Byte) : List Byte :=
  snprintfPath (baseDir ++ slash :: (backupName ++ appId))

def markerPath (appId : List Byte) : List Byte :=
  snprintfPath (dataDir ++ slash :: (appId ++ keepName))

def filePath (directory path : List Byte) : List Byte := snprintfPath (directory ++ slash :: path)

def installJob (env : Environment) (pkg : Package) (index : ℕ) : Job (List Byte) (List Byte) where
  content := (kpkgExtractFile env.sha256 (env.grants (.extract index)) pkg index).result
  staged := pathKey (filePath (stagePrefix pkg.appId) (pkg.entry index).path)
  target := pathKey (filePath (installPath pkg.appId) (pkg.entry index).path)

def installJobs (env : Environment) (pkg : Package) : List (Job (List Byte) (List Byte)) :=
  (List.range pkg.fileCount).map (installJob env pkg)

/-- The checks of signature and integrity; `none` if they pass. -/
def checkPackage (env : Environment) (opts : Option Options) (pkg : Package) : Option Status :=
  if opts.any (fun o => o.verifySignature && (kpkgVerifySignature env.sha256
      (env.grants .signature) pkg o.trustedPubkey).result.isNone) then some .authFail
  else if (kpkgVerifyIntegrity env.sha256 (env.grants .integrity) pkg).result.isNone then
    some .integrityFail
  else none

def ensureAppDataDirectory (env : Environment) (vfs : Vfs) (appId : List Byte) : Vfs :=
  (vfs.write env.fails (pathKey (markerPath appId)) markerData).2

def admitInstall (env : Environment) (reader : Reader) (opts : Option Options) (db : Database) :
    Except Status Package :=
  match (kpkgOpen reader (env.grants .index)).result with
  | none => .error .invalidHeader
  | some pkg =>
    if (pkgDbFind db pkg.appId).isSome then .error .alreadyInstalled
    else
      match checkPackage env opts pkg with
      | some status => .error status
      | none => .ok pkg

def recordInstall (env : Environment) (pkg : Package) (s : System) : Status × System :=
  let vfs := ensureAppDataDirectory env s.vfs pkg.appId
  match pkgDbRegister s.db (manifestOf pkg) (installPath pkg.appId)
      (.text (dataPath pkg.appId)) pkg.files env.now with
  | none => (.commitFail, ⟨vfs.unlinkAll ((installJobs env pkg).map Job.target), s.db⟩)
  | some db => (.ok, ⟨vfs, db⟩)

def installPackage (env : Environment) (pkg : Package) (s : System) : Status × System :=
  let jobs := installJobs env pkg
  match Store.stageLoop env.fails jobs s.vfs with
  | (false, vfs) => (.stagingFail, { s with vfs := vfs.unlinkAll (jobs.map Job.staged) })
  | (true, vfs) =>
    match Store.commitLoop env.fails jobs vfs with
    | (false, vfs) =>
      -- each turn of the rollback unlinks a target and its staging file
      (.commitFail,
        { s with vfs := vfs.unlinkAll (jobs.flatMap fun job => [job.target, job.staged]) })
    | (true, vfs) => recordInstall env pkg { s with vfs := vfs }

def installerInstall (env : Environment) (reader : Reader) (opts : Option Options) (s : System) :
    Status × System :=
  match admitInstall env reader opts s.db with
  | .error status => (status, s)
  | .ok pkg => installPackage env pkg s

/-- The decimal digits that `%u` prints. -/
def decimal (n : ℕ) : List Byte := (Nat.toDigits 10 n).map fun c => BitVec.ofNat 8 c.toNat

/-- The characters of `file_` and a number. -/
def backupFile (appId : List Byte) (index : ℕ) : List Byte :=
  pathKey (filePath (backupPrefix appId) ([0x66, 0x69, 0x6c, 0x65, 0x5f] ++ decimal index))

/-- One turn of the backup: what is read is the install path itself. -/
def backupTurn (env : Environment) (record : PkgRecord) (appId : List Byte) (vfs : Vfs)
    (f : ℕ) : Vfs :=
  if record.fileIndices.getD f 0 < maxFilesTotal then
    match vfs.files (pathKey record.installPath) with
    | none => vfs
    | some data => (vfs.write env.fails (backupFile appId f) data).2
  else vfs

def backupFiles (env : Environment) (record : PkgRecord) (appId : List Byte) (vfs : Vfs) : Vfs :=
  (List.range record.fileIndices.length).foldl (backupTurn env record appId) vfs

def admitUpdate (env : Environment) (reader : Reader) (opts : Option Options) (db : Database) :
    Except Status (Package × ℕ) :=
  match (kpkgOpen reader (env.grants .index)).result with
  | none => .error .invalidHeader
  | some pkg =>
    match pkgDbFind db pkg.appId with
    | none => .error .notFound
    | some slot =>
      if !opts.any Options.allowDowngrade ∧ pkg.versionCode < (db.packages slot).versionCode then
        .error .versionDowngrade
      else
        match checkPackage env opts pkg with
        | some status => .error status
        | none => .ok (pkg, slot)

def recordUpdate (env : Environment) (pkg : Package) (slot : ℕ) (s : System) : System :=
  let db := (pkgDbRegister s.db (manifestOf pkg) (installPath pkg.appId) (.dataPathOf slot)
    pkg.files env.now).getD s.db
  ⟨s.vfs.unlinkAll ((List.range (db.packages slot).fileIndices.length).map
    (backupFile pkg.appId)), db⟩

def updatePackage (env : Environment) (pkg : Package) (slot : ℕ) (s : System) : Status × System :=
  let jobs := installJobs env pkg
  let backed := backupFiles env (s.db.packages slot) pkg.appId s.vfs
  match Store.stageLoop env.fails jobs backed with
  | (false, vfs) => (.stagingFail, { s with vfs := vfs.unlinkAll (jobs.map Job.staged) })
  | (true, vfs) =>
    match Store.commitLoop env.fails jobs vfs with
    | (false, vfs) => (.commitFail, { s with vfs := vfs })
    | (true, vfs) => (.ok, recordUpdate env pkg slot { s with vfs := vfs })

def installerUpdate (env : Environment) (reader : Reader) (opts : Option Options) (s : System) :
    Status × System :=
  match admitUpdate env reader opts s.db with
  | .error status => (status, s)
  | .ok (pkg, slot) => updatePackage env pkg slot s

/-- The loop over the installed files has no effect in the source. -/
def installerUninstall (appId : List Byte) (keepData : Bool) (s : System) : Status × System :=
  match pkgDbFind s.db appId with
  | none => (.notFound, s)
  | some _ =>
    let vfs := if keepData then s.vfs else s.vfs.unlink (pathKey (markerPath appId))
    (.ok, ⟨vfs, (pkgDbUnregister s.db appId).getD s.db⟩)

end KosKernel.Installer
