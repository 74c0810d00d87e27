import KosKernel.InstallerEffects

/-! Updates and removals: what of the old version is left when a new one comes, and what of a
package is left when it goes. -/
namespace KosKernel.Installer
open LittleEndian Kpkg PackageDatabase StagedWrites Function List Store

def Under (directory k : List Byte) : Prop := pathKey directory ++ [slash] <+: k

variable {k : List Byte}

section
variable {appId : List Byte}

section
variable (hname : ValidName appId)
include hname

lemma under_eighth (h : Under (installPath appId) k) : k[8]? ≠ some 0x2e := by
  obtain ⟨rest, rfl⟩ := h
  rw [append_assoc]
  exact installPath_eighth hname rest

lemma length_installPath : (pathKey (installPath appId)).length + 1 ≤ 255 := by
  have hlen := hname.length
  simp only [pathKey, installPath, snprintfPath, length_map, length_take,
    length_append, length_cons, baseDir, length_nil, maxPathLen, maxAppIdLen] at *
  omega

lemma target_under (path : List Byte) :
    Under (installPath appId) (pathKey (filePath (installPath appId) path)) := by
  have hlen := length_installPath hname
  rw [Under, pathKey_filePath, prefix_take_iff]
  constructor
  · exact ⟨pathKey path, by rw [append_assoc]; rfl⟩
  · rw [length_append, length_singleton]
    exact hlen

lemma installText_under (path : List Byte) :
    Under (installPath appId) (pathKey (installText appId path)) := by
  refine ⟨pathKey path, ?_⟩
  simp only [installPath_eq hname, installText, pathKey, map_append, map_cons, append_assoc]
  rfl

lemma markerKey_under : Under (dataPath appId) (pathKey (markerPath appId)) := by
  have hlen := hname.length
  have hdata : dataPath appId = dataDir ++ slash :: appId := by
    rw [dataPath, snprintfPath, take_of_length_le]
    simp only [length_append, length_cons, dataDir, length_nil, maxPathLen, maxAppIdLen] at *
    omega
  have hmarker : markerPath appId = dataDir ++ slash :: appId ++ keepName := by
    rw [markerPath, snprintfPath, take_of_length_le, append_assoc]
    · rfl
    simp only [length_append, length_cons, dataDir, keepName, length_nil, maxPathLen,
      maxAppIdLen] at *
    omega
  refine ⟨keepName.drop 1, ?_⟩
  simp only [hdata, hmarker, pathKey, map_append, map_cons, append_assoc]
  rfl

end
end

variable {staged vfs : Vfs}

section
variable {env : Environment} {reader : Reader} {opts : Option Options} {s : System} {pkg : Package}

lemma files_uninstalled (vfs : Vfs) (k : List Byte) :
    ((ensureAppDataDirectory env vfs pkg.appId).unlink (pathKey (markerPath pkg.appId))).files k =
      if k = pathKey (markerPath pkg.appId) then none else vfs.files k := by
  by_cases hk : k = pathKey (markerPath pkg.appId)
  · rw [if_pos hk, hk]
    exact update_self _ _ _
  rw [if_neg hk]
  refine (update_of_ne hk _ _).trans ?_
  rw [files_ensureAppDataDirectory, if_neg fun h => hk h.1]

lemma uninstalled_files_iff (hname : ValidName pkg.appId)
    (hinstall : ∀ k, Under (installPath pkg.appId) k → s.vfs.files k = none)
    (hdata : ∀ k, Under (dataPath pkg.appId) k → s.vfs.files k = none)
    (hstage : stageLoop env.fails (installJobs env pkg) s.vfs = (true, staged))
    (hcom : commitLoop env.fails (installJobs env pkg) staged = (true, vfs)) :
    ((ensureAppDataDirectory env vfs pkg.appId).unlink (pathKey (markerPath pkg.appId))).files =
      s.vfs.files ↔ pkg.fileCount = 0 := by
  constructor
  · intro h
    by_contra hcount
    have hjob : installJob env pkg 0 ∈ installJobs env pkg :=
      mem_map_of_mem (mem_range.mpr (Nat.pos_of_ne_zero hcount))
    have hmem : (installJob env pkg 0).target ∈ (installJobs env pkg).map Job.target :=
      mem_map_of_mem hjob
    have hne : (installJob env pkg 0).target ≠ pathKey (markerPath pkg.appId) :=
      fun heq => marker_not_target (heq ▸ hmem)
    have hempty : s.vfs.files (installJob env pkg 0).target = none :=
      hinstall _ (target_under hname _)
    have hkept := congrFun h (installJob env pkg 0).target
    rw [files_uninstalled, if_neg hne, committed_target hname hstage hcom hjob, hempty] at hkept
    have hsome := (stageable hstage).1 _ hjob
    rw [hkept] at hsome
    cases hsome
  · intro hcount
    have hjobs : installJobs env pkg = [] := by rw [installJobs, hcount]; rfl
    funext k
    rw [files_uninstalled]
    by_cases hk : k = pathKey (markerPath pkg.appId)
    · rw [if_pos hk, hk, hdata _ (markerKey_under hname)]
    rw [if_neg hk]
    exact committed_other hstage hcom (by rw [hjobs]; exact not_mem_nil)
      (by rw [hjobs]; exact not_mem_nil)

/-- Installing and removing restores files and database exactly for a package without files. -/
theorem uninstall_restores_iff (hopen : (kpkgOpen reader (env.grants .index)).result = some pkg)
    (hinstall : ∀ k, Under (installPath pkg.appId) k → s.vfs.files k = none)
    (hdata : ∀ k, Under (dataPath pkg.appId) k → s.vfs.files k = none)
    (hok : (installerInstall env reader opts s).1 = .ok) :
    ((installerUninstall pkg.appId false (installerInstall env reader opts s).2).1 = .ok ∧
      (installerUninstall pkg.appId false
        (installerInstall env reader opts s).2).2.vfs.files = s.vfs.files ∧
      SameContents (installerUninstall pkg.appId false
        (installerInstall env reader opts s).2).2.db s.db) ↔ pkg.fileCount = 0 := by
  obtain ⟨hname, hfind, staged, vfs, db, hstage, hcommit, hregister, hresult⟩ :=
    install_ok_phases hopen hok
  obtain ⟨slot, db', hfound, hunregister, hsame⟩ := unregister_register hname.length hfind hregister
  have huninstall : installerUninstall pkg.appId false (installerInstall env reader opts s).2 =
      (.ok, ⟨(ensureAppDataDirectory env vfs pkg.appId).unlink (pathKey (markerPath pkg.appId)),
        db'⟩) := by
    have hfound' : pkgDbFind db pkg.appId = some slot := hfound
    have hunregister' : pkgDbUnregister db pkg.appId = some db' := hunregister
    rw [hresult, installerUninstall, hfound', hunregister']
    rfl
  rw [huninstall, ← uninstalled_files_iff hname hinstall hdata hstage hcommit]
  exact ⟨fun h => h.2.1, fun h => ⟨rfl, h, hsame⟩⟩

end

section
variable {env : Environment} {appId : List Byte}

lemma backupFile_eighth (index : ℕ) : (backupFile appId index)[8]? = some 0x2e := by
  have hlen : 8 < (backupPrefix appId).length := by
    simp [backupPrefix, snprintfPath, baseDir, backupName, maxPathLen]
  rw [backupFile, pathKey_getElem?, filePath_getElem? (by decide) hlen, backupPrefix,
    snprintfPath_getElem? (by decide)]
  rfl

def backupWrites (record : PkgRecord) (vfs : Vfs) : ℕ :=
  if (vfs.files (pathKey record.installPath)).isSome then
    ((range record.fileIndices.length).filter fun f =>
      record.fileIndices.getD f 0 < maxFilesTotal).length
  else 0

lemma write_other (vfs : Vfs) {key : List Byte} (data : List Byte) (h : k ≠ key) :
    (vfs.write env.fails key data).2.files k = vfs.files k := by
  unfold write
  split
  · rfl
  · exact update_of_ne h _ _

lemma write_isSome (vfs : Vfs) (key data : List Byte) (h : (vfs.files k).isSome) :
    ((vfs.write env.fails key data).2.files k).isSome := by
  unfold write
  split
  · exact h
  by_cases hk : k = key
  · rw [hk]
    exact (congrArg Option.isSome (update_self key (some data) vfs.files)).trans rfl
  · exact (congrArg Option.isSome (update_of_ne hk (some data) vfs.files)).trans h

lemma write_writes (vfs : Vfs) (key data : List Byte) :
    (vfs.write env.fails key data).2.writes = vfs.writes + 1 := by
  unfold write
  split <;> rfl

section
variable (record : PkgRecord) (fs : List ℕ)
include record fs

lemma backup_files (vfs : Vfs) (h : k[8]? ≠ some 0x2e) :
    (fs.foldl (backupTurn env record appId) vfs).files k = vfs.files k := by
  induction fs generalizing vfs with
  | nil => rfl
  | cons f fs ih =>
    rw [foldl_cons, ih]
    unfold backupTurn
    split
    · split
      · rfl
      refine write_other _ _ fun heq => h ?_
      rw [heq]
      exact backupFile_eighth f
    · rfl

lemma backup_writes_none (h : vfs.files (pathKey record.installPath) = none) :
    fs.foldl (backupTurn env record appId) vfs = vfs := by
  induction fs with
  | nil => rfl
  | cons f fs ih =>
    have hturn : backupTurn env record appId vfs f = vfs := by
      unfold backupTurn
      split
      · rw [h]
      · rfl
    rw [foldl_cons, hturn, ih]

lemma backup_writes_some (h : (vfs.files (pathKey record.installPath)).isSome) :
    (fs.foldl (backupTurn env record appId) vfs).writes = vfs.writes +
      (fs.filter fun f => record.fileIndices.getD f 0 < maxFilesTotal).length := by
  induction fs generalizing vfs with
  | nil => rfl
  | cons f fs ih =>
    obtain ⟨data, hdata⟩ := Option.isSome_iff_exists.mp h
    rw [foldl_cons]
    by_cases hf : record.fileIndices.getD f 0 < maxFilesTotal
    · have hturn : backupTurn env record appId vfs f =
          (vfs.write env.fails (backupFile appId f) data).2 := by
        rw [backupTurn, if_pos hf, hdata]
      rw [hturn, ih (write_isSome _ _ _ h), write_writes,
        filter_cons_of_pos (by simpa using hf), length_cons]
      omega
    · have hturn : backupTurn env record appId vfs f = vfs := by rw [backupTurn, if_neg hf]
      rw [hturn, ih h, filter_cons_of_neg (by simpa using hf)]

end

lemma backupFiles_writes (record : PkgRecord) (vfs : Vfs) :
    (backupFiles env record appId vfs).writes = vfs.writes + backupWrites record vfs := by
  unfold backupFiles backupWrites
  cases hfile : vfs.files (pathKey record.installPath) with
  | none => rw [backup_writes_none _ _ hfile, if_neg (by simp), Nat.add_zero]
  | some data => rw [backup_writes_some _ _ (by rw [hfile]; rfl), if_pos (by rfl)]

end

section
variable {env : Environment} {pkg : Package} {slot : ℕ} {s : System}

/-- Below the install path there are the files of the package only, and the record keeps its data
path. -/
structure NewVersion (pkg : Package) (slot : ℕ) (s s' : System) : Prop where
  contents : ∀ f ∈ pkg.files, ∃ bytes, pkg.reader.read (pkg.payloadStart f) f.size = some bytes ∧
    s'.vfs.files (pathKey (installText pkg.appId f.path)) = some bytes
  only : ∀ k, Under (installPath pkg.appId) k →
    (∀ f ∈ pkg.files, k ≠ pathKey (installText pkg.appId f.path)) → s'.vfs.files k = none
  dataPath : (s'.db.packages slot).dataPath = (s.db.packages slot).dataPath

/-- The files below the install path and the database are still there. -/
structure OldVersion (pkg : Package) (s s' : System) : Prop where
  files : ∀ k content, Under (installPath pkg.appId) k → s.vfs.files k = some content →
    s'.vfs.files k = some content
  record : s'.db = s.db

/-- An update ends with the new version, or else with the old one. -/
def UpdateSemantics (pkg : Package) (slot : ℕ) (s : System) (result : Status × System) : Prop :=
  (result.1 = .ok → NewVersion pkg slot s result.2) ∧
    (result.1 ≠ .ok → OldVersion pkg s result.2)

def firstWrite (slot : ℕ) (s : System) : ℕ := s.vfs.writes + backupWrites (s.db.packages slot) s.vfs

/-- What an update relies on. If all its writes succeed: the record has no data path to lose, no
path is cut off, and the new package has every file of the old one. If it fails while committing:
the files it had committed are new or as they were. -/
structure UpdateCondition (env : Environment) (pkg : Package) (slot : ℕ) (s : System) : Prop where
  replaced : Stageable env.fails (installJobs env pkg) (firstWrite slot s) →
    Committable env.fails (installJobs env pkg) (firstWrite slot s + pkg.fileCount) →
    (s.db.packages slot).dataPath = [] ∧
    (∀ f ∈ pkg.files, (installText pkg.appId f.path).length < maxPathLen) ∧
    ∀ k, Under (installPath pkg.appId) k →
      (∀ f ∈ pkg.files, k ≠ pathKey (installText pkg.appId f.path)) → s.vfs.files k = none
  kept : Stageable env.fails (installJobs env pkg) (firstWrite slot s) →
    ¬ Committable env.fails (installJobs env pkg) (firstWrite slot s + pkg.fileCount) →
    ∀ job ∈ committedJobs env.fails (firstWrite slot s + pkg.fileCount) [] (installJobs env pkg),
      s.vfs.files job.target = none ∨
        s.vfs.files job.target = lastContent (installJobs env pkg) job.staged

def backedUp (env : Environment) (pkg : Package) (slot : ℕ) (s : System) : System :=
  ⟨backupFiles env (s.db.packages slot) pkg.appId s.vfs, s.db⟩

lemma backedUp_writes : (backedUp env pkg slot s).vfs.writes = firstWrite slot s :=
  backupFiles_writes _ _

section
variable {k : List Byte} (hname : ValidName pkg.appId) (hk : Under (installPath pkg.appId) k)
include hname hk

lemma backedUp_files : (backedUp env pkg slot s).vfs.files k = s.vfs.files k :=
  backup_files _ _ _ (under_eighth hname hk)

lemma under_not_staged : k ∉ (installJobs env pkg).map Job.staged := by
  intro hmem
  obtain ⟨i, -, rfl⟩ := staged_mem_iff.mp hmem
  exact under_eighth hname hk stagedKey_eighth

end

inductive UpdateOutcome (env : Environment) (pkg : Package) (slot : ℕ) (s : System) :
    Status × System → Prop
  | stagingFailed (vfs : Vfs)
    (hstage : Store.stageLoop env.fails (installJobs env pkg) (backedUp env pkg slot s).vfs =
      (false, vfs)) :
    UpdateOutcome env pkg slot s
      (.stagingFail, ⟨vfs.unlinkAll ((installJobs env pkg).map Job.staged), s.db⟩)
  | commitFailed (staged vfs : Vfs)
    (hstage : Store.stageLoop env.fails (installJobs env pkg) (backedUp env pkg slot s).vfs =
      (true, staged))
    (hcommit : Store.commitLoop env.fails (installJobs env pkg) staged = (false, vfs)) :
    UpdateOutcome env pkg slot s (.commitFail, ⟨vfs, s.db⟩)
  | updated (staged vfs : Vfs)
    (hstage : Store.stageLoop env.fails (installJobs env pkg) (backedUp env pkg slot s).vfs =
      (true, staged))
    (hcommit : Store.commitLoop env.fails (installJobs env pkg) staged = (true, vfs)) :
    UpdateOutcome env pkg slot s (.ok, recordUpdate env pkg slot ⟨vfs, s.db⟩)

lemma updatePackage_outcome (env : Environment) (pkg : Package) (slot : ℕ) (s : System) :
    UpdateOutcome env pkg slot s (updatePackage env pkg slot s) := by
  have hbacked : backupFiles env (s.db.packages slot) pkg.appId s.vfs =
      (backedUp env pkg slot s).vfs := rfl
  unfold updatePackage
  dsimp only
  rw [hbacked]
  rcases hstage : stageLoop env.fails (installJobs env pkg) (backedUp env pkg slot s).vfs with
    ⟨_ | _, staged⟩
  · exact .stagingFailed staged hstage
  dsimp only
  rcases hcom : commitLoop env.fails (installJobs env pkg) staged with ⟨_ | _, vfs⟩
  · exact .commitFailed staged vfs hstage hcom
  · exact .updated staged vfs hstage hcom

section
variable (hname : ValidName pkg.appId)
include hname

lemma oldVersion_of_stagingFailed
    (hstage : stageLoop env.fails (installJobs env pkg) (backedUp env pkg slot s).vfs = (false, vfs)) :
    OldVersion pkg s ⟨vfs.unlinkAll ((installJobs env pkg).map Job.staged), s.db⟩ := by
  refine ⟨fun k content hk hold => ?_, rfl⟩
  dsimp only
  rw [files_stagingFailed hstage, without_of_not_mem (under_not_staged hname hk),
    backedUp_files hname hk, hold]

/-- The files of the jobs that were committed before the failure are the new ones. -/
lemma oldVersion_of_commitFailed_iff
    (hstage : stageLoop env.fails (installJobs env pkg) (backedUp env pkg slot s).vfs = (true, staged))
    (hcom : commitLoop env.fails (installJobs env pkg) staged = (false, vfs)) :
    OldVersion pkg s ⟨vfs, s.db⟩ ↔
      ∀ job ∈ committedJobs env.fails (firstWrite slot s + pkg.fileCount) [] (installJobs env pkg),
        s.vfs.files job.target = none ∨
          s.vfs.files job.target = lastContent (installJobs env pkg) job.staged := by
  have hapart : Apart (installJobs env pkg) := apart_installJobs hname
  have hok : (stageLoop env.fails (installJobs env pkg) (backedUp env pkg slot s).vfs).1 =
      true := by rw [hstage]
  have hstaged : ∀ k ∈ (installJobs env pkg).map Job.staged,
      (staged.files k).isSome ↔ k ∉ ([] : List (List Byte)) := by
    intro k hk
    have h := stageLoop_isSome hok hk
    rw [hstage] at h
    exact ⟨fun _ => not_mem_nil, fun _ => h⟩
  have hwrites : staged.writes = firstWrite slot s + pkg.fileCount := by
    have h := stageLoop_writes hok
    rwa [hstage, backedUp_writes, installJobs_length] at h
  obtain ⟨hdone, hfiles, -⟩ := commitLoop_committed env.fails hapart hstaged
  rw [hcom, hwrites] at hfiles
  rw [hwrites] at hdone
  have hsubset : ∀ job ∈ committedJobs env.fails (firstWrite slot s + pkg.fileCount) []
      (installJobs env pkg), job ∈ installJobs env pkg := fun _ h => committedJobs_subset h
  generalize committedJobs env.fails (firstWrite slot s + pkg.fileCount) [] (installJobs env pkg) =
    done at hdone hfiles hsubset ⊢
  have hsub : ∀ (f : Job (List Byte) (List Byte) → List Byte) k, k ∈ done.map f →
      k ∈ (installJobs env pkg).map f := by
    intro f k hk
    obtain ⟨job, hjob, rfl⟩ := mem_map.mp hk
    exact mem_map_of_mem (hsubset job hjob)
  have hapart' : Apart done := fun k hk hmem => hapart k (hsub _ k hk) (hsub _ k hmem)
  have hnodup : (done.map Job.staged).Nodup :=
    ((commitLoop_fst_iff env.fails hapart' fun k hk =>
      (hstaged k (hsub _ k hk)).mpr not_mem_nil).mp hdone).1
  have htarget : ∀ job ∈ done, vfs.files job.target =
      lastContent (installJobs env pkg) job.staged := by
    intro job hjob
    have h := moved_target hsubset hapart' hnodup hdone hjob
    rwa [← hfiles, staged_content hstage (hsubset job hjob)] at h
  have hunder : ∀ job ∈ done, Under (installPath pkg.appId) job.target := by
    intro job hjob
    obtain ⟨i, -, rfl⟩ := mem_map.mp (hsubset job hjob)
    exact target_under hname _
  constructor
  · intro h job hjob
    cases hold : s.vfs.files job.target with
    | none => exact .inl rfl
    | some content =>
      have hkept := h.files _ _ (hunder job hjob) hold
      dsimp only at hkept
      rw [htarget job hjob] at hkept
      exact .inr hkept.symm
  · intro h
    refine ⟨fun k content hk hold => ?_, rfl⟩
    dsimp only
    by_cases hmem : k ∈ done.map Job.target
    · obtain ⟨job, hjob, rfl⟩ := mem_map.mp hmem
      rw [htarget job hjob]
      rcases h job hjob with hnone | hsame
      · rw [hnone] at hold
        cases hold
      · rw [← hsame, hold]
    have hnot : k ∉ (installJobs env pkg).map Job.staged := under_not_staged hname hk
    have hstay := commitLoop_other env.fails done staged (fun hk' => hnot (hsub _ k hk')) hmem
    have hfirst := stageLoop_other env.fails (installJobs env pkg) (backedUp env pkg slot s).vfs
      hnot
    rw [hstage] at hfirst
    rw [hfiles, hstay, hfirst, backedUp_files hname hk, hold]

lemma recordUpdate_files (db : Database) (vfs : Vfs) (hk : Under (installPath pkg.appId) k) :
    (recordUpdate env pkg slot ⟨vfs, db⟩).vfs.files k = vfs.files k := by
  unfold recordUpdate
  dsimp only
  rw [files_unlinkAll]
  refine without_of_not_mem fun hmem => ?_
  obtain ⟨i, -, rfl⟩ := mem_map.mp hmem
  exact under_eighth hname hk (backupFile_eighth i)

end

lemma recordUpdate_dataPath (hfind : pkgDbFind s.db pkg.appId = some slot) (vfs : Vfs) :
    ((recordUpdate env pkg slot ⟨vfs, s.db⟩).db.packages slot).dataPath = [] := by
  obtain ⟨db, hreg, hpath⟩ := register_known (manifestOf pkg) hfind
    (installPath pkg.appId) pkg.files env.now
  unfold recordUpdate
  dsimp only
  rw [hreg]
  exact hpath

/-- If a target that is cut off is the full path of a file, the two are one file. -/
lemma short_of_full_target (hname : ValidName pkg.appId)
    (hnodup : ((installJobs env pkg).map Job.staged).Nodup)
    (hfull : ∀ i < pkg.fileCount, ∃ f ∈ pkg.files,
      (installJob env pkg i).target = pathKey (installText pkg.appId f.path)) :
    ∀ f ∈ pkg.files, (installText pkg.appId f.path).length < maxPathLen := by
  intro f hf
  obtain ⟨i, hi, rfl⟩ := mem_files_iff.mp hf
  obtain ⟨g, hg, hkey⟩ := hfull i hi
  obtain ⟨j, hj, rfl⟩ := mem_files_iff.mp hg
  have hlen : (installText pkg.appId (pkg.entry j).path).length < maxPathLen := by
    have h := congrArg length hkey
    simp only [installJob, pathKey, filePath, snprintfPath, length_map, length_take] at h
    have hpositive : 0 < maxPathLen := by decide
    omega
  rw [← installJob_target env hname hlen] at hkey
  have htargets : ((range pkg.fileCount).map fun i => (installJob env pkg i).target).Nodup := by
    have h := nodup_target (fun _ hjob => hjob) hnodup
    rwa [installJobs, map_map] at h
  have hij : i = j := inj_on_of_nodup_map htargets (mem_range.mpr hi)
    (mem_range.mpr hj) hkey
  rw [hij]
  exact hlen

lemma newVersion_iff (hname : ValidName pkg.appId) (hfind : pkgDbFind s.db pkg.appId = some slot)
    (hstage : stageLoop env.fails (installJobs env pkg) (backedUp env pkg slot s).vfs =
      (true, staged)) (hcom : commitLoop env.fails (installJobs env pkg) staged = (true, vfs)) :
    NewVersion pkg slot s (recordUpdate env pkg slot ⟨vfs, s.db⟩) ↔
      (s.db.packages slot).dataPath = [] ∧
      (∀ f ∈ pkg.files, (installText pkg.appId f.path).length < maxPathLen) ∧
      ∀ k, Under (installPath pkg.appId) k →
        (∀ f ∈ pkg.files, k ≠ pathKey (installText pkg.appId f.path)) → s.vfs.files k = none := by
  have hnodup := ((commit_iff hname hstage hcom).mp rfl).1
  have hread := @committed_read env pkg (backedUp env pkg slot s) staged vfs hname hstage hcom
  have hother : ∀ k, Under (installPath pkg.appId) k →
      (∀ i < pkg.fileCount, k ≠ (installJob env pkg i).target) → vfs.files k = s.vfs.files k := by
    intro k hk hne
    rw [committed_other hstage hcom (under_not_staged hname hk), backedUp_files hname hk]
    intro hmem
    obtain ⟨i, hi, hkey⟩ := target_mem_iff.mp hmem
    exact hne i hi hkey.symm
  constructor
  · intro h
    have hshort := short_of_full_target hname hnodup fun i hi => by
      by_contra hnot
      push Not at hnot
      obtain ⟨bytes, -, -, hbytes⟩ := hread hi
      have hunder : Under (installPath pkg.appId) (installJob env pkg i).target :=
        target_under hname _
      have hnone := h.only _ hunder hnot
      rw [recordUpdate_files hname _ _ hunder, hbytes] at hnone
      cases hnone
    refine ⟨?_, hshort, fun k hk hne => ?_⟩
    · rw [← h.dataPath, recordUpdate_dataPath hfind]
    have hnone := h.only k hk hne
    rw [recordUpdate_files hname _ _ hk, hother k hk] at hnone
    · exact hnone
    intro i hi
    rw [installJob_target env hname (hshort _ (entry_mem_files hi))]
    exact hne _ (entry_mem_files hi)
  · rintro ⟨hpath, hshort, hold⟩
    refine ⟨fun f hf => ?_, fun k hk hne => ?_, ?_⟩
    · obtain ⟨i, hi, rfl⟩ := mem_files_iff.mp hf
      obtain ⟨bytes, hbytes, -, hfile⟩ := hread hi
      refine ⟨bytes, hbytes, ?_⟩
      rw [recordUpdate_files hname _ _ (installText_under hname _),
        ← installJob_target env hname (hshort _ hf), hfile]
    · rw [recordUpdate_files hname _ _ hk, hother k hk, hold k hk hne]
      intro i hi
      rw [installJob_target env hname (hshort _ (entry_mem_files hi))]
      exact hne _ (entry_mem_files hi)
    · rw [recordUpdate_dataPath hfind, hpath]

end

section
variable {env : Environment} {reader : Reader} {opts : Option Options} {s : System} {pkg : Package}
  {slot : ℕ}

lemma updatePackage_iff (hname : ValidName pkg.appId)
    (hfind : pkgDbFind s.db pkg.appId = some slot) :
    UpdateSemantics pkg slot s (updatePackage env pkg slot s) ↔ UpdateCondition env pkg slot s := by
  have hres := updatePackage_outcome env pkg slot s
  generalize updatePackage env pkg slot s = result at hres ⊢
  cases hres with
  | stagingFailed vfs hstage =>
    have hnot := not_stageable hstage
    rw [backedUp_writes] at hnot
    exact ⟨fun _ => ⟨fun h => absurd h hnot, fun h => absurd h hnot⟩,
      fun _ => ⟨(fun h => nomatch h), fun _ => oldVersion_of_stagingFailed hname hstage⟩⟩
  | commitFailed staged vfs hstage hcom =>
    have hstageable := stageable hstage
    have hnot : ¬ Committable env.fails (installJobs env pkg)
        ((backedUp env pkg slot s).vfs.writes + pkg.fileCount) := by
      rw [← commit_iff hname hstage hcom]
      exact Bool.false_ne_true
    rw [backedUp_writes] at hstageable hnot
    have hkept := oldVersion_of_commitFailed_iff hname hstage hcom
    exact ⟨fun h => ⟨fun _ hcommittable => absurd hcommittable hnot,
        fun _ _ => hkept.mp (h.2 (fun heq => nomatch heq))⟩,
      fun h => ⟨(fun heq => nomatch heq), fun _ => hkept.mpr (h.kept hstageable hnot)⟩⟩
  | updated staged vfs hstage hcom =>
    have hstageable := stageable hstage
    have hcommittable := (commit_iff hname hstage hcom).mp rfl
    rw [backedUp_writes] at hstageable hcommittable
    have hnew := newVersion_iff hname hfind hstage hcom
    exact ⟨fun h => ⟨fun _ _ => hnew.mp (h.1 rfl), fun _ hnot => absurd hcommittable hnot⟩,
      fun h => ⟨fun _ => hnew.mpr (h.replaced hstageable hcommittable), fun hne => absurd rfl hne⟩⟩

lemma admitUpdate_spec (opts : Option Options)
    (hopen : (kpkgOpen reader (env.grants .index)).result = some pkg)
    (hfind : pkgDbFind s.db pkg.appId = some slot) :
    (∃ status, status ≠ .ok ∧ admitUpdate env reader opts s.db = .error status) ∨
      admitUpdate env reader opts s.db = .ok (pkg, slot) := by
  unfold admitUpdate
  rw [hopen]
  dsimp only
  rw [hfind]
  dsimp only
  split
  · exact .inl ⟨.versionDowngrade, by decide, rfl⟩
  cases hcheck : checkPackage env opts pkg with
  | some status =>
    exact .inl ⟨status, fun h => checkPackage_ne_ok (hcheck.trans (congrArg _ h)), rfl⟩
  | none => exact .inr rfl

/-- An update does what it should exactly if it is refused or its condition is met. -/
theorem update_semantics_iff (hopen : (kpkgOpen reader (env.grants .index)).result = some pkg)
    (hfind : pkgDbFind s.db pkg.appId = some slot) :
    UpdateSemantics pkg slot s (installerUpdate env reader opts s) ↔
      (admitUpdate env reader opts s.db = .ok (pkg, slot) → UpdateCondition env pkg slot s) := by
  have hname := validName_of_opened (opened_of_result hopen)
  unfold installerUpdate
  rcases admitUpdate_spec opts hopen hfind with ⟨status, hne, hchecked⟩ | hchecked
  · rw [hchecked]
    constructor
    · intro _ h
      cases h
    · intro _
      exact ⟨fun h => absurd h hne, fun _ => ⟨fun _ _ _ hold => hold, rfl⟩⟩
  rw [hchecked]
  dsimp only
  rw [updatePackage_iff hname hfind]
  exact ⟨fun h _ => h, fun h => h rfl⟩

end

def installedSystem : System :=
  (installerInstall (sampleEnv none) soundReader none (sampleSystem none)).2

theorem update_semantics_iff_sound : ∃ pkg,
    (kpkgOpen soundReader true).result = some pkg ∧
    pkgDbFind installedSystem.db pkg.appId = some 0 ∧
    (UpdateSemantics pkg 0 installedSystem
        (installerUpdate (sampleEnv none) soundReader none installedSystem) ↔
      (admitUpdate (sampleEnv none) soundReader none installedSystem.db = .ok (pkg, 0) →
        UpdateCondition (sampleEnv none) pkg 0 installedSystem)) := by
  have hfound : (kpkgOpen soundReader true).result.map (fun pkg =>
      decide (pkgDbFind installedSystem.db pkg.appId = some 0)) = some true := by
    decide +kernel
  obtain ⟨pkg, hpkg, hfind⟩ := Option.map_eq_some_iff.mp hfound
  exact ⟨pkg, hpkg, of_decide_eq_true hfind, update_semantics_iff hpkg (of_decide_eq_true hfind)⟩

/-- The update of an installed application with its own package loses the data path, `D:/Data/a`. -/
theorem update_loses_data_path :
    (installerUpdate (sampleEnv none) soundReader none installedSystem).1 = .ok ∧
      (installedSystem.db.packages 0).dataPath = dataPath [0x61] ∧
      ((installerUpdate (sampleEnv none) soundReader none installedSystem).2.db.packages
        0).dataPath = [] := by
  decide +kernel

theorem uninstall_restores_iff_sound : ∃ pkg,
    (kpkgOpen soundReader true).result = some pkg ∧
    (((installerUninstall pkg.appId false installedSystem).1 = .ok ∧
      (installerUninstall pkg.appId false installedSystem).2.vfs.files =
        (sampleSystem none).vfs.files ∧
      SameContents (installerUninstall pkg.appId false installedSystem).2.db
        (sampleSystem none).db) ↔ pkg.fileCount = 0) := by
  have hopened : (kpkgOpen soundReader true).result.isSome = true := by decide +kernel
  obtain ⟨pkg, hpkg⟩ := Option.isSome_iff_exists.mp hopened
  have hempty : ∀ k, (sampleSystem none).vfs.files k = none := fun k => ite_self none
  have hok : (installerInstall (sampleEnv none) soundReader none (sampleSystem none)).1 = .ok := by
    decide +kernel
  unfold installedSystem
  exact ⟨pkg, hpkg, uninstall_restores_iff hpkg (fun k _ => hempty k) (fun k _ => hempty k) hok⟩

/-- The file of the package is still there after the application is removed. -/
theorem uninstall_leaves_file :
    (sampleSystem none).vfs.files sampleKey = none ∧
      (installerInstall (sampleEnv none) soundReader none (sampleSystem none)).1 = .ok ∧
      (installerUninstall [0x61] false installedSystem).1 = .ok ∧
      (installerUninstall [0x61] false installedSystem).2.vfs.files sampleKey = some [7] := by
  decide +kernel

end KosKernel.Installer
