import KosKernel.InstallerState
import KosKernel.KpkgBounds

/-! What an installation leaves in the map of files: nothing but the files of the package when it
succeeds, and the conditions under which a failure leaves nothing. -/
namespace KosKernel.Installer
open LittleEndian AccessLog Kpkg PackageDatabase StagedWrites List Store

variable {path text : List Byte} {i : ℕ}

section
lemma pathKey_getElem? (path : List Byte) (i : ℕ) :
    (pathKey path)[i]? = path[i]?.map fun c => if c = 0x5c then slash else c :=
  getElem?_map

lemma filePath_getElem? {directory : List Byte} (hi : i < maxPathLen - 1)
    (hlt : i < directory.length) : (filePath directory path)[i]? = directory[i]? := by
  rw [filePath, snprintfPath, getElem?_take_of_lt hi, getElem?_append_left hlt]

lemma snprintfPath_getElem? (hi : i < maxPathLen - 1) : (snprintfPath text)[i]? = text[i]? := by
  rw [snprintfPath, getElem?_take_of_lt hi]

lemma stagePrefix_length (appId : List Byte) : 17 ≤ (stagePrefix appId).length := by
  simp [stagePrefix, snprintfPath, baseDir, stagingName, maxPathLen]

lemma installPath_length (appId : List Byte) : 8 ≤ (installPath appId).length := by
  simp [installPath, snprintfPath, baseDir, maxPathLen]

variable {appId path : List Byte}

/-- The ninth character tells the staging files apart, the fourth one the marker. -/
lemma stagedKey_eighth : (pathKey (filePath (stagePrefix appId) path))[8]? = some 0x2e := by
  have hlen := stagePrefix_length appId
  rw [pathKey_getElem?, filePath_getElem? (by decide) (by omega), stagePrefix,
    snprintfPath_getElem? (by decide)]
  rfl

lemma stagedKey_third : (pathKey (filePath (stagePrefix appId) path))[3]? = some 0x41 := by
  have hlen := stagePrefix_length appId
  rw [pathKey_getElem?, filePath_getElem? (by decide) (by omega), stagePrefix,
    snprintfPath_getElem? (by decide)]
  rfl

lemma targetKey_third : (pathKey (filePath (installPath appId) path))[3]? = some 0x41 := by
  have hlen := installPath_length appId
  rw [pathKey_getElem?, filePath_getElem? (by decide) (by omega), installPath,
    snprintfPath_getElem? (by decide)]
  rfl

lemma markerKey_third : (pathKey (markerPath appId))[3]? = some 0x44 := by
  rw [pathKey_getElem?, markerPath, snprintfPath_getElem? (by decide)]
  rfl

/-- A name that may stand in a manifest; it is empty in a package without one. -/
structure ValidName (appId : List Byte) : Prop where
  head : appId.head? ≠ some 0x2e
  length : appId.length < maxAppIdLen

lemma pathKey_filePath (directory path : List Byte) : pathKey (filePath directory path) =
    (pathKey directory ++ slash :: pathKey path).take (maxPathLen - 1) := by
  rw [filePath, snprintfPath, pathKey, map_take, map_append, map_cons]
  rfl

/-- What lies below the install path is neither a staging file nor a backup. -/
lemma installPath_eighth (hname : ValidName appId) (rest : List Byte) :
    (pathKey (installPath appId) ++ slash :: rest)[8]? ≠ some 0x2e := by
  cases appId with
  | nil =>
    intro h
    cases h
  | cons c appId =>
    have hc : c ≠ 0x2e := fun h => hname.head (by rw [h]; rfl)
    have hlen : 8 < (pathKey (installPath (c :: appId))).length := by
      simp [pathKey, installPath, snprintfPath, baseDir, maxPathLen]
    have hchar : (installPath (c :: appId))[8]? = some c := by
      rw [installPath, snprintfPath_getElem? (by decide)]
      rfl
    rw [getElem?_append_left hlen, pathKey_getElem?, hchar, Option.map_some]
    intro h
    split at h
    · cases h
    · exact hc (Option.some.inj h)

lemma targetKey_eighth (hname : ValidName appId) :
    (pathKey (filePath (installPath appId) path))[8]? ≠ some 0x2e := by
  rw [pathKey_filePath, getElem?_take_of_lt (by decide)]
  exact installPath_eighth hname _

end

variable {k : List Byte}

section
variable {env : Environment} {pkg : Package}

lemma staged_mem_iff : k ∈ (installJobs env pkg).map Job.staged ↔
    ∃ i < pkg.fileCount, pathKey (filePath (stagePrefix pkg.appId) (pkg.entry i).path) = k := by
  simp [installJobs, installJob]

lemma target_mem_iff : k ∈ (installJobs env pkg).map Job.target ↔
    ∃ i < pkg.fileCount, pathKey (filePath (installPath pkg.appId) (pkg.entry i).path) = k := by
  simp [installJobs, installJob]

lemma installJobs_length : (installJobs env pkg).length = pkg.fileCount := by simp [installJobs]

lemma apart_installJobs (hname : ValidName pkg.appId) : Apart (installJobs env pkg) := by
  intro k hstaged htarget
  obtain ⟨i, -, rfl⟩ := staged_mem_iff.mp hstaged
  obtain ⟨j, -, hj⟩ := target_mem_iff.mp htarget
  exact targetKey_eighth hname (by rw [hj]; exact stagedKey_eighth)

lemma marker_not_staged :
    pathKey (markerPath pkg.appId) ∉ (installJobs env pkg).map Job.staged := by
  intro h
  obtain ⟨i, -, hi⟩ := staged_mem_iff.mp h
  have hthird : (pathKey (markerPath pkg.appId))[3]? = some 0x44 := markerKey_third
  rw [← hi, stagedKey_third] at hthird
  cases hthird

lemma marker_not_target :
    pathKey (markerPath pkg.appId) ∉ (installJobs env pkg).map Job.target := by
  intro h
  obtain ⟨i, -, hi⟩ := target_mem_iff.mp h
  have hthird : (pathKey (markerPath pkg.appId))[3]? = some 0x44 := markerKey_third
  rw [← hi, targetKey_third] at hthird
  cases hthird

end

section
variable {env : Environment} {reader : Reader} {opts : Option Options} {s : System} {pkg : Package}

lemma validName_of_opened (h : Opened reader pkg) : ValidName pkg.appId := by
  rcases Nat.eq_zero_or_pos (manifestSizeOf pkg.headerBytes) with hzero | hpos
  · have hempty : pkg.appId = [] := by
      rw [Package.appId, h.noManifest hzero]
      rfl
    rw [hempty]
    exact ⟨(fun h => nomatch h), by decide⟩
  have hvalid := h.appId hpos
  simp only [kpkgValidateAppId, Bool.and_eq_true, bne_iff_ne, decide_eq_true_eq] at hvalid
  obtain ⟨⟨⟨⟨⟨⟨-, hlen⟩, -⟩, -⟩, hhead⟩, -⟩, -⟩ := hvalid
  have hpositive : 0 < maxAppIdLen := by decide
  exact ⟨hhead, by omega⟩

lemma opened_of_admitInstall (h : admitInstall env reader opts s.db = .ok pkg) :
    (kpkgOpen reader (env.grants .index)).result = some pkg ∧ pkgDbFind s.db pkg.appId = none ∧
      checkPackage env opts pkg = none := by
  unfold admitInstall at h
  cases hopen : (kpkgOpen reader (env.grants .index)).result with
  | none =>
    rw [hopen] at h
    cases h
  | some pkg' =>
    rw [hopen] at h
    dsimp only at h
    split at h
    · cases h
    rename_i hfind
    cases hcheck : checkPackage env opts pkg' with
    | some status =>
      rw [hcheck] at h
      cases h
    | none =>
      rw [hcheck] at h
      cases h
      exact ⟨rfl, Option.not_isSome_iff_eq_none.mp hfind, hcheck⟩

lemma checkPackage_ne_ok : checkPackage env opts pkg ≠ some .ok := by
  unfold checkPackage
  split
  · decide
  · split <;> decide

lemma admitInstall_ne_ok (db : Database) : admitInstall env reader opts db ≠ .error .ok := by
  unfold admitInstall
  cases (kpkgOpen reader (env.grants .index)).result with
  | none => exact fun h => nomatch h
  | some pkg =>
    dsimp only
    split
    · exact fun h => nomatch h
    cases hcheck : checkPackage env opts pkg with
    | none => exact fun h => nomatch h
    | some status =>
      intro h
      cases h
      exact checkPackage_ne_ok hcheck

lemma validName_of_admitInstall (h : admitInstall env reader opts s.db = .ok pkg) :
    ValidName pkg.appId :=
  validName_of_opened (opened_of_result (opened_of_admitInstall h).1)

inductive Outcome (env : Environment) (pkg : Package) (s : System) : Status × System → Prop
  | stagingFailed (vfs : Vfs)
    (hstage : Store.stageLoop env.fails (installJobs env pkg) s.vfs = (false, vfs)) :
    Outcome env pkg s
      (.stagingFail, ⟨vfs.unlinkAll ((installJobs env pkg).map Job.staged), s.db⟩)
  | commitFailed (staged vfs : Vfs)
    (hstage : Store.stageLoop env.fails (installJobs env pkg) s.vfs = (true, staged))
    (hcommit : Store.commitLoop env.fails (installJobs env pkg) staged = (false, vfs)) :
    Outcome env pkg s (.commitFail, ⟨vfs.unlinkAll
      ((installJobs env pkg).flatMap fun job => [job.target, job.staged]), s.db⟩)
  | recordFailed (staged vfs : Vfs)
    (hstage : Store.stageLoop env.fails (installJobs env pkg) s.vfs = (true, staged))
    (hcommit : Store.commitLoop env.fails (installJobs env pkg) staged = (true, vfs)) :
    Outcome env pkg s (.commitFail, ⟨(ensureAppDataDirectory env vfs pkg.appId).unlinkAll
      ((installJobs env pkg).map Job.target), s.db⟩)
  | installed (staged vfs : Vfs) (db : Database)
    (hstage : Store.stageLoop env.fails (installJobs env pkg) s.vfs = (true, staged))
    (hcommit : Store.commitLoop env.fails (installJobs env pkg) staged = (true, vfs))
    (hregister : pkgDbRegister s.db (manifestOf pkg) (installPath pkg.appId)
      (.text (dataPath pkg.appId)) pkg.files env.now = some db) :
    Outcome env pkg s (.ok, ⟨ensureAppDataDirectory env vfs pkg.appId, db⟩)

lemma installPackage_outcome (env : Environment) (pkg : Package) (s : System) :
    Outcome env pkg s (installPackage env pkg s) := by
  unfold installPackage
  dsimp only
  rcases hstage : stageLoop env.fails (installJobs env pkg) s.vfs with ⟨_ | _, staged⟩
  · exact .stagingFailed staged hstage
  dsimp only
  rcases hcom : commitLoop env.fails (installJobs env pkg) staged with ⟨_ | _, vfs⟩
  · exact .commitFailed staged vfs hstage hcom
  dsimp only
  unfold recordInstall
  cases hreg : pkgDbRegister s.db (manifestOf pkg) (installPath pkg.appId)
      (.text (dataPath pkg.appId)) pkg.files env.now with
  | none => exact .recordFailed staged vfs hstage hcom
  | some db => exact .installed staged vfs db hstage hcom hreg

end

section
variable {env : Environment} {pkg : Package} {s : System} {staged vfs : Vfs}

/-- After both phases: no staging file, and nothing changed beside the files of the package. -/
lemma committed_staged (hname : ValidName pkg.appId)
    (hcom : commitLoop env.fails (installJobs env pkg) staged = (true, vfs)) (hk : k ∈ (installJobs env pkg).map Job.staged) : vfs.files k = none := by
  have h := commitLoop_staged (apart_installJobs hname) (by rw [hcom]) hk
  rwa [hcom] at h

lemma committed_other
    (hstage : stageLoop env.fails (installJobs env pkg) s.vfs = (true, staged)) {ok : Bool}
    (hcom : commitLoop env.fails (installJobs env pkg) staged = (ok, vfs)) (hstaged : k ∉ (installJobs env pkg).map Job.staged)
    (htarget : k ∉ (installJobs env pkg).map Job.target) : vfs.files k = s.vfs.files k := by
  have hfirst := stageLoop_other env.fails (installJobs env pkg) s.vfs hstaged
  have hsecond := commitLoop_other env.fails (installJobs env pkg) staged hstaged htarget
  rw [hstage] at hfirst
  rw [hcom] at hsecond
  exact hsecond.trans hfirst

lemma not_stageable (hstage : stageLoop env.fails (installJobs env pkg) s.vfs = (false, vfs)) :
    ¬ Stageable env.fails (installJobs env pkg) s.vfs.writes := by
  rw [← stageLoop_fst_iff, hstage]
  exact Bool.false_ne_true

lemma stageable (hstage : stageLoop env.fails (installJobs env pkg) s.vfs = (true, staged)) :
    Stageable env.fails (installJobs env pkg) s.vfs.writes := by
  rw [← stageLoop_fst_iff, hstage]

lemma commit_iff (hname : ValidName pkg.appId)
    (hstage : stageLoop env.fails (installJobs env pkg) s.vfs = (true, staged)) {ok : Bool}
    (hcom : commitLoop env.fails (installJobs env pkg) staged = (ok, vfs)) :
    ok = true ↔ Committable env.fails (installJobs env pkg) (s.vfs.writes + pkg.fileCount) := by
  have hok : (stageLoop env.fails (installJobs env pkg) s.vfs).1 = true := by rw [hstage]
  have hfiles : ∀ k ∈ (installJobs env pkg).map Job.staged, (staged.files k).isSome := by
    intro k hk
    have h := stageLoop_isSome hok hk
    rwa [hstage] at h
  have hwrites := stageLoop_writes hok
  rw [hstage, installJobs_length] at hwrites
  have h := commitLoop_fst_iff env.fails (apart_installJobs hname) hfiles
  rw [hcom, hwrites] at h
  exact h

lemma committed_writes (hstage : stageLoop env.fails (installJobs env pkg) s.vfs = (true, staged))
    (hcom : commitLoop env.fails (installJobs env pkg) staged = (true, vfs)) :
    vfs.writes = s.vfs.writes + 2 * pkg.fileCount := by
  have hfirst := stageLoop_writes (show (stageLoop env.fails (installJobs env pkg) s.vfs).1 =
    true by rw [hstage])
  have hsecond := commitLoop_writes (show (commitLoop env.fails (installJobs env pkg)
    staged).1 = true by rw [hcom])
  rw [hstage, installJobs_length] at hfirst
  rw [hcom, installJobs_length, hfirst] at hsecond
  rw [hsecond]
  omega

end

section
variable {env : Environment} {pkg : Package} {s : System} {staged vfs : Vfs}

variable {appId : List Byte} {job : Job (List Byte) (List Byte)}

/-- Files with one target have one staging file: the longer prefix only cuts off more. -/
lemma staged_eq_of_target_eq {a b : List Byte}
    (h : pathKey (filePath (installPath appId) a) = pathKey (filePath (installPath appId) b)) :
    pathKey (filePath (stagePrefix appId) a) = pathKey (filePath (stagePrefix appId) b) := by
  have hlengths : (installPath appId).length ≤ (stagePrefix appId).length := by
    simp only [installPath, stagePrefix, snprintfPath, length_take, length_append, length_cons]
    omega
  rw [pathKey_filePath, pathKey_filePath, take_append, take_append] at h
  have hrest := append_cancel_left h
  have hcut := congrArg (take (maxPathLen - 1 - (pathKey (stagePrefix appId)).length)) hrest
  rw [take_take, take_take, min_eq_left (by simp only [pathKey, length_map]; omega)]
    at hcut
  rw [pathKey_filePath, pathKey_filePath, take_append, take_append, hcut]

variable {jobs : List (Job (List Byte) (List Byte))}

lemma nodup_target
    (hjobs : ∀ job ∈ jobs, job ∈ installJobs env pkg) (h : (jobs.map Job.staged).Nodup) :
    (jobs.map Job.target).Nodup := by
  rw [List.Nodup, pairwise_map] at h ⊢
  refine h.imp_of_mem fun hjob hjob' hne heq => hne ?_
  obtain ⟨i, -, rfl⟩ := mem_map.mp (hjobs _ hjob)
  obtain ⟨j, -, rfl⟩ := mem_map.mp (hjobs _ hjob')
  exact staged_eq_of_target_eq heq

lemma not_mem_of_nodup_map {γ : Type} {f : Job (List Byte) (List Byte) → γ}
    {before after : List (Job (List Byte) (List Byte))} (h : ((before ++ job :: after).map f).Nodup) :
    f job ∉ before.map f ∧ f job ∉ after.map f := by
  rw [map_append, map_cons, nodup_append] at h
  refine ⟨fun hmem => ?_, (nodup_cons.mp h.2.1).1⟩
  exact h.2.2 _ hmem _ mem_cons_self rfl

lemma moved_target (hjobs : ∀ job ∈ jobs, job ∈ installJobs env pkg) (hapart : Apart jobs)
    (hnodup : (jobs.map Job.staged).Nodup)
    (hcom : (commitLoop env.fails jobs staged).1 = true) (hjob : job ∈ jobs) :
    (commitLoop env.fails jobs staged).2.files job.target = staged.files job.staged := by
  have htargets := nodup_target hjobs hnodup
  obtain ⟨before, after, rfl⟩ := append_of_mem hjob
  exact commitLoop_target hapart hcom (not_mem_of_nodup_map htargets).2
    (not_mem_of_nodup_map hnodup).1

lemma staged_content (hstage : stageLoop env.fails (installJobs env pkg) s.vfs = (true, staged))
    (hjob : job ∈ installJobs env pkg) :
    staged.files job.staged = lastContent (installJobs env pkg) job.staged := by
  have h := stageLoop_last (show (stageLoop env.fails (installJobs env pkg) s.vfs).1 = true
    by rw [hstage]) (mem_map_of_mem hjob)
  rwa [hstage] at h

lemma committed_target (hname : ValidName pkg.appId)
    (hstage : stageLoop env.fails (installJobs env pkg) s.vfs = (true, staged))
    (hcom : commitLoop env.fails (installJobs env pkg) staged = (true, vfs))
    (hjob : job ∈ installJobs env pkg) : vfs.files job.target = job.content := by
  have hnodup := ((commit_iff hname hstage hcom).mp rfl).1
  have hmoved := moved_target (fun _ h => h) (apart_installJobs hname) hnodup
    (by rw [hcom]) hjob
  rw [hcom, staged_content hstage hjob, lastContent_of_nodup hnodup hjob] at hmoved
  exact hmoved

lemma extractFile_eq_some {sha256 : List Byte → List Byte} {granted : Bool} {index : ℕ}
    {bytes : List Byte} (h : (kpkgExtractFile sha256 granted pkg index).result = some bytes) :
    pkg.reader.read (pkg.payloadStart (pkg.entry index)) (pkg.entry index).size = some bytes ∧
      sha256 bytes = (pkg.entry index).sha256 := by
  unfold kpkgExtractFile at h
  obtain ⟨_, -, h⟩ := Attempt.result_bind_eq_some.mp h
  obtain ⟨_, -, h⟩ := Attempt.result_bind_eq_some.mp h
  obtain ⟨bytes', hread, h⟩ := Attempt.result_bind_eq_some.mp h
  obtain ⟨_, hhash, h⟩ := Attempt.result_bind_eq_some.mp h
  cases h
  rw [Attempt.result_require] at hhash
  exact ⟨result_fetch.symm.trans hread, eq_of_beq hhash⟩

def stagingText (appId path : List Byte) : List Byte :=
  baseDir ++ slash :: (stagingName ++ appId) ++ slash :: path

def installText (appId path : List Byte) : List Byte := baseDir ++ slash :: appId ++ slash :: path

section
variable (hname : ValidName appId)
include hname

lemma installPath_eq : installPath appId = baseDir ++ slash :: appId := by
  have hlen := hname.length
  rw [installPath, snprintfPath, take_of_length_le]
  simp only [length_append, length_cons, baseDir, length_nil, maxPathLen, maxAppIdLen] at *
  omega

lemma stagePrefix_eq : stagePrefix appId = baseDir ++ slash :: (stagingName ++ appId) := by
  have hlen := hname.length
  rw [stagePrefix, snprintfPath, take_of_length_le]
  simp only [length_append, length_cons, baseDir, stagingName, length_nil, maxPathLen,
    maxAppIdLen] at *
  omega

lemma installFile_eq (path : List Byte) :
    filePath (installPath appId) path = snprintfPath (installText appId path) := by
  rw [filePath, installPath_eq hname, installText]

lemma stagingFile_eq (path : List Byte) :
    filePath (stagePrefix appId) path = snprintfPath (stagingText appId path) := by
  rw [filePath, stagePrefix_eq hname, stagingText]

end

lemma snprintfPath_of_short (h : text.length < maxPathLen) :
    snprintfPath text = text := take_of_length_le (by omega)

lemma installText_length_lt (h : (stagingText appId path).length < maxPathLen) :
    (installText appId path).length < maxPathLen := by
  simp only [stagingText, installText, length_append, length_cons] at h ⊢
  omega

end

section
variable {env : Environment} {pkg : Package} {s : System} {staged vfs : Vfs}

/-- What a failing installation must find to leave no trace: no file where it stages, none where
it commits if it comes to that, and if only the record is missing no new marker. -/
structure Traceless (env : Environment) (pkg : Package) (s : System) : Prop where
  staged : ∀ k ∈ (installJobs env pkg).map Job.staged, s.vfs.files k = none
  target : Stageable env.fails (installJobs env pkg) s.vfs.writes →
    ∀ k ∈ (installJobs env pkg).map Job.target, s.vfs.files k = none
  marker : Stageable env.fails (installJobs env pkg) s.vfs.writes →
    Committable env.fails (installJobs env pkg) (s.vfs.writes + pkg.fileCount) →
    env.fails (s.vfs.writes + 2 * pkg.fileCount) = true ∨
      s.vfs.files (pathKey (markerPath pkg.appId)) = some markerData

section
variable (hstage : stageLoop env.fails (installJobs env pkg) s.vfs = (false, vfs))
include hstage

lemma files_stagingFailed :
    (vfs.unlinkAll ((installJobs env pkg).map Job.staged)).files =
      without ((installJobs env pkg).map Job.staged) s.vfs.files := by
  rw [files_unlinkAll]
  refine without_congr fun k hk => ?_
  have h := stageLoop_other env.fails (installJobs env pkg) s.vfs hk
  rwa [hstage] at h

lemma stagingFailed_iff :
    (vfs.unlinkAll ((installJobs env pkg).map Job.staged)).files = s.vfs.files ↔
      Traceless env pkg s := by
  rw [files_stagingFailed hstage, without_eq_self_iff]
  have hnot := not_stageable hstage
  exact ⟨fun h => ⟨h, fun hstageable => absurd hstageable hnot,
    fun hstageable => absurd hstageable hnot⟩, fun h => h.staged⟩

end

lemma mem_rollback : k ∈ (installJobs env pkg).flatMap (fun job => [job.target, job.staged]) ↔
      k ∈ (installJobs env pkg).map Job.target ∨ k ∈ (installJobs env pkg).map Job.staged := by
  simp only [mem_flatMap, mem_cons, not_mem_nil, or_false, mem_map]
  constructor
  · rintro ⟨job, hjob, rfl | rfl⟩
    · exact .inl ⟨job, hjob, rfl⟩
    · exact .inr ⟨job, hjob, rfl⟩
  rintro (⟨job, hjob, rfl⟩ | ⟨job, hjob, rfl⟩)
  · exact ⟨job, hjob, .inl rfl⟩
  · exact ⟨job, hjob, .inr rfl⟩

lemma commitFailed_iff (hname : ValidName pkg.appId)
    (hstage : stageLoop env.fails (installJobs env pkg) s.vfs = (true, staged))
    (hcom : commitLoop env.fails (installJobs env pkg) staged = (false, vfs)) :
    (vfs.unlinkAll ((installJobs env pkg).flatMap fun job => [job.target, job.staged])).files =
      s.vfs.files ↔ Traceless env pkg s := by
  have hfiles : without ((installJobs env pkg).flatMap fun job => [job.target, job.staged])
      vfs.files = without ((installJobs env pkg).flatMap fun job => [job.target, job.staged])
        s.vfs.files := by
    refine without_congr fun k hk => ?_
    rw [mem_rollback, not_or] at hk
    exact committed_other hstage hcom hk.2 hk.1
  rw [files_unlinkAll, hfiles, without_eq_self_iff]
  have hnot : ¬ Committable env.fails (installJobs env pkg) (s.vfs.writes + pkg.fileCount) :=
    fun h => Bool.false_ne_true ((commit_iff hname hstage hcom).mpr h)
  constructor
  · intro h
    exact ⟨fun k hk => h k (mem_rollback.mpr (.inr hk)),
      fun _ k hk => h k (mem_rollback.mpr (.inl hk)), fun _ hcommittable => absurd hcommittable hnot⟩
  intro h k hk
  rcases mem_rollback.mp hk with hk | hk
  · exact h.target (stageable hstage) k hk
  · exact h.staged k hk

lemma files_ensureAppDataDirectory (k : List Byte) :
    (ensureAppDataDirectory env vfs pkg.appId).files k =
      if k = pathKey (markerPath pkg.appId) ∧ env.fails vfs.writes = false then some markerData
      else vfs.files k := by
  unfold ensureAppDataDirectory
  cases hfails : env.fails vfs.writes with
  | true =>
    rw [write_of_fails _ _ hfails, if_neg (by simp)]
    rfl
  | false =>
    rw [write_of_not_fails _ _ hfails]
    by_cases hk : k = pathKey (markerPath pkg.appId)
    · rw [if_pos ⟨hk, rfl⟩, hk]
      exact Function.update_self _ _ _
    · rw [if_neg (fun h => hk h.1)]
      exact Function.update_of_ne hk _ _

lemma recordFailed_iff (hname : ValidName pkg.appId)
    (hstage : stageLoop env.fails (installJobs env pkg) s.vfs = (true, staged))
    (hcom : commitLoop env.fails (installJobs env pkg) staged = (true, vfs)) :
    ((ensureAppDataDirectory env vfs pkg.appId).unlinkAll
      ((installJobs env pkg).map Job.target)).files = s.vfs.files ↔ Traceless env pkg s := by
  have hcommittable := (commit_iff hname hstage hcom).mp rfl
  have hwrites := committed_writes hstage hcom
  have hmarker : vfs.files (pathKey (markerPath pkg.appId)) =
      s.vfs.files (pathKey (markerPath pkg.appId)) :=
    committed_other hstage hcom marker_not_staged marker_not_target
  rw [files_unlinkAll]
  constructor
  · intro h
    refine ⟨fun k hk => ?_, fun _ k hk => ?_, fun _ _ => ?_⟩
    · have htarget : k ∉ (installJobs env pkg).map Job.target := apart_installJobs hname k hk
      have hne : k ≠ pathKey (markerPath pkg.appId) := fun heq => marker_not_staged (heq ▸ hk)
      rw [← h, without_of_not_mem htarget, files_ensureAppDataDirectory, if_neg (fun h => hne h.1)]
      exact committed_staged hname hcom hk
    · rw [← h, without_of_mem hk]
    rw [← hwrites]
    cases hfails : env.fails vfs.writes with
    | true => exact .inl rfl
    | false =>
      refine .inr ?_
      rw [← h, without_of_not_mem marker_not_target, files_ensureAppDataDirectory,
        if_pos ⟨rfl, hfails⟩]
  · intro h
    funext k
    by_cases htarget : k ∈ (installJobs env pkg).map Job.target
    · rw [without_of_mem htarget, h.target (stageable hstage) k htarget]
    rw [without_of_not_mem htarget, files_ensureAppDataDirectory]
    by_cases hk : k = pathKey (markerPath pkg.appId)
    · subst hk
      cases hfails : env.fails vfs.writes with
      | true => rw [if_neg (by simp), hmarker]
      | false =>
        have hdata := h.marker (stageable hstage) hcommittable
        rw [← hwrites, hfails] at hdata
        rw [if_pos ⟨rfl, rfl⟩, hdata.resolve_left Bool.false_ne_true]
    · rw [if_neg (fun h => hk h.1)]
      by_cases hstaged : k ∈ (installJobs env pkg).map Job.staged
      · rw [committed_staged hname hcom hstaged, h.staged k hstaged]
      · exact committed_other hstage hcom hstaged htarget

end

/-- A failed installation leaves files and database as they were exactly when there was nothing
in its way. -/
theorem failed_install_traceless_iff {env : Environment} {reader : Reader} {opts : Option Options}
    {s : System} (hfailed : (installerInstall env reader opts s).1 ≠ .ok) :
    ((installerInstall env reader opts s).2.vfs.files = s.vfs.files ∧
        (installerInstall env reader opts s).2.db = s.db) ↔
      ∀ pkg, admitInstall env reader opts s.db = .ok pkg → Traceless env pkg s := by
  unfold installerInstall at hfailed ⊢
  cases hchecked : admitInstall env reader opts s.db with
  | error status =>
    refine ⟨fun _ pkg hpkg => ?_, fun _ => ⟨rfl, rfl⟩⟩
    cases hpkg
  | ok pkg =>
    rw [hchecked] at hfailed
    have hname := validName_of_admitInstall hchecked
    have hone : (∀ pkg', Except.ok pkg = (Except.ok pkg' : Except Status Package) →
        Traceless env pkg' s) ↔ Traceless env pkg s :=
      ⟨fun h => h pkg rfl, fun h pkg' heq => by cases heq; exact h⟩
    rw [hone]
    dsimp only at hfailed ⊢
    have hresult := installPackage_outcome env pkg s
    generalize installPackage env pkg s = result at hfailed hresult ⊢
    cases hresult with
    | stagingFailed vfs hstage => rw [and_iff_left rfl, stagingFailed_iff hstage]
    | commitFailed staged vfs hstage hcommit =>
      rw [and_iff_left rfl, commitFailed_iff hname hstage hcommit]
    | recordFailed staged vfs hstage hcommit =>
      rw [and_iff_left rfl, recordFailed_iff hname hstage hcommit]
    | installed => exact absurd rfl hfailed

structure Installed (env : Environment) (pkg : Package) (before after : Files) : Prop where
  contents : ∀ f ∈ pkg.files, ∃ bytes, pkg.reader.read (pkg.payloadStart f) f.size = some bytes ∧
    env.sha256 bytes = f.sha256 ∧ after (pathKey (installText pkg.appId f.path)) = some bytes
  noStaging : ∀ f ∈ pkg.files, after (pathKey (stagingText pkg.appId f.path)) = none
  frame : ∀ k, (∀ f ∈ pkg.files, k ≠ pathKey (installText pkg.appId f.path) ∧
    k ≠ pathKey (stagingText pkg.appId f.path)) → k ≠ pathKey (markerPath pkg.appId) →
    after k = before k

variable {pkg : Package}

lemma mem_files_iff {f : FileEntry} : f ∈ pkg.files ↔ ∃ i < pkg.fileCount, pkg.entry i = f := by
  simp [Package.files]

lemma installJob_target (env : Environment) (hname : ValidName pkg.appId)
    (h : (installText pkg.appId (pkg.entry i).path).length < maxPathLen) :
    (installJob env pkg i).target = pathKey (installText pkg.appId (pkg.entry i).path) := by
  rw [← snprintfPath_of_short h, ← installFile_eq hname]
  rfl

lemma committed_read {env : Environment} {pkg : Package} {s : System} {staged vfs : Vfs}
    (hname : ValidName pkg.appId)
    (hstage : stageLoop env.fails (installJobs env pkg) s.vfs = (true, staged))
    (hcom : commitLoop env.fails (installJobs env pkg) staged = (true, vfs)) {i : ℕ}
    (hi : i < pkg.fileCount) :
    ∃ bytes, pkg.reader.read (pkg.payloadStart (pkg.entry i)) (pkg.entry i).size = some bytes ∧
      env.sha256 bytes = (pkg.entry i).sha256 ∧
      vfs.files (installJob env pkg i).target = some bytes := by
  have hjob : installJob env pkg i ∈ installJobs env pkg := mem_map_of_mem (mem_range.mpr hi)
  obtain ⟨bytes, hbytes⟩ := Option.isSome_iff_exists.mp ((stageable hstage).1 _ hjob)
  obtain ⟨hread, hhash⟩ := extractFile_eq_some hbytes
  refine ⟨bytes, hread, hhash, ?_⟩
  rw [committed_target hname hstage hcom hjob, hbytes]

lemma installed_of_committed {env : Environment} {s : System} {staged vfs : Vfs}
    (hname : ValidName pkg.appId)
    (hshort : ∀ f ∈ pkg.files, (stagingText pkg.appId f.path).length < maxPathLen)
    (hstage : stageLoop env.fails (installJobs env pkg) s.vfs = (true, staged))
    (hcom : commitLoop env.fails (installJobs env pkg) staged = (true, vfs)) :
    Installed env pkg s.vfs.files (ensureAppDataDirectory env vfs pkg.appId).files := by
  have hkeys : ∀ i < pkg.fileCount,
      (installJob env pkg i).staged = pathKey (stagingText pkg.appId (pkg.entry i).path) ∧
      (installJob env pkg i).target = pathKey (installText pkg.appId (pkg.entry i).path) := by
    intro i hi
    have h := hshort _ (entry_mem_files hi)
    refine ⟨?_, installJob_target env hname (installText_length_lt h)⟩
    rw [← snprintfPath_of_short h, ← stagingFile_eq hname]
    rfl
  have hother : ∀ k, k ≠ pathKey (markerPath pkg.appId) →
      (ensureAppDataDirectory env vfs pkg.appId).files k = vfs.files k := by
    intro k hk
    rw [files_ensureAppDataDirectory, if_neg (fun h => hk h.1)]
  refine ⟨fun f hf => ?_, fun f hf => ?_, fun k hk hmarker => ?_⟩
  · obtain ⟨i, hi, rfl⟩ := mem_files_iff.mp hf
    obtain ⟨bytes, hread, hhash, hbytes⟩ := committed_read hname hstage hcom hi
    have htarget : pathKey (installText pkg.appId (pkg.entry i).path) ≠
        pathKey (markerPath pkg.appId) := by
      intro heq
      have hmem : (installJob env pkg i).target ∈ (installJobs env pkg).map Job.target :=
        mem_map_of_mem (mem_map_of_mem (mem_range.mpr hi))
      rw [(hkeys i hi).2, heq] at hmem
      exact marker_not_target hmem
    refine ⟨bytes, hread, hhash, ?_⟩
    rw [hother _ htarget, ← (hkeys i hi).2, hbytes]
  · obtain ⟨i, hi, rfl⟩ := mem_files_iff.mp hf
    have hmem : (installJob env pkg i).staged ∈ (installJobs env pkg).map Job.staged :=
      mem_map_of_mem (mem_map_of_mem (mem_range.mpr hi))
    rw [(hkeys i hi).1] at hmem
    rw [hother _ fun heq => marker_not_staged (heq ▸ hmem)]
    exact committed_staged hname hcom hmem
  rw [hother k hmarker]
  refine committed_other hstage hcom (fun hmem => ?_) (fun hmem => ?_)
  · obtain ⟨i, hi, hkey⟩ := staged_mem_iff.mp hmem
    exact (hk _ (entry_mem_files hi)).2 (hkey.symm.trans (hkeys i hi).1)
  · obtain ⟨i, hi, hkey⟩ := target_mem_iff.mp hmem
    exact (hk _ (entry_mem_files hi)).1 (hkey.symm.trans (hkeys i hi).2)

section
variable {env : Environment} {reader : Reader} {opts : Option Options} {s : System} {pkg : Package}

lemma install_ok_phases (hopen : (kpkgOpen reader (env.grants .index)).result = some pkg)
    (hok : (installerInstall env reader opts s).1 = .ok) :
    ValidName pkg.appId ∧ pkgDbFind s.db pkg.appId = none ∧ ∃ staged vfs db,
      stageLoop env.fails (installJobs env pkg) s.vfs = (true, staged) ∧
      commitLoop env.fails (installJobs env pkg) staged = (true, vfs) ∧
      pkgDbRegister s.db (manifestOf pkg) (installPath pkg.appId) (.text (dataPath pkg.appId))
        pkg.files env.now = some db ∧
      (installerInstall env reader opts s).2 = ⟨ensureAppDataDirectory env vfs pkg.appId, db⟩ := by
  unfold installerInstall at hok ⊢
  cases hchecked : admitInstall env reader opts s.db with
  | error status =>
    rw [hchecked] at hok
    exact absurd (hchecked.trans (congrArg _ hok)) (admitInstall_ne_ok _)
  | ok pkg' =>
    obtain ⟨hopen', hfind, -⟩ := opened_of_admitInstall hchecked
    rw [hopen] at hopen'
    cases hopen'
    rw [hchecked] at hok
    dsimp only at hok ⊢
    have hres := installPackage_outcome env pkg s
    generalize installPackage env pkg s = result at hok hres ⊢
    cases hres with
    | stagingFailed => cases hok
    | commitFailed => cases hok
    | recordFailed => cases hok
    | installed staged vfs db hstage hcom hreg =>
      exact ⟨validName_of_admitInstall hchecked, hfind, staged, vfs, db, hstage, hcom, hreg,
        rfl⟩

theorem install_ok_installed (hopen : (kpkgOpen reader (env.grants .index)).result = some pkg)
    (hshort : ∀ f ∈ pkg.files, (stagingText pkg.appId f.path).length < maxPathLen)
    (hok : (installerInstall env reader opts s).1 = .ok) :
    Installed env pkg s.vfs.files (installerInstall env reader opts s).2.vfs.files := by
  obtain ⟨hname, -, staged, vfs, db, hstage, hcommit, -, hresult⟩ := install_ok_phases hopen hok
  rw [hresult]
  exact installed_of_committed hname hshort hstage hcommit

end

/-- A hash that fits the index entries of the samples, and one write that fails. -/
def sampleEnv (failing : Option ℕ) : Environment where
  sha256 _ := replicate 32 0
  grants _ := true
  fails n := failing = some n
  now := 0

def emptyDatabase : Database where
  packages _ := .zero
  files _ := ⟨[], 0, [], 0, false⟩
  initialized := true

def soundReader : Reader :=
  memoryReader (sampleMemory soundPackage) 1000 soundPackage.length soundPackage_fits

def sampleKey : List Byte := pathKey (installText [0x61] [0x66])

def sampleSystem (old : Option (List Byte)) : System where
  vfs := ⟨fun k => if k = sampleKey then old else none, 0⟩
  db := emptyDatabase

theorem failed_install_traceless_iff_empty :
    (installerInstall (sampleEnv (some 1)) soundReader none (sampleSystem none)).1 = .commitFail ∧
    (((installerInstall (sampleEnv (some 1)) soundReader none (sampleSystem none)).2.vfs.files =
          (sampleSystem none).vfs.files ∧
        (installerInstall (sampleEnv (some 1)) soundReader none (sampleSystem none)).2.db =
          (sampleSystem none).db) ↔
      ∀ pkg, admitInstall (sampleEnv (some 1)) soundReader none (sampleSystem none).db = .ok pkg →
        Traceless (sampleEnv (some 1)) pkg (sampleSystem none)) := by
  have hstatus : (installerInstall (sampleEnv (some 1)) soundReader none (sampleSystem none)).1 =
      .commitFail := by
    decide +kernel
  exact ⟨hstatus, failed_install_traceless_iff (by rw [hstatus]; decide)⟩

/-- The write of the new file fails, and the rollback unlinks the old one. -/
theorem failed_install_unlinks_old_file :
    (installerInstall (sampleEnv (some 1)) soundReader none (sampleSystem (some [1]))).1 =
        .commitFail ∧
      (installerInstall (sampleEnv (some 1)) soundReader none (sampleSystem (some [1]))).2.vfs.files
        sampleKey = none ∧
      (sampleSystem (some [1])).vfs.files sampleKey = some [1] := by
  decide +kernel

theorem install_ok_installed_sound : ∃ pkg,
    (kpkgOpen soundReader true).result = some pkg ∧
    Installed (sampleEnv none) pkg (sampleSystem none).vfs.files
      (installerInstall (sampleEnv none) soundReader none (sampleSystem none)).2.vfs.files := by
  have hshort : (kpkgOpen soundReader true).result.map (fun pkg =>
      decide (∀ f ∈ pkg.files, (stagingText pkg.appId f.path).length < maxPathLen)) =
        some true := by
    decide +kernel
  obtain ⟨pkg, hpkg, hfiles⟩ := Option.map_eq_some_iff.mp hshort
  exact ⟨pkg, hpkg, install_ok_installed hpkg (of_decide_eq_true hfiles) (by decide +kernel)⟩

end KosKernel.Installer
