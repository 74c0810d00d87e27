import KosKernel.VfsState
import KosKernel.Runs

/-! Paths cannot leave the volume of their letter. -/
namespace KosKernel.Vfs
open List
variable {β : Type*}

section
variable {prev : Option Character} {path : List Character}

def rewrite (c : Character) : Character := if c == backslash then slash else c

lemma copyRelative_eq (length : ℕ) (path : List Character) (hlen : length < maxPath) :
    copyRelative length path =
      if length + path.length < maxPath then some (path.map rewrite) else none := by
  induction path generalizing length with
  | nil => simp [copyRelative, hlen]
  | cons c rest ih =>
    rw [copyRelative]
    by_cases hend : length + 1 ≥ maxPath
    · rw [if_pos hend, if_neg (by simp only [length_cons]; omega)]
    rw [if_neg hend, ih (length + 1) (by omega), length_cons,
      show length + 1 + rest.length = length + (rest.length + 1) by omega]
    change Option.map (rewrite c :: ·) _ = _
    split <;> rfl

variable {c : Character}

lemma rewrite_eq_slash : rewrite c = slash ↔ isSeparator c = true := by
  simp only [rewrite, isSeparator, Bool.or_eq_true, beq_iff_eq]
  by_cases hc : c = backslash <;> simp [hc]

lemma rewrite_eq_dot : rewrite c = dot ↔ c = dot := by
  rw [rewrite]
  split
  · next hc =>
    obtain rfl := beq_iff_eq.mp hc
    decide
  · rfl

lemma rewrite_ne_backslash (c : Character) : rewrite c ≠ backslash := by
  rw [rewrite]
  split
  · decide
  · next hc => simpa using hc

def components (path : List Character) : List (List Character) := path.splitOn slash

lemma components_cons (c : Character) (rest : List Character) :
    components ((c :: rest).map rewrite) = if isSeparator c then [] :: components (rest.map rewrite)
      else (components (rest.map rewrite)).modifyHead (rewrite c :: ·) := by
  rw [components, map_cons, splitOn_cons_eq_if_modifyHead]
  by_cases hc : isSeparator c = true
  · rw [if_pos (beq_iff_eq.mpr (rewrite_eq_slash.mpr hc)), if_pos hc]
    rfl
  · rw [if_neg (fun h => hc (rewrite_eq_slash.mp (beq_iff_eq.mp h))), if_neg hc]
    rfl

lemma boundary_of_head_nil (path : List Character)
    (h : (components (path.map rewrite)).head? = some []) : isBoundary path.head? = true := by
  cases path with
  | nil => rfl
  | cons c rest =>
    rw [components_cons] at h
    split at h
    · next hc => exact hc
    · cases hrest : components (rest.map rewrite) <;> simp [hrest] at h

lemma dot_of_head (path : List Character) (h : (components (path.map rewrite)).head? = some [dot]) :
    path.head? = some dot ∧ isBoundary path.tail.head? = true := by
  cases path with
  | nil => simp [components] at h
  | cons c rest =>
    rw [components_cons] at h
    split at h
    · simp at h
    cases hrest : components (rest.map rewrite) with
    | nil => simp [hrest] at h
    | cons first others =>
      obtain ⟨hc, hfirst⟩ : rewrite c = dot ∧ first = [] := by simpa [hrest] using h
      refine ⟨congrArg some (rewrite_eq_dot.mp hc), boundary_of_head_nil rest ?_⟩
      rw [hrest, hfirst]
      rfl

/-- A safe rest of a path has no component of two dots; its first one may be the end of a longer
component. -/
lemma safeFrom_components (h : safeFrom prev path = true) :
    [dot, dot] ∉ (components (path.map rewrite)).tail ∧
      (isBoundary prev = true → (components (path.map rewrite)).head? ≠ some [dot, dot]) := by
  induction path generalizing prev with
  | nil => simp [components]
  | cons c rest ih =>
    simp only [safeFrom, Bool.and_eq_true, Bool.not_eq_true', Bool.or_eq_false_iff] at h
    obtain ⟨htail, hhead⟩ := ih h.2
    rw [components_cons]
    split
    · next hc =>
      -- the rest starts at a boundary, so its first component counts too
      refine ⟨?_, by simp⟩
      cases hrest : components (rest.map rewrite) with
      | nil => simp
      | cons first others =>
        rw [hrest] at htail hhead
        have hfirst := hhead hc
        simp only [head?_cons, ne_eq, Option.some.injEq, tail_cons] at hfirst htail
        simp only [tail_cons, mem_cons, not_or]
        exact ⟨fun heq => hfirst heq.symm, htail⟩
    · next hc =>
      cases hrest : components (rest.map rewrite) with
      | nil => simp
      | cons first others =>
        rw [hrest] at htail
        refine ⟨by simpa using htail, fun hboundary hdots => ?_⟩
        obtain ⟨hdot, hfirst⟩ : rewrite c = dot ∧ first = [dot] := by simpa using hdots
        obtain ⟨hnext, hend⟩ := dot_of_head rest (by rw [hrest, hfirst]; rfl)
        have hsafe := h.1.2
        rw [rewrite_eq_dot.mp hdot, hnext, hboundary, hend] at hsafe
        exact absurd hsafe (by decide)

lemma safeFrom_colon (h : safeFrom prev path = true) : colon ∉ path.map rewrite := by
  induction path generalizing prev with
  | nil => simp
  | cons c rest ih =>
    simp only [safeFrom, Bool.and_eq_true, Bool.not_eq_true', Bool.or_eq_false_iff] at h
    rw [map_cons, mem_cons, not_or]
    refine ⟨fun hc => ?_, ih h.2⟩
    rw [rewrite] at hc
    split at hc
    · exact absurd hc (by decide)
    · simp [← hc] at h

end

structure Confined (relative : List Character) : Prop where
  length_pos : 1 ≤ relative.length
  length_le : relative.length ≤ 255
  no_root : relative.head? ≠ some slash
  no_colon : colon ∉ relative
  no_backslash : backslash ∉ relative
  no_parent : [dot, dot] ∉ relative.splitOn slash

variable {relative : List Character}

lemma parsePath_confined {path : Path} {letter : Character}
    (h : parsePath path = some (letter, relative)) :
    Confined relative ∧ letter = (driveLetter path.text).1 := by
  unfold parsePath at h
  simp only [] at h
  split at h
  · cases h
  · next hsafe =>
    set rest := (driveLetter path.text).2.dropWhile isSeparator with hrest
    simp only [Bool.not_eq_false, pathIsSafe, Bool.and_eq_true, Bool.not_eq_true',
      isEmpty_eq_false_iff] at hsafe
    rw [copyRelative_eq 0 rest (by decide)] at h
    split at h
    · next hlen =>
      obtain ⟨rfl, rfl⟩ : (driveLetter path.text).1 = letter ∧ rest.map rewrite = relative := by
        simpa using h
      obtain ⟨htail, hhead⟩ := safeFrom_components hsafe.2
      refine ⟨⟨?_, ?_, ?_, safeFrom_colon hsafe.2, ?_, ?_⟩, rfl⟩
      · rw [length_map]
        exact length_pos_iff.mpr hsafe.1
      · rw [length_map]
        simp only [maxPath] at hlen
        omega
      · intro hslash
        obtain ⟨c, hc, hrewrite⟩ : ∃ c, rest.head? = some c ∧ rewrite c = slash := by
          simpa [head?_map] using hslash
        have hnot := head?_dropWhile_not isSeparator (driveLetter path.text).2
        rw [← hrest, hc] at hnot
        exact absurd (rewrite_eq_slash.mp hrewrite) (by simpa using hnot)
      · intro hmem
        obtain ⟨c, -, hc⟩ := mem_map.mp hmem
        exact rewrite_ne_backslash c hc
      change [dot, dot] ∉ components (rest.map rewrite)
      cases hall : components (rest.map rewrite) with
      | nil => simp
      | cons first others =>
        rw [hall] at htail hhead
        have hfirst := hhead rfl
        simp only [head?_cons, ne_eq, Option.some.injEq] at hfirst
        rw [mem_cons, not_or]
        exact ⟨fun heq => hfirst heq.symm, htail⟩
    · cases h

section
variable {volumes : Volumes β}

variable {letter : Character} {volume : Volume β}

lemma findVolume_letter (h : findVolume volumes letter = some volume) :
    volume ∈ volumes ∧ volume.letter = normalizeLetter letter :=
  ⟨mem_of_find?_eq_some h, by simpa using find?_some h⟩

lemma findVolume_none (h : findVolume volumes letter = none) :
    normalizeLetter letter ∉ volumes.map Volume.letter := by
  intro hmem
  obtain ⟨volume, hvolume, hletter⟩ := mem_map.mp hmem
  have := find?_eq_none.mp h volume hvolume
  simp [hletter] at this

lemma normalizeLetter_idem (letter : Character) :
    normalizeLetter (normalizeLetter letter) = normalizeLetter letter := by
  by_cases hlower : 0x61 ≤ letter ∧ letter ≤ 0x7a
  · have hupper : normalizeLetter letter = letter - 0x20 := if_pos hlower
    rw [hupper, normalizeLetter, if_neg]
    bv_omega
  · have hsame : normalizeLetter letter = letter := if_neg hlower
    rw [hsame, hsame]

lemma vfsMountVolume_cases (volumes : Volumes β) (letter : Character)
    (label : Option (List Character)) (backend : Option (Backend β)) :
    vfsMountVolume volumes letter label backend = (false, volumes) ∨
      ∃ name target, label = some name ∧ backend = some target ∧ findVolume volumes letter = none ∧
        vfsMountVolume volumes letter label backend =
          (true, volumes ++ [⟨normalizeLetter letter, name, target⟩]) := by
  unfold vfsMountVolume
  split
  · next name target =>
    split
    · exact .inl rfl
    split
    · exact .inl rfl
    · next hfree =>
      refine .inr ⟨name, target, rfl, rfl, ?_, rfl⟩
      rw [not_or, findVolume, normalizeLetter_idem] at hfree
      simpa [findVolume] using hfree.1
  · exact .inl rfl

lemma vfsUnmountVolume_cases (volumes : Volumes β) (letter : Character) :
    vfsUnmountVolume volumes letter = (false, volumes) ∨ (normalizeLetter letter ≠ letterC ∧
        vfsUnmountVolume volumes letter =
          (true, volumes.eraseP fun volume => volume.letter == normalizeLetter letter)) := by
  unfold vfsUnmountVolume
  split
  · exact .inl rfl
  · next volume hfind =>
    split
    · exact .inl rfl
    · next hletter => exact .inr ⟨(findVolume_letter hfind).2 ▸ hletter, rfl⟩

lemma mount_nodup (h : (volumes.map Volume.letter).Nodup) (letter : Character)
    (label : Option (List Character)) (backend : Option (Backend β)) :
    ((vfsMountVolume volumes letter label backend).2.map Volume.letter).Nodup := by
  rcases vfsMountVolume_cases volumes letter label backend with
    hrefuse | ⟨name, target, -, -, hfree, hmount⟩
  · rwa [hrefuse]
  rw [hmount, map_append, map_singleton, nodup_append]
  refine ⟨h, nodup_singleton _, fun a ha b hb hab => ?_⟩
  have hletter : a = normalizeLetter letter := hab.trans (mem_singleton.mp hb)
  exact findVolume_none hfree (hletter ▸ ha)

lemma step_nodup (h : (volumes.map Volume.letter).Nodup) (call : MountCall β) :
    ((step volumes call).map Volume.letter).Nodup := by
  cases call with
  | mount letter label backend => exact mount_nodup h letter label backend
  | mountRoot backend => exact mount_nodup h letterC (some systemLabel) backend
  | unmount letter =>
    rw [step]
    rcases vfsUnmountVolume_cases volumes letter with hrefuse | ⟨-, hunmounted⟩
    · rwa [hrefuse]
    · rw [hunmounted]
      exact h.sublist (eraseP_sublist.map Volume.letter)

lemma mount_keeps (h : findVolume volumes letter = some volume) (other : Character)
    (label : Option (List Character)) (backend : Option (Backend β)) :
    findVolume (vfsMountVolume volumes other label backend).2 letter = some volume := by
  rcases vfsMountVolume_cases volumes other label backend with
    hrefuse | ⟨name, target, -, -, -, hmount⟩
  · rwa [hrefuse]
  · rw [hmount, findVolume, find?_append]
    exact Option.or_eq_some_iff.mpr (.inl h)

lemma find?_eraseP {α : Type*} (p q : α → Bool) (hpq : ∀ x, p x = true → q x = false) (xs : List α) :
    (xs.eraseP p).find? q = xs.find? q := by
  induction xs with
  | nil => rfl
  | cons x xs ih =>
    by_cases hp : p x = true
    · rw [eraseP_cons_of_pos hp, find?_cons_of_neg (by simp [hpq x hp])]
    · rw [eraseP_cons_of_neg hp, find?_cons, find?_cons, ih]

lemma unmount_keeps {other : Character} (h : findVolume volumes letter = some volume)
    (hne : normalizeLetter other ≠ normalizeLetter letter) :
    findVolume (vfsUnmountVolume volumes other).2 letter = some volume := by
  rcases vfsUnmountVolume_cases volumes other with hrefuse | ⟨-, hunmounted⟩
  · rwa [hrefuse]
  rw [hunmounted, findVolume, find?_eraseP]
  · exact h
  intro x hx
  simp only [beq_iff_eq] at hx
  simp [hx, hne]

lemma step_keeps_system (h : findVolume volumes letterC = some volume) (call : MountCall β) :
    findVolume (step volumes call) letterC = some volume := by
  cases call with
  | mount letter label backend => exact mount_keeps h letter label backend
  | mountRoot backend => exact mount_keeps h letterC (some systemLabel) backend
  | unmount letter =>
    rw [step]
    by_cases hletter : normalizeLetter letter = normalizeLetter letterC
    · rcases vfsUnmountVolume_cases volumes letter with hrefuse | ⟨hne, -⟩
      · rwa [hrefuse]
      · exact absurd (hletter.trans (by decide)) hne
    · exact unmount_keeps h hletter

end

variable {volumes : Volumes β} {backend : Backend β}

lemma Request.target_parsed {request : Request} (h : request.target volumes = some (backend, relative)) :
    parsePathLocked volumes request.path = some (backend, relative) := by
  have hreach (has : Backend β → Bool) (path : Path)
      (hreached : reach volumes has path = some (backend, relative)) :
      parsePathLocked volumes path = some (backend, relative) :=
    (Option.filter_eq_some_iff.mp hreached).1
  cases request with
  | read path => exact hreach Backend.readFile path h
  | write path data size =>
    simp only [target, vfsWriteFile] at h
    split at h
    · cases h
    · exact hreach Backend.writeFile path h
  | unlink path => exact hreach Backend.unlinkFile path h

lemma parsePathLocked_eq_some {path : Path} (h : parsePathLocked volumes path = some (backend, relative)) :
    ∃ letter volume, parsePath path = some (letter, relative) ∧
      findVolume volumes letter = some volume ∧ volume.backend = backend := by
  unfold parsePathLocked at h
  split at h
  · cases h
  · next letter relative' hparse =>
    obtain ⟨volume, hfind, hsame⟩ := Option.map_eq_some_iff.mp h
    obtain ⟨rfl, rfl⟩ := Prod.mk.inj hsame
    exact ⟨letter, volume, hparse, hfind, rfl⟩

/-- After every history of mounts, letters are distinct, the system volume stays for good, and
what a backend is handed is a path inside the volume of the letter. -/
theorem paths_confined (history : List (MountCall β)) :
    ((Runs.run step [] history).map Volume.letter).Nodup ∧
      (∀ later volume, findVolume (Runs.run step [] history) letterC = some volume →
        findVolume (Runs.run step [] (history ++ later)) letterC = some volume) ∧
      ∀ (request : Request) (backend : Backend β) (relative : List Character),
        request.target (Runs.run step [] history) = some (backend, relative) →
          Confined relative ∧
            ∃ volume ∈ Runs.run step [] history,
              volume.letter = normalizeLetter (driveLetter request.path.text).1 ∧
                volume.backend = backend := by
  refine ⟨?_, fun later volume hsystem => ?_, fun request backend relative hreached => ?_⟩
  · have hstep (volumes : Volumes β) call (h : (volumes.map Volume.letter).Nodup) :=
      step_nodup h call
    have hstart : (([] : Volumes β).map Volume.letter).Nodup := nodup_nil
    exact Runs.run_preserves hstep hstart history
  · have hstep (volumes : Volumes β) call (h : findVolume volumes letterC = some volume) :=
      step_keeps_system h call
    rw [Runs.run, foldl_append]
    exact Runs.run_preserves hstep hsystem later
  obtain ⟨letter, volume, hparse, hfind, hbackend⟩ :=
    parsePathLocked_eq_some (Request.target_parsed hreached)
  obtain ⟨hconfined, hletter⟩ := parsePath_confined hparse
  obtain ⟨hmem, hvolume⟩ := findVolume_letter hfind
  exact ⟨hconfined, volume, hmem, hletter ▸ hvolume, hbackend⟩

end KosKernel.Vfs
