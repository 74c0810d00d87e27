import Mathlib.Data.List.Nodup

/-! A map of files whose writes may fail, and the writing of several files in two phases: each
content goes to a temporary key first, and is moved from there to its own key. -/
namespace KosKernel.StagedWrites
open Function List
variable {κ α : Type} [DecidableEq κ]

/-- The files and the number of writes tried so far. -/
structure Store (κ α : Type) where
  files : κ → Option α
  writes : ℕ

/-- The content of a job is `none` when it cannot be had. -/
structure Job (κ α : Type) where
  content : Option α
  staged : κ
  target : κ

open Job

namespace Store

def unlink (s : Store κ α) (k : κ) : Store κ α := { s with files := update s.files k none }

def unlinkAll (s : Store κ α) (keys : List κ) : Store κ α := keys.foldl unlink s

def put (s : Store κ α) (k : κ) (a : α) : Store κ α :=
  ⟨update s.files k (some a), s.writes + 1⟩

def skip (s : Store κ α) : Store κ α := { s with writes := s.writes + 1 }

variable (fails : ℕ → Bool)

def write (s : Store κ α) (k : κ) (a : α) : Bool × Store κ α :=
  if fails s.writes then (false, s.skip) else (true, s.put k a)

def stageLoop : List (Job κ α) → Store κ α → Bool × Store κ α
  | [], s => (true, s)
  | job :: jobs, s =>
    match job.content with
    | none => (false, s)
    | some a =>
      match s.write fails job.staged a with
      | (false, s) => (false, s)
      | (true, s) => stageLoop jobs s

def commitLoop : List (Job κ α) → Store κ α → Bool × Store κ α
  | [], s => (true, s)
  | job :: jobs, s =>
    match s.files job.staged with
    | none => (false, s)
    | some a =>
      match s.write fails job.target a with
      | (false, s) => (false, s)
      | (true, s) => commitLoop jobs (s.unlink job.staged)

end Store

open Store

variable {k : κ}

section
def without (keys : List κ) (files : κ → Option α) : κ → Option α :=
  fun k => if k ∈ keys then none else files k

variable {keys : List κ} {files : κ → Option α}

lemma without_of_mem (h : k ∈ keys) : without keys files k = none := if_pos h

lemma without_of_not_mem (h : k ∉ keys) : without keys files k = files k := if_neg h

@[simp] lemma files_unlinkAll (s : Store κ α) (keys : List κ) :
    (s.unlinkAll keys).files = without keys s.files := by
  induction keys generalizing s with
  | nil =>
    funext k
    exact (without_of_not_mem not_mem_nil).symm
  | cons key keys ih =>
    have hstep : s.unlinkAll (key :: keys) = (s.unlink key).unlinkAll keys := rfl
    rw [hstep, ih]
    funext k
    by_cases hmem : k ∈ keys
    · rw [without_of_mem hmem, without_of_mem (mem_cons_of_mem _ hmem)]
    by_cases heq : k = key
    · rw [heq, without_of_mem mem_cons_self, without_of_not_mem (heq ▸ hmem)]
      exact update_self _ _ _
    · rw [without_of_not_mem hmem, without_of_not_mem (by simp [heq, hmem])]
      exact update_of_ne heq _ _

lemma without_congr {files' : κ → Option α} (h : ∀ k, k ∉ keys → files k = files' k) :
    without keys files = without keys files' := by
  funext k
  by_cases hk : k ∈ keys
  · rw [without_of_mem hk, without_of_mem hk]
  · rw [without_of_not_mem hk, without_of_not_mem hk, h k hk]

lemma without_eq_self_iff : without keys files = files ↔ ∀ k ∈ keys, files k = none := by
  constructor
  · intro h k hk
    rw [← h]
    exact without_of_mem hk
  intro h
  funext k
  by_cases hk : k ∈ keys
  · rw [without_of_mem hk, h k hk]
  · exact without_of_not_mem hk

end

section
variable {fails : ℕ → Bool} {s : Store κ α}

lemma write_of_fails (k : κ) (a : α) (h : fails s.writes = true) :
    s.write fails k a = (false, s.skip) := if_pos h

lemma write_of_not_fails (k : κ) (a : α) (h : fails s.writes = false) :
    s.write fails k a = (true, s.put k a) := if_neg (by rw [h]; exact Bool.false_ne_true)

variable (fails) (job : Job κ α) (jobs : List (Job κ α))

lemma stageLoop_cons (s : Store κ α) :
    (job.content = none ∧ stageLoop fails (job :: jobs) s = (false, s)) ∨
    (∃ a, job.content = some a ∧ fails s.writes = true ∧
      stageLoop fails (job :: jobs) s = (false, s.skip)) ∨
    ∃ a, job.content = some a ∧ fails s.writes = false ∧
      stageLoop fails (job :: jobs) s = stageLoop fails jobs (s.put job.staged a) := by
  cases hcontent : job.content with
  | none => exact .inl ⟨rfl, by rw [stageLoop, hcontent]⟩
  | some a =>
    cases hfails : fails s.writes with
    | true =>
      refine .inr (.inl ⟨a, rfl, rfl, ?_⟩)
      rw [stageLoop, hcontent]
      dsimp only
      rw [write_of_fails _ _ hfails]
    | false =>
      refine .inr (.inr ⟨a, rfl, rfl, ?_⟩)
      rw [stageLoop, hcontent]
      dsimp only
      rw [write_of_not_fails _ _ hfails]

lemma commitLoop_cons (s : Store κ α) :
    (s.files job.staged = none ∧ commitLoop fails (job :: jobs) s = (false, s)) ∨
    (∃ a, s.files job.staged = some a ∧ fails s.writes = true ∧
      commitLoop fails (job :: jobs) s = (false, s.skip)) ∨
    ∃ a, s.files job.staged = some a ∧ fails s.writes = false ∧ commitLoop fails (job :: jobs) s =
        commitLoop fails jobs ((s.put job.target a).unlink job.staged) := by
  cases hstaged : s.files job.staged with
  | none => exact .inl ⟨rfl, by rw [commitLoop, hstaged]⟩
  | some a =>
    cases hfails : fails s.writes with
    | true =>
      refine .inr (.inl ⟨a, rfl, rfl, ?_⟩)
      rw [commitLoop, hstaged]
      dsimp only
      rw [write_of_fails _ _ hfails]
    | false =>
      refine .inr (.inr ⟨a, rfl, rfl, ?_⟩)
      rw [commitLoop, hstaged]
      dsimp only
      rw [write_of_not_fails _ _ hfails]

end

variable {first : ℕ}

section
variable {fails : ℕ → Bool}

variable {k : κ} {jobs : List (Job κ α)} {s : Store κ α}

lemma stageLoop_other (fails : ℕ → Bool) (jobs : List (Job κ α)) (s : Store κ α)
    (h : k ∉ jobs.map staged) : (stageLoop fails jobs s).2.files k = s.files k := by
  induction jobs generalizing s with
  | nil => rfl
  | cons job jobs ih =>
    rw [map_cons, mem_cons, not_or] at h
    obtain ⟨-, hturn⟩ | ⟨a, -, -, hturn⟩ | ⟨a, -, -, hturn⟩ := stageLoop_cons fails job jobs s
    · rw [hturn]
    · rw [hturn]
      rfl
    · rw [hturn, ih _ h.2]
      exact update_of_ne h.1 _ _

/-- Every content can be had and no write of the first phase fails. -/
def Stageable (fails : ℕ → Bool) (jobs : List (Job κ α)) (first : ℕ) : Prop :=
  (∀ job ∈ jobs, job.content.isSome) ∧ ∀ i < jobs.length, fails (first + i) = false

lemma forall_lt_succ {p : ℕ → Prop} {n : ℕ} :
    (∀ i < n + 1, p (first + i)) ↔ p first ∧ ∀ i < n, p (first + 1 + i) := by
  constructor
  · intro h
    refine ⟨h 0 n.succ_pos, fun i hi => ?_⟩
    rw [Nat.add_assoc, Nat.add_comm 1 i]
    exact h (i + 1) (Nat.succ_lt_succ hi)
  intro h i hi
  cases i with
  | zero => exact h.1
  | succ i =>
    have hrest := h.2 i (Nat.lt_of_succ_lt_succ hi)
    rwa [Nat.add_assoc, Nat.add_comm 1 i] at hrest

omit [DecidableEq κ] in
lemma stageable_cons {job : Job κ α} : Stageable fails (job :: jobs) first ↔
      job.content.isSome ∧ fails first = false ∧ Stageable fails jobs (first + 1) := by
  rw [Stageable, Stageable, forall_mem_cons, length_cons,
    forall_lt_succ (p := fun i => fails i = false)]
  tauto

lemma stageLoop_fst_iff (jobs : List (Job κ α)) (s : Store κ α) :
    (stageLoop fails jobs s).1 = true ↔ Stageable fails jobs s.writes := by
  induction jobs generalizing s with
  | nil => simp [stageLoop, Stageable]
  | cons job jobs ih =>
    rw [stageable_cons]
    obtain ⟨hcontent, hturn⟩ | ⟨a, hcontent, hfails, hturn⟩ | ⟨a, hcontent, hfails, hturn⟩ :=
      stageLoop_cons fails job jobs s
    · simp [hturn, hcontent]
    · simp [hturn, hfails]
    · rw [hturn, ih]
      simp [hcontent, hfails, put]

lemma stageLoop_writes (h : (stageLoop fails jobs s).1 = true) :
    (stageLoop fails jobs s).2.writes = s.writes + jobs.length := by
  induction jobs generalizing s with
  | nil => rfl
  | cons job jobs ih =>
    obtain ⟨-, hturn⟩ | ⟨a, -, -, hturn⟩ | ⟨a, -, -, hturn⟩ := stageLoop_cons fails job jobs s
    · rw [hturn] at h
      cases h
    · rw [hturn] at h
      cases h
    rw [hturn] at h ⊢
    rw [ih h, length_cons, Nat.add_comm jobs.length 1, ← Nat.add_assoc]
    rfl

def lastContent : List (Job κ α) → κ → Option α
  | [], _ => none
  | job :: jobs, k =>
    if k ∈ jobs.map Job.staged then lastContent jobs k
    else if k = job.staged then job.content else none

lemma stageLoop_last (h : (stageLoop fails jobs s).1 = true) (hk : k ∈ jobs.map staged) :
    (stageLoop fails jobs s).2.files k = lastContent jobs k := by
  induction jobs generalizing s with
  | nil => cases hk
  | cons job jobs ih =>
    obtain ⟨-, hturn⟩ | ⟨a, -, -, hturn⟩ | ⟨a, hcontent, -, hturn⟩ := stageLoop_cons fails job jobs s
    · rw [hturn] at h
      cases h
    · rw [hturn] at h
      cases h
    rw [hturn] at h ⊢
    rw [lastContent]
    by_cases hrest : k ∈ jobs.map staged
    · rw [if_pos hrest]
      exact ih h hrest
    rw [map_cons, mem_cons] at hk
    have hkey := hk.resolve_right hrest
    rw [if_neg hrest, if_pos hkey, stageLoop_other _ _ _ hrest, hcontent, hkey]
    exact update_self _ _ _

lemma lastContent_isSome (hsome : ∀ job ∈ jobs, job.content.isSome) (hk : k ∈ jobs.map staged) :
    (lastContent jobs k).isSome := by
  induction jobs with
  | nil => cases hk
  | cons job jobs ih =>
    rw [forall_mem_cons] at hsome
    rw [lastContent]
    by_cases hrest : k ∈ jobs.map staged
    · rw [if_pos hrest]
      exact ih hsome.2 hrest
    rw [map_cons, mem_cons] at hk
    rw [if_neg hrest, if_pos (hk.resolve_right hrest)]
    exact hsome.1

lemma lastContent_of_nodup (h : (jobs.map staged).Nodup) {job : Job κ α} (hjob : job ∈ jobs) :
    lastContent jobs job.staged = job.content := by
  induction jobs with
  | nil => cases hjob
  | cons first jobs ih =>
    rw [map_cons, nodup_cons] at h
    rw [lastContent]
    rcases mem_cons.mp hjob with rfl | hmem
    · rw [if_neg h.1, if_pos rfl]
    · rw [if_pos (mem_map_of_mem hmem)]
      exact ih h.2 hmem

lemma stageLoop_isSome (h : (stageLoop fails jobs s).1 = true) (hk : k ∈ jobs.map staged) :
    ((stageLoop fails jobs s).2.files k).isSome := by
  rw [stageLoop_last h hk]
  exact lastContent_isSome ((stageLoop_fst_iff jobs s).mp h).1 hk

end

variable {fails : ℕ → Bool}

lemma commitLoop_other (fails : ℕ → Bool) (jobs : List (Job κ α)) (s : Store κ α)
    (hstaged : k ∉ jobs.map staged) (htarget : k ∉ jobs.map target) :
    (commitLoop fails jobs s).2.files k = s.files k := by
  induction jobs generalizing s with
  | nil => rfl
  | cons job jobs ih =>
    rw [map_cons, mem_cons, not_or] at hstaged htarget
    obtain ⟨-, hturn⟩ | ⟨a, -, -, hturn⟩ | ⟨a, -, -, hturn⟩ := commitLoop_cons fails job jobs s
    · rw [hturn]
    · rw [hturn]
      rfl
    · rw [hturn, ih _ hstaged.2 htarget.2]
      exact (update_of_ne hstaged.1 _ _).trans (update_of_ne htarget.1 _ _)

def Apart (jobs : List (Job κ α)) : Prop :=
  ∀ k ∈ jobs.map Job.staged, k ∉ jobs.map Job.target

variable {jobs : List (Job κ α)} {job : Job κ α} {seen : List κ} {s : Store κ α}

omit [DecidableEq κ] in
lemma Apart.tail (h : Apart (job :: jobs)) : Apart jobs :=
  fun k hk hmem => h k (mem_cons_of_mem _ hk) (mem_cons_of_mem _ hmem)

omit [DecidableEq κ] in
lemma Apart.staged_ne (h : Apart jobs) {job' : Job κ α} (hjob : job ∈ jobs) (hjob' : job' ∈ jobs) :
    job.staged ≠ job'.target := by
  intro heq
  exact h _ (mem_map_of_mem hjob) (heq ▸ mem_map_of_mem hjob')

/-- The jobs in front of the first one whose temporary key was used before or whose write fails. -/
def committedJobs (fails : ℕ → Bool) : ℕ → List κ → List (Job κ α) → List (Job κ α)
  | _, _, [] => []
  | first, seen, job :: jobs =>
    if job.staged ∈ seen ∨ fails first = true then []
    else job :: committedJobs fails (first + 1) (job.staged :: seen) jobs

lemma committedJobs_subset (h : job ∈ committedJobs fails first seen jobs) : job ∈ jobs := by
  induction jobs generalizing first seen with
  | nil => exact h
  | cons next jobs ih =>
    rw [committedJobs] at h
    split at h
    · cases h
    rcases mem_cons.mp h with rfl | h
    · exact mem_cons_self
    · exact mem_cons_of_mem _ (ih h)

lemma commitLoop_committed (fails : ℕ → Bool) (hapart : Apart jobs)
    (hseen : ∀ k ∈ jobs.map staged, (s.files k).isSome ↔ k ∉ seen) :
    (commitLoop fails (committedJobs fails s.writes seen jobs) s).1 = true ∧
    (commitLoop fails jobs s).2.files =
      (commitLoop fails (committedJobs fails s.writes seen jobs) s).2.files ∧
    ((commitLoop fails jobs s).1 = true ↔ committedJobs fails s.writes seen jobs = jobs) := by
  induction jobs generalizing s seen with
  | nil => exact ⟨rfl, rfl, ⟨fun _ => rfl, fun _ => rfl⟩⟩
  | cons job jobs ih =>
    have hfirst := hseen job.staged mem_cons_self
    obtain ⟨hnone, hturn⟩ | ⟨a, hstaged, hfails, hturn⟩ | ⟨a, hstaged, hfails, hturn⟩ :=
      commitLoop_cons fails job jobs s
    · have hmem : job.staged ∈ seen := by
        by_contra hmem
        rw [hnone] at hfirst
        cases hfirst.mpr hmem
      rw [committedJobs, if_pos (.inl hmem), hturn]
      exact ⟨rfl, rfl, by simp⟩
    · rw [committedJobs, if_pos (.inr hfails), hturn]
      exact ⟨rfl, rfl, by simp⟩
    have hmem : job.staged ∉ seen := hfirst.mp (by rw [hstaged]; rfl)
    rw [committedJobs, if_neg (by simp [hmem, hfails]), hturn]
    -- the turn that the shorter loop begins with
    obtain ⟨hnone, -⟩ | ⟨-, -, hcontra, -⟩ | ⟨a', hstaged', -, hturn'⟩ :=
      commitLoop_cons fails job (committedJobs fails (s.writes + 1) (job.staged :: seen) jobs) s
    · rw [hnone] at hstaged
      cases hstaged
    · rw [hfails] at hcontra
      cases hcontra
    rw [hstaged] at hstaged'
    cases hstaged'
    rw [hturn']
    have hseen' : ∀ k ∈ jobs.map staged,
        (((s.put job.target a).unlink job.staged).files k).isSome ↔ k ∉ job.staged :: seen := by
      intro k hk
      rw [mem_cons, not_or]
      by_cases hkey : k = job.staged
      · have hunlinked : ((s.put job.target a).unlink job.staged).files k = none := by
          rw [hkey]
          exact update_self _ _ _
        rw [hunlinked]
        exact ⟨fun h => absurd h Bool.false_ne_true, fun h => absurd hkey h.1⟩
      have htarget : k ≠ job.target := by
        intro heq
        exact hapart k (mem_cons_of_mem _ hk) (heq ▸ mem_cons_self)
      have hsame : ((s.put job.target a).unlink job.staged).files k = s.files k :=
        (update_of_ne hkey _ _).trans (update_of_ne htarget _ _)
      rw [hsame, hseen k (mem_cons_of_mem _ hk)]
      exact ⟨fun h => ⟨hkey, h⟩, fun h => h.2⟩
    obtain ⟨hok, hfiles, hiff⟩ := ih hapart.tail hseen'
    exact ⟨hok, hfiles, hiff.trans (by simp; rfl)⟩

/-- No write of the second phase fails and no temporary key is used twice. -/
def Committable (fails : ℕ → Bool) (jobs : List (Job κ α)) (first : ℕ) : Prop :=
  (jobs.map Job.staged).Nodup ∧ ∀ i < jobs.length, fails (first + i) = false

lemma committedJobs_eq_self_iff : committedJobs fails first seen jobs = jobs ↔
      Committable fails jobs first ∧ ∀ k ∈ jobs.map staged, k ∉ seen := by
  induction jobs generalizing first seen with
  | nil => simp [committedJobs, Committable]
  | cons job jobs ih =>
    rw [committedJobs, Committable, map_cons, nodup_cons, length_cons,
      forall_lt_succ (p := fun i => fails i = false), forall_mem_cons]
    by_cases hstop : job.staged ∈ seen ∨ fails first = true
    · rw [if_pos hstop]
      simp only [nil_eq, reduceCtorEq, false_iff]
      rintro ⟨⟨-, hfirst, -⟩, hmem, -⟩
      rcases hstop with hin | hfails
      · exact hmem hin
      · rw [hfirst] at hfails
        cases hfails
    · rw [not_or, Bool.not_eq_true] at hstop
      rw [if_neg (by simp [hstop.1, hstop.2]), cons.injEq, and_iff_right rfl, ih, Committable]
      simp only [mem_cons, not_or]
      constructor
      · rintro ⟨⟨hnodup, hfails⟩, hfresh⟩
        exact ⟨⟨⟨fun hmem => (hfresh _ hmem).1 rfl, hnodup⟩, hstop.2, hfails⟩, hstop.1,
          fun k hk => (hfresh k hk).2⟩
      · rintro ⟨⟨⟨hnew, hnodup⟩, -, hfails⟩, -, hfresh⟩
        exact ⟨⟨hnodup, hfails⟩, fun k hk => ⟨fun heq => hnew (heq ▸ hk), hfresh k hk⟩⟩

/-- Once each temporary key has its file, the second phase succeeds when it can. -/
lemma commitLoop_fst_iff (fails : ℕ → Bool) (hapart : Apart jobs)
    (hstaged : ∀ k ∈ jobs.map staged, (s.files k).isSome) :
    (commitLoop fails jobs s).1 = true ↔ Committable fails jobs s.writes := by
  have hnone : ∀ k ∈ jobs.map staged, (s.files k).isSome ↔ k ∉ ([] : List κ) :=
    fun k hk => ⟨fun _ => not_mem_nil, fun _ => hstaged k hk⟩
  rw [(commitLoop_committed fails hapart hnone).2.2, committedJobs_eq_self_iff]
  simp

lemma commitLoop_writes (h : (commitLoop fails jobs s).1 = true) :
    (commitLoop fails jobs s).2.writes = s.writes + jobs.length := by
  induction jobs generalizing s with
  | nil => rfl
  | cons job jobs ih =>
    obtain ⟨-, hturn⟩ | ⟨a, -, -, hturn⟩ | ⟨a, -, -, hturn⟩ := commitLoop_cons fails job jobs s
    · rw [hturn] at h
      cases h
    · rw [hturn] at h
      cases h
    rw [hturn] at h ⊢
    rw [ih h, length_cons, Nat.add_comm jobs.length 1, ← Nat.add_assoc]
    rfl

lemma commitLoop_staged (hapart : Apart jobs) (h : (commitLoop fails jobs s).1 = true)
    (hk : k ∈ jobs.map staged) : (commitLoop fails jobs s).2.files k = none := by
  induction jobs generalizing s with
  | nil => cases hk
  | cons job jobs ih =>
    obtain ⟨-, hturn⟩ | ⟨a, -, -, hturn⟩ | ⟨a, -, -, hturn⟩ := commitLoop_cons fails job jobs s
    · rw [hturn] at h
      cases h
    · rw [hturn] at h
      cases h
    rw [hturn] at h ⊢
    by_cases hrest : k ∈ jobs.map staged
    · exact ih hapart.tail h hrest
    rw [map_cons, mem_cons] at hk
    have hkey := hk.resolve_right hrest
    have htarget : k ∉ jobs.map target := fun hmem =>
      hapart k (hkey ▸ mem_cons_self) (mem_cons_of_mem _ hmem)
    rw [commitLoop_other _ _ _ hrest htarget, hkey]
    exact update_self _ _ _

/-- A key that no later job uses holds what was at the temporary key of its job. -/
lemma commitLoop_target {before after : List (Job κ α)} (hapart : Apart (before ++ job :: after))
    (h : (commitLoop fails (before ++ job :: after) s).1 = true)
    (hlast : job.target ∉ after.map target) (hunused : job.staged ∉ before.map staged) :
    (commitLoop fails (before ++ job :: after) s).2.files job.target = s.files job.staged := by
  induction before generalizing s with
  | nil =>
    rw [nil_append] at hapart h ⊢
    have hstaged : job.target ∉ (job :: after).map staged := fun hmem =>
      hapart _ hmem mem_cons_self
    rw [map_cons, mem_cons, not_or] at hstaged
    obtain ⟨-, hturn⟩ | ⟨a, -, -, hturn⟩ | ⟨a, hcontent, -, hturn⟩ :=
      commitLoop_cons fails job after s
    · rw [hturn] at h
      cases h
    · rw [hturn] at h
      cases h
    · rw [hturn, commitLoop_other _ _ _ hstaged.2 hlast, hcontent]
      exact (update_of_ne hstaged.1 _ _).trans (update_self _ _ _)
  | cons first before ih =>
    rw [cons_append] at hapart h ⊢
    rw [map_cons, mem_cons, not_or] at hunused
    have htarget : job.staged ≠ first.target := hapart.staged_ne (by simp) (by simp)
    obtain ⟨-, hturn⟩ | ⟨a, -, -, hturn⟩ | ⟨a, -, -, hturn⟩ :=
      commitLoop_cons fails first (before ++ job :: after) s
    · rw [hturn] at h
      cases h
    · rw [hturn] at h
      cases h
    rw [hturn] at h ⊢
    rw [ih hapart.tail h hunused.2]
    exact (update_of_ne hunused.1 _ _).trans (update_of_ne htarget _ _)

end KosKernel.StagedWrites
