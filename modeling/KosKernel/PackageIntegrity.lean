import KosKernel.PackageDatabase
import KosKernel.Runs

/-! The two tables of the package database stay consistent: a file record is in use exactly while
one installed package lists it. -/
namespace KosKernel.PackageDatabase
open LittleEndian Kpkg List

def Database.zero : Database := ⟨fun _ => .zero, fun _ => ⟨[], 0, replicate 32 0, 0, false⟩, false⟩

def pkgDbInit (db : Database) : Database :=
  if db.initialized then db else { Database.zero with initialized := true }

/-- Names come from `kpkg_open`, which leaves room for the terminator. -/
inductive Call
  | init
  | register (manifest : Manifest) (hname : manifest.appId.length < maxAppIdLen)
      (installPath : List Byte) (dataPath : CharPointer) (files : List FileEntry) (now : ℕ)
  | unregister (appId : List Byte)

/-- A call that fails leaves the database as it is. -/
def apply (db : Database) : Call → Database
  | .init => pkgDbInit db
  | .register manifest _ installPath dataPath files now =>
    (pkgDbRegister db manifest installPath dataPath files now).getD db
  | .unregister appId => (pkgDbUnregister db appId).getD db

namespace Database

def Installed (db : Database) (slot : ℕ) : Prop :=
  slot < maxPackages ∧ (db.packages slot).state = .installed

instance (db : Database) (slot : ℕ) : Decidable (db.Installed slot) :=
  inferInstanceAs (Decidable (_ ∧ _))

structure Consistent (db : Database) : Prop where
  listed : ∀ slot, db.Installed slot → ∀ g ∈ (db.packages slot).fileIndices,
    g < maxFilesTotal ∧ (db.files g).inUse = true ∧ (db.files g).pkgIndex = slot
  nodup : ∀ slot, db.Installed slot → (db.packages slot).fileIndices.Nodup
  room : ∀ slot, db.Installed slot → (db.packages slot).fileIndices.length ≤ maxFiles
  owned : ∀ g, (db.files g).inUse = true → ∃ slot, db.Installed slot ∧
    g ∈ (db.packages slot).fileIndices
  distinct : ∀ i j, db.Installed i → db.Installed j →
    (db.packages i).appId = (db.packages j).appId → i = j

end Database
open Database

variable {db : Database}

lemma consistent_of_empty (hpkgs : ∀ i, (db.packages i).state ≠ .installed)
    (hfiles : ∀ g, (db.files g).inUse = false) : db.Consistent where
  listed slot h := absurd h.2 (hpkgs slot)
  nodup slot h := absurd h.2 (hpkgs slot)
  room slot h := absurd h.2 (hpkgs slot)
  owned g h := by
    rw [hfiles g] at h
    cases h
  distinct i _ h := absurd h.2 (hpkgs i)

lemma pkgDbInit_consistent (h : db.Consistent) : (pkgDbInit db).Consistent := by
  unfold pkgDbInit
  split
  · exact h
  · exact consistent_of_empty (fun _ => PkgState.noConfusion) fun _ => rfl

section
variable {db : Database} {slot : ℕ}

lemma clear_self (db : Database) : (db.clear slot).packages slot = .zero := setPackage_self _ _ _

lemma not_installed_clear : ¬ (db.clear slot).Installed slot := by
  rintro ⟨-, h⟩
  rw [clear_self] at h
  cases h

lemma installed_clear {i : ℕ} : (db.clear slot).Installed i ↔ i ≠ slot ∧ db.Installed i := by
  constructor
  · intro h
    have hi : i ≠ slot := fun heq => not_installed_clear (heq ▸ h)
    rw [Installed, clear_packages _ hi] at h
    exact ⟨hi, h⟩
  · rintro ⟨hi, h⟩
    rwa [Installed, clear_packages _ hi]

/-- In a consistent database clearing a slot releases exactly the records it lists. -/
lemma clear_files (h : db.Consistent) (hslot : slot < maxPackages) (g : ℕ) :
    (db.clear slot).files g = if db.Installed slot ∧ g ∈ (db.packages slot).fileIndices then
        { db.files g with inUse := false }
      else db.files g := by
  have hfiles : (db.clear slot).files g = (if (db.packages slot).state = .installed then
      db.releaseFiles (db.packages slot).fileIndices else db).files g := rfl
  rw [hfiles]
  by_cases hstate : (db.packages slot).state = .installed
  · have hin : db.Installed slot := ⟨hslot, hstate⟩
    rw [if_pos hstate, releaseFiles_files]
    refine if_congr ⟨fun hg => ⟨hin, hg.1⟩, fun hg => ⟨hg.2, ?_⟩⟩ rfl rfl
    exact (h.listed slot hin g hg.2).1
  · rw [if_neg hstate, if_neg fun hg => hstate hg.1.2]

lemma clear_consistent (h : db.Consistent) (hslot : slot < maxPackages) :
    (db.clear slot).Consistent where
  listed i hi g hg := by
    obtain ⟨hne, hin⟩ := installed_clear.mp hi
    rw [clear_packages _ hne] at hg
    have hlisted := h.listed i hin g hg
    -- A record of another package is not one of those released.
    have hkept : ¬ (db.Installed slot ∧ g ∈ (db.packages slot).fileIndices) := fun hown =>
      hne (hlisted.2.2.symm.trans (h.listed slot hown.1 g hown.2).2.2)
    rwa [clear_files h hslot, if_neg hkept]
  nodup i hi := by
    obtain ⟨hne, hin⟩ := installed_clear.mp hi
    rw [clear_packages _ hne]
    exact h.nodup i hin
  room i hi := by
    obtain ⟨hne, hin⟩ := installed_clear.mp hi
    rw [clear_packages _ hne]
    exact h.room i hin
  owned g hg := by
    rw [clear_files h hslot] at hg
    split at hg
    · cases hg
    rename_i hkept
    obtain ⟨i, hin, hmem⟩ := h.owned g hg
    have hne : i ≠ slot := by
      rintro rfl
      exact hkept ⟨hin, hmem⟩
    exact ⟨i, installed_clear.mpr ⟨hne, hin⟩, by rwa [clear_packages _ hne]⟩
  distinct i j hi hj heq := by
    obtain ⟨hnei, hini⟩ := installed_clear.mp hi
    obtain ⟨hnej, hinj⟩ := installed_clear.mp hj
    rw [clear_packages _ hnei, clear_packages _ hnej] at heq
    exact h.distinct i j hini hinj heq

end

variable {db' : Database}

/-- A package entered in a slot that is not installed, with records that were free. -/
lemma consistent_enter {slot : ℕ} (h : db.Consistent) (hslot : slot < maxPackages)
    (hfree : ¬ db.Installed slot) (hother : ∀ i ≠ slot, db'.packages i = db.packages i)
    (hnodup : (db'.packages slot).fileIndices.Nodup)
    (hroom : (db'.packages slot).fileIndices.length ≤ maxFiles)
    (htaken : ∀ g ∈ (db'.packages slot).fileIndices, g < maxFilesTotal ∧
      (db.files g).inUse = false ∧ (db'.files g).inUse = true ∧ (db'.files g).pkgIndex = slot)
    (hkept : ∀ g ∉ (db'.packages slot).fileIndices, db'.files g = db.files g)
    (hstate : (db'.packages slot).state = .installed)
    (hname : ∀ i ≠ slot, db.Installed i → (db.packages i).appId ≠ (db'.packages slot).appId) :
    db'.Consistent := by
  have hin : ∀ {i}, i ≠ slot → (db'.Installed i ↔ db.Installed i) := fun hi => by
    rw [Installed, Installed, hother _ hi]
  refine ⟨fun i hi => ?_, fun i hi => ?_, fun i hi => ?_, fun g hg => ?_, fun i j hi hj heq => ?_⟩
  · obtain rfl | hne := eq_or_ne i slot
    · exact fun g hg => ⟨(htaken g hg).1, (htaken g hg).2.2⟩
    rw [hother i hne]
    intro g hg
    have hlisted := h.listed i ((hin hne).mp hi) g hg
    rw [hkept g fun hmem => by simp [(htaken g hmem).2.1] at hlisted]
    exact hlisted
  · by_cases hne : i = slot
    · exact hne ▸ hnodup
    · rw [hother i hne]
      exact h.nodup i ((hin hne).mp hi)
  · by_cases hne : i = slot
    · exact hne ▸ hroom
    · rw [hother i hne]
      exact h.room i ((hin hne).mp hi)
  · by_cases hmem : g ∈ (db'.packages slot).fileIndices
    · exact ⟨slot, ⟨hslot, hstate⟩, hmem⟩
    rw [hkept g hmem] at hg
    obtain ⟨i, hi, hg⟩ := h.owned g hg
    have hne : i ≠ slot := by
      rintro rfl
      exact hfree hi
    exact ⟨i, (hin hne).mpr hi, by rwa [hother i hne]⟩
  · by_cases hnei : i = slot <;> by_cases hnej : j = slot
    · rw [hnei, hnej]
    · subst hnei
      rw [hother j hnej] at heq
      exact absurd heq.symm (hname j hnej ((hin hnej).mp hj))
    · subst hnej
      rw [hother i hnei] at heq
      exact absurd heq (hname i hnei ((hin hnei).mp hi))
    · rw [hother i hnei, hother j hnej] at heq
      exact h.distinct i j ((hin hnei).mp hi) ((hin hnej).mp hj) heq

lemma registerSlot_spec {appId : List Byte} {slot : ℕ} (h : db.Consistent)
    (hslot : registerSlot db appId = some slot) : slot < maxPackages ∧
      ∀ i ≠ slot, db.Installed i → (db.packages i).appId ≠ appId := by
  rw [registerSlot] at hslot
  cases hfind : (range maxPackages).find? (db.isInstalledAs appId) with
  | some known =>
    rw [hfind, Option.some_or] at hslot
    obtain rfl := Option.some.inj hslot
    have hlt := mem_range.mp (mem_of_find?_eq_some hfind)
    have hknown := find?_some hfind
    rw [isInstalledAs, Bool.and_eq_true, decide_eq_true_eq, decide_eq_true_eq] at hknown
    refine ⟨hlt, fun i hne hi heq => hne ?_⟩
    exact h.distinct i known hi ⟨hlt, hknown.1⟩ (heq.trans hknown.2.symm)
  | none =>
    rw [hfind, Option.none_or] at hslot
    refine ⟨mem_range.mp (mem_of_find?_eq_some hslot), fun i _ hi heq => ?_⟩
    have hnot := find?_eq_none.mp hfind i (mem_range.mpr hi.1)
    rw [isInstalledAs, hi.2, heq] at hnot
    simp at hnot

lemma pkgDbRegister_consistent {manifest : Manifest} {path : List Byte}
    {dataPath : CharPointer} {files : List FileEntry} {now : ℕ}
    (hname : manifest.appId.length < maxAppIdLen) (hdb : db.Consistent)
    (h : pkgDbRegister db manifest path dataPath files now = some db') : db'.Consistent := by
  obtain ⟨slot, hslot, -, -, hstate, happ, hother, hfiles, hinds⟩ := register_spec h
  obtain ⟨hlt, hnames⟩ := registerSlot_spec hdb hslot
  obtain ⟨taken, htook, hnodup, htaken, hfilled, hkept⟩ :=
    registerFiles_spec slot path files (db.clear slot) []
  have hlen := registerFiles_length slot path files (db.clear slot) [] (Nat.zero_le _)
  rw [← hinds] at hlen
  rw [nil_append, ← hinds] at htook
  subst htook
  refine consistent_enter (clear_consistent hdb hlt) hlt not_installed_clear (fun i hi => ?_)
    hnodup hlen (fun g hg => ?_) (fun g hg => ?_) hstate (fun i hi hin => ?_)
  · rw [hother i hi, clear_packages _ hi]
  · obtain ⟨f, hf⟩ := hfilled g hg
    rw [hfiles, hf]
    exact ⟨(htaken g hg).1, (htaken g hg).2, rfl, rfl⟩
  · rw [hfiles]
    exact hkept g hg
  · rw [happ, clear_packages _ hi, take_of_length_le (by omega)]
    exact hnames i hi (installed_clear.mp hin).2

lemma pkgDbUnregister_consistent {appId : List Byte} (hdb : db.Consistent)
    (h : pkgDbUnregister db appId = some db') : db'.Consistent := by
  unfold pkgDbUnregister at h
  cases hfind : pkgDbFind db appId with
  | none =>
    rw [hfind] at h
    cases h
  | some slot =>
    rw [hfind] at h
    have hfound := (pkgDbFind_eq_some_iff.mp hfind).2
    have hstate := find?_some hfound
    rw [isInstalledAs, Bool.and_eq_true, decide_eq_true_eq] at hstate
    have hclear : db' = db.clear slot := by
      rw [clear, if_pos hstate.1]
      exact (Option.some.inj h).symm
    rw [hclear]
    exact clear_consistent hdb (mem_range.mp (mem_of_find?_eq_some hfound))

lemma apply_consistent (db : Database) (call : Call) (h : db.Consistent) :
    (apply db call).Consistent := by
  cases call with
  | init => exact pkgDbInit_consistent h
  | register manifest hname path dataPath files now =>
    rw [apply]
    cases hdb : pkgDbRegister db manifest path dataPath files now with
    | none => exact h
    | some db' => exact pkgDbRegister_consistent hname h hdb
  | unregister appId =>
    rw [apply]
    cases hdb : pkgDbUnregister db appId with
    | none => exact h
    | some db' => exact pkgDbUnregister_consistent h hdb

/-- After any calls, a file record is in use exactly when one installed package lists it, once, and
it names that package; installed packages have different names and lists that fit. -/
theorem run_integrity (calls : List Call) :
    let db := Runs.run apply Database.zero calls
    (∀ g, (db.files g).inUse = true ↔ ∃ slot, db.Installed slot ∧
      (db.packages slot).fileIndices.count g = 1 ∧ (db.files g).pkgIndex = slot ∧
      ∀ other, db.Installed other → g ∈ (db.packages other).fileIndices → other = slot) ∧
    (∀ i j, db.Installed i → db.Installed j →
      (db.packages i).appId = (db.packages j).appId → i = j) ∧
    ∀ slot, db.Installed slot → (db.packages slot).fileIndices.length ≤ maxFiles := by
  intro db
  have h : db.Consistent := Runs.run_preserves apply_consistent
    (consistent_of_empty (fun _ => PkgState.noConfusion) fun _ => rfl) calls
  refine ⟨fun g => ⟨fun hg => ?_, ?_⟩, h.distinct, h.room⟩
  · obtain ⟨slot, hin, hmem⟩ := h.owned g hg
    have hlisted := (h.listed slot hin g hmem).2.2
    refine ⟨slot, hin, count_eq_one_of_mem (h.nodup slot hin) hmem, hlisted, ?_⟩
    intro other hother hg'
    exact (h.listed other hother g hg').2.2.symm.trans hlisted
  · rintro ⟨slot, hin, hcount, -, -⟩
    exact (h.listed slot hin g (count_pos_iff.mp (by omega))).2.1

end KosKernel.PackageDatabase
