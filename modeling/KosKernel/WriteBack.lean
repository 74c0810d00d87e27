import Mathlib.Tactic.Common

/-! Write-back caching, in terms of what is cached, what is stored and what should be read. A
cached value comes with a flag that says whether it is newer than the store. -/
namespace KosKernel.WriteBack
open Function
variable {K V : Type*} [DecidableEq K]
  {cached : K → Option (V × Bool)} {store logical : K → Option V} {k : K} {v : V}

/-- Cached values are right, and the store is right where nothing newer is cached. -/
structure Coherent (cached : K → Option (V × Bool)) (store logical : K → Option V) : Prop where
  hit : ∀ k v dirty, cached k = some (v, dirty) → logical k = some v
  clean : ∀ k, (∀ v, cached k ≠ some (v, true)) → store k = logical k

variable {cached' : K → Option (V × Bool)} {store' logical' : K → Option V}

omit [DecidableEq K] in
/-- Coherence is a matter of each key: only at a changed key is there something to show. -/
lemma Coherent.change (h : Coherent cached store logical) (k : K)
    (hsame : ∀ j ≠ k, cached' j = cached j ∧ store' j = store j ∧ logical' j = logical j)
    (hhit : ∀ v dirty, cached' k = some (v, dirty) → logical' k = some v)
    (hclean : (∀ v, cached' k ≠ some (v, true)) → store' k = logical' k) :
    Coherent cached' store' logical' := by
  constructor <;> intro j
  · obtain rfl | hj := eq_or_ne j k
    · exact hhit
    · rw [(hsame j hj).1, (hsame j hj).2.2]
      exact h.hit j
  obtain rfl | hj := eq_or_ne j k
  · exact hclean
  · rw [(hsame j hj).1, (hsame j hj).2.1, (hsame j hj).2.2]
    exact h.clean j

section
variable (h : Coherent cached store logical)
include h

lemma Coherent.write_back (hk : cached k = some (v, true)) :
    Coherent (update cached k (some (v, false))) (update store k (some v))
      logical := by
  have hv : logical k = some v := h.hit k v true hk
  refine h.change k (by simp +contextual) ?_ ?_ <;> simp [hv]

lemma Coherent.drop (hk : ∀ v, cached k ≠ some (v, true)) :
    Coherent (update cached k none) store logical := by
  refine h.change k (by simp +contextual) ?_ ?_
  · simp
  · intro _
    exact h.clean k hk

lemma Coherent.load (hk : cached k = none) (hv : store k = some v) :
    Coherent (update cached k (some (v, false))) store logical := by
  have hclean : store k = logical k := h.clean k (by simp [hk])
  refine h.change k (by simp +contextual) ?_ ?_
  · simp [← hclean, hv]
  · intro _
    exact hclean

lemma Coherent.put (k : K) (v : V) :
    Coherent (update cached k (some (v, true))) store
      (update logical k (some v)) := by
  refine h.change k (by simp +contextual) ?_ ?_
  · simp +contextual
  · intro hnot
    exact absurd (update_self ..) (hnot v)

end

/-- What was last accepted is the newer value in the cache, or stored; nothing else is newer. -/
structure Kept (cached : K → Option (V × Bool)) (store accepted : K → Option V) : Prop where
  newest : ∀ k v, cached k = some (v, true) → accepted k = some v
  kept : ∀ k v, accepted k = some v → cached k = some (v, true) ∨ store k = some v

variable {accepted accepted' : K → Option V}

omit [DecidableEq K] in
lemma Kept.change (h : Kept cached store accepted) (k : K)
    (hsame : ∀ j ≠ k, cached' j = cached j ∧ store' j = store j ∧ accepted' j = accepted j)
    (hnewest : ∀ v, cached' k = some (v, true) → accepted' k = some v)
    (hkept : ∀ v, accepted' k = some v → cached' k = some (v, true) ∨ store' k = some v) :
    Kept cached' store' accepted' := by
  constructor <;> intro j
  · obtain rfl | hj := eq_or_ne j k
    · exact hnewest
    · rw [(hsame j hj).1, (hsame j hj).2.2]
      exact h.newest j
  obtain rfl | hj := eq_or_ne j k
  · exact hkept
  · rw [(hsame j hj).1, (hsame j hj).2.1, (hsame j hj).2.2]
    exact h.kept j

variable (h : Kept cached store accepted)
include h

lemma Kept.write_back (hk : cached k = some (v, true)) :
    Kept (update cached k (some (v, false))) (update store k (some v))
      accepted := by
  have hv : accepted k = some v := h.newest k v hk
  refine h.change k (by simp +contextual) ?_ ?_
  · simp
  · simp [hv]

/-- What is not newer than the store may leave the cache or enter it. -/
lemma Kept.replace (hk : ∀ v, cached k ≠ some (v, true)) (entry : Option (V × Bool))
    (hentry : ∀ v, entry ≠ some (v, true)) : Kept (update cached k entry) store accepted := by
  refine h.change k (by simp +contextual) ?_ ?_
  · simp [hentry]
  · intro w hw
    exact Or.inr ((h.kept k w hw).resolve_left (hk w))

lemma Kept.put (k : K) (v : V) :
    Kept (update cached k (some (v, true))) store
      (update accepted k (some v)) := by
  refine h.change k (by simp +contextual) ?_ ?_
  · simp
  · simp +contextual

omit [DecidableEq K] in
/-- Less may be counted as accepted, but for what is newer than the store. -/
lemma Kept.restrict
    (hless : ∀ k, accepted' k = accepted k ∨ (accepted' k = none ∧ ∀ v, cached k ≠ some (v, true))) :
    Kept cached store accepted' := by
  constructor
  · intro j w hj
    obtain heq | ⟨-, hnot⟩ := hless j
    · rw [heq]
      exact h.newest j w hj
    · exact absurd hj (hnot w)
  intro j w hj
  obtain heq | ⟨hnone, -⟩ := hless j
  · rw [heq] at hj
    exact h.kept j w hj
  · rw [hnone] at hj
    cases hj

lemma Kept.lose (k : K) : Kept (update cached k none) store (update accepted k none) := by
  refine h.change k (by simp +contextual) ?_ ?_ <;> simp

end KosKernel.WriteBack
