import Mathlib

/-! Lists of segments laid end to end. `Tiles start size a xs e` says that the segments
`xs`, in list order, fill the interval from `a` to `e` without gap or overlap. -/
namespace KosKernel.Segments
variable {α : Type*} (start size : α → ℕ)

def Tiles : ℕ → List α → ℕ → Prop
  | a, [], e => a = e
  | a, x :: xs, e => start x = a ∧ Tiles (a + size x) xs e

variable {start size}

variable {a e : ℕ} {xs : List α} {x : α}

lemma tiles_append {ys : List α} :
    Tiles start size a (xs ++ ys) e ↔ ∃ m, Tiles start size a xs m ∧ Tiles start size m ys e := by
  induction xs generalizing a with
  | nil => simp [Tiles]
  | cons x xs ih => simp [Tiles, ih, and_assoc]

section
variable (h : Tiles start size a xs e)
include h

lemma Tiles.le : a ≤ e := by
  induction xs generalizing a with
  | nil => exact Nat.le_of_eq h
  | cons x xs ih => have := ih h.2; omega

lemma Tiles.bounds (hx : x ∈ xs) : a ≤ start x ∧ start x + size x ≤ e := by
  induction xs generalizing a with
  | nil => cases hx
  | cons y ys ih =>
    obtain ⟨h1, h2⟩ := h
    rcases List.mem_cons.mp hx with rfl | hx
    · have := h2.le
      omega
    · have := ih h2 hx
      omega

lemma Tiles.pairwise : xs.Pairwise (fun x y => start x + size x ≤ start y) := by
  induction xs generalizing a with
  | nil => exact List.Pairwise.nil
  | cons x xs ih =>
    obtain ⟨h1, h2⟩ := h
    refine List.pairwise_cons.mpr ⟨fun y hy => ?_, ih h2⟩
    have := (h2.bounds hy).1
    omega

lemma Tiles.apart {y : α} (hx : x ∈ xs) (hy : y ∈ xs) (hne : x ≠ y) :
    start x + size x ≤ start y ∨ start y + size y ≤ start x := by
  induction xs generalizing a with
  | nil => cases hx
  | cons z zs ih =>
    have hz := (List.pairwise_cons.mp h.pairwise).1
    rcases List.mem_cons.mp hx with rfl | hxs
    · rcases List.mem_cons.mp hy with rfl | hys
      · exact absurd rfl hne
      · exact Or.inl (hz y hys)
    rcases List.mem_cons.mp hy with rfl | hys
    · exact Or.inr (hz x hxs)
    · exact ih h.2 hxs hys

end

lemma Tiles.replace {pre mid' post : List α} (mid : List α)
    (h : Tiles start size a (pre ++ (mid ++ post)) e)
    (hmid : ∀ m n, Tiles start size m mid n → Tiles start size m mid' n) :
    Tiles start size a (pre ++ (mid' ++ post)) e := by
  obtain ⟨m, hpre, hrest⟩ := tiles_append.mp h
  obtain ⟨n, hmid', hpost⟩ := tiles_append.mp hrest
  exact tiles_append.mpr ⟨m, hpre, tiles_append.mpr ⟨n, hmid m n hmid', hpost⟩⟩

lemma Tiles.start_aligned {k : ℕ} (h : Tiles start size a xs e) (ha : a % k = 0)
    (hs : ∀ x ∈ xs, size x % k = 0) (hx : x ∈ xs) : start x % k = 0 := by
  induction xs generalizing a with
  | nil => cases hx
  | cons y ys ih =>
    obtain ⟨h1, h2⟩ := h
    rcases List.mem_cons.mp hx with rfl | hx
    · rw [h1, ha]
    refine ih h2 ?_ (fun z hz => hs z (List.mem_cons_of_mem y hz)) hx
    have hy := hs y List.mem_cons_self
    rw [Nat.add_mod, ha, hy]
    simp

end KosKernel.Segments
