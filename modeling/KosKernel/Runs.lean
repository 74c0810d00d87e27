import Mathlib.Data.List.Basic

/-! Runs of a machine whose steps are chosen by labels. -/
namespace KosKernel.Runs
variable {S L : Type*} (step : S → L → S)

def run (s : S) (labels : List L) : S := labels.foldl step s

/-- Each step of a run meets the condition in the state it starts from. -/
def Along (cond : S → L → Prop) : S → List L → Prop
  | _, [] => True
  | s, l :: labels => cond s l ∧ Along cond (step s l) labels

instance decidableAlong (cond : S → L → Prop) [∀ s l, Decidable (cond s l)] :
    ∀ s labels, Decidable (Along step cond s labels)
  | _, [] => inferInstanceAs (Decidable True)
  | s, l :: labels =>
    have := decidableAlong cond (step s l) labels
    inferInstanceAs (Decidable (cond s l ∧ Along step cond (step s l) labels))

variable {step} {cond : S → L → Prop} {inv : S → Prop}

lemma run_invariant (hstep : ∀ s l, inv s → cond s l → inv (step s l)) {s : S} (hs : inv s)
    (labels : List L) (hrun : Along step cond s labels) : inv (run step s labels) := by
  induction labels generalizing s with
  | nil => exact hs
  | cons l labels ih => exact ih (hstep s l hs hrun.1) hrun.2

/-- Along a run that keeps an invariant, a condition may be replaced by what it implies. -/
lemma along_imp {cond' : S → L → Prop} (hstep : ∀ s l, inv s → inv (step s l))
    (himp : ∀ s l, inv s → cond s l → cond' s l) {s : S} (hs : inv s) (labels : List L)
    (hrun : Along step cond s labels) : Along step cond' s labels := by
  induction labels generalizing s with
  | nil => trivial
  | cons l labels ih => exact ⟨himp s l hs hrun.1, ih (hstep s l hs) hrun.2⟩

lemma along_of_forall {cond : L → Prop} {s : S} {labels : List L}
    (h : ∀ l ∈ labels, cond l) : Along step (fun _ l => cond l) s labels := by
  induction labels generalizing s with
  | nil => trivial
  | cons l labels ih =>
    rw [List.forall_mem_cons] at h
    exact ⟨h.1, ih h.2⟩

lemma along_of_all (h : ∀ s l, cond s l) {s : S} {labels : List L} :
    Along step cond s labels := by
  induction labels generalizing s with
  | nil => trivial
  | cons l labels ih => exact ⟨h s l, ih⟩

lemma run_preserves (hstep : ∀ s l, inv s → inv (step s l)) {s : S} (hs : inv s)
    (labels : List L) : inv (run step s labels) := by
  induction labels generalizing s with
  | nil => exact hs
  | cons l labels ih => exact ih (hstep s l hs)

/-- Where a step keeps a property exactly under a condition, all states of a run have the property
exactly if all steps meet the condition. -/
lemma forall_take_iff (hstep : ∀ s l, inv s → (inv (step s l) ↔ cond s l)) {s : S} (hs : inv s)
    (labels : List L) : (∀ n, inv (run step s (labels.take n))) ↔ Along step cond s labels := by
  induction labels generalizing s with
  | nil => simpa [run, Along] using hs
  | cons l labels ih =>
    constructor
    · intro h
      have hnext : inv (step s l) := h 1
      exact ⟨(hstep s l hs).mp hnext, (ih hnext).mp fun n => h (n + 1)⟩
    rintro ⟨hl, hrest⟩ n
    cases n with
    | zero => exact hs
    | succ n => exact (ih ((hstep s l hs).mpr hl)).mpr hrest n

end KosKernel.Runs
