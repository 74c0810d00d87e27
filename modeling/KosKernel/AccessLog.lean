import Mathlib.Data.List.Basic

/-! Computations that may fail and that note what they access. The log of a computation is the
one of the steps it came to. -/
namespace KosKernel.AccessLog

structure Attempt (ε α : Type) where
  log : List ε
  result : Option α

namespace Attempt
variable {ε α β : Type}

instance : Monad (Attempt ε) where
  pure a := ⟨[], some a⟩
  bind x f :=
    match x.result with
    | none => ⟨x.log, none⟩
    | some a => ⟨x.log ++ (f a).log, (f a).result⟩

def require (condition : Bool) : Attempt ε Unit := ⟨[], if condition then some () else none⟩

lemma result_bind (x : Attempt ε α) (f : α → Attempt ε β) :
    (x >>= f).result = x.result.bind fun a => (f a).result := by
  obtain ⟨log, result⟩ := x
  cases result <;> rfl

variable {x : Attempt ε α} {f : α → Attempt ε β}

lemma result_bind_eq_some {b : β} :
    (x >>= f).result = some b ↔ ∃ a, x.result = some a ∧ (f a).result = some b := by
  rw [result_bind, Option.bind_eq_some_iff]

variable {condition : Bool}

@[simp] lemma result_require {u : Unit} :
    (require condition : Attempt ε Unit).result = some u ↔ condition = true := by
  cases condition <;> simp [require]

def All (P : ε → Prop) (x : Attempt ε α) : Prop := ∀ e ∈ x.log, P e

variable {P : ε → Prop}

lemma all_pure (a : α) : All P (pure a : Attempt ε α) := by
  intro e he
  cases he

lemma all_require (condition : Bool) : All P (require condition : Attempt ε Unit) := by
  intro e he
  cases he

lemma all_bind_iff : All P (x >>= f) ↔ All P x ∧ ∀ a, x.result = some a → All P (f a) := by
  obtain ⟨log, result⟩ := x
  cases result with
  | none =>
    refine ⟨fun h => ⟨h, fun a ha => ?_⟩, fun h => h.1⟩
    cases ha
  | some a =>
    have hall : All P (⟨log, some a⟩ >>= f) ↔ ∀ e ∈ log ++ (f a).log, P e := Iff.rfl
    rw [hall]
    refine ⟨fun h => ⟨fun e he => h e (List.mem_append_left _ he), fun b hb e he => ?_⟩,
      fun h e he => ?_⟩
    · cases hb
      exact h e (List.mem_append_right _ he)
    · rcases List.mem_append.mp he with he | he
      · exact h.1 e he
      · exact h.2 a rfl e he

lemma all_require_bind {f : Unit → Attempt ε β} :
    All P (require condition >>= f) ↔ (condition = true → All P (f ())) := by
  rw [all_bind_iff]
  simp only [result_require, all_require, true_and]
  exact ⟨fun h hc => h () hc, fun h _ hc => h hc⟩

end Attempt
end KosKernel.AccessLog
