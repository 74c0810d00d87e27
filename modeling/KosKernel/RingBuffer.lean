import Mathlib.Data.List.Basic
import Mathlib.Data.Nat.ModEq
import Mathlib.Tactic.Ring

/-! A circular buffer of fixed capacity: elements are written at its tail and read at its head,
one by one, and both indices wrap at the capacity. -/
namespace KosKernel.RingBuffer
variable {α : Type*} {capacity : ℕ}

def copyIn (capacity : ℕ) : (ℕ → α) → ℕ → List α → (ℕ → α) × ℕ
  | buffer, tail, [] => (buffer, tail)
  | buffer, tail, x :: xs =>
    copyIn capacity (Function.update buffer tail x) ((tail + 1) % capacity) xs

def copyOut (capacity : ℕ) (buffer : ℕ → α) : ℕ → ℕ → List α × ℕ
  | 0, head => ([], head)
  | count + 1, head =>
    let (xs, last) := copyOut capacity buffer count ((head + 1) % capacity)
    (buffer head :: xs, last)

def contents (capacity : ℕ) (buffer : ℕ → α) (count head : ℕ) : List α :=
  (copyOut capacity buffer count head).1

@[simp] lemma contents_zero (buffer : ℕ → α) (head : ℕ) : contents capacity buffer 0 head = [] := rfl

@[simp] lemma contents_succ (buffer : ℕ → α) (count head : ℕ) :
    contents capacity buffer (count + 1) head =
      buffer head :: contents capacity buffer count ((head + 1) % capacity) := rfl

@[simp] lemma length_contents (buffer : ℕ → α) (count head : ℕ) :
    (contents capacity buffer count head).length = count := by
  induction count generalizing head with
  | zero => rfl
  | succ count ih => simp [ih]

lemma advance_mod (head n : ℕ) : ((head + 1) % capacity + n) % capacity =
    (head + (n + 1)) % capacity := by
  rw [Nat.mod_add_mod, Nat.add_assoc, Nat.add_comm 1 n]

variable {head : ℕ}

lemma copyOut_snd (buffer : ℕ → α) (count : ℕ) (h : head < capacity) :
    (copyOut capacity buffer count head).2 = (head + count) % capacity := by
  induction count generalizing head with
  | zero => exact (Nat.mod_eq_of_lt h).symm
  | succ count ih =>
    rw [← advance_mod]
    exact ih (Nat.mod_lt _ (by omega))

lemma copyIn_snd (buffer : ℕ → α) (xs : List α) {tail : ℕ} (h : tail < capacity) :
    (copyIn capacity buffer tail xs).2 = (tail + xs.length) % capacity := by
  induction xs generalizing buffer tail with
  | nil => exact (Nat.mod_eq_of_lt h).symm
  | cons x xs ih =>
    rw [List.length_cons, ← advance_mod]
    exact ih _ (Nat.mod_lt _ (by omega))

lemma contents_append (buffer : ℕ → α) (m n : ℕ) (h : head < capacity) :
    contents capacity buffer (m + n) head =
      contents capacity buffer m head ++ contents capacity buffer n ((head + m) % capacity) := by
  induction m generalizing head with
  | zero => simp [Nat.mod_eq_of_lt h]
  | succ m ih =>
    rw [Nat.succ_add, contents_succ, contents_succ, ih (Nat.mod_lt _ (by omega)), advance_mod,
      List.cons_append]

variable {buffer : ℕ → α} {count : ℕ}

lemma contents_update {index : ℕ} (x : α)
    (h : ∀ n < count, (head + n) % capacity ≠ index) (hhead : head < capacity) :
    contents capacity (Function.update buffer index x) count head =
      contents capacity buffer count head := by
  induction count generalizing head with
  | zero => rfl
  | succ count ih =>
    have hfirst : head ≠ index := by
      have := h 0 (Nat.succ_pos count)
      rwa [Nat.add_zero, Nat.mod_eq_of_lt hhead] at this
    have hrest : ∀ n < count, ((head + 1) % capacity + n) % capacity ≠ index := by
      intro n hn
      rw [advance_mod]
      exact h (n + 1) (Nat.succ_lt_succ hn)
    rw [contents_succ, contents_succ, Function.update_of_ne hfirst,
      ih hrest (Nat.mod_lt _ (by omega))]

lemma index_ne_tail {n : ℕ} (hcount : count < capacity) (hn : n < count) :
    (head + n) % capacity ≠ (head + count) % capacity := by
  intro heq
  have hcongr : n ≡ count [MOD capacity] := Nat.ModEq.add_left_cancel' head heq
  exact absurd (Nat.ModEq.eq_of_lt_of_lt hcongr (by omega) hcount) (by omega)

lemma contents_copyIn (xs : List α) (h : count + xs.length ≤ capacity) (hhead : head < capacity) :
    contents capacity (copyIn capacity buffer ((head + count) % capacity) xs).1
        (count + xs.length) head =
      contents capacity buffer count head ++ xs := by
  induction xs generalizing buffer count with
  | nil => simp [copyIn]
  | cons x xs ih =>
    rw [List.length_cons] at h
    have hroom : count < capacity := by omega
    have hone : contents capacity (Function.update buffer ((head + count) % capacity) x)
        (count + 1) head = contents capacity buffer count head ++ [x] := by
      rw [contents_append _ count 1 hhead, contents_update x (fun n hn => index_ne_tail hroom hn)
        hhead]
      simp
    rw [copyIn, Nat.mod_add_mod, Nat.add_assoc head count 1, List.length_cons,
      show count + (xs.length + 1) = count + 1 + xs.length by ring, ih (by omega), hone,
      List.append_assoc, List.singleton_append]

lemma copyOut_append (buffer : ℕ → α) {n : ℕ} (h : n ≤ count) (hhead : head < capacity) :
    (copyOut capacity buffer n head).1 ++
        contents capacity buffer (count - n) (copyOut capacity buffer n head).2 =
      contents capacity buffer count head := by
  rw [copyOut_snd buffer n hhead, ← Nat.add_sub_of_le h, Nat.add_sub_cancel_left,
    contents_append buffer n (count - n) hhead]
  rfl

end KosKernel.RingBuffer
