import Mathlib.Tactic.Ring

/-! The address lookup in the table of kernel symbols, `kernel/symbol.c`. -/
namespace KosKernel.Symbols

structure Symbol where
  address : ℕ
  name : String

/-- The binary search; `none` stands for a read outside the table or a loop still running. -/
def search (syms : List Symbol) (address : ℕ) : ℕ → ℕ → ℕ → ℕ → Option ℕ
  | 0, _, _, _ => none
  | fuel + 1, low, high, best =>
    if low ≤ high then
      let mid := low + (high - low) / 2
      match syms[mid]? with
      | none => none
      | some symbol =>
        if symbol.address ≤ address then
          if mid = 2 ^ 64 - 1 ∨ mid = syms.length - 1 then some mid
          else search syms address fuel (mid + 1) high mid
        else if mid = 0 then some best
        else search syms address fuel low (mid - 1) best
    else some best

def symbolLookup (syms : List Symbol) (textStart textEnd address fuel : ℕ) :
    Option (String × ℕ) :=
  if syms.length = 0 ∨ address < textStart ∨ textEnd ≤ address then some ("<unknown>", 0)
  else do
    let first ← syms[0]?
    if address < first.address then return ("<unknown>", 0)
    let best ← search syms address fuel 0 (syms.length - 1) 0
    let symbol ← syms[best]?
    return (symbol.name, address - symbol.address)

variable {syms : List Symbol} {address : ℕ}

def Below (syms : List Symbol) (address i : ℕ) : Prop :=
  ∃ symbol, syms[i]? = some symbol ∧ symbol.address ≤ address

lemma Below.lt {i : ℕ} (h : Below syms address i) : i < syms.length := by
  obtain ⟨symbol, hi, -⟩ := h
  exact (List.getElem?_eq_some_iff.mp hi).1

lemma Below.of_le (hsorted : syms.Pairwise (·.address ≤ ·.address)) {i j : ℕ}
    (h : Below syms address j) (hij : i ≤ j) : Below syms address i := by
  have hj := h.lt
  obtain ⟨symbol, hsymbol, hle⟩ := h
  obtain ⟨_, rfl⟩ := List.getElem?_eq_some_iff.mp hsymbol
  refine ⟨syms[i], List.getElem?_eq_getElem _, ?_⟩
  obtain rfl | hlt := Nat.eq_or_lt_of_le hij
  · exact hle
  · exact Nat.le_trans (List.pairwise_iff_getElem.mp hsorted i j _ _ hlt) hle

/-- All before `low` are below the address, none after `high` is. -/
lemma search_spec (hsorted : syms.Pairwise (·.address ≤ ·.address))
    (hcount : syms.length < 2 ^ 64) (hfirst : Below syms address 0) {fuel low high best : ℕ}
    (hlow : ∀ j < low, Below syms address j) (hhigh : ∀ j > high, ¬ Below syms address j)
    (hbest : best = low - 1) (hle : low ≤ high + 1) (hlast : high < syms.length)
    (hfuel : high + 1 - low < fuel) : ∃ i, search syms address fuel low high best = some i ∧
      Below syms address i ∧ ∀ j > i, ¬ Below syms address j := by
  induction fuel generalizing low high best with
  | zero => omega
  | succ fuel ih =>
    rw [search]
    by_cases hopen : low ≤ high
    · have hmid : low + (high - low) / 2 < syms.length := by omega
      simp only [if_pos hopen, List.getElem?_eq_getElem hmid]
      generalize hm : low + (high - low) / 2 = mid at hmid ⊢
      have hbelow : Below syms address mid ↔ syms[mid].address ≤ address := by
        simp [Below, List.getElem?_eq_getElem hmid]
      split_ifs with hsymbol hend hzero
      · refine ⟨mid, rfl, hbelow.mpr hsymbol, fun j hj hj' => ?_⟩
        have := hj'.lt
        omega
      · exact ih (fun j hj => (hbelow.mpr hsymbol).of_le hsorted (by omega)) hhigh rfl (by omega)
          hlast (by omega)
      · exact absurd (hbelow.mp (hzero ▸ hfirst)) hsymbol
      · exact ih hlow (fun j hj hj' => hsymbol (hbelow.mp (hj'.of_le hsorted (by omega)))) hbest
          (by omega) (by omega) (by omega)
    · exact ⟨best, if_neg hopen, hlow best (by omega), fun j hj => hhigh j (by omega)⟩

/-- The lookup ends within as many turns as there are symbols, plus one, at the last symbol that
is not above the address. -/
theorem symbolLookup_last (hsorted : syms.Pairwise (·.address ≤ ·.address))
    (hcount : syms.length < 2 ^ 64) {textStart textEnd fuel : ℕ} (hstart : textStart ≤ address)
    (hend : address < textEnd) (hfirst : Below syms address 0)
    (hfuel : syms.length < fuel) : ∃ i symbol, syms[i]? = some symbol ∧
      symbol.address ≤ address ∧ (∀ j > i, ¬ Below syms address j) ∧
      symbolLookup syms textStart textEnd address fuel =
        some (symbol.name, address - symbol.address) := by
  have hpos := hfirst.lt
  obtain ⟨i, hsearch, ⟨symbol, hsymbol, hle⟩, hlast⟩ := search_spec hsorted hcount hfirst
    (fun j hj => absurd hj (by omega)) (fun j hj hj' => absurd hj'.lt (by omega)) rfl (by omega)
    (by omega) (by omega : syms.length - 1 + 1 - 0 < fuel)
  obtain ⟨first, hzero, hfirst⟩ := hfirst
  refine ⟨i, symbol, hsymbol, hle, hlast, ?_⟩
  rw [symbolLookup, if_neg (by omega), hzero]
  simp [Nat.not_lt.mpr hfirst, hsearch, hsymbol]

def sampleTable : List Symbol := [⟨4, "a"⟩, ⟨8, "b"⟩, ⟨8, "c"⟩]

theorem symbolLookup_last_sample :
    ∃ symbol : Symbol, symbolLookup sampleTable 0 16 9 4 = some (symbol.name, 9 - symbol.address) := by
  have hsorted : sampleTable.Pairwise (·.address ≤ ·.address) := by decide
  obtain ⟨-, symbol, -, -, -, h⟩ := symbolLookup_last hsorted (by decide) (Nat.zero_le 9)
    (show 9 < 16 by decide) ⟨_, rfl, by decide⟩ (show _ < 4 by decide)
  exact ⟨symbol, h⟩

end KosKernel.Symbols
