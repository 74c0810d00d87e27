import Mathlib

/-! Radix trees kept in memory as tables of entries, where an entry may point to a further
table. A place in the tree is named by its path, the index taken last standing first, so
that the place an entry hangs from is the tail of its path. -/
namespace KosKernel.RadixTree
variable {E : Type*}

/-- Memory as tables of entries, by the address of the table and the index. -/
abbrev Tables (E : Type*) := ℕ → ℕ → E

section
def write (mem : Tables E) (t i : ℕ) (e : E) : Tables E :=
  Function.update mem t (Function.update (mem t) i e)

variable (mem : Tables E) (t i : ℕ) (e : E)

@[simp] lemma write_self : write mem t i e t i = e := by simp [write]

lemma write_of_ne {t' i' : ℕ} (h : t' ≠ t ∨ i' ≠ i) : write mem t i e t' i' = mem t' i' := by
  obtain rfl | ht := eq_or_ne t' t
  · have hi : i' ≠ i := h.resolve_left (fun hne => hne rfl)
    simp [write, hi]
  · simp [write, ht]

lemma write_table {t' : ℕ} (h : t' ≠ t) : write mem t i e t' = mem t' := by simp [write, h]

end

variable (next : E → Option ℕ) (mem : Tables E) (zero origin : E)

/-- The entry at a path, starting from an entry that points to the root table; `zero` below
an entry that points nowhere. -/
def slot : List ℕ → E
  | [] => origin
  | i :: p =>
    match next (slot p) with
    | some t => mem t i
    | none => zero

variable {next mem zero origin}

lemma slot_cons {p : List ℕ} {t : ℕ} (h : next (slot next mem zero origin p) = some t) (i : ℕ) :
    slot next mem zero origin (i :: p) = mem t i := by
  simp [slot, h]

lemma slot_cons_none {p : List ℕ} (h : next (slot next mem zero origin p) = none) (i : ℕ) :
    slot next mem zero origin (i :: p) = zero := by
  simp [slot, h]

/-- Distinct places hold distinct tables, for the first `n` levels of the domain `D`. -/
def Distinct (N : List ℕ → Option ℕ) (D : List ℕ → Prop) (n : ℕ) : Prop :=
  ∀ p q a, D p → D q → p.length ≤ n → q.length ≤ n → N p = some a → N q = some a → p = q

lemma Distinct.mono {N : List ℕ → Option ℕ} {D : List ℕ → Prop} {m n : ℕ} (h : Distinct N D n)
    (hmn : m ≤ n) : Distinct N D m :=
  fun p q a hDp hDq hp hq => h p q a hDp hDq (hp.trans hmn) (hq.trans hmn)

section
variable {D : List ℕ → Prop} {n : ℕ} {mem' : Tables E}

lemma slot_congr (hD : ∀ i p, D (i :: p) → D p)
    (hmem : ∀ p t, D p → p.length ≤ n → next (slot next mem zero origin p) = some t →
      ∀ i, D (i :: p) → mem' t i = mem t i) (r : List ℕ) (hr : D r) (hlen : r.length ≤ n + 1) :
    slot next mem' zero origin r = slot next mem zero origin r := by
  induction r with
  | nil => rfl
  | cons j r ih =>
    simp only [List.length_cons] at hlen
    have hDr := hD j r hr
    have heq := ih hDr (by omega)
    cases hnode : next (slot next mem zero origin r) with
    | none => rw [slot_cons_none hnode, slot_cons_none (heq ▸ hnode)]
    | some t => rw [slot_cons hnode, slot_cons (heq ▸ hnode), hmem r t hDr (by omega) hnode j hr]

variable {p : List ℕ} {t i : ℕ} {e : E}

lemma slot_write_beside (hdist : Distinct (fun r => next (slot next mem zero origin r)) D n)
    (hp : next (slot next mem zero origin p) = some t) (hDp : D p) (hlen : p.length ≤ n)
    {r : List ℕ} (hDr : D r) (hrlen : r.length ≤ n)
    (heq : next (slot next (write mem t i e) zero origin r) = next (slot next mem zero origin r))
    (j : ℕ) :
    slot next (write mem t i e) zero origin (j :: r) =
      if j :: r = i :: p then e else slot next mem zero origin (j :: r) := by
  cases hnode : next (slot next mem zero origin r) with
  | none =>
    have hrp : r ≠ p := fun h => by simp [h, hp] at hnode
    have hne : j :: r ≠ i :: p := fun h => hrp (List.cons.inj h).2
    rw [if_neg hne, slot_cons_none hnode, slot_cons_none (heq.trans hnode)]
  | some t' =>
    rw [slot_cons (heq.trans hnode), slot_cons hnode]
    obtain rfl | htt := eq_or_ne t' t
    · have hrp : r = p := hdist r p t' hDr hDp hrlen hlen hnode hp
      subst hrp
      by_cases hji : j = i
      · simp [hji]
      · rw [write_of_ne _ _ _ _ (.inr hji), if_neg (by simp [hji])]
    · have hrp : r ≠ p := fun h => htt (Option.some.inj ((h ▸ hnode).symm.trans hp))
      rw [write_of_ne _ _ _ _ (.inl htt), if_neg (fun h => hrp (List.cons.inj h).2)]

section
variable (hD : ∀ i p, D (i :: p) → D p)
  (hdist : Distinct (fun r => next (slot next mem zero origin r)) D n)
  (hp : next (slot next mem zero origin p) = some t) (hDp : D (i :: p)) (hlen : p.length ≤ n)
include hD hdist hp hDp hlen

/-- Rewriting one entry changes what is seen at that path and nowhere else, as long as the tables
it led to before and leads to now show nothing. What is seen of an entry says where it leads. -/
lemma view_slot_write {V : Type*} (view : E → V) (leads : V → Option ℕ)
    (hview : ∀ e, next e = leads (view e)) (hold : p.length < n → ∀ f, next (mem t i) = some f →
      ∀ j, D (j :: i :: p) → view (mem f j) = view zero)
    (hnew : p.length < n → ∀ f, next e = some f →
      ∀ j, D (j :: i :: p) → view (write mem t i e f j) = view zero) (r : List ℕ) (hr : D r)
    (hrlen : r.length ≤ n + 1) :
    view (slot next (write mem t i e) zero origin r) =
      if r = i :: p then view e else view (slot next mem zero origin r) := by
  induction r with
  | nil => simp [slot]
  | cons j r ih =>
    simp only [List.length_cons] at hrlen
    have hDr := hD j r hr
    have heq := ih hDr (by omega)
    by_cases hbelow : r = i :: p
    · -- below the rewritten entry there is nothing, before and after
      subst hbelow
      simp only [List.length_cons] at hrlen
      have hnode' : next (slot next (write mem t i e) zero origin (i :: p)) = next e := by
        rw [hview, heq, if_pos rfl, ← hview]
      have hne : j :: i :: p ≠ i :: p := fun h => by simpa using congrArg List.length h
      rw [if_neg hne]
      have hleft : view (slot next (write mem t i e) zero origin (j :: i :: p)) = view zero := by
        cases hnode : next e with
        | none => rw [slot_cons_none (hnode'.trans hnode)]
        | some f => rw [slot_cons (hnode'.trans hnode), hnew (by omega) f hnode j hr]
      rw [hleft]
      have hentry := slot_cons hp i
      cases hnode : next (mem t i) with
      | none => rw [slot_cons_none (by rw [hentry, hnode])]
      | some f => rw [slot_cons (by rw [hentry, hnode]), hold (by omega) f hnode j hr]
    · rw [if_neg hbelow] at heq
      have hsame : next (slot next (write mem t i e) zero origin r) =
          next (slot next mem zero origin r) := by
        rw [hview, heq, ← hview]
      rw [slot_write_beside hdist hp (hD i p hDp) hlen hDr (by omega) hsame]
      split_ifs <;> rfl

lemma next_slot_write (hzero : next zero = none) (hold : p.length < n → ∀ f, next (mem t i) = some f →
      ∀ j, D (j :: i :: p) → next (mem f j) = none) (hnew : p.length < n → ∀ f, next e = some f →
      ∀ j, D (j :: i :: p) → next (write mem t i e f j) = none) (r : List ℕ) (hr : D r)
    (hrlen : r.length ≤ n + 1) :
    next (slot next (write mem t i e) zero origin r) =
      if r = i :: p then next e else next (slot next mem zero origin r) :=
  view_slot_write hD hdist hp hDp hlen next id (fun _ => rfl)
    (fun hl f hf j hj => (hold hl f hf j hj).trans hzero.symm)
    (fun hl f hf j hj => (hnew hl f hf j hj).trans hzero.symm) r hr hrlen

lemma slot_write (hold : p.length < n → ∀ f, next (mem t i) = some f →
      ∀ j, D (j :: i :: p) → mem f j = zero) (hnew : p.length < n → ∀ f, next e = some f →
      ∀ j, D (j :: i :: p) → write mem t i e f j = zero) (r : List ℕ) (hr : D r)
    (hrlen : r.length ≤ n + 1) :
    slot next (write mem t i e) zero origin r =
      if r = i :: p then e else slot next mem zero origin r :=
  view_slot_write hD hdist hp hDp hlen id next (fun _ => rfl) hold hnew r hr hrlen

end
end

variable {N N' : List ℕ → Option ℕ} {D : List ℕ → Prop} {n a : ℕ} {pool total : Set ℕ}
  {q : List ℕ}

/-- The tables at distinct places are distinct, and none of them is in the pool. -/
structure Apart (N : List ℕ → Option ℕ) (D : List ℕ → Prop) (n : ℕ) (pool : Set ℕ) : Prop where
  distinct : Distinct N D n
  disjoint : ∀ p a, D p → p.length ≤ n → N p = some a → a ∉ pool

/-- Together, the pool and the tree hold exactly `total`. -/
def Covers (N : List ℕ → Option ℕ) (D : List ℕ → Prop) (n : ℕ) (total pool : Set ℕ) : Prop :=
  ∀ a, a ∈ total ↔ a ∈ pool ∨ ∃ p, D p ∧ p.length ≤ n ∧ N p = some a

lemma Apart.congr (h : Apart N D n pool) (hN : ∀ r, D r → r.length ≤ n → N' r = N r) :
    Apart N' D n pool := by
  constructor
  · intro p q a hDp hDq hp hq hNp hNq
    rw [hN p hDp hp] at hNp
    rw [hN q hDq hq] at hNq
    exact h.distinct p q a hDp hDq hp hq hNp hNq
  intro p a hDp hp hNp
  rw [hN p hDp hp] at hNp
  exact h.disjoint p a hDp hp hNp

lemma Covers.congr (h : Covers N D n total pool) (hN : ∀ r, D r → r.length ≤ n → N' r = N r) :
    Covers N' D n total pool := by
  intro a
  rw [h a]
  refine or_congr_right (exists_congr fun p => ?_)
  constructor
  · intro ⟨hD, hlen, hp⟩
    exact ⟨hD, hlen, (hN p hD hlen).trans hp⟩
  · intro ⟨hD, hlen, hp⟩
    exact ⟨hD, hlen, (hN p hD hlen).symm.trans hp⟩

lemma Apart.attach (h : Apart N D n pool) (ha : a ∈ pool)
    (hN : ∀ r, D r → r.length ≤ n → N' r = if r = q then some a else N r) :
    Apart N' D n (pool \ {a}) := by
  have hnode : ∀ r b, D r → r.length ≤ n → N' r = some b → r = q ∧ b = a ∨ N r = some b ∧ b ≠ a := by
    intro r b hD hlen hb
    rw [hN r hD hlen] at hb
    split_ifs at hb with hrq
    · exact .inl ⟨hrq, (Option.some.inj hb).symm⟩
    · exact .inr ⟨hb, fun hba => h.disjoint r b hD hlen hb (hba ▸ ha)⟩
  constructor
  · intro p r b hDp hDr hp hr hNp hNr
    rcases hnode p b hDp hp hNp with ⟨hpq, hba⟩ | ⟨hNp', hba⟩
    · rcases hnode r b hDr hr hNr with ⟨hrq, -⟩ | ⟨-, hne⟩
      · rw [hpq, hrq]
      · exact absurd hba hne
    rcases hnode r b hDr hr hNr with ⟨-, hba'⟩ | ⟨hNr', -⟩
    · exact absurd hba' hba
    · exact h.distinct p r b hDp hDr hp hr hNp' hNr'
  · intro p b hDp hp hNp
    rcases hnode p b hDp hp hNp with ⟨-, hba⟩ | ⟨hNp', -⟩
    · exact fun hb => hb.2 hba
    · exact fun hb => h.disjoint p b hDp hp hNp' hb.1

lemma Covers.attach (h : Covers N D n total pool) (ha : a ∈ pool) (hq : D q) (hlen : q.length ≤ n)
    (hfresh : N q = none) (hN : ∀ r, D r → r.length ≤ n → N' r = if r = q then some a else N r) :
    Covers N' D n total (pool \ {a}) := by
  intro b
  rw [h b]
  constructor
  · intro hb
    rcases hb with hb | ⟨p, hD, hp, hNp⟩
    · by_cases hba : b = a
      · exact .inr ⟨q, hq, hlen, by rw [hN q hq hlen, if_pos rfl, hba]⟩
      · exact .inl ⟨hb, hba⟩
    · have hpq : p ≠ q := fun heq => by simp [heq, hfresh] at hNp
      exact .inr ⟨p, hD, hp, by rw [hN p hD hp, if_neg hpq, hNp]⟩
  · intro hb
    rcases hb with hb | ⟨p, hD, hp, hNp⟩
    · exact .inl hb.1
    rw [hN p hD hp] at hNp
    split_ifs at hNp with hpq
    · exact .inl (Option.some.inj hNp ▸ ha)
    · exact .inr ⟨p, hD, hp, hNp⟩

lemma Apart.detach (h : Apart N D n pool) (hq : D q) (hlen : q.length ≤ n) (ha : N q = some a)
    (hN : ∀ r, D r → r.length ≤ n → N' r = if r = q then none else N r) {pool' : Set ℕ}
    (hpool : pool' ⊆ insert a pool) : Apart N' D n pool' := by
  have hnode : ∀ r b, D r → r.length ≤ n → N' r = some b → r ≠ q ∧ N r = some b := by
    intro r b hD hr hb
    rw [hN r hD hr] at hb
    split_ifs at hb with hrq
    exact ⟨hrq, hb⟩
  constructor
  · intro p r b hDp hDr hp hr hNp hNr
    exact h.distinct p r b hDp hDr hp hr (hnode p b hDp hp hNp).2 (hnode r b hDr hr hNr).2
  intro p b hDp hp hNp hb
  obtain ⟨hpq, hNp'⟩ := hnode p b hDp hp hNp
  rcases hpool hb with hba | hb
  · exact hpq (h.distinct p q a hDp hq hp hlen (hba ▸ hNp') ha)
  · exact h.disjoint p b hDp hp hNp' hb

lemma Covers.detach (h : Covers N D n total pool) (hq : D q) (hlen : q.length ≤ n)
    (ha : N q = some a) (hN : ∀ r, D r → r.length ≤ n → N' r = if r = q then none else N r) :
    Covers N' D n total (insert a pool) := by
  intro b
  rw [h b]
  constructor
  · intro hb
    rcases hb with hb | ⟨p, hD, hp, hNp⟩
    · exact .inl (Set.mem_insert_of_mem a hb)
    by_cases hpq : p = q
    · rw [hpq, ha] at hNp
      exact .inl (.inl (Option.some.inj hNp).symm)
    · exact .inr ⟨p, hD, hp, by rw [hN p hD hp, if_neg hpq, hNp]⟩
  · intro hb
    rcases hb with (hb | hb) | ⟨p, hD, hp, hNp⟩
    · exact .inr ⟨q, hq, hlen, hb ▸ ha⟩
    · exact .inl hb
    rw [hN p hD hp] at hNp
    split_ifs at hNp with hpq
    exact .inr ⟨p, hD, hp, hNp⟩

end KosKernel.RadixTree
