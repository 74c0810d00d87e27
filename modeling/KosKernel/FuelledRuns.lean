import Mathlib.Data.List.Basic
import Mathlib.Order.Lattice

/-! Computations that run on fuel and note what they do, with a rule for loops that walk over
a sequence of pieces and may stand still on one of them. -/
namespace KosKernel.FuelledRuns

structure Traced (ε ρ α : Type) where
  log : List ε
  result : Except ρ α

variable {n k : ℕ}

namespace Traced
variable {ε ρ α β : Type}

instance : Monad (Traced ε ρ) where
  pure a := ⟨[], .ok a⟩
  bind x f :=
    match x.result with
    | .error r => ⟨x.log, .error r⟩
    | .ok a => ⟨x.log ++ (f a).log, (f a).result⟩

def note (events : List ε) : Traced ε ρ Unit := ⟨events, .ok ()⟩

def silent (result : Except ρ α) : Traced ε ρ α := ⟨[], result⟩

@[simp] lemma result_pure (a : α) : (pure a : Traced ε ρ α).result = .ok a := rfl

@[simp] lemma log_pure (a : α) : (pure a : Traced ε ρ α).log = [] := rfl

@[simp] lemma log_note (events : List ε) : (note events : Traced ε ρ Unit).log = events := rfl

variable {x : Traced ε ρ α} {f : α → Traced ε ρ β}

lemma bind_of_ok {a : α} (h : x.result = .ok a) : x >>= f = ⟨x.log ++ (f a).log, (f a).result⟩ := by
  obtain ⟨log, result⟩ := x
  cases h
  rfl

lemma bind_of_error {r : ρ} (h : x.result = .error r) : x >>= f = ⟨x.log, .error r⟩ := by
  obtain ⟨log, result⟩ := x
  cases h
  rfl

lemma result_bind (x : Traced ε ρ α) (f : α → Traced ε ρ β) :
    (x >>= f).result = x.result >>= fun a => (f a).result := by
  obtain ⟨log, result⟩ := x
  cases result <;> rfl

lemma mem_log_bind {e : ε} :
    e ∈ (x >>= f).log ↔ e ∈ x.log ∨ ∃ a, x.result = .ok a ∧ e ∈ (f a).log := by
  cases h : x.result with
  | error r => simp [bind_of_error h]
  | ok a => simp [bind_of_ok h]

lemma eq_of_result_bind_pure {g : α → β} {b : β} (h : (x >>= fun a => pure (g a)).result = .ok b) :
    ∃ a, g a = b := by
  cases hres : x.result with
  | error r =>
    rw [bind_of_error hres] at h
    cases h
  | ok a =>
    rw [bind_of_ok hres] at h
    cases h
    exact ⟨a, rfl⟩

def All (P : ε → Prop) (x : Traced ε ρ α) : Prop := ∀ e ∈ x.log, P e

variable {P : ε → Prop}

lemma all_pure (a : α) : All P (pure a : Traced ε ρ α) := by
  intro e he
  cases he

lemma all_silent (r : Except ρ α) : All P (silent r : Traced ε ρ α) := by
  intro e he
  cases he

variable {events : List ε}

lemma all_note (h : ∀ e ∈ events, P e) : All P (note events : Traced ε ρ Unit) := h

lemma all_bind (hx : All P x) (hf : ∀ a, x.result = .ok a → All P (f a)) : All P (x >>= f) := by
  intro e he
  rcases mem_log_bind.mp he with he | ⟨a, ha, he⟩
  · exact hx e he
  · exact hf a ha e he

section
variable {pending : ρ} {stall : ε}

/-- `y` is `x` with more fuel: the same computation, or one that goes on where `x` was cut. -/
def Continues (pending : ρ) (x y : Traced ε ρ α) : Prop :=
  (x.result = .error pending ∧ x.log ⊆ y.log) ∨ x = y

lemma Continues.refl (x : Traced ε ρ α) : Continues pending x x := .inr rfl

section
variable {x y : Traced ε ρ α} (h : Continues pending x y)
include h

lemma Continues.log_subset : x.log ⊆ y.log := by
  rcases h with ⟨-, h⟩ | rfl
  · exact h
  · exact List.Subset.refl _

lemma Continues.eq_of_done (hx : x.result ≠ .error pending) : x = y := by
  rcases h with ⟨h, -⟩ | h
  · exact absurd h hx
  · exact h

lemma Continues.bind {f g : α → Traced ε ρ β} (hfg : ∀ a, Continues pending (f a) (g a)) :
    Continues pending (x >>= f) (y >>= g) := by
  rcases h with ⟨hres, hlog⟩ | rfl
  · left
    rw [bind_of_error hres]
    exact ⟨rfl, fun e he => mem_log_bind.mpr (.inl (hlog he))⟩
  cases h : x.result with
  | error r =>
    right
    rw [bind_of_error h, bind_of_error h]
  | ok a =>
    rw [bind_of_ok h, bind_of_ok h]
    rcases hfg a with ⟨hres, hlog⟩ | hsame
    · exact .inl ⟨hres, List.append_subset.mpr ⟨List.subset_append_left _ _,
        fun e he => List.mem_append_right _ (hlog he)⟩⟩
    · right
      rw [hsame]

end

/-- More fuel only continues the computation, and it finishes exactly when it never notes that
it stands still. -/
structure Tame (pending : ρ) (stall : ε) (f : ℕ → Traced ε ρ α) : Prop where
  mono : ∀ {n k}, n ≤ k → Continues pending (f n) (f k)
  stalls : ∀ n, stall ∈ (f n).log → (f n).result = .error pending
  settles : (∀ n, stall ∉ (f n).log) → ∃ n, (f n).result ≠ .error pending

namespace Tame
variable {f : ℕ → Traced ε ρ α} {g : ℕ → α → Traced ε ρ β}

lemma const {x : Traced ε ρ α} (hlog : stall ∉ x.log) (hres : x.result ≠ .error pending) :
    Tame pending stall fun _ => x where
  mono _ := Continues.refl x
  stalls _ h := absurd h hlog
  settles _ := ⟨0, hres⟩

lemma pure (a : α) : Tame pending stall fun _ => (Pure.pure a : Traced ε ρ α) :=
  const (List.not_mem_nil) (fun h => nomatch h)

lemma note (h : stall ∉ events) :
    Tame pending stall fun _ => (Traced.note events : Traced ε ρ Unit) :=
  const h (fun h => nomatch h)

lemma silent {r : Except ρ α} (h : r ≠ .error pending) :
    Tame pending stall fun _ => (Traced.silent r : Traced ε ρ α) :=
  const (List.not_mem_nil) h

section
variable (hf : Tame pending stall f)
include hf

lemma eq_of_done (hn : (f n).result ≠ .error pending) (h : n ≤ k) : f k = f n :=
  ((hf.mono h).eq_of_done hn).symm

lemma stall_le (h : n ≤ k) (hk : stall ∉ (f k).log) : stall ∉ (f n).log :=
  fun hn => hk ((hf.mono h).log_subset hn)

theorem finishes_iff : (∃ n, (f n).result ≠ .error pending) ↔ ∀ n, stall ∉ (f n).log := by
  refine ⟨?_, hf.settles⟩
  rintro ⟨n, hn⟩ k hk
  -- a log that shows the standstill shows it on the larger of the two amounts of fuel
  have hmax := (hf.mono (le_max_right n k)).log_subset hk
  have hres := hf.stalls _ hmax
  rw [hf.eq_of_done hn (le_max_left n k)] at hres
  exact hn hres

lemma bind (hg : ∀ a, Tame pending stall fun n => g n a) :
    Tame pending stall fun n => f n >>= g n where
  mono h := (hf.mono h).bind fun a => (hg a).mono h
  stalls n h := by
    rcases mem_log_bind.mp h with h | ⟨a, ha, h⟩
    · rw [bind_of_error (hf.stalls n h)]
    · rw [bind_of_ok ha]
      exact (hg a).stalls n h
  settles h := by
    obtain ⟨n, hn⟩ := hf.settles fun n hstall => h n (mem_log_bind.mpr (.inl hstall))
    cases hres : (f n).result with
    | error r =>
      refine ⟨n, ?_⟩
      rw [bind_of_error hres]
      intro hpend
      cases hpend
      exact hn hres
    | ok a =>
      -- from `n` on the first part is done, so the second part shows its whole log
      have hsame : ∀ k, n ≤ k → (f k).result = .ok a := fun k hk => by
        rw [hf.eq_of_done hn hk, hres]
      have hquiet : ∀ k, stall ∉ (g k a).log := fun k =>
        (hg a).stall_le (le_max_right n k) fun hstall =>
          h _ (mem_log_bind.mpr (.inr ⟨a, hsame _ (le_max_left n k), hstall⟩))
      obtain ⟨k, hk⟩ := (hg a).settles hquiet
      refine ⟨max n k, ?_⟩
      rw [bind_of_ok (hsame _ (le_max_left n k)), (hg a).eq_of_done hk (le_max_right n k)]
      exact hk

end
end Tame

/-- A tame computation that fails for lack of fuel only. -/
structure Patient (pending : ρ) (stall : ε) (f : ℕ → Traced ε ρ α) : Prop
    extends Tame pending stall f where
  total : ∀ n r, (f n).result = .error r → r = pending

namespace Patient
variable {f : ℕ → Traced ε ρ α} {g : ℕ → α → Traced ε ρ β}

lemma pure (a : α) : Patient pending stall fun _ => (Pure.pure a : Traced ε ρ α) where
  toTame := Tame.pure a
  total _ _ h := nomatch h

lemma note (h : stall ∉ events) :
    Patient pending stall fun _ => (Traced.note events : Traced ε ρ Unit) where
  toTame := Tame.note h
  total _ _ h := nomatch h

lemma bind (hf : Patient pending stall f) (hg : ∀ a, Patient pending stall fun n => g n a) :
    Patient pending stall fun n => f n >>= g n where
  toTame := hf.toTame.bind fun a => (hg a).toTame
  total n r h := by
    cases hres : (f n).result with
    | error r' =>
      rw [bind_of_error hres] at h
      cases h
      exact hf.total n _ hres
    | ok a =>
      rw [bind_of_ok hres] at h
      exact (hg a).total n r h

end Patient
end
end Traced

open Traced

/-- A walk over pieces: what fetching the piece at a position notes and yields, how far a piece
takes the walk, and whether the loop passes over it without getting nearer to its end. -/
structure Walk (ε β σ : Type) where
  fetch : ℕ → σ → List ε × Option β
  width : β → ℕ
  idle : β → Bool

namespace Walk
variable {ε ρ β σ : Type} (w : Walk ε β σ) (pending : ρ) (stall : ε)

/-- The loop that fetches a piece, works on it and moves behind it, until nothing is fetched or
the work says so. -/
def loop (body : β → σ → Traced ε ρ (σ × Bool)) : ℕ → ℕ → σ → Traced ε ρ σ
  | 0, _, _ => silent (.error pending)
  | fuel + 1, offset, s => do
    note (w.fetch offset s).1
    match (w.fetch offset s).2 with
    | none => pure s
    | some b => do
      let (s', stop) ← body b s
      if stop then pure s'
      else do
        note (if w.idle b ∧ w.width b = 0 then [stall] else [])
        loop body fuel (offset + w.width b) s'

/-- The condition of the loop rule. An idle piece leaves the walk where it is: it is fetched
again if it has no width. All other pieces lower a rank of the state. -/
structure Regular (limit : ℕ) (rank : σ → ℕ) (body : ℕ → β → σ → Traced ε ρ (σ × Bool)) :
    Prop where
  quiet : ∀ o s, stall ∉ (w.fetch o s).1
  bounded : ∀ {o s b}, (w.fetch o s).2 = some b → o < limit
  patient : ∀ b s, Patient pending stall fun n => body n b s
  persists : ∀ {o n b s s' stop}, (w.fetch o s).2 = some b → w.idle b = true →
    (body n b s).result = .ok (s', stop) → stop = false ∧ (w.fetch o s').2 = some b
  ranked : ∀ {o n b s s'}, (w.fetch o s).2 = some b → (body n b s).result = .ok (s', false) →
    rank s' ≤ rank s ∧ (w.idle b = false → rank s' < rank s)

variable {w pending stall}

section
variable {body : β → σ → Traced ε ρ (σ × Bool)} {k offset : ℕ} {s s' : σ} {b : β} {r : ρ}

lemma loop_none (hb : (w.fetch offset s).2 = none) :
    w.loop pending stall body (k + 1) offset s = ⟨(w.fetch offset s).1, .ok s⟩ := by
  rw [loop, bind_of_ok rfl, hb]
  simp

section
variable (hb : (w.fetch offset s).2 = some b)
include hb

lemma loop_error (hbody : (body b s).result = .error r) :
    w.loop pending stall body (k + 1) offset s =
      ⟨(w.fetch offset s).1 ++ (body b s).log, .error r⟩ := by
  rw [loop, bind_of_ok rfl, hb]
  dsimp only
  rw [bind_of_error hbody]
  rfl

lemma loop_stop (hbody : (body b s).result = .ok (s', true)) :
    w.loop pending stall body (k + 1) offset s =
      ⟨(w.fetch offset s).1 ++ (body b s).log, .ok s'⟩ := by
  rw [loop, bind_of_ok rfl, hb]
  dsimp only
  rw [bind_of_ok hbody]
  simp

lemma loop_next (hbody : (body b s).result = .ok (s', false)) :
    w.loop pending stall body (k + 1) offset s = ⟨(w.fetch offset s).1 ++ ((body b s).log ++
          ((if w.idle b ∧ w.width b = 0 then [stall] else []) ++
            (w.loop pending stall body k (offset + w.width b) s').log)),
        (w.loop pending stall body k (offset + w.width b) s').result⟩ := by
  rw [loop, bind_of_ok rfl, hb]
  dsimp only
  rw [bind_of_ok hbody]
  rfl

end
end

/-- The positions of the walk keep an invariant, and what is noted at them has a property. -/
lemma all_loop {P : ε → Prop} {I : ℕ → Prop} {body : β → σ → Traced ε ρ (σ × Bool)}
    (hfetch : ∀ o s, I o → ∀ e ∈ (w.fetch o s).1, P e)
    (hbody : ∀ o s b, I o → (w.fetch o s).2 = some b → All P (body b s))
    (hnext : ∀ o s b, I o → (w.fetch o s).2 = some b → I (o + w.width b))
    (hstall : ∀ o s b, I o → (w.fetch o s).2 = some b → w.width b = 0 → P stall)
    (fuel : ℕ) {offset : ℕ} (hoffset : I offset) (s : σ) :
    All P (w.loop pending stall body fuel offset s) := by
  induction fuel generalizing offset s with
  | zero => exact all_silent _
  | succ fuel ih =>
    rw [loop]
    refine all_bind (all_note (hfetch offset s hoffset)) fun _ _ => ?_
    cases hb : (w.fetch offset s).2 with
    | none => exact all_pure s
    | some b =>
      refine all_bind (hbody offset s b hoffset hb) ?_
      rintro ⟨s', stop⟩ -
      dsimp only
      split
      · exact all_pure s'
      refine all_bind (all_note ?_) fun _ _ => ih (hnext offset s b hoffset hb) _
      split
      · rename_i hwidth
        exact List.forall_mem_singleton.mpr (hstall offset s b hoffset hb hwidth.2)
      · exact List.forall_mem_nil _

namespace Regular
variable {limit : ℕ} {rank : σ → ℕ} {body : ℕ → β → σ → Traced ε ρ (σ × Bool)}

section
variable (h : w.Regular pending stall limit rank body)
include h

lemma loop_mono {n' : ℕ} (hn : n ≤ n') {k' : ℕ} (hk : k ≤ k') (offset : ℕ) (s : σ) :
    Continues pending (w.loop pending stall (body n) k offset s)
      (w.loop pending stall (body n') k' offset s) := by
  induction k generalizing k' offset s with
  | zero => exact .inl ⟨rfl, List.nil_subset _⟩
  | succ k ih =>
    obtain ⟨k', rfl⟩ : ∃ j, k' = j + 1 := ⟨k' - 1, by omega⟩
    rw [loop, loop]
    refine (Continues.refl _).bind fun _ => ?_
    cases (w.fetch offset s).2 with
    | none => exact Continues.refl _
    | some b =>
      refine ((h.patient b s).mono hn).bind ?_
      rintro ⟨s', stop⟩
      dsimp only
      split
      · exact Continues.refl _
      · exact (Continues.refl _).bind fun _ => ih (by omega) _ _

lemma loop_stuck {offset : ℕ} {b : β} (hidle : w.idle b = true) (hwidth : w.width b = 0) (k : ℕ)
    (s : σ) (hb : (w.fetch offset s).2 = some b) :
    (w.loop pending stall (body n) k offset s).result = .error pending := by
  induction k generalizing s with
  | zero => rfl
  | succ k ih =>
    cases hbody : (body n b s).result with
    | error r => rw [loop_error hb hbody, (h.patient b s).total _ _ hbody]
    | ok out =>
      obtain ⟨s', stop⟩ := out
      obtain ⟨rfl, hagain⟩ := h.persists hb hidle hbody
      rw [loop_next hb hbody, hwidth, Nat.add_zero]
      exact ih s' hagain

lemma loop_stalls (n k offset : ℕ) (s : σ)
    (hstall : stall ∈ (w.loop pending stall (body n) k offset s).log) :
    (w.loop pending stall (body n) k offset s).result = .error pending := by
  induction k generalizing offset s with
  | zero => rfl
  | succ k ih =>
    cases hb : (w.fetch offset s).2 with
    | none =>
      rw [loop_none hb] at hstall
      exact absurd hstall (h.quiet offset s)
    | some b =>
      have hquiet := h.quiet offset s
      cases hbody : (body n b s).result with
      | error r => rw [loop_error hb hbody, (h.patient b s).total _ _ hbody]
      | ok out =>
        obtain ⟨s', stop⟩ := out
        have htame : stall ∉ (body n b s).log := fun hlog => by
          have := (h.patient b s).stalls n hlog
          rw [hbody] at this
          cases this
        cases stop with
        | true =>
          rw [loop_stop hb hbody] at hstall
          simp [hquiet, htame] at hstall
        | false =>
          by_cases hstuck : w.idle b = true ∧ w.width b = 0
          · exact h.loop_stuck hstuck.1 hstuck.2 _ s hb
          · rw [loop_next hb hbody] at hstall ⊢
            refine ih _ _ ?_
            simpa [hquiet, htame, hstuck] using hstall

lemma loop_settles (offset : ℕ) (s : σ)
    (hquiet : ∀ n, stall ∉ (w.loop pending stall (body n) n offset s).log) :
    ∃ n, (w.loop pending stall (body n) n offset s).result ≠ .error pending := by
  -- every turn brings the state's rank or the rest of the walk down
  induction hm : rank s + (limit - offset) using Nat.strong_induction_on generalizing offset s with
  | _ measure ih =>
    cases hb : (w.fetch offset s).2 with
    | none =>
      refine ⟨1, ?_⟩
      rw [loop_none hb]
      exact fun hpend => nomatch hpend
    | some b =>
      have hlimit := h.bounded hb
      have hbodyQuiet : ∀ n, stall ∉ (body n b s).log := fun n hstall => by
        refine hquiet (n + 1) ?_
        rw [loop, hb]
        exact mem_log_bind.mpr (.inr ⟨(), rfl, mem_log_bind.mpr
          (.inl (((h.patient b s).mono (Nat.le_succ n)).log_subset hstall))⟩)
      obtain ⟨n, hn⟩ := (h.patient b s).settles hbodyQuiet
      cases hbody : (body n b s).result with
      | error r =>
        rw [hbody, (h.patient b s).total _ _ hbody] at hn
        exact absurd rfl hn
      | ok out =>
        obtain ⟨s', stop⟩ := out
        have hsame : ∀ k, n ≤ k → (body k b s).result = .ok (s', stop) := fun k hk => by
          rw [(h.patient b s).eq_of_done hn hk, hbody]
        cases stop with
        | true =>
          refine ⟨n + 1, ?_⟩
          rw [loop_stop hb (hsame (n + 1) (Nat.le_succ n))]
          exact fun hpend => nomatch hpend
        | false =>
          have hnext : ∀ k, n ≤ k + 1 → w.loop pending stall (body (k + 1)) (k + 1) offset s = _ :=
            fun k hk => loop_next hb (hsame (k + 1) hk)
          have hwide : ¬(w.idle b = true ∧ w.width b = 0) := fun hstuck => by
            refine hquiet (n + 1) ?_
            rw [hnext n (Nat.le_succ n)]
            simp [hstuck]
          have hrank := h.ranked hb hbody
          have hdown : rank s' + (limit - (offset + w.width b)) < measure := by
            by_cases hidle : w.idle b = true
            · have hwidth : w.width b ≠ 0 := fun hzero => hwide ⟨hidle, hzero⟩
              have := hrank.1
              omega
            · have := hrank.2 (by simpa using hidle)
              omega
          obtain ⟨k, hk⟩ := ih _ hdown (offset + w.width b) s' (fun k hstall => by
            have hmono := h.loop_mono (show k ≤ max n k + 1 by omega) (show k ≤ max n k by omega)
              (offset + w.width b) s'
            refine hquiet (max n k + 1) ?_
            rw [hnext (max n k) (by omega)]
            simp [hmono.log_subset hstall]) rfl
          refine ⟨max n k + 1, ?_⟩
          have hmono := h.loop_mono (show k ≤ max n k + 1 by omega) (show k ≤ max n k by omega)
            (offset + w.width b) s'
          rw [hnext (max n k) (by omega), ← hmono.eq_of_done hk]
          exact hk

lemma loop_total (n k offset : ℕ) (s : σ) (r : ρ)
    (hr : (w.loop pending stall (body n) k offset s).result = .error r) : r = pending := by
  induction k generalizing offset s with
  | zero =>
    cases hr
    rfl
  | succ k ih =>
    cases hb : (w.fetch offset s).2 with
    | none =>
      rw [loop_none hb] at hr
      cases hr
    | some b =>
      cases hbody : (body n b s).result with
      | error r' =>
        rw [loop_error hb hbody] at hr
        cases hr
        exact (h.patient b s).total n _ hbody
      | ok out =>
        obtain ⟨s', stop⟩ := out
        cases stop with
        | true =>
          rw [loop_stop hb hbody] at hr
          cases hr
        | false =>
          rw [loop_next hb hbody] at hr
          exact ih _ _ hr

theorem patient_loop (offset : ℕ) (s : σ) :
    Patient pending stall fun n => w.loop pending stall (body n) n offset s where
  mono hn := h.loop_mono hn hn offset s
  stalls n := h.loop_stalls n n offset s
  settles := h.loop_settles offset s
  total n := h.loop_total n n offset s

end
end Regular
end Walk
end KosKernel.FuelledRuns
