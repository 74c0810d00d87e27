import Mathlib.Order.Defs.Unbundled

/-! Programs that pass a state along and may return early with an error or, out of fuel, not
return at all; and rules for what they establish. -/
namespace KosKernel.Programs

inductive Outcome (S E A : Type)
  | running
  | ended (error : E) (state : S)
  | going (value : A) (state : S)

def Program (S E A : Type) := S → Outcome S E A

namespace Program
variable {S E A B : Type}

def bind (f : Program S E A) (g : A → Program S E B) : Program S E B := fun s =>
  match f s with
  | .running => .running
  | .ended error s' => .ended error s'
  | .going a s' => g a s'

instance : Monad (Program S E) where
  pure a := fun s => .going a s
  bind := bind

def read : Program S E S := fun s => .going s s

def modify (f : S → S) : Program S E Unit := fun s => .going () (f s)

def unfinished : Program S E A := fun _ => .running

variable {f : Program S E A} {g : A → Program S E B} {s : S}

lemma bind_going {s' : S} {a : A} (h : f s = .going a s') : (f >>= g) s = g a s' := by
  change bind f g s = g a s'
  rw [bind, h]

lemma bind_ended {s' : S} {error : E} (h : f s = .ended error s') :
    (f >>= g) s = .ended error s' := by
  change bind f g s = .ended error s'
  rw [bind, h]

lemma bind_running (h : f s = .running) : (f >>= g) s = .running := by
  change bind f g s = .running
  rw [bind, h]

end Program

/-- A return satisfies `failed`, a result `post`. -/
def Outcome.Satisfies {S E A : Type} (post : A → S → Prop) (failed : E → S → Prop) :
    Outcome S E A → Prop
  | .running => True
  | .ended error s => failed error s
  | .going a s => post a s

def Triple {S E A : Type} (pre : S → Prop) (f : Program S E A) (post : A → S → Prop)
    (failed : E → S → Prop) : Prop :=
  ∀ s, pre s → (f s).Satisfies post failed

section
variable {S E A B : Type} {pre : S → Prop} {failed : E → S → Prop}

variable {post : A → S → Prop} {f : Program S E A}

theorem triple_pure {a : A} (h : ∀ s, pre s → post a s) :
    Triple pre (pure a : Program S E A) post failed := h

theorem triple_bind {g : A → Program S E B} {mid : A → S → Prop} {post : B → S → Prop}
    (hf : Triple pre f mid failed) (hg : ∀ a, Triple (mid a) (g a) post failed) :
    Triple pre (f >>= g) post failed := by
  intro s hs
  have hfs := hf s hs
  cases hout : f s with
  | running => rw [Program.bind_running hout]; trivial
  | ended error s' =>
    rw [hout] at hfs
    rw [Program.bind_ended hout]
    exact hfs
  | going a s' =>
    rw [hout] at hfs
    rw [Program.bind_going hout]
    exact hg a s' hfs

theorem triple_ite {c : Prop} [Decidable c] {g : Program S E A} (hf : c → Triple pre f post failed)
    (hg : ¬c → Triple pre g post failed) : Triple pre (if c then f else g) post failed := by
  split
  · exact hf ‹_›
  · exact hg ‹_›

theorem triple_read {post : S → S → Prop} (h : ∀ s, pre s → post s s) :
    Triple pre (Program.read : Program S E S) post failed := h

theorem triple_modify {f : S → S} {post : Unit → S → Prop} (h : ∀ s, pre s → post () (f s)) :
    Triple pre (Program.modify f : Program S E Unit) post failed := h

theorem triple_unfinished :
    Triple pre (Program.unfinished : Program S E A) post failed := fun _ _ => trivial

theorem triple_true : Triple pre f (fun _ _ => True) fun _ _ => True := by
  intro s _
  cases f s <;> trivial

variable {post' : A → S → Prop} {failed' : E → S → Prop}

theorem triple_and (h : Triple pre f post failed) (h' : Triple (fun _ => True) f post' failed') :
    Triple pre f (fun a s => post a s ∧ post' a s) failed := by
  intro s hs
  have hfs := h s hs
  have hfs' := h' s trivial
  cases hout : f s with
  | running => trivial
  | ended error s' =>
    rw [hout] at hfs
    exact hfs
  | going a s' =>
    rw [hout] at hfs hfs'
    exact ⟨hfs, hfs'⟩

theorem triple_weaken (h : Triple pre f post failed)
    (hpost : ∀ a s, post a s → post' a s) (hfailed : ∀ e s, failed e s → failed' e s) :
    Triple pre f post' failed' := by
  intro s hs
  have hfs := h s hs
  cases hout : f s with
  | running => trivial
  | ended error s' =>
    rw [hout] at hfs
    exact hfailed _ _ hfs
  | going a s' =>
    rw [hout] at hfs
    exact hpost _ _ hfs

end

/-- Whatever the program does relates the states, and an early return ends in `stop`. -/
def Moves {S E A : Type} (R : S → S → Prop) (stop : S → Prop) (f : Program S E A) : Prop :=
  ∀ s, (f s).Satisfies (fun _ s' => R s s') (fun _ s' => R s s' ∧ stop s')

section
variable {S E A B : Type} {R : S → S → Prop} {stop : S → Prop}

theorem moves_bind [IsPreorder S R] {f : Program S E A} {g : A → Program S E B}
    (hf : Moves R stop f) (hg : ∀ a, Moves R stop (g a)) : Moves R stop (f >>= g) := by
  intro s
  have hfirst : Triple (fun s' => s' = s) f (fun _ s' => R s s') fun _ s' => R s s' ∧ stop s' := by
    rintro _ rfl
    exact hf _
  refine triple_bind hfirst (fun a s' hs' => ?_) s rfl
  have hgs := hg a s'
  cases hout : g a s' with
  | running => trivial
  | ended error t =>
    rw [hout] at hgs
    exact ⟨IsTrans.trans _ _ _ hs' hgs.1, hgs.2⟩
  | going b t =>
    rw [hout] at hgs
    exact IsTrans.trans _ _ _ hs' hgs

theorem moves_pure [IsPreorder S R] (a : A) : Moves R stop (pure a : Program S E A) :=
  fun s => Std.Refl.refl s

theorem moves_read [IsPreorder S R] : Moves R stop (Program.read : Program S E S) :=
  fun s => Std.Refl.refl s

theorem moves_modify {f : S → S} (h : ∀ s, R s (f s)) :
    Moves R stop (Program.modify f : Program S E Unit) := h

theorem moves_unfinished : Moves R stop (Program.unfinished : Program S E A) := fun _ => trivial

theorem moves_ite {c : Prop} [Decidable c] {f g : Program S E A} (hf : Moves R stop f)
    (hg : Moves R stop g) : Moves R stop (if c then f else g) := by
  split
  · exact hf
  · exact hg

variable {f : Program S E A}

theorem moves_mono {R' : S → S → Prop} {stop' : S → Prop}
    (h : Moves R stop f) (hR : ∀ s s', R s s' → R' s s') (hstop : ∀ s, stop s → stop' s) :
    Moves R' stop' f := by
  intro s
  have hfs := h s
  cases hout : f s with
  | running => trivial
  | ended error s' =>
    rw [hout] at hfs
    exact ⟨hR _ _ hfs.1, hstop _ hfs.2⟩
  | going a s' =>
    rw [hout] at hfs
    exact hR _ _ hfs

/-- A property that the relation carries on holds wherever the program gets. -/
theorem triple_of_moves {inv : S → Prop} (h : Moves R stop f)
    (hinv : ∀ s s', R s s' → inv s → inv s') :
    Triple inv f (fun _ => inv) (fun _ s => inv s ∧ stop s) := by
  intro s hs
  have hfs := h s
  cases hout : f s with
  | running => trivial
  | ended error s' =>
    rw [hout] at hfs
    exact ⟨hinv _ _ hfs.1 hs, hfs.2⟩
  | going a s' =>
    rw [hout] at hfs
    exact hinv _ _ hfs hs

end

/-- From a state, the program ends in a state with `Q` exactly if that state has it and the
condition is met. -/
def KeepsIff {S E A : Type} (Q : S → Prop) (c : Prop) (f : Program S E A) (s : S) : Prop :=
  (f s).Satisfies (fun _ s' => Q s' ↔ Q s ∧ c) fun _ s' => Q s' ↔ Q s ∧ c

variable {S E A B : Type} {Q : S → Prop} {c d : Prop} {s s' : S}

variable {f : Program S E A}

theorem keepsIff_going {a : A} (h : f s = .going a s') (hQ : Q s' ↔ Q s ∧ c) :
    KeepsIff Q c f s := by
  rw [KeepsIff, h]
  exact hQ

theorem keepsIff_ended {error : E} (h : f s = .ended error s') (hQ : Q s' ↔ Q s ∧ c) :
    KeepsIff Q c f s := by
  rw [KeepsIff, h]
  exact hQ

theorem keepsIff_running (h : f s = .running) : KeepsIff Q c f s := by
  rw [KeepsIff, h]
  trivial

/-- The condition of what follows is void after an early return. -/
theorem keepsIff_bind {g : A → Program S E B} (hf : KeepsIff Q c f s)
    (hg : ∀ a s', f s = .going a s' → KeepsIff Q d (g a) s')
    (hended : ∀ error s', f s = .ended error s' → d) : KeepsIff Q (c ∧ d) (f >>= g) s := by
  unfold KeepsIff at hf
  cases hout : f s with
  | running => exact keepsIff_running (Program.bind_running hout)
  | ended error s' =>
    rw [hout] at hf
    refine keepsIff_ended (Program.bind_ended hout) (Iff.trans hf ?_)
    simp [hended error s' hout]
  | going a s' =>
    rw [hout] at hf
    have hgs := hg a s' hout
    have hfirst : Q s' ↔ Q s ∧ c := hf
    have hcond : (Q s' ∧ d) ↔ (Q s ∧ c ∧ d) := by rw [hfirst, and_assoc]
    unfold KeepsIff at hgs ⊢
    rw [Program.bind_going hout]
    simpa only [hcond] using hgs

theorem keepsIff_step {g : A → Program S E B} {a : A} (h : f s = .going a s') (hQ : Q s' ↔ Q s ∧ c)
    (hg : KeepsIff Q d (g a) s') : KeepsIff Q (c ∧ d) (f >>= g) s := by
  refine keepsIff_bind (keepsIff_going h hQ) (fun b t hb => ?_) fun error t he => ?_
  · rw [h] at hb
    cases hb
    exact hg
  · rw [h] at he
    cases he

theorem KeepsIff.congr (h : KeepsIff Q c f s) (hc : c ↔ d) : KeepsIff Q d f s := by
  rwa [← hc]

end KosKernel.Programs
