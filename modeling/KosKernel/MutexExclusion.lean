import KosKernel.Runs
import KosKernel.MutexState

/-! Mutual exclusion. At most one thread holds the mutex, counting those that are about to
enter or have not yet released, and none does while `state` is 0. A thread that has released on
the fast path and then finds a waiter hands over what it no longer holds: that step is safe only
while nobody has taken the mutex in between. -/
namespace KosKernel.Mutex
open Function
variable {s s' : State} {t : Tid}

/-- The steps between the exchange and entering, and between unlocking and the release. -/
def Pc.holding : Pc → Bool
  | .storeOwner | .unlockState | .unlockOwner | .unlockOwnerAgain | .unlockLoad
  | .unlockClearOwner | .unlockClearState | .unlockSlow false => true
  | _ => false

def Pc.unlocking : Pc → Bool
  | .unlockState | .unlockOwner | .unlockOwnerAgain | .unlockLoad | .unlockClearOwner
  | .unlockClearState | .unlockRecheck | .unlockSlow _ => true
  | _ => false

/-- The thread has the mutex, though it may not have entered yet or be about to release it. -/
def State.Holds (s : State) (t : Tid) : Prop :=
  s.inside t = true ∨ (s.pc t).holding = true ∨ (s.pc t = .waiting ∧ s.granted t = true)

open State

/-- The thread has the mutex and `owner_tid` was set to it. -/
def State.Owns (s : State) (t : Tid) : Prop :=
  s.inside t = true ∨ (s.pc t = .waiting ∧ s.granted t = true)

lemma State.Owns.holds (h : s.Owns t) : s.Holds t := h.imp_right .inr

structure Exclusive (s : State) : Prop where
  unique : ∀ t t', s.Holds t → s.Holds t' → t = t'
  free : s.state = 0#32 → ∀ t, ¬s.Holds t
  owner : ∀ t, s.Owns t → s.ownerTid = t
  queued : ∀ t ∈ s.waitList, s.pc t = .waiting ∧ s.granted t = false
  nodup : s.waitList.Nodup
  left : ∀ t, (s.pc t).unlocking = true → s.inside t = false

lemma exclusive_init (multitasking : Bool) : Exclusive (init multitasking) := by
  constructor <;> simp [init, State.Holds, State.Owns, Pc.holding, Pc.unlocking]

section
@[simp] lemma goto_pc_same (s : State) (t : Tid) (pc : Pc) : (s.goto t pc).pc t = pc :=
  update_self ..

@[simp] lemma goto_pc_other (s : State) {t t' : Tid} (pc : Pc) (h : t' ≠ t) :
    (s.goto t pc).pc t' = s.pc t' :=
  update_of_ne h ..

lemma holds_goto_other {pc : Pc} {t' : Tid} (h : t' ≠ t) : (s.goto t pc).Holds t' ↔ s.Holds t' := by
  rw [State.Holds, goto_pc_other s pc h]
  rfl

lemma holds_goto_same {pc : Pc} (hpc : pc ≠ .waiting) :
    (s.goto t pc).Holds t ↔ s.inside t = true ∨ pc.holding = true := by
  rw [State.Holds, goto_pc_same]
  simp [hpc, goto]

lemma enter_eq (s : State) (t : Tid) :
    s.enter t = { s with inside := update s.inside t true }.goto t .idle := rfl

end

section
variable (h : Exclusive s)
include h

lemma Exclusive.not_queued (hpc : s.pc t ≠ .waiting) : t ∉ s.waitList :=
  fun hmem => hpc (h.queued t hmem).1

lemma Exclusive.queued_goto {pc : Pc} (hpc : s.pc t ≠ .waiting) :
    ∀ t' ∈ s.waitList, (s.goto t pc).pc t' = .waiting ∧ s.granted t' = false := by
  intro t' hmem
  have hne : t' ≠ t := by
    rintro rfl
    exact h.not_queued hpc hmem
  rw [goto_pc_other s pc hne]
  exact h.queued t' hmem

lemma Exclusive.owner_goto {pc : Pc} (hpc : pc ≠ .waiting) :
    ∀ t', (s.goto t pc).Owns t' → s.ownerTid = t' := by
  intro t' ht'
  apply h.owner
  obtain rfl | hne := eq_or_ne t' t
  · left
    simpa [State.Owns, goto, hpc] using ht'
  · simpa [State.Owns, goto, hne] using ht'

lemma Exclusive.left_goto {pc : Pc} (hpc : pc.unlocking = true → s.inside t = false) :
    ∀ t', ((s.goto t pc).pc t').unlocking = true → s.inside t' = false := by
  intro t' ht'
  obtain rfl | hne := eq_or_ne t' t
  · rw [goto_pc_same] at ht'
    exact hpc ht'
  · rw [goto_pc_other s pc hne] at ht'
    exact h.left t' ht'

end

/-- A move that neither takes the mutex nor starts to unlock it. -/
def Pc.Follows (old new : Pc) : Prop :=
  old ≠ .waiting ∧ new ≠ .waiting ∧ (new.holding = true → old.holding = true) ∧
    (new.unlocking = true → old.unlocking = true)

instance (old new : Pc) : Decidable (old.Follows new) := inferInstanceAs (Decidable (_ ∧ _))

lemma Exclusive.goto (h : Exclusive s) {old pc : Pc} (hpc : s.pc t = old) (hmove : old.Follows pc) :
    Exclusive (s.goto t pc) := by
  subst hpc
  obtain ⟨hold, hnew, hholding, hunlocking⟩ := hmove
  have hholds : ∀ t', (s.goto t pc).Holds t' → s.Holds t' := by
    intro t' ht'
    obtain rfl | hne := eq_or_ne t' t
    · rw [holds_goto_same hnew] at ht'
      exact ht'.imp_right fun hpc => .inl (hholding hpc)
    · exact (holds_goto_other hne).mp ht'
  exact ⟨fun t₁ t₂ h₁ h₂ => h.unique t₁ t₂ (hholds t₁ h₁) (hholds t₂ h₂),
    fun hstate t' ht' => h.free hstate t' (hholds t' ht'), h.owner_goto hnew, h.queued_goto hold,
    h.nodup, h.left_goto fun hpc => h.left t (hunlocking hpc)⟩

lemma Exclusive.branch (h : Exclusive s) {old pc₁ pc₂ : Pc} {c : Prop} [Decidable c]
    (hpc : s.pc t = old) (h₁ : old.Follows pc₁) (h₂ : old.Follows pc₂) :
    Exclusive (s.goto t (if c then pc₁ else pc₂)) := by
  split
  · exact h.goto hpc h₁
  · exact h.goto hpc h₂

lemma Exclusive.exchange (h : Exclusive s) {old failed : Pc} (hpc : s.pc t = old)
    (hfailed : old.Follows failed) : Exclusive (s.exchange t failed) := by
  rw [State.exchange]
  split
  · next hstate =>
    have hnone := h.free hstate
    have honly : ∀ t', ({ s with state := 1#32 }.goto t .storeOwner).Holds t' → t' = t := by
      intro t' ht'
      by_contra hne
      rw [holds_goto_other hne] at ht'
      exact hnone t' ht'
    refine ⟨fun t₁ t₂ h₁ h₂ => (honly t₁ h₁).trans (honly t₂ h₂).symm, ?_,
      h.owner_goto (by simp), h.queued_goto (hpc ▸ hfailed.1), h.nodup,
      h.left_goto (by simp [Pc.unlocking])⟩
    intro hzero
    cases hzero
  · exact h.goto hpc hfailed

lemma exclusive_enter (honly : ∀ t', s.Holds t' → t' = t) (howner : s.ownerTid = t)
    (hstate : s.state ≠ 0#32)
    (hqueued : ∀ t' ∈ s.waitList, t' ≠ t ∧ s.pc t' = .waiting ∧ s.granted t' = false)
    (hnodup : s.waitList.Nodup) (hleft : ∀ t', (s.pc t').unlocking = true → s.inside t' = false) :
    Exclusive (s.enter t) := by
  have hall : ∀ t', (s.enter t).Holds t' → t' = t := by
    intro t' ht'
    by_contra hne
    rw [enter_eq, holds_goto_other hne] at ht'
    apply hne
    apply honly
    simpa [State.Holds, update_of_ne hne] using ht'
  refine ⟨fun t₁ t₂ h₁ h₂ => (hall t₁ h₁).trans (hall t₂ h₂).symm, ?_, ?_, ?_, hnodup, ?_⟩
  · intro hzero
    exact absurd hzero hstate
  · intro t' ht'
    rw [hall t' ht'.holds]
    exact howner
  · intro t' hmem
    obtain ⟨hne, hqueued'⟩ := hqueued t' hmem
    rw [enter_eq, goto_pc_other _ _ hne]
    exact hqueued'
  intro t' ht'
  obtain rfl | hne := eq_or_ne t' t
  · simp [enter, Pc.unlocking] at ht'
  · simpa [enter, hne] using hleft t' (by simpa [enter, hne] using ht')

section
variable (h : Exclusive s)
include h

lemma Exclusive.store_owner (hpc : s.pc t = .storeOwner) :
    Exclusive ({ s with ownerTid := t }.enter t) := by
  have hholds : s.Holds t := .inr (.inl (by rw [hpc]; rfl))
  apply exclusive_enter
  · intro t' ht'
    exact h.unique t' t ht' hholds
  · rfl
  · intro hzero
    exact h.free hzero t hholds
  · intro t' hmem
    refine ⟨?_, h.queued t' hmem⟩
    rintro rfl
    exact h.not_queued (by simp [hpc]) hmem
  · exact h.nodup
  · exact h.left

lemma Exclusive.enqueue (hpc : s.pc t = .lockEnqueue) : Exclusive (s.enqueue t) := by
  have hnot : t ∉ s.waitList := h.not_queued (by simp [hpc])
  rw [State.enqueue]
  split
  · next hfree =>
    apply exclusive_enter
    · intro t' ht'
      exact absurd ht' (h.free hfree.1 t')
    · rfl
    · simp
    · simp [hfree.2]
    · exact h.nodup
    · exact h.left
  · have hholds : ∀ t', ({ s with
        granted := update s.granted t false
        waitList := s.waitList ++ [t]
        waitersCount := s.waitersCount + 1#32
        blocked := update s.blocked t true }.goto t .waiting).Holds t' → s.Holds t' := by
      intro t' ht'
      obtain rfl | hne := eq_or_ne t' t
      · left
        simpa [State.Holds, State.goto, Pc.holding] using ht'
      · simpa [State.Holds, State.goto, update_of_ne hne] using ht'
    refine ⟨fun t₁ t₂ h₁ h₂ => h.unique t₁ t₂ (hholds t₁ h₁) (hholds t₂ h₂),
      fun hstate t' ht' => h.free hstate t' (hholds t' ht'), ?_, ?_, ?_,
      h.left_goto (by simp [Pc.unlocking])⟩
    · intro t' ht'
      apply h.owner
      obtain rfl | hne := eq_or_ne t' t
      · left
        simpa [State.Owns, State.goto] using ht'
      · simpa [State.Owns, State.goto, hne] using ht'
    · intro t' hmem
      obtain rfl | hne := eq_or_ne t' t
      · simp [State.goto]
      · have hold : t' ∈ s.waitList := by simpa [State.goto, hne] using hmem
        simpa [State.goto, update_of_ne hne] using h.queued t' hold
    exact List.nodup_append.mpr ⟨h.nodup, List.nodup_singleton t, by
      rintro t₁ h₁ t₂ h₂ rfl
      rw [List.mem_singleton] at h₂
      exact hnot (h₂ ▸ h₁)⟩

lemma Exclusive.reclaim (hpc : s.pc t = .waiting) : Exclusive (s.reclaim t) := by
  rw [State.reclaim]
  split
  · next hfree =>
    have hnone := h.free hfree.2.1
    apply exclusive_enter
    · intro t' ht'
      by_contra hne
      apply hnone t'
      simpa [State.Holds, update_of_ne hne] using ht'
    · rfl
    · simp
    · intro t' hmem
      have hne : t' ≠ t := by
        rintro rfl
        exact h.nodup.not_mem_erase hmem
      have hold := h.queued t' (List.mem_of_mem_erase hmem)
      exact ⟨hne, hold.1, by simpa [update_of_ne hne] using hold.2⟩
    · exact h.nodup.erase t
    · exact h.left
  · split
    · next hgrant =>
      have howns : s.Owns t := .inr ⟨hpc, hgrant⟩
      apply exclusive_enter
      · intro t' ht'
        exact h.unique t' t ht' howns.holds
      · exact h.owner t howns
      · intro hzero
        exact h.free hzero t howns.holds
      · intro t' hmem
        refine ⟨?_, h.queued t' hmem⟩
        rintro rfl
        rw [(h.queued t' hmem).2] at hgrant
        cases hgrant
      · exact h.nodup
      · exact h.left
    · exact ⟨h.unique, h.free, h.owner, h.queued, h.nodup, h.left⟩

/-- Once the thread that unlocks has released the mutex, nobody holds it. -/
lemma Exclusive.released (hpc : (s.pc t).unlocking = true) (honly : ∀ t', s.Holds t' → t' = t)
    (pc : Pc) (hholding : pc.holding = false) (hnew : pc ≠ .waiting) (t' : Tid) :
    ¬(s.goto t pc).Holds t' := by
  intro ht'
  obtain rfl | hne := eq_or_ne t' t
  · simp [holds_goto_same hnew, h.left t' hpc, hholding] at ht'
  · rw [holds_goto_other hne] at ht'
    exact hne (honly t' ht')

lemma Exclusive.hand_over (hpc : (s.pc t).unlocking = true) (honly : ∀ t', s.Holds t' → t' = t) :
    Exclusive (s.handOver t) := by
  have hwaiting : s.pc t ≠ .waiting := by
    intro heq
    rw [heq] at hpc
    cases hpc
  have hgone := h.released hpc honly .idle rfl (by simp)
  rw [State.handOver]
  split
  · next hempty =>
    refine ⟨fun t₁ t₂ h₁ _ => absurd h₁ (hgone t₁), fun _ => hgone,
      fun t' ht' => absurd ht'.holds (hgone t'), ?_, h.nodup, h.left_goto (by simp [Pc.unlocking])⟩
    simp [State.goto, hempty]
  · next next rest hlist =>
    have hnext : next ∈ s.waitList := by simp [hlist]
    have hne : next ≠ t := by
      rintro rfl
      exact h.not_queued hwaiting hnext
    have hnodup := h.nodup
    rw [hlist, List.nodup_cons] at hnodup
    -- Only the waiter holds the mutex afterwards.
    have hall : ∀ t', ({ s with
        waitList := rest
        waitersCount := s.decrementWaiters
        ownerTid := next
        state := 1#32
        granted := update s.granted next true
        blocked := update s.blocked next false }.goto t .idle).Holds t' → t' = next := by
      intro t' ht'
      by_contra hother
      apply hgone t'
      simpa [State.Holds, State.goto, update_of_ne hother] using ht'
    refine ⟨fun t₁ t₂ h₁ h₂ => (hall t₁ h₁).trans (hall t₂ h₂).symm, ?_,
      fun t' ht' => (hall t' ht'.holds).symm, ?_, hnodup.2,
      h.left_goto (by simp [Pc.unlocking])⟩
    · intro hzero
      cases hzero
    intro t' hmem
    have hother : t' ≠ next := by
      rintro rfl
      exact hnodup.1 hmem
    have hold := h.queued t' (by rw [hlist]; exact List.mem_cons_of_mem _ hmem)
    have hnt : t' ≠ t := by
      rintro rfl
      exact hwaiting hold.1
    simpa [State.goto, update_of_ne hother, update_of_ne hnt] using hold

lemma Exclusive.clear_state (hpc : s.pc t = .unlockClearState) :
    Exclusive ({ s with state := 0#32 }.goto t .unlockRecheck) := by
  have hholds : s.Holds t := .inr (.inl (by rw [hpc]; rfl))
  have hgone := h.released (by rw [hpc]; rfl) (fun t' ht' => h.unique t' t ht' hholds)
    .unlockRecheck rfl (by simp)
  exact ⟨fun t₁ t₂ h₁ _ => absurd h₁ (hgone t₁), fun _ => hgone,
    fun t' ht' => absurd ht'.holds (hgone t'), h.queued_goto (by simp [hpc]), h.nodup,
    h.left_goto fun _ => h.left t (by rw [hpc]; rfl)⟩

lemma Exclusive.clear_owner (hpc : s.pc t = .unlockClearOwner) :
    Exclusive ({ s with ownerTid := 0#32 }.goto t .unlockClearState) := by
  have hholds : s.Holds t := .inr (.inl (by rw [hpc]; rfl))
  have hmoved : Exclusive (s.goto t .unlockClearState) := h.goto hpc (by decide)
  refine ⟨hmoved.unique, hmoved.free, ?_, hmoved.queued, hmoved.nodup, hmoved.left⟩
  -- Nobody else owns the mutex, and this thread is no longer inside.
  intro t' ht'
  have heq : t' = t := hmoved.unique t' t ht'.holds (.inr (.inl (by rw [goto_pc_same]; rfl)))
  subst heq
  have hleft := h.left t' (by rw [hpc]; rfl)
  simp [State.Owns, State.goto, hleft] at ht'

end

/-- The hand-over after a release on the fast path finds the mutex still free. -/
def Label.FindsFree (s : State) : Label → Prop
  | .advance t => s.pc t = .unlockSlow true → s.state = 0#32
  | _ => True

instance (s : State) : ∀ label : Label, Decidable (label.FindsFree s)
  | .advance t => inferInstanceAs (Decidable (s.pc t = .unlockSlow true → s.state = 0#32))
  | .lock _ | .tryLock _ | .unlock _ | .unblock _ | .startMultitasking =>
    inferInstanceAs (Decidable True)

lemma Exclusive.advance (h : Exclusive s) (hfree : (Label.advance t).FindsFree s) :
    Exclusive (s.advance t) := by
  rw [State.advance]
  cases hpc : s.pc t with
  | idle => exact h
  | lockLoad => exact h.branch hpc (by decide) (by decide)
  | lockCas => exact h.exchange hpc (by decide)
  | lockRecursion => exact h.branch hpc (by decide) (by decide)
  | lockBoot => exact h.branch hpc (by decide) (by decide)
  | bootCas spins =>
    cases spins with
    | zero => exact h.exchange hpc (by decide)
    | succ spins => exact h.exchange hpc (by simp [Pc.Follows, Pc.holding, Pc.unlocking])
  | lockEnqueue => exact h.enqueue hpc
  | waiting =>
    simp only
    split
    · exact h
    · exact h.reclaim hpc
  | storeOwner => exact h.store_owner hpc
  | unlockState => exact h.branch hpc (by decide) (by decide)
  | unlockOwner => exact h.branch hpc (by decide) (by decide)
  | unlockOwnerAgain => exact h.branch hpc (by decide) (by decide)
  | unlockLoad => exact h.branch hpc (by decide) (by decide)
  | unlockClearOwner => exact h.clear_owner hpc
  | unlockClearState => exact h.clear_state hpc
  | unlockRecheck => exact h.branch hpc (by decide) (by decide)
  | unlockSlow released =>
    have hunlocking : (s.pc t).unlocking = true := by rw [hpc]; rfl
    cases released with
    | false =>
      -- The thread still holds the mutex, so nobody else does.
      have hholds : s.Holds t := .inr (.inl (by rw [hpc]; rfl))
      exact h.hand_over hunlocking fun t' ht' => h.unique t' t ht' hholds
    | true => exact h.hand_over hunlocking fun t' ht' => absurd ht' (h.free (hfree hpc) t')
  | tryOwner => exact h.branch hpc (by decide) (by decide)
  | tryLoad => exact h.branch hpc (by decide) (by decide)
  | tryCas => exact h.exchange hpc (by decide)

lemma Exclusive.unlock (h : Exclusive s) (hpc : s.pc t = .idle) (hinside : s.inside t = true) :
    Exclusive ({ s with inside := update s.inside t false }.goto t .unlockState) := by
  have hholds : s.Holds t := .inl hinside
  have hsame : ∀ t', ({ s with inside := update s.inside t false }.goto t
      .unlockState).Holds t' → s.Holds t' := by
    intro t' ht'
    obtain rfl | hne := eq_or_ne t' t
    · exact hholds
    · simpa [State.Holds, State.goto, hne] using ht'
  refine ⟨fun t₁ t₂ h₁ h₂ => h.unique t₁ t₂ (hsame t₁ h₁) (hsame t₂ h₂),
    fun hstate t' ht' => h.free hstate t' (hsame t' ht'), ?_, h.queued_goto (by simp [hpc]),
    h.nodup, ?_⟩
  · intro t' ht'
    apply h.owner
    obtain rfl | hne := eq_or_ne t' t
    · exact .inl hinside
    · simpa [State.Owns, State.goto, hne] using ht'
  intro t' ht'
  obtain rfl | hne := eq_or_ne t' t
  · simp [State.goto]
  · simpa [State.goto, hne] using h.left t' (by simpa [State.goto, hne] using ht')

lemma Exclusive.step (h : Exclusive s) (label : Label) (hfree : label.FindsFree s) :
    Exclusive (s.step label) := by
  cases label with
  | lock t =>
    rw [State.step]
    split
    · next hpc => exact h.goto hpc (by decide)
    · exact h
  | tryLock t =>
    rw [State.step]
    split
    · next hpc => exact h.goto hpc (by decide)
    · exact h
  | unlock t =>
    rw [State.step]
    split
    · next hpc => exact h.unlock hpc.1 hpc.2
    · exact h
  | advance t => exact h.advance hfree
  | unblock t => exact ⟨h.unique, h.free, h.owner, h.queued, h.nodup, h.left⟩
  | startMultitasking => exact ⟨h.unique, h.free, h.owner, h.queued, h.nodup, h.left⟩

/-- In every run in which an unlock that has released finds the mutex free when it hands over,
one thread at most is inside and `owner_tid` names it. -/
theorem mutual_exclusion (multitasking : Bool) (labels : List Label)
    (hfree : Runs.Along State.step (fun s label => label.FindsFree s) (init multitasking) labels) :
    let s := Runs.run State.step (init multitasking) labels
    (∀ t t', s.inside t = true → s.inside t' = true → t = t') ∧
      ∀ t, s.inside t = true → s.ownerTid = t := by
  intro s
  have hs : Exclusive s := Runs.run_invariant (fun s label h hlabel => h.step label hlabel)
    (exclusive_init multitasking) labels hfree
  exact ⟨fun t t' ht ht' => hs.unique t t' (.inl ht) (.inl ht'), fun t ht => hs.owner t (.inl ht)⟩

/-- The steps of three threads: the first unlocks on the fast path while the second queues, the
third takes the free mutex, and the first then hands it over to the second. -/
def lateHandOver : List Label :=
  [.lock 1, .advance 1, .advance 1, .advance 1,
    .lock 3, .advance 3,
    .lock 2, .advance 2, .advance 2, .advance 2, .advance 2,
    .unlock 1, .advance 1, .advance 1, .advance 1,
    .advance 2,
    .advance 1, .advance 1, .advance 1,
    .advance 3, .advance 3,
    .advance 1,
    .advance 2]

def queuedHandOver : List Label := lateHandOver.filter fun label => label ∉ [.lock 3, .advance 3]

theorem mutual_exclusion_queued :
    let s := Runs.run State.step (init true) queuedHandOver
    s.inside 2 = true ∧ s.ownerTid = 2 := by
  have hfree : Runs.Along step (fun s label => label.FindsFree s) (init true)
      queuedHandOver := by decide +kernel
  have hinside : (Runs.run step (init true) queuedHandOver).inside 2 = true := by decide +kernel
  exact ⟨hinside, (mutual_exclusion true queuedHandOver hfree).2 2 hinside⟩

theorem late_hand_over_admits_two :
    let s := Runs.run State.step (init true) lateHandOver
    s.inside 2 = true ∧ s.inside 3 = true := by
  decide +kernel

end KosKernel.Mutex
