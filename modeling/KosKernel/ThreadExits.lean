import KosKernel.ProcessRoots

/-! How threads end, on one processor: `thread_exit` statement by statement with interrupts enabled
between them, `process_exit`, `process_destroy` and the reaper. A thread that waits has an entry on
its stack that is linked in a wait queue or in the wait list of a mutex. -/
namespace KosKernel.Processes.Threads
open Function Runs

inductive ThreadState
  | unused | runnable | running | blocked | zombie | dead
  deriving DecidableEq

def ThreadState.ended : ThreadState → Bool
  | .unused | .zombie | .dead => true
  | _ => false

inductive Stage
  | outside | stored | marked | queued
  deriving DecidableEq

/-- `taken`: the reaper has the thread. `freed`: its stack is gone. -/
structure State (ι π : Type*) where
  current : ι
  stage : Stage
  threads : ι → ThreadState
  queued : ι → Bool
  taken : ι → Bool
  freed : ι → Bool
  linked : ι → Bool
  processes : π → ProcessState

inductive Event (ι π : Type*)
  | store | mark | enqueue
  /-- `schedule`, called or from a tick -/
  | switch (next : ι)
  | wait | leave
  | wake (t : ι)
  | timeout (t : ι)
  | exit (p : π)
  | destroy (p : π)
  | take (t : ι)
  | reap (t : ι)

variable {ι π : Type*} [DecidableEq ι] [DecidableEq π] (process : ι → π) (user : π → Bool)

/-- A thread of the process that `process_exit` makes a zombie. -/
def Killed (s : State ι π) (p : π) (t : ι) : Prop :=
  process t = p ∧ t ≠ s.current ∧ (s.threads t).ended = false

def Destroyed (s : State ι π) (p : π) (t : ι) : Prop :=
  process t = p ∧ t ≠ s.current ∧ s.threads t ≠ .unused

instance (s : State ι π) (p : π) (t : ι) : Decidable (Killed process s p t) :=
  inferInstanceAs (Decidable (_ ∧ _))

instance (s : State ι π) (p : π) (t : ι) : Decidable (Destroyed process s p t) :=
  inferInstanceAs (Decidable (_ ∧ _))

/-- The running thread is neither in `thread_exit` nor in a function that waits. -/
def State.Free (s : State ι π) : Prop :=
  s.stage = .outside ∧ s.threads s.current = .running ∧ s.linked s.current = false

instance (s : State ι π) : Decidable s.Free := inferInstanceAs (Decidable (_ ∧ _))

def unblocked (threads : ι → ThreadState) (t : ι) : ι → ThreadState :=
  update threads t (if threads t = .blocked then .runnable else threads t)

/-- The reschedule that waking the waiters of the process forces behind `mark` is left to `switch`. -/
def step (s : State ι π) : Event ι π → State ι π
  | .store =>
    if s.Free then { s with threads := update s.threads s.current .zombie, stage := .stored } else s
  | .mark =>
    if s.stage = .stored then
      { s with
        stage := .marked
        processes := update s.processes (process s.current)
          (if user (process s.current) = true ∧ s.processes (process s.current) = .active then .zombie
          else s.processes (process s.current)) }
    else s
  | .enqueue =>
    if s.stage = .marked then { s with stage := .queued, queued := update s.queued s.current true }
    else s
  | .switch next =>
    if s.threads next = .runnable then
      { s with
        current := next
        stage := .outside
        threads := update (update s.threads s.current (if s.threads s.current = .running then
          .runnable else s.threads s.current)) next .running }
    else s
  | .wait =>
    if s.stage = .outside ∧ s.threads s.current = .running then
      { s with
        threads := update s.threads s.current .blocked
        linked := update s.linked s.current true }
    else s
  | .leave =>
    if s.threads s.current = .running then { s with linked := update s.linked s.current false }
    else s
  | .wake t => { s with threads := unblocked s.threads t, linked := update s.linked t false }
  | .timeout t => { s with threads := unblocked s.threads t }
  | .exit p =>
    if s.Free ∧ user p = true ∧ s.processes p = .active then
      { s with
        processes := update s.processes p .zombie
        threads := fun t => if Killed process s p t then .zombie else s.threads t
        queued := fun t => s.queued t || Killed process s p t }
    else s
  | .destroy p =>
    if s.Free ∧ user p = true then
      { s with
        processes := update s.processes p .dead
        threads := fun t => if Destroyed process s p t then .unused else s.threads t
        queued := fun t => s.queued t && !Destroyed process s p t
        freed := fun t => s.freed t || Destroyed process s p t }
    else s
  | .take t =>
    if s.queued t then { s with queued := update s.queued t false, taken := update s.taken t true }
    else s
  | .reap t =>
    if s.taken t = true ∧ s.threads t = .zombie then
      { s with threads := update s.threads t .dead, freed := update s.freed t true }
    else s

/-- The thread is in the hands of the reaper, and its process knows that it ends. -/
def Settled (s : State ι π) (t : ι) : Prop :=
  (s.queued t = true ∨ s.taken t = true) ∧
    (user (process t) = true → s.processes (process t) ≠ .active)

def Reaped (s : State ι π) : Prop :=
  ∀ t, t ≠ s.current → s.threads t = .zombie → Settled process user s t

/-- A thread is not switched away from while it is a zombie that is not yet in the queue. -/
def Uninterrupted (s : State ι π) : Event ι π → Prop
  | .switch _ => s.stage ≠ .stored ∧ s.stage ≠ .marked
  | _ => True

structure Fresh (s : State ι π) : Prop where
  stage : s.stage = .outside
  zombie : ∀ t, s.threads t ≠ .zombie
  linked : ∀ t, s.linked t = false
  freed : ∀ t, s.freed t = false

/-- What holds of a zombie at each stage of `thread_exit`. -/
def Accounted (s : State ι π) (t : ι) : Prop :=
  Settled process user s t ∨ t = s.current ∧ (s.stage = .stored ∨ s.stage = .marked ∧
    (user (process t) = true → s.processes (process t) ≠ .active))

section
variable {process user} {s s' : State ι π} {t : ι}

lemma Settled.mono (h : Settled process user s t)
    (hheld : s.queued t = true ∨ s.taken t = true → s'.queued t = true ∨ s'.taken t = true)
    (hprocess : s.processes (process t) ≠ .active → s'.processes (process t) ≠ .active) :
    Settled process user s' t :=
  ⟨hheld h.1, fun huser => hprocess (h.2 huser)⟩

lemma Accounted.mono (h : Accounted process user s t) (hcurrent : s'.current = s.current)
    (hstage : s'.stage = s.stage)
    (hheld : s.queued t = true ∨ s.taken t = true → s'.queued t = true ∨ s'.taken t = true)
    (hprocess : s.processes (process t) ≠ .active → s'.processes (process t) ≠ .active) :
    Accounted process user s' t := by
  rcases h with h | ⟨ht, hstored | ⟨hmarked, huser⟩⟩
  · exact .inl (h.mono hheld hprocess)
  · exact .inr ⟨ht.trans hcurrent.symm, .inl (hstage.trans hstored)⟩
  · exact .inr ⟨ht.trans hcurrent.symm, .inr ⟨hstage.trans hmarked, fun h => hprocess (huser h)⟩⟩

lemma Accounted.settled (h : Accounted process user s t)
    (hstage : s.stage ≠ .stored ∧ s.stage ≠ .marked) : Settled process user s t :=
  h.resolve_right fun hcurrent => hcurrent.2.elim hstage.1 fun hmarked => hstage.2 hmarked.1

omit [DecidableEq π] in
lemma State.Free.stage (h : s.Free) : s.stage ≠ .stored ∧ s.stage ≠ .marked := by
  rw [h.1]
  decide

omit [DecidableEq π] in
lemma unblocked_zombie {u : ι} (h : unblocked s.threads u t = .zombie) : s.threads t = .zombie := by
  unfold unblocked at h
  rcases eq_or_ne t u with rfl | hne
  · rw [update_self] at h
    split_ifs at h
    exact h
  · rwa [update_of_ne hne] at h

end

lemma accounted_step {s : State ι π} {event : Event ι π} (hcond : Uninterrupted s event)
    (h : ∀ t, s.threads t = .zombie → Accounted process user s t) (t : ι)
    (ht : (step process user s event).threads t = .zombie) :
    Accounted process user (step process user s event) t := by
  cases event with
  | store =>
    simp only [step] at ht ⊢
    split_ifs at ht ⊢ with hfree
    · dsimp only at ht
      rcases eq_or_ne t s.current with rfl | hne
      · exact .inr ⟨rfl, .inl rfl⟩
      · rw [update_of_ne hne] at ht
        exact .inl (((h t ht).settled hfree.stage).mono id id)
    · exact h t ht
  | mark =>
    by_cases hstored : s.stage = .stored
    · simp only [step, if_pos hstored] at ht ⊢
      have hkept : s.processes (process t) ≠ .active → update s.processes (process s.current)
          (if user (process s.current) = true ∧ s.processes (process s.current) = .active then
            .zombie else s.processes (process s.current)) (process t) ≠ .active := by
        intro hended
        rcases eq_or_ne (process t) (process s.current) with heq | hne
        · rw [heq] at hended ⊢
          rw [update_self, if_neg fun hactive => hended hactive.2]
          exact hended
        · rwa [update_of_ne hne]
      rcases h t ht with hsettled | ⟨rfl, -⟩
      · exact .inl (hsettled.mono id hkept)
      -- the thread that ends: its process is marked now
      · refine .inr ⟨rfl, .inr ⟨rfl, fun huser => ?_⟩⟩
        by_cases hactive : s.processes (process s.current) = .active
        · dsimp only
          rw [update_self, if_pos ⟨huser, hactive⟩]
          decide
        · exact hkept hactive
    · simp only [step, if_neg hstored] at ht ⊢
      exact h t ht
  | enqueue =>
    simp only [step] at ht ⊢
    split_ifs at ht ⊢ with hmarked
    · have hheld : s.queued t = true ∨ s.taken t = true →
          update s.queued s.current true t = true ∨ s.taken t = true := by
        rintro (hqueued | htaken)
        · refine .inl ?_
          rcases eq_or_ne t s.current with rfl | hne
          · exact update_self ..
          · rwa [update_of_ne hne]
        · exact .inr htaken
      rcases h t ht with hsettled | ⟨rfl, hstored | ⟨-, huser⟩⟩
      · exact .inl (hsettled.mono hheld id)
      · rw [hmarked] at hstored
        cases hstored
      · exact .inl ⟨.inl (update_self ..), huser⟩
    · exact h t ht
  | switch next =>
    by_cases hrunnable : s.threads next = .runnable
    · simp only [step, if_pos hrunnable] at ht ⊢
      have hzombie : s.threads t = .zombie := by
        rcases eq_or_ne t next with rfl | hnext
        · rw [update_self] at ht
          cases ht
        rw [update_of_ne hnext] at ht
        rcases eq_or_ne t s.current with rfl | hne
        · rw [update_self] at ht
          split_ifs at ht
          exact ht
        · rwa [update_of_ne hne] at ht
      exact .inl (((h t hzombie).settled hcond).mono id id)
    · simp only [step, if_neg hrunnable] at ht ⊢
      exact h t ht
  | wait =>
    simp only [step] at ht ⊢
    split_ifs at ht ⊢
    · dsimp only at ht
      rcases eq_or_ne t s.current with rfl | hne
      · rw [update_self] at ht
        cases ht
      · rw [update_of_ne hne] at ht
        exact (h t ht).mono rfl rfl id id
    · exact h t ht
  | leave =>
    simp only [step] at ht ⊢
    split_ifs at ht ⊢
    · exact (h t ht).mono rfl rfl id id
    · exact h t ht
  | wake u => exact (h t (unblocked_zombie ht)).mono rfl rfl id id
  | timeout u => exact (h t (unblocked_zombie ht)).mono rfl rfl id id
  | exit p =>
    simp only [step] at ht ⊢
    split_ifs at ht ⊢ with hexit
    · have hprocess : s.processes (process t) ≠ .active →
          update s.processes p .zombie (process t) ≠ .active := by
        intro hended
        rcases eq_or_ne (process t) p with heq | hne
        · rw [heq, update_self]
          decide
        · rwa [update_of_ne hne]
      dsimp only at ht
      split_ifs at ht with hkilled
      -- a thread killed here is queued, and its process is the one marked
      · refine .inl ⟨.inl (by simp [hkilled]), fun _ => ?_⟩
        dsimp only
        rw [hkilled.1, update_self]
        decide
      · refine .inl (((h t ht).settled hexit.1.stage).mono (fun hheld => ?_) hprocess)
        simpa [hkilled] using hheld
    · exact h t ht
  | destroy p =>
    simp only [step] at ht ⊢
    split_ifs at ht ⊢ with hdestroy
    · dsimp only at ht
      split_ifs at ht with hdestroyed
      refine .inl (((h t ht).settled hdestroy.1.stage).mono (fun hheld => ?_) fun hended => ?_)
      · simpa [hdestroyed] using hheld
      · dsimp only
        rcases eq_or_ne (process t) p with heq | hne
        · rw [heq, update_self]
          decide
        · rwa [update_of_ne hne]
    · exact h t ht
  | take u =>
    simp only [step] at ht ⊢
    split_ifs at ht ⊢ with hqueued
    · refine (h t ht).mono rfl rfl (fun hheld => ?_) id
      rcases eq_or_ne t u with rfl | hne
      · exact .inr (update_self ..)
      · dsimp only
        rwa [update_of_ne hne, update_of_ne hne]
    · exact h t ht
  | reap u =>
    simp only [step] at ht ⊢
    split_ifs at ht ⊢
    · dsimp only at ht
      rcases eq_or_ne t u with rfl | hne
      · rw [update_self] at ht
        cases ht
      · rw [update_of_ne hne] at ht
        exact (h t ht).mono rfl rfl id id
    · exact h t ht

/-- In every run in which no thread is switched away from between its end and its entry in the
reaper's queue, zombies are reaped. -/
theorem run_reaped_of_uninterrupted {s : State ι π} (hs : Fresh s) (events : List (Event ι π))
    (hrun : Along (step process user) Uninterrupted s events) :
    Reaped process user (run (step process user) s events) := by
  have hkept : ∀ t, (run (step process user) s events).threads t = .zombie →
      Accounted process user (run (step process user) s events) t :=
    @run_invariant _ _ _ _ (fun s => ∀ t, s.threads t = .zombie → Accounted process user s t)
      (fun s event hinv hcond => accounted_step process user hcond hinv) _
      (fun t ht => absurd ht (hs.zombie t)) events hrun
  exact fun t hne ht => (hkept t ht).resolve_right fun hcurrent => hne hcurrent.1

/-- Thread 0 of the only user process runs, thread 1 is ready. -/
def sampleThreads : State (Fin 2) (Fin 1) :=
  ⟨0, .outside, fun t => if t = 0 then .running else .runnable, fun _ => false, fun _ => false,
    fun _ => false, fun _ => false, fun _ => .active⟩

abbrev sampleStep : State (Fin 2) (Fin 1) → Event (Fin 2) (Fin 1) → State (Fin 2) (Fin 1) :=
  step (fun _ => 0) fun _ => true

lemma fresh_sampleThreads : Fresh sampleThreads := by
  constructor <;> decide

/-- Its process is marked already, so that `thread_exit` has nobody to wake. -/
def endedThreads : State (Fin 2) (Fin 1) := { sampleThreads with processes := fun _ => .zombie }

theorem run_reaped_sample :
    (run sampleStep endedThreads [.store, .mark, .enqueue, .switch 1]).threads 0 = .zombie ∧
      Reaped (fun _ => 0) (fun _ => true)
        (run sampleStep endedThreads [.store, .mark, .enqueue, .switch 1]) :=
  ⟨rfl, run_reaped_of_uninterrupted _ _ (by constructor <;> decide) _
    ⟨trivial, trivial, trivial, ⟨by decide, by decide⟩, trivial⟩⟩

/-- A tick right after the thread has become a zombie leaves it where nobody reaps it. -/
theorem interrupted_exit_is_lost : ¬Reaped (fun _ => 0) (fun _ => true)
    (run sampleStep sampleThreads [.store, .switch 1]) := by
  unfold Reaped Settled
  decide

/-- The threads that wait are alive, and so are their stacks, on which their entries are. -/
def Alive (s : State ι π) (t : ι) : Prop :=
  s.linked t = true → (s.threads t).ended = false ∧ s.freed t = false

/-- No thread is killed or freed while it waits. -/
def Unlinked (s : State ι π) : Event ι π → Prop
  | .exit p => s.Free → user p = true → s.processes p = .active →
      ∀ t, Killed process s p t → s.linked t = false
  | .destroy p => s.Free → user p = true → ∀ t, Destroyed process s p t → s.linked t = false
  | _ => True

/-- A thread that has not ended has its stack. -/
def Stacked (s : State ι π) (t : ι) : Prop := (s.threads t).ended = false → s.freed t = false

section
variable {s : State ι π} {t : ι}

omit [DecidableEq π] in
lemma unblocked_ended (threads : ι → ThreadState) (u : ι) :
    (unblocked threads u t).ended = (threads t).ended := by
  unfold unblocked
  rcases eq_or_ne t u with rfl | hne
  · rw [update_self]
    split_ifs with hblocked
    · rw [hblocked]
      rfl
    · rfl
  · rw [update_of_ne hne]

end

lemma alive_step {s : State ι π} {event : Event ι π} (hcond : Unlinked process user s event)
    (h : ∀ t, Alive s t ∧ Stacked s t) (t : ι) :
    Alive (step process user s event) t ∧ Stacked (step process user s event) t := by
  obtain ⟨halive, hstacked⟩ := h t
  cases event with
  | store =>
    simp only [step]
    split_ifs with hfree
    · -- the thread that ends does not wait
      rcases eq_or_ne t s.current with rfl | hne
      · exact ⟨fun hlinked => absurd hlinked (by simp [hfree.2.2]),
          fun hended => absurd hended (by simp [ThreadState.ended])⟩
      · simp only [Alive, Stacked, update_of_ne hne]
        exact ⟨halive, hstacked⟩
    · exact h t
  | mark =>
    simp only [step]
    split_ifs
    all_goals exact ⟨halive, hstacked⟩
  | enqueue =>
    simp only [step]
    split_ifs
    all_goals exact ⟨halive, hstacked⟩
  | switch next =>
    by_cases hrunnable : s.threads next = .runnable
    · simp only [step, if_pos hrunnable]
      have hended : (update (update s.threads s.current (if s.threads s.current = .running then
          .runnable else s.threads s.current)) next .running t).ended = (s.threads t).ended := by
        rcases eq_or_ne t next with rfl | hnext
        · rw [update_self, hrunnable]
          rfl
        rw [update_of_ne hnext]
        rcases eq_or_ne t s.current with rfl | hne
        · rw [update_self]
          split_ifs with hrunning
          · rw [hrunning]
            rfl
          · rfl
        · rw [update_of_ne hne]
      simp only [Alive, Stacked, hended]
      exact ⟨halive, hstacked⟩
    · simp only [step, if_neg hrunnable]
      exact h t
  | wait =>
    by_cases hrunning : s.stage = .outside ∧ s.threads s.current = .running
    · simp only [step, if_pos hrunning]
      rcases eq_or_ne t s.current with rfl | hne
      · have hstack : s.freed s.current = false := hstacked (by rw [hrunning.2]; rfl)
        simp only [Alive, Stacked, update_self]
        exact ⟨fun _ => ⟨rfl, hstack⟩, fun _ => hstack⟩
      · simp only [Alive, Stacked, update_of_ne hne]
        exact ⟨halive, hstacked⟩
    · simp only [step, if_neg hrunning]
      exact h t
  | leave =>
    simp only [step]
    split_ifs
    · refine ⟨fun hlinked => ?_, hstacked⟩
      rcases eq_or_ne t s.current with rfl | hne
      · exact absurd hlinked (by simp)
      · dsimp only at hlinked
        rw [update_of_ne hne] at hlinked
        exact halive hlinked
    · exact h t
  | wake u =>
    simp only [step, Alive, Stacked, unblocked_ended]
    refine ⟨fun hlinked => ?_, hstacked⟩
    rcases eq_or_ne t u with rfl | hne
    · exact absurd hlinked (by simp)
    · rw [update_of_ne hne] at hlinked
      exact halive hlinked
  | timeout u =>
    simp only [step, Alive, Stacked, unblocked_ended]
    exact ⟨halive, hstacked⟩
  | exit p =>
    by_cases hexit : s.Free ∧ user p = true ∧ s.processes p = .active
    · simp only [step, if_pos hexit, Alive, Stacked]
      by_cases hkilled : Killed process s p t
      · have hlinked := hcond hexit.1 hexit.2.1 hexit.2.2 t hkilled
        simp only [if_pos hkilled]
        exact ⟨fun h => absurd h (by simp [hlinked]), fun h => absurd h (by simp [ThreadState.ended])⟩
      · simp only [if_neg hkilled]
        exact ⟨halive, hstacked⟩
    · simp only [step, if_neg hexit]
      exact h t
  | destroy p =>
    by_cases hdestroy : s.Free ∧ user p = true
    · simp only [step, if_pos hdestroy, Alive, Stacked]
      by_cases hdestroyed : Destroyed process s p t
      · have hlinked := hcond hdestroy.1 hdestroy.2 t hdestroyed
        simp only [if_pos hdestroyed]
        exact ⟨fun h => absurd h (by simp [hlinked]), fun h => absurd h (by simp [ThreadState.ended])⟩
      · simp only [if_neg hdestroyed, hdestroyed, decide_false, Bool.or_false]
        exact ⟨halive, hstacked⟩
    · simp only [step, if_neg hdestroy]
      exact h t
  | take u =>
    simp only [step]
    split_ifs
    all_goals exact ⟨halive, hstacked⟩
  | reap u =>
    by_cases hzombie : s.taken u = true ∧ s.threads u = .zombie
    · simp only [step, if_pos hzombie]
      rcases eq_or_ne t u with rfl | hne
      · -- a zombie does not wait
        have hlinked : s.linked t ≠ true := fun hlinked => by
          have := (halive hlinked).1
          rw [hzombie.2] at this
          cases this
        simp only [Alive, Stacked, update_self]
        exact ⟨fun h => absurd h hlinked, fun h => absurd h (by simp [ThreadState.ended])⟩
      · simp only [Alive, Stacked, update_of_ne hne]
        exact ⟨halive, hstacked⟩
    · simp only [step, if_neg hzombie]
      exact h t

theorem run_alive_of_unlinked {s : State ι π} (hs : Fresh s) (events : List (Event ι π))
    (hrun : Along (step process user) (Unlinked process user) s events) (t : ι) :
    Alive (run (step process user) s events) t :=
  (@run_invariant _ _ _ _
    (fun s => ∀ t, Alive s t ∧ Stacked s t)
    (fun _ _ hinv hcond => alive_step process user hcond hinv) _
    (fun t => ⟨fun ht => absurd ht (by simp [hs.linked]), fun _ => hs.freed t⟩) events hrun t).1

theorem run_alive_sample :
    Alive (run sampleStep sampleThreads [.wait, .switch 1, .wake 0, .exit 0]) 0 :=
  run_alive_of_unlinked _ _ fresh_sampleThreads [.wait, .switch 1, .wake 0, .exit 0]
    ⟨trivial, trivial, trivial, fun _ _ _ t _ => by revert t; decide, trivial⟩ 0

/-- The end of a process makes a zombie of a thread that waits; its entry stays linked. -/
theorem killed_waiter_stays_linked :
    ¬Alive (run sampleStep sampleThreads [.wait, .switch 1, .exit 0]) 0 := by
  unfold Alive
  decide

end KosKernel.Processes.Threads
