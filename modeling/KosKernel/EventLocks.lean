import KosKernel.WaitEvents

/-! The two locks of an event. A call of `event_wait` evaluates the condition, which takes the lock
of the event, under the lock of the queue; a call of `event_signal` wakes, which takes the lock of
the queue, under the lock of the event. A wait may have a timeout. -/
namespace KosKernel.Wait
open EventSystem Function Runs
variable {T K : Type*} [DecidableEq T]

/-- A wait with a timeout, as in `wait_event_timeout`, finds the time over: before it blocks or spins
if the timeout is zero, while it spins, or in the section that blocks, which it then leaves as if
the condition were true. The timer that ends its sleep is the label `unblock`. -/
def State.expire {E : Type*} (s : State T K E) (t : T) : State T K E :=
  match s.pc t with
  | .active | .spin => s.goto t .outside
  | .enqueue => s.goto t .remove
  | _ => s

inductive TimedLabel (T K : Type*) where
  | event (label : EventLabel T K)
  | expire (t : T)

def timedStep [DecidableEq K] (x : EventSystem T K) : TimedLabel T K → EventSystem T K
  | .event label => x.step label
  | .expire t => { x with base := x.base.expire t }

/-- A waiter has the lock of the queue and spins for that of the event, and a signal the other way
round. -/
def Deadlocked (x : EventSystem T K) : Prop :=
  ∃ t k, x.base.lock = some (.inl t) ∧ x.base.pc t = .check ∧
    x.base.env.lock = some k ∧ x.signal k = .acquireQueue

/-- The step takes one of the locks while a call that has the other one is about to take it. -/
def Crosses (x : EventSystem T K) : TimedLabel T K → Prop
  | .event (.waiter (.advance t)) => x.base.pc t = .acquire ∧ x.base.lock = none ∧
      ∃ k, x.base.env.lock = some k ∧ x.signal k = .acquireQueue
  | .event (.advanceSignal k) => x.signal k = .acquireEvent ∧ x.base.env.lock = none ∧
      ∃ t, x.base.lock = some (.inl t) ∧ x.base.pc t = .check
  | _ => False

lemma goto_pc {E : Type*} (s : State T K E) (t u : T) (pc : Pc) :
    (s.goto t pc).pc u = if u = t then pc else s.pc u := update_apply ..

lemma unblock_locks {E : Type*} (s : State T K E) (t : T) :
    (s.unblock t).lock = s.lock ∧ (s.unblock t).env = s.env ∧ (s.unblock t).pc = s.pc := by
  unfold State.unblock
  split <;> exact ⟨rfl, rfl, rfl⟩

/-- A waiter comes to the condition with the lock of the queue only by taking that lock. -/
lemma advance_toward {s : State T K (Event K)} {t t' : T}
    (hlock : (s.advance t' eventCheckCondition).lock = some (.inl t))
    (hpc : (s.advance t' eventCheckCondition).pc t = .check) :
    (s.advance t' eventCheckCondition).env.lock = s.env.lock ∧
      (s.lock = some (.inl t) ∧ s.pc t = .check ∨ t' = t ∧ s.pc t = .acquire ∧ s.lock = none) := by
  cases hat : s.pc t' <;> simp only [State.advance, hat] at hlock hpc ⊢ <;>
    grind [State.goto, goto_pc, State.acquire, State.setTask, State.evaluate, eventCheckCondition]

variable {x : EventSystem T K}

lemma waiter_keeps {label : Label T} (hlabel : ∀ t, label ≠ .advance t)
    (h : Deadlocked (x.waiterStep label)) : Deadlocked x := by
  obtain ⟨t, k, hlock, hpc, hevent, hsignal⟩ := h
  refine ⟨t, k, ?_⟩
  cases label <;> simp only [waiterStep, State.step] at hlock hpc hevent hsignal <;>
    grind [State.goto, goto_pc, State.setTask, unblock_locks]

variable [DecidableEq K]

omit [DecidableEq T] in
lemma gotoSignal_signal (x : EventSystem T K) (k k' : K) (pc : SignalPc T) :
    (x.gotoSignal k pc).signal k' = if k' = k then pc else x.signal k' := update_apply ..

lemma signal_toward {t : T} {k k' : K} (hlock : (x.advanceSignal k').base.lock = some (.inl t))
    (hpc : (x.advanceSignal k').base.pc t = .check)
    (hevent : (x.advanceSignal k').base.env.lock = some k)
    (hsignal : (x.advanceSignal k').signal k = .acquireQueue) :
    x.base.lock = some (.inl t) ∧ x.base.pc t = .check ∧
      (x.base.env.lock = some k ∧ x.signal k = .acquireQueue ∨
        k' = k ∧ x.signal k = .acquireEvent ∧ x.base.env.lock = none) := by
  cases hat : x.signal k' <;>
    simp only [advanceSignal, hat] at hlock hpc hevent hsignal <;>
    grind [gotoSignal, gotoSignal_signal, unblock_locks]

omit [DecidableEq K] in
lemma expire_keeps {t : T} (h : Deadlocked { x with base := x.base.expire t }) : Deadlocked x := by
  obtain ⟨u, k, hlock, hpc, hevent, hsignal⟩ := h
  have hframe : (x.base.expire t).lock = x.base.lock ∧ (x.base.expire t).env = x.base.env := by
    unfold State.expire
    split <;> exact ⟨rfl, rfl⟩
  have hcheck : x.base.pc u = .check := by
    dsimp only at hpc
    unfold State.expire at hpc
    split at hpc
    · rw [goto_pc] at hpc
      split at hpc
      · cases hpc
      · exact hpc
    · rw [goto_pc] at hpc
      split at hpc
      · cases hpc
      · exact hpc
    · rw [goto_pc] at hpc
      split at hpc
      · cases hpc
      · exact hpc
    · exact hpc
  exact ⟨u, k, hframe.1 ▸ hlock, hcheck, hframe.2 ▸ hevent, hsignal⟩

/-- A step leads into a deadlock exactly if it crosses. -/
lemma deadlocked_step_iff (hx : ¬Deadlocked x) (label : EventLabel T K) :
    Deadlocked (x.step label) ↔ Crosses x (.event label) := by
  constructor
  · intro h
    cases label with
    | waiter label =>
      by_cases hadvance : ∃ t, label = .advance t
      · obtain ⟨t', rfl⟩ := hadvance
        obtain ⟨t, k, hlock, hpc, hevent, hsignal⟩ := h
        obtain ⟨hsame, hfrom⟩ := advance_toward hlock hpc
        have hevent' : x.base.env.lock = some k := hsame.symm.trans hevent
        rcases hfrom with ⟨hlock', hpc'⟩ | ⟨rfl, hpc', hfree⟩
        · exact absurd ⟨t, k, hlock', hpc', hevent', hsignal⟩ hx
        · exact ⟨hpc', hfree, k, hevent', hsignal⟩
      · exact absurd (waiter_keeps (not_exists.mp hadvance) h) hx
    | callSignal k' =>
      refine absurd ?_ hx
      obtain ⟨t, k, hlock, hpc, hevent, hsignal⟩ := h
      refine ⟨t, k, ?_⟩
      simp only [step] at hlock hpc hevent hsignal
      grind [gotoSignal, gotoSignal_signal]
    | advanceSignal k' =>
      obtain ⟨t, k, hlock, hpc, hevent, hsignal⟩ := h
      obtain ⟨hlock', hpc', ⟨hevent', hsignal'⟩ | ⟨rfl, hat, hfree⟩⟩ :=
        signal_toward hlock hpc hevent hsignal
      · exact absurd ⟨t, k, hlock', hpc', hevent', hsignal'⟩ hx
      · exact ⟨hat, hfree, t, hlock', hpc'⟩
  · intro h
    cases label with
    | waiter label =>
      cases label with
      | advance t =>
        obtain ⟨hpc, hfree, k, hevent, hsignal⟩ := h
        refine ⟨t, k, ?_⟩
        simp [step, waiterStep, State.step, State.advance, State.acquire,
          State.goto, hpc, hfree, hevent, hsignal]
      | _ => cases h
    | callSignal k => cases h
    | advanceSignal k =>
      obtain ⟨hat, hfree, t, hlock, hpc⟩ := h
      refine ⟨t, k, ?_⟩
      simp [step, advanceSignal, gotoSignal, hat, hfree, hlock, hpc]

/-- Waiters and signals do not come to wait for each other in exactly those runs in which no step
takes one lock while a call that has the other one is about to take it. -/
theorem deadlock_free_iff (manualReset signaled : Bool) (task : T → TaskState) (multitasking : Bool)
    (labels : List (TimedLabel T K)) :
    (∀ n, ¬Deadlocked (run timedStep
        (init manualReset signaled task multitasking) (labels.take n))) ↔
      Along timedStep (fun x label => ¬Crosses x label)
        (init manualReset signaled task multitasking) labels := by
  have hinit : ¬Deadlocked (init manualReset signaled task multitasking :
      EventSystem T K) := by
    rintro ⟨_, _, _, hpc, -⟩
    cases hpc
  have hstep : ∀ (x : EventSystem T K) label, ¬Deadlocked x →
      (¬Deadlocked (timedStep x label) ↔ ¬Crosses x label) := by
    intro x label hx
    cases label with
    | event label => exact not_congr (deadlocked_step_iff hx label)
    | expire t => exact iff_of_true (fun h => hx (expire_keeps h)) id
  exact forall_take_iff hstep hinit labels

def waitAndSignal : List (TimedLabel ℕ ℕ) :=
  .event (.waiter (.call 7)) :: List.replicate 3 (.event (.waiter (.advance 7))) ++
    [.event (.callSignal 0), .event (.advanceSignal 0)]

/-- The waiter is about to evaluate the condition when the signal takes the lock of the event. -/
theorem wait_and_signal_deadlocked :
    Deadlocked (run timedStep (init false false (fun _ => .running) true) waitAndSignal) ∧
      Deadlocked (run timedStep (init true false (fun _ => .running) true) waitAndSignal) :=
  ⟨⟨7, 0, rfl, rfl, rfl, rfl⟩, 7, 0, rfl, rfl, rfl, rfl⟩

end KosKernel.Wait
