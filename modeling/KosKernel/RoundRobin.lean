import KosKernel.Runs
import Mathlib.Data.List.Range

/-! The choice of the next task in `kernel/task.c`. Interrupts are disabled in `schedule`, so that a
call is one step; between two calls the states of all tasks may change. -/
namespace KosKernel.Tasks
open Function List Runs

abbrev taskMaxCount : ℕ := 64

inductive TaskState
  | unused | runnable | running | blocked | sleeping | zombie | dead
  deriving DecidableEq

/-- What a `struct task *` points to: the idle task or an entry of the table. -/
inductive TaskRef
  | idle
  | entry (index : Fin taskMaxCount)
  deriving DecidableEq

abbrev States := TaskRef → TaskState

structure Scheduler where
  initialized : Bool
  state : States
  currentTask : Option TaskRef

namespace Scheduler
variable (s : Scheduler)

def start : ℕ :=
  match s.currentTask with
  | some (.entry index) => index
  | _ => 0

def candidate (step : ℕ) : Fin taskMaxCount := Fin.ofNat 64 (s.start + step)

def taskFindNextReady : Option (Fin taskMaxCount) :=
  ((range' 1 taskMaxCount).find? fun step => s.state (.entry (s.candidate step)) = .runnable).map
    s.candidate

/-- The second half of `schedule`. -/
def switchTo (next : TaskRef) : Scheduler :=
  if s.currentTask = some next then s
  else
    let state := match s.currentTask with
      | some previous =>
        if s.state previous = .running then update s.state previous .runnable else s.state
      | none => s.state
    { s with state := update state next .running, currentTask := some next }

def schedule : Scheduler :=
  if s.initialized = false then s
  else
    match s.taskFindNextReady with
    | some next => s.switchTo (.entry next)
    | none =>
      if s.currentTask.any fun task => s.state task = .running && task ≠ .idle then s
      else if s.currentTask = some .idle then s
      else s.switchTo .idle

/-- A call of `schedule` that finds the tasks in the given states. -/
def call (state : States) : Scheduler := schedule { s with state }

def SwitchesTo (state : States) (i : Fin taskMaxCount) : Prop :=
  s.currentTask ≠ some (.entry i) ∧ (s.call state).currentTask = some (.entry i)

end Scheduler

section
open Scheduler
variable {s : Scheduler} {state : States} {c i : Fin taskMaxCount}

/-- The number of steps from one entry to another in the order of the scan. -/
def distance (c i : Fin taskMaxCount) : ℕ := (64 + i - c) % 64

lemma distance_pos (h : c ≠ i) : 0 < distance c i := by
  have hne := Fin.val_ne_of_ne h
  have hc : c.val < 64 := c.isLt
  have hi : i.val < 64 := i.isLt
  unfold distance
  omega

/-- The scan reaches a runnable task, or stops on the way to it. -/
lemma taskFindNextReady_toward (hc : s.currentTask = some (.entry c)) (hne : c ≠ i)
    (hi : s.state (.entry i) = .runnable) :
    ∃ next, s.taskFindNextReady = some next ∧ distance next i < distance c i := by
  have hstart : s.start = c := by rw [start, hc]
  have hpos := distance_pos hne
  have hlt : distance c i < 64 := Nat.mod_lt _ (by decide)
  have hcand : ∀ step, (s.candidate step).val = (c + step) % 64 := by
    intro step
    rw [candidate, hstart]
    rfl
  have hclt : c.val < 64 := c.isLt
  have hilt : i.val < 64 := i.isLt
  have hreach : s.candidate (distance c i) = i := by
    apply Fin.ext
    rw [hcand, distance]
    omega
  have hmem : distance c i ∈ range' 1 taskMaxCount := by
    rw [mem_range'_1]
    exact ⟨hpos, by rw [taskMaxCount]; omega⟩
  have hsome : ((range' 1 taskMaxCount).find? fun step =>
      s.state (.entry (s.candidate step)) = .runnable).isSome := by
    rw [find?_isSome]
    exact ⟨_, hmem, by rw [hreach, hi]; rfl⟩
  obtain ⟨step, hfind⟩ := Option.isSome_iff_exists.mp hsome
  refine ⟨s.candidate step, by rw [taskFindNextReady, hfind]; rfl, ?_⟩
  obtain ⟨-, hin, hfirst⟩ := find?_range'_eq_some.mp hfind
  -- no later than at the task itself
  have hle : step ≤ distance c i := by
    by_contra hlater
    have hnot := hfirst _ hpos (not_le.mp hlater)
    rw [hreach, hi] at hnot
    cases hnot
  rw [mem_range'_1] at hin
  unfold distance at *
  rw [hcand]
  omega

lemma call_toward (hc : s.currentTask = some (.entry c)) (hne : c ≠ i)
    (hi : state (.entry i) = .runnable) :
    ∃ next, (s.call state).currentTask = some (.entry next) ∧
      (next = c ∨ distance next i < distance c i) := by
  obtain ⟨next, hfind, hless⟩ := taskFindNextReady_toward (s := { s with state }) hc hne hi
  unfold call schedule
  split
  · exact ⟨c, hc, .inl rfl⟩
  rw [hfind]
  dsimp only
  unfold switchTo
  split
  · next heq => exact ⟨next, heq, .inr hless⟩
  · exact ⟨next, rfl, .inr hless⟩

/-- While a task stays runnable, it is switched to or only entries before it are. -/
lemma run_toward (calls : List States) (hc : s.currentTask = some (.entry c)) (hne : c ≠ i)
    (hi : ∀ state ∈ calls, state (.entry i) = .runnable) :
    (∃ before state after, calls = before ++ state :: after ∧
        (run call s before).SwitchesTo state i) ∨
      ∃ c', (run call s calls).currentTask = some (.entry c') ∧ c' ≠ i ∧
        distance c' i ≤ distance c i := by
  induction calls generalizing s c with
  | nil => exact .inr ⟨c, hc, hne, le_rfl⟩
  | cons state calls ih =>
    rw [forall_mem_cons] at hi
    obtain ⟨next, hnext, hless⟩ := call_toward hc hne hi.1
    have hle : distance next i ≤ distance c i := by
      rcases hless with rfl | hless
      · exact le_rfl
      · exact hless.le
    by_cases hreached : next = i
    · subst hreached
      refine .inl ⟨[], state, calls, rfl, ?_, hnext⟩
      change s.currentTask ≠ _
      rw [hc]
      simpa using hne
    rcases ih hnext hreached hi.2 with ⟨before, state', after, rfl, hswitch⟩ | ⟨c', hc', hne', hle'⟩
    · exact .inl ⟨state :: before, state', after, rfl, hswitch⟩
    · exact .inr ⟨c', hc', hne', hle'.trans hle⟩

/-- How many calls a runnable task may have to wait. -/
def waiting (s : Scheduler) (i : Fin taskMaxCount) : ℕ :=
  match s.currentTask with
  | some (.entry c) => distance c i
  | _ => taskMaxCount

lemma exists_ready (hi : s.state (.entry i) = .runnable) :
    ∃ next, s.taskFindNextReady = some next := by
  have hstart : s.start < 64 := by grind [start]
  have hlt : i.val < 64 := i.isLt
  have hreach : s.candidate ((63 + i - s.start) % 64 + 1) = i := by
    apply Fin.ext
    change (s.start + _) % 64 = i
    omega
  rw [← Option.isSome_iff_exists, taskFindNextReady, Option.isSome_map, find?_isSome]
  exact ⟨_, mem_range'_1.mpr ⟨Nat.le_add_left .., by change _ < 65; omega⟩,
    decide_eq_true (hreach.symm ▸ hi)⟩

/-- Each call brings the scheduler nearer to a runnable task. -/
lemma call_nearer (hinit : s.initialized = true) (hne : s.currentTask ≠ some (.entry i))
    (hi : state (.entry i) = .runnable) :
    (s.call state).initialized = true ∧ waiting (s.call state) i < waiting s i := by
  obtain ⟨next, hfind, hless⟩ : ∃ next, { s with state }.taskFindNextReady = some next ∧
      distance next i < waiting s i := by
    unfold waiting
    split
    · next c hc => exact taskFindNextReady_toward hc (fun heq => hne (heq ▸ hc)) hi
    · obtain ⟨next, hfind⟩ := exists_ready (s := { s with state }) hi
      exact ⟨next, hfind, Nat.mod_lt _ (by decide)⟩
  unfold call schedule
  rw [if_neg (by simp [hinit]), hfind]
  dsimp only
  unfold switchTo
  split
  · next hsame => exact ⟨hinit, by rw [waiting, hsame]; exact hless⟩
  · exact ⟨hinit, hless⟩

end

/-- Between two switches to a task, every other task that is runnable at each call after the first
of them, up to the call that makes the second, is switched to. -/
theorem switched_between (s : Scheduler) (first last : States) (between : List States)
    (i j : Fin taskMaxCount) (hij : i ≠ j) (hfirst : s.SwitchesTo first j)
    (hlast : (run Scheduler.call (s.call first) between).SwitchesTo last j)
    (hi : ∀ state ∈ between ++ [last], state (.entry i) = .runnable) :
    ∃ before state after, between = before ++ state :: after ∧
      (run Scheduler.call (s.call first) before).SwitchesTo state i := by
  rw [forall_mem_append] at hi
  refine (run_toward between hfirst.2 hij.symm hi.1).resolve_right ?_
  rintro ⟨c, hc, hne, hle⟩
  obtain ⟨next, hnext, hless⟩ := call_toward hc hne (hi.2 last mem_cons_self)
  have hj : next = j := by
    have hsame := hnext.symm.trans hlast.2
    simpa using hsame
  subst hj
  rcases hless with rfl | hless
  · exact hlast.1 hc
  · omega

def onlyRunnable (l : List (Fin taskMaxCount)) : States
  | .entry i => if i ∈ l then .runnable else .unused
  | .idle => .runnable

theorem switched_between_sample : ∃ before state after,
    [onlyRunnable [0, 2]] = before ++ state :: after ∧
      (run Scheduler.call (Scheduler.call ⟨true, onlyRunnable [], some (.entry 1)⟩
        (onlyRunnable [0])) before).SwitchesTo state 2 :=
  switched_between ⟨true, onlyRunnable [], some (.entry 1)⟩ (onlyRunnable [0]) (onlyRunnable [0, 2])
    [onlyRunnable [0, 2]] 2 0 (by decide) ⟨by decide, by decide⟩ ⟨by decide, by decide⟩
    (by simp [onlyRunnable])

/-- From any state, a task that stays runnable gets the processor. -/
theorem runnable_within_waiting (s : Scheduler) (hinit : s.initialized = true)
    (i : Fin taskMaxCount) (calls : List States) (hlong : waiting s i ≤ calls.length)
    (hi : ∀ state ∈ calls, state (.entry i) = .runnable) :
    ∃ before, before <+: calls ∧ (run Scheduler.call s before).currentTask = some (.entry i) := by
  induction calls generalizing s with
  | nil => exact ⟨[], nil_prefix, by grind [waiting, distance_pos, run]⟩
  | cons state calls ih =>
    by_cases heq : s.currentTask = some (.entry i)
    · exact ⟨[], nil_prefix, heq⟩
    rw [forall_mem_cons] at hi
    obtain ⟨hinit', hless⟩ := call_nearer hinit heq hi.1
    obtain ⟨before, hbefore, hreached⟩ := ih _ hinit' (by grind) hi.2
    exact ⟨state :: before, (prefix_cons_inj state).mpr hbefore, hreached⟩

theorem runnable_within_waiting_sample : ∃ before, before <+: replicate 64 (onlyRunnable [0, 2]) ∧
    (run Scheduler.call ⟨true, onlyRunnable [], none⟩ before).currentTask = some (.entry 2) :=
  runnable_within_waiting _ rfl _ _ length_replicate.ge (by simp [onlyRunnable])

end KosKernel.Tasks
