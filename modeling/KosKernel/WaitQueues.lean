import Mathlib

/-! Waiting on a queue as in `kernel/wait.c`, one atomic step at a time. The condition that is
waited for is evaluated on an environment that other parties change; an evaluation that has to
wait for a lock yields nothing. The lock of the queue is held by a waiter or by a waker. -/
namespace KosKernel.Wait
variable {T K E : Type*} [DecidableEq T]

inductive TaskState where
  | running
  | runnable
  | blocked
  deriving DecidableEq

inductive Pc where
  | outside
  /-- The condition before the queue is touched. -/
  | precheck
  | active
  /-- The loop that does not block, used before multitasking starts. -/
  | spin
  /-- The section that blocks the thread. -/
  | acquire
  | check
  | enqueue
  | block
  | unlock
  /-- The condition was true in that section. -/
  | remove
  | removeUnlock
  /-- `schedule`, and the time until it returns. -/
  | schedule
  | off
  /-- The section before the function returns. -/
  | lastAcquire
  | lastRemove
  | lastUnlock
  deriving DecidableEq

structure State (T K E : Type*) where
  env : E
  lock : Option (T ⊕ K)
  queue : List T
  task : T → TaskState
  /-- The threads that a scheduler has found ready and is about to run. -/
  chosen : T → Bool
  multitasking : Bool
  pc : T → Pc

section
variable (s : State T K E) (t : T)

def State.goto (pc : Pc) : State T K E := { s with pc := Function.update s.pc t pc }

def State.setTask (task : TaskState) : State T K E :=
  { s with task := Function.update s.task t task }

def State.unblock : State T K E := if s.task t = .blocked then s.setTask t .runnable else s

def State.acquire (pc : Pc) : State T K E :=
  match s.lock with
  | none => { s with lock := some (.inl t) }.goto t pc
  | some _ => s

/-- The condition is evaluated, which may change the environment. -/
def State.evaluate (check : E → Option (Bool × E)) (yes no : Pc) : State T K E :=
  match check s.env with
  | none => s
  | some (true, env) => { s with env := env }.goto t yes
  | some (false, env) => { s with env := env }.goto t no

def State.advance (check : E → Option (Bool × E)) : State T K E :=
  match s.pc t with
  | .outside => s
  | .precheck => s.evaluate t check .outside .active
  | .active => s.goto t (if s.multitasking then .acquire else .spin)
  | .spin => s.evaluate t check .outside .spin
  | .acquire => s.acquire t .check
  | .check => s.evaluate t check .remove .enqueue
  | .enqueue =>
    { s with queue := if t ∈ s.queue then s.queue else s.queue ++ [t] }.goto t .block
  | .block => (s.setTask t .blocked).goto t .unlock
  | .unlock => { s with lock := none }.goto t .schedule
  | .remove => { s with queue := s.queue.erase t }.goto t .removeUnlock
  | .removeUnlock => { s with lock := none }.goto t .lastAcquire
  -- A task that still runs is made runnable; one that blocked stays so.
  | .schedule => (if s.task t = .running then s.setTask t .runnable else s).goto t .off
  | .off => if s.task t = .blocked then s else s.goto t .acquire
  | .lastAcquire => s.acquire t .lastRemove
  | .lastRemove => { s with queue := s.queue.erase t }.goto t .lastUnlock
  | .lastUnlock => { s with lock := none }.goto t .outside

end

inductive Label (T : Type*) where
  /-- A running thread calls `wait_event`. -/
  | call (t : T)
  | advance (t : T)
  /-- A scheduler finds the task ready, and later writes that it runs. -/
  | choose (t : T)
  | dispatch (t : T)
  /-- A scheduler writes that a running task is runnable. -/
  | preempt (t : T)
  /-- The state of a task outside the function changes. -/
  | elsewhere (t : T) (task : TaskState)
  /-- Another party unblocks the task. -/
  | unblock (t : T)
  | startMultitasking

def State.step (check : E → Option (Bool × E)) (s : State T K E) : Label T → State T K E
  | .call t => if s.pc t = .outside ∧ s.task t = .running then s.goto t .precheck else s
  | .advance t => s.advance t check
  | .choose t =>
    if s.task t = .runnable then { s with chosen := Function.update s.chosen t true } else s
  | .dispatch t =>
    if s.chosen t then { s with chosen := Function.update s.chosen t false }.setTask t .running
    else s
  | .preempt t => if s.task t = .running then s.setTask t .runnable else s
  | .elsewhere t task => if s.pc t = .outside then s.setTask t task else s
  | .unblock t => s.unblock t
  | .startMultitasking => { s with multitasking := true }

def Label.onlyTasks : Label T → Bool
  | .call _ | .advance _ => false
  | _ => true

lemma State.unblock_frame (s : State T K E) (t : T) :
    (s.unblock t).env = s.env ∧ (s.unblock t).pc = s.pc := by
  rw [unblock]
  split
  · exact ⟨rfl, rfl⟩
  · exact ⟨rfl, rfl⟩

lemma State.step_frame (check : E → Option (Bool × E)) (s : State T K E) {label : Label T}
    (h : label.onlyTasks = true) :
    (s.step check label).env = s.env ∧ (s.step check label).pc = s.pc := by
  cases label with
  | call t => cases h
  | advance t => cases h
  | choose t =>
    rw [step]
    split
    · exact ⟨rfl, rfl⟩
    · exact ⟨rfl, rfl⟩
  | dispatch t =>
    rw [step]
    split
    · exact ⟨rfl, rfl⟩
    · exact ⟨rfl, rfl⟩
  | preempt t =>
    rw [step]
    split
    · exact ⟨rfl, rfl⟩
    · exact ⟨rfl, rfl⟩
  | elsewhere t task =>
    rw [step]
    split
    · exact ⟨rfl, rfl⟩
    · exact ⟨rfl, rfl⟩
  | unblock t => exact s.unblock_frame t
  | startMultitasking => exact ⟨rfl, rfl⟩

def State.init (env : E) (task : T → TaskState) (multitasking : Bool) : State T K E where
  env := env
  lock := none
  queue := []
  task := task
  chosen _ := false
  multitasking := multitasking
  pc _ := .outside

end KosKernel.Wait
