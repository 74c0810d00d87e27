import Mathlib

/-! The mutex of `kernel/mutex.c` at the level of its atomic steps: single loads and stores,
compare-exchanges, and the sections under `wait_lock`. A thread is named by its `tid`. -/
namespace KosKernel.Mutex
open Function

abbrev Tid := BitVec 32

inductive Pc where
  | idle
  /-- `mutex_lock`: the load of `waiters_count`, the exchange, the check for recursion. -/
  | lockLoad
  | lockCas
  | lockRecursion
  /-- Whether multitasking is active, and the attempts before it is. -/
  | lockBoot
  | bootCas (spins : ℕ)
  /-- The section that queues the thread, and the one after `schedule` returns. -/
  | lockEnqueue
  | waiting
  /-- The store of `owner_tid` after an exchange that succeeded. -/
  | storeOwner
  /-- `mutex_unlock`; the owner is loaded twice in one condition. -/
  | unlockState
  | unlockOwner
  | unlockOwnerAgain
  | unlockLoad
  | unlockClearOwner
  | unlockClearState
  | unlockRecheck
  /-- The section that hands the mutex over, entered by a thread that did or did not release. -/
  | unlockSlow (released : Bool)
  /-- `mutex_try_lock` -/
  | tryOwner
  | tryLoad
  | tryCas
  deriving DecidableEq

structure State where
  state : BitVec 32
  ownerTid : Tid
  waitList : List Tid
  waitersCount : BitVec 32
  /-- The flag of the waiter on the thread's stack. -/
  granted : Tid → Bool
  /-- Whether the task is blocked. -/
  blocked : Tid → Bool
  multitasking : Bool
  pc : Tid → Pc
  /-- The threads that have acquired the mutex and not called `mutex_unlock` since. -/
  inside : Tid → Bool

/-- The mutex after `mutex_init`, used by no thread. -/
def init (multitasking : Bool) : State where
  state := 0#32
  ownerTid := 0#32
  waitList := []
  waitersCount := 0#32
  granted _ := false
  blocked _ := false
  multitasking := multitasking
  pc _ := .idle
  inside _ := false

def State.goto (s : State) (t : Tid) (pc : Pc) : State := { s with pc := update s.pc t pc }

def State.enter (s : State) (t : Tid) : State :=
  { s with inside := update s.inside t true, pc := update s.pc t .idle }

def State.decrementWaiters (s : State) : BitVec 32 :=
  if s.waitersCount > 0#32 then s.waitersCount - 1#32 else s.waitersCount

def State.exchange (s : State) (t : Tid) (failed : Pc) : State :=
  if s.state = 0#32 then { s with state := 1#32 }.goto t .storeOwner else s.goto t failed

def State.enqueue (s : State) (t : Tid) : State :=
  if s.state = 0#32 ∧ s.waitList = [] then { s with state := 1#32, ownerTid := t }.enter t
  else
    { s with
      granted := update s.granted t false
      waitList := s.waitList ++ [t]
      waitersCount := s.waitersCount + 1#32
      blocked := update s.blocked t true }.goto t .waiting

/-- The section after `schedule`: the mutex is reclaimed if it is free, taken if it was granted,
or waited for again. -/
def State.reclaim (s : State) (t : Tid) : State :=
  if s.granted t = false ∧ s.state = 0#32 ∧ (s.waitList = [] ∨ s.waitList.head? = some t) then
    { s with
      waitList := s.waitList.erase t
      waitersCount := s.decrementWaiters
      state := 1#32
      ownerTid := t
      granted := update s.granted t true }.enter t
  else if s.granted t then s.enter t
  else { s with blocked := update s.blocked t true }

def State.handOver (s : State) (t : Tid) : State :=
  match s.waitList with
  | [] => { s with ownerTid := 0#32, waitersCount := 0#32, state := 0#32 }.goto t .idle
  | next :: rest =>
    { s with
      waitList := rest
      waitersCount := s.decrementWaiters
      ownerTid := next
      state := 1#32
      granted := update s.granted next true
      blocked := update s.blocked next false }.goto t .idle

def State.advance (s : State) (t : Tid) : State :=
  match s.pc t with
  | .idle => s
  | .lockLoad => s.goto t (if s.waitersCount = 0#32 then .lockCas else .lockRecursion)
  | .lockCas => s.exchange t .lockRecursion
  | .storeOwner => { s with ownerTid := t }.enter t
  | .lockRecursion => s.goto t (if s.ownerTid = t ∧ t ≠ 0#32 then .idle else .lockBoot)
  | .lockBoot => s.goto t (if s.multitasking then .lockEnqueue else .bootCas 10000)
  | .bootCas 0 => s.exchange t .idle
  | .bootCas (spins + 1) => s.exchange t (.bootCas spins)
  | .lockEnqueue => s.enqueue t
  | .waiting => if s.blocked t then s else s.reclaim t
  | .unlockState => s.goto t (if s.state = 0#32 then .idle else .unlockOwner)
  | .unlockOwner => s.goto t (if s.ownerTid = t then .unlockLoad else .unlockOwnerAgain)
  | .unlockOwnerAgain =>
    s.goto t (if s.ownerTid ≠ 0#32 ∧ t ≠ 0#32 then .idle else .unlockLoad)
  | .unlockLoad => s.goto t (if s.waitersCount = 0#32 then .unlockClearOwner else .unlockSlow false)
  | .unlockClearOwner => { s with ownerTid := 0#32 }.goto t .unlockClearState
  | .unlockClearState => { s with state := 0#32 }.goto t .unlockRecheck
  | .unlockRecheck => s.goto t (if s.waitersCount = 0#32 then .idle else .unlockSlow true)
  | .unlockSlow _ => s.handOver t
  | .tryOwner => s.goto t (if s.ownerTid = t ∧ t ≠ 0#32 then .idle else .tryLoad)
  | .tryLoad => s.goto t (if s.waitersCount ≠ 0#32 then .idle else .tryCas)
  | .tryCas => s.exchange t .idle

inductive Label where
  | lock (t : Tid)
  | tryLock (t : Tid)
  | unlock (t : Tid)
  | advance (t : Tid)
  /-- Another part of the kernel unblocks the task. -/
  | unblock (t : Tid)
  /-- Multitasking starts. -/
  | startMultitasking
  deriving DecidableEq

/-- A thread calls a function only outside another call, and unlocks only what it acquired. -/
def State.step (s : State) : Label → State
  | .lock t => if s.pc t = .idle then s.goto t .lockLoad else s
  | .tryLock t => if s.pc t = .idle then s.goto t .tryOwner else s
  | .unlock t =>
    if s.pc t = .idle ∧ s.inside t then
      { s with inside := update s.inside t false }.goto t .unlockState
    else s
  | .advance t => s.advance t
  | .unblock t => { s with blocked := update s.blocked t false }
  | .startMultitasking => { s with multitasking := true }

end KosKernel.Mutex
