import KosKernel.Runs
import KosKernel.WaitQueues

/-! No wake-up is lost: a waker makes the condition true and then wakes the whole queue. A waiter
that blocks has evaluated the condition to false under the lock of the queue, before the waker
took it, so that the waker finds it in the queue. -/
namespace KosKernel.Wait
open Function State
variable {T : Type*} [DecidableEq T]

/-- The next step of the waker: the condition, then `wait_queue_wake_all`. -/
inductive WakerPc (T : Type*) where
  | makeTrue
  | acquire
  | loop
  | unblock (t : T)
  | finish
  | returned
  deriving DecidableEq

open WakerPc

/-- A queue whose condition is a flag that is read without a lock. -/
structure Wakeup (T : Type*) where
  base : State T Unit Bool
  waker : WakerPc T

open Wakeup

def readFlag (flag : Bool) : Option (Bool × Bool) := some (flag, flag)

def Wakeup.wakerStep (x : Wakeup T) : Wakeup T :=
  match x.waker with
  | .makeTrue => { base := { x.base with env := true }, waker := .acquire }
  | .acquire =>
    match x.base.lock with
    | none => { base := { x.base with lock := some (.inr ()) }, waker := .loop }
    | some _ => x
  | .loop =>
    match x.base.queue with
    | [] => { x with waker := .finish }
    | t :: rest => { base := { x.base with queue := rest }, waker := .unblock t }
  | .unblock t => { base := x.base.unblock t, waker := .loop }
  | .finish => { base := { x.base with lock := none }, waker := .returned }
  | .returned => x

inductive WakeupLabel (T : Type*) where
  | waiter (label : Label T)
  | waker

def Wakeup.step (x : Wakeup T) : WakeupLabel T → Wakeup T
  | .waiter label => { x with base := x.base.step readFlag label }
  | .waker => x.wakerStep

def Wakeup.init (task : T → TaskState) (multitasking : Bool) : Wakeup T where
  base := State.init false task multitasking
  waker := .makeTrue

section
def Pc.locked : Pc → Bool
  | .check | .enqueue | .block | .unlock | .remove | .removeUnlock | .lastRemove | .lastUnlock =>
    true
  | _ => false

def Pc.mayBlock : Pc → Bool
  | .unlock | .schedule | .off => true
  | _ => false

def WakerPc.locked : WakerPc T → Prop
  | .loop | .unblock _ | .finish => True
  | _ => False

def WakerPc.started : WakerPc T → Prop
  | .loop | .unblock _ | .finish | .returned => True
  | _ => False

def WakerPc.emptied : WakerPc T → Prop
  | .finish | .returned => True
  | _ => False

structure Wakeup.Ok (x : Wakeup T) : Prop where
  flag : x.waker ≠ .makeTrue → x.base.env = true
  waiter_lock : ∀ t, (x.base.pc t).locked = true → x.base.lock = some (.inl t)
  waker_lock : x.waker.locked → x.base.lock = some (.inr ())
  awake : ∀ t, x.base.pc t ≠ .outside → x.base.task t = .blocked → (x.base.pc t).mayBlock = true
  queued : ∀ t, x.base.pc t ≠ .outside → x.base.task t = .blocked →
    t ∈ x.base.queue ∨ x.waker = .unblock t
  blocking : ∀ t, x.base.pc t = .block → t ∈ x.base.queue
  settled : x.waker.started → ∀ t, x.base.pc t ≠ .enqueue ∧ x.base.pc t ≠ .block
  emptied : x.waker.emptied → ∀ t, x.base.pc t ≠ .outside → x.base.task t ≠ .blocked

variable {x : Wakeup T}

omit [DecidableEq T] in
lemma Wakeup.ok_init (task : T → TaskState) (multitasking : Bool) :
    (init task multitasking).Ok := by
  constructor <;> simp [init, State.init, Pc.locked, locked, started, emptied]

omit [DecidableEq T] in
/-- A waiter under the lock and a waker under the lock exclude each other. -/
lemma Wakeup.Ok.not_locked (h : x.Ok) {t : T} (hpc : (x.base.pc t).locked = true) :
    ¬x.waker.locked := by
  intro hwaker
  have hlock := h.waiter_lock t hpc
  rw [h.waker_lock hwaker] at hlock
  cases hlock

/-- One waiter moves on; what it does to the lock, the queue and its task is harmless to the
others and in order for itself. -/
lemma Wakeup.Ok.move (h : x.Ok) (t : T) (new : Pc) (base : State T Unit Bool)
    (henv : base.env = x.base.env) (hpc : base.pc = update x.base.pc t new)
    (htask : ∀ t', t' ≠ t → base.task t' = x.base.task t')
    (hlock : ∀ holder, holder ≠ .inl t → x.base.lock = some holder → base.lock = some holder)
    (hself : new.locked = true → base.lock = some (.inl t))
    (hqueue : ∀ t', t' ≠ t → t' ∈ x.base.queue → t' ∈ base.queue)
    (hblocked : new ≠ .outside → base.task t = .blocked →
      new.mayBlock = true ∧ (t ∈ base.queue ∨ x.waker = .unblock t) ∧ ¬x.waker.emptied)
    (hblocking : new = .block → t ∈ base.queue)
    (hsettled : x.waker.started → new ≠ .enqueue ∧ new ≠ .block) :
    Wakeup.Ok { x with base := base } := by
  have hsame : base.pc t = new := by rw [hpc, update_self]
  have hother : ∀ t', t' ≠ t → base.pc t' = x.base.pc t' := by
    intro t' hne
    rw [hpc, update_of_ne hne]
  constructor
  case flag => rw [henv]; exact h.flag
  case waker_lock => exact fun hwaker => hlock _ (by simp) (h.waker_lock hwaker)
  case waiter_lock =>
    intro t' hlocked
    obtain rfl | hne := eq_or_ne t' t
    · exact hself (hsame ▸ hlocked)
    · exact hlock _ (by simpa using hne) (h.waiter_lock t' (hother t' hne ▸ hlocked))
  case awake =>
    intro t' hout hblock
    obtain rfl | hne := eq_or_ne t' t
    · rw [hsame] at hout ⊢
      exact (hblocked hout hblock).1
    · rw [hother t' hne] at hout ⊢
      exact h.awake t' hout (htask t' hne ▸ hblock)
  case queued =>
    intro t' hout hblock
    obtain rfl | hne := eq_or_ne t' t
    · exact (hblocked (hsame ▸ hout) hblock).2.1
    · exact (h.queued t' (hother t' hne ▸ hout) (htask t' hne ▸ hblock)).imp_left (hqueue t' hne)
  case blocking =>
    intro t' hblock
    obtain rfl | hne := eq_or_ne t' t
    · exact hblocking (hsame ▸ hblock)
    · exact hqueue t' hne (h.blocking t' (hother t' hne ▸ hblock))
  case settled =>
    intro hstart t'
    obtain rfl | hne := eq_or_ne t' t
    · rw [hsame]
      exact hsettled hstart
    · rw [hother t' hne]
      exact h.settled hstart t'
  case emptied =>
    intro hemptied t' hout hblock
    obtain rfl | hne := eq_or_ne t' t
    · exact (hblocked (hsame ▸ hout) hblock).2.2 hemptied
    · exact h.emptied hemptied t' (hother t' hne ▸ hout) (htask t' hne ▸ hblock)

omit [DecidableEq T] in
lemma Wakeup.Ok.of_task (h : x.Ok) {base : State T Unit Bool} (henv : base.env = x.base.env)
    (hpc : base.pc = x.base.pc) (hlock : base.lock = x.base.lock)
    (hqueue : base.queue = x.base.queue)
    (htask : ∀ t, x.base.pc t ≠ .outside → base.task t = .blocked → x.base.task t = .blocked) :
    Wakeup.Ok { x with base := base } := by
  constructor
  case flag => rw [henv]; exact h.flag
  case waker_lock => rw [hlock]; exact h.waker_lock
  case waiter_lock => rw [hpc, hlock]; exact h.waiter_lock
  case awake =>
    rw [hpc]
    exact fun t hout hblock => h.awake t hout (htask t hout hblock)
  case queued =>
    rw [hpc, hqueue]
    exact fun t hout hblock => h.queued t hout (htask t hout hblock)
  case blocking => rw [hpc, hqueue]; exact h.blocking
  case settled => rw [hpc]; exact h.settled
  case emptied =>
    rw [hpc]
    exact fun hemptied t hout hblock => h.emptied hemptied t hout (htask t hout hblock)

end

section
variable {x : Wakeup T} {t : T}

section
variable (h : x.Ok)
include h

lemma Wakeup.Ok.goto (new : Pc) (hlocked : new.locked = true → (x.base.pc t).locked = true)
    (hblocked : new ≠ .outside → x.base.task t = .blocked → x.base.pc t ≠ .outside ∧ new.mayBlock = true)
    (hblocking : new ≠ .block) (hsettled : x.waker.started → new ≠ .enqueue) :
    Wakeup.Ok { x with base := x.base.goto t new } := by
  apply h.move t new
  · rfl
  · rfl
  · exact fun _ _ => rfl
  · exact fun _ _ hlock => hlock
  · exact fun hnew => h.waiter_lock t (hlocked hnew)
  · exact fun _ _ hmem => hmem
  · intro hout hblock
    obtain ⟨hold, hmay⟩ := hblocked hout hblock
    exact ⟨hmay, h.queued t hold hblock, fun hemptied => h.emptied hemptied t hold hblock⟩
  · exact fun hnew => absurd hnew hblocking
  · exact fun hstart => ⟨hsettled hstart, hblocking⟩

omit [DecidableEq T] in
lemma Wakeup.Ok.not_blocked (hout : x.base.pc t ≠ .outside) (hpc : (x.base.pc t).mayBlock = false) :
    x.base.task t ≠ .blocked := by
  intro hblock
  rw [h.awake t hout hblock] at hpc
  cases hpc

lemma Wakeup.Ok.goto_awake (new : Pc) (hawake : x.base.task t ≠ .blocked)
    (hlocked : new.locked = true → (x.base.pc t).locked = true) (hblocking : new ≠ .block)
    (hsettled : x.waker.started → new ≠ .enqueue) :
    Wakeup.Ok { x with base := x.base.goto t new } :=
  h.goto new hlocked (fun _ hblock => absurd hblock hawake) hblocking hsettled

lemma Wakeup.Ok.acquire (new : Pc) (hawake : x.base.task t ≠ .blocked)
    (hnew : new ≠ .enqueue ∧ new ≠ .block) : Wakeup.Ok { x with base := x.base.acquire t new } := by
  rw [State.acquire]
  split
  · next hfree =>
    apply h.move t new
    · rfl
    · rfl
    · exact fun _ _ => rfl
    · intro holder _ hlock
      rw [hfree] at hlock
      cases hlock
    · exact fun _ => rfl
    · exact fun _ _ hmem => hmem
    · exact fun _ hblock => absurd hblock hawake
    · exact fun hblock => absurd hblock hnew.2
    · exact fun _ => hnew
  · exact h

lemma Wakeup.Ok.release (new : Pc) (hpc : (x.base.pc t).locked = true)
    (hlocked : new.locked = false) (hout : x.base.pc t ≠ .outside)
    (hmay : x.base.task t = .blocked → new.mayBlock = true) (hnew : new ≠ .enqueue ∧ new ≠ .block) :
    Wakeup.Ok { x with base := { x.base with lock := none }.goto t new } := by
  apply h.move t new
  · rfl
  · rfl
  · exact fun _ _ => rfl
  · intro holder hne hlock
    rw [h.waiter_lock t hpc] at hlock
    exact absurd (Option.some.inj hlock).symm hne
  · intro htrue
    rw [hlocked] at htrue
    cases htrue
  · exact fun _ _ hmem => hmem
  · exact fun _ hblock =>
      ⟨hmay hblock, h.queued t hout hblock, fun hemptied => h.emptied hemptied t hout hblock⟩
  · exact fun hblock => absurd hblock hnew.2
  · exact fun _ => hnew

lemma Wakeup.Ok.remove (new : Pc) (hpc : (x.base.pc t).locked = true)
    (hawake : x.base.task t ≠ .blocked) (hnew : new ≠ .enqueue ∧ new ≠ .block) :
    Wakeup.Ok { x with base := { x.base with queue := x.base.queue.erase t }.goto t new } := by
  apply h.move t new
  · rfl
  · rfl
  · exact fun _ _ => rfl
  · exact fun _ _ hlock => hlock
  · exact fun _ => h.waiter_lock t hpc
  · exact fun t' hne hmem => (List.mem_erase_of_ne hne).mpr hmem
  · exact fun _ hblock => absurd hblock hawake
  · exact fun hblock => absurd hblock hnew.2
  · exact fun _ => hnew

lemma Wakeup.Ok.enqueue (hpc : x.base.pc t = .enqueue) :
    Wakeup.Ok { x with base := { x.base with
      queue := if t ∈ x.base.queue then x.base.queue else x.base.queue ++ [t] }.goto t .block } := by
  have hawake := h.not_blocked (t := t) (by simp [hpc]) (by simp [hpc, Pc.mayBlock])
  apply h.move t .block
  · rfl
  · rfl
  · exact fun _ _ => rfl
  · exact fun _ _ hlock => hlock
  · exact fun _ => h.waiter_lock t (by simp [hpc, Pc.locked])
  · intro t' _ hmem
    dsimp only
    split
    · exact hmem
    · exact List.mem_append_left _ hmem
  · exact fun _ hblock => absurd hblock hawake
  · intro _
    dsimp only
    split
    · assumption
    · exact List.mem_append_right _ (List.mem_singleton.mpr rfl)
  · exact fun hstart => absurd hpc (h.settled hstart t).1

lemma Wakeup.Ok.block (hpc : x.base.pc t = .block) :
    Wakeup.Ok { x with base := (x.base.setTask t .blocked).goto t .unlock } := by
  have hstart : ¬x.waker.started := fun hstart => (h.settled hstart t).2 hpc
  apply h.move t .unlock
  · rfl
  · rfl
  · exact fun t' hne => update_of_ne hne ..
  · exact fun _ _ hlock => hlock
  · exact fun _ => h.waiter_lock t (by simp [hpc, Pc.locked])
  · exact fun _ _ hmem => hmem
  · intro _ _
    refine ⟨rfl, .inl (h.blocking t hpc), fun hemptied => hstart ?_⟩
    cases hwaker : x.waker <;> simp_all [WakerPc.emptied, WakerPc.started]
  · simp
  · simp

lemma Wakeup.Ok.evaluate (yes no : Pc) (hawake : x.base.task t ≠ .blocked)
    (hyes : yes.locked = true → (x.base.pc t).locked = true)
    (hno : no.locked = true → (x.base.pc t).locked = true) (hblock : yes ≠ .block ∧ no ≠ .block)
    (henqueue : yes ≠ .enqueue) :
    Wakeup.Ok { x with base := x.base.evaluate t readFlag yes no } := by
  cases hflag : x.base.env with
  | true =>
    have heq : x.base.evaluate t readFlag yes no = x.base.goto t yes := by
      simp only [State.evaluate, readFlag, hflag]
      rw [← hflag]
    rw [heq]
    exact h.goto_awake yes hawake hyes hblock.1 fun _ => henqueue
  | false =>
    have heq : x.base.evaluate t readFlag yes no = x.base.goto t no := by
      simp only [State.evaluate, readFlag, hflag]
      rw [← hflag]
    rw [heq]
    apply h.goto_awake no hawake hno hblock.2
    -- The waker sets the flag before it takes the lock.
    intro hstart
    have htrue : x.base.env = true := h.flag (by rintro hwaker; rw [hwaker] at hstart; exact hstart)
    rw [hflag] at htrue
    cases htrue

lemma Wakeup.Ok.schedule (hpc : x.base.pc t = .schedule) : Wakeup.Ok { x with base :=
      (if x.base.task t = .running then x.base.setTask t .runnable else x.base).goto t .off } := by
  have hout : x.base.pc t ≠ .outside := by simp [hpc]
  split
  · next hrunning =>
    apply h.move t .off
    · rfl
    · rfl
    · exact fun t' hne => update_of_ne hne ..
    · exact fun _ _ hlock => hlock
    · intro hlocked
      cases hlocked
    · exact fun _ _ hmem => hmem
    · intro _ hblock
      simp [State.goto, State.setTask] at hblock
    · simp
    · simp
  · exact h.goto .off (by simp [Pc.locked]) (fun _ _ => ⟨hout, rfl⟩) (by simp) (by simp)

lemma Wakeup.Ok.advance (t : T) : Wakeup.Ok { x with base := x.base.advance t readFlag } := by
  rw [State.advance]
  -- A thread that is in the function and cannot be blocked here is awake.
  have awake : ∀ pc, x.base.pc t = pc → pc ≠ .outside → pc.mayBlock = false →
      x.base.task t ≠ .blocked := by
    rintro pc rfl hout hmay
    exact h.not_blocked hout hmay
  cases hpc : x.base.pc t with
  | outside => exact h
  | precheck =>
    exact h.evaluate .outside .active (awake _ hpc (by simp) rfl) (by simp [Pc.locked])
      (by simp [Pc.locked]) (by simp) (by simp)
  | active =>
    simp only
    split
    · exact h.goto_awake .acquire (awake _ hpc (by simp) rfl) (by simp [Pc.locked]) (by simp)
        (by simp)
    · exact h.goto_awake .spin (awake _ hpc (by simp) rfl) (by simp [Pc.locked]) (by simp)
        (by simp)
  | spin =>
    exact h.evaluate .outside .spin (awake _ hpc (by simp) rfl) (by simp [Pc.locked])
      (by simp [Pc.locked]) (by simp) (by simp)
  | acquire => exact h.acquire .check (awake _ hpc (by simp) rfl) (by simp)
  | check =>
    exact h.evaluate .remove .enqueue (awake _ hpc (by simp) rfl) (by simp [hpc, Pc.locked])
      (by simp [hpc, Pc.locked]) (by simp) (by simp)
  | enqueue => exact h.enqueue hpc
  | block => exact h.block hpc
  | unlock =>
    exact h.release .schedule (by simp [hpc, Pc.locked]) rfl (by simp [hpc]) (fun _ => rfl)
      (by simp)
  | remove =>
    exact h.remove .removeUnlock (by simp [hpc, Pc.locked]) (awake _ hpc (by simp) rfl) (by simp)
  | removeUnlock =>
    exact h.release .lastAcquire (by simp [hpc, Pc.locked]) rfl (by simp [hpc])
      (fun hblock => absurd hblock (awake _ hpc (by simp) rfl)) (by simp)
  | schedule => exact h.schedule hpc
  | off =>
    simp only
    split
    · exact h
    · next hawake => exact h.goto_awake .acquire hawake (by simp [Pc.locked]) (by simp) (by simp)
  | lastAcquire => exact h.acquire .lastRemove (awake _ hpc (by simp) rfl) (by simp)
  | lastRemove =>
    exact h.remove .lastUnlock (by simp [hpc, Pc.locked]) (awake _ hpc (by simp) rfl) (by simp)
  | lastUnlock =>
    exact h.release .outside (by simp [hpc, Pc.locked]) rfl (by simp [hpc])
      (fun hblock => absurd hblock (awake _ hpc (by simp) rfl)) (by simp)

lemma Wakeup.Ok.set_task (task : TaskState) (htask : task ≠ .blocked ∨ x.base.pc t = .outside) :
    Wakeup.Ok { x with base := x.base.setTask t task } := by
  apply h.of_task
  · rfl
  · rfl
  · rfl
  · rfl
  intro t' hout hblock
  obtain rfl | hne := eq_or_ne t' t
  · have hset : (x.base.setTask t' task).task t' = task := update_self ..
    rw [hset] at hblock
    exact (htask.elim (fun hnot => hnot hblock) fun hpc => hout hpc).elim
  · have hset : (x.base.setTask t task).task t' = x.base.task t' := update_of_ne hne ..
    rwa [hset] at hblock

lemma Wakeup.Ok.unblock (t : T) : Wakeup.Ok { x with base := x.base.unblock t } := by
  rw [State.unblock]
  split
  · exact h.set_task .runnable (.inl (by simp))
  · exact h

lemma Wakeup.Ok.waiter (label : Label T) :
    Wakeup.Ok { x with base := x.base.step readFlag label } := by
  cases label with
  | call t =>
    rw [State.step]
    split
    · next hcall =>
      exact h.goto_awake .precheck (by simp [hcall.2]) (by simp [Pc.locked]) (by simp) (by simp)
    · exact h
  | advance t => exact h.advance t
  | choose t =>
    rw [State.step]
    split
    · exact h.of_task rfl rfl rfl rfl fun _ _ hblock => hblock
    · exact h
  | dispatch t =>
    rw [State.step]
    split
    · have hchosen : Wakeup.Ok { x with base :=
          { x.base with chosen := update x.base.chosen t false } } :=
        h.of_task rfl rfl rfl rfl fun _ _ hblock => hblock
      exact hchosen.set_task .running (.inl (by simp))
    · exact h
  | preempt t =>
    rw [State.step]
    split
    · exact h.set_task .runnable (.inl (by simp))
    · exact h
  | elsewhere t task =>
    rw [State.step]
    split
    · next hpc => exact h.set_task task (.inr hpc)
    · exact h
  | unblock t => exact h.unblock t
  | startMultitasking =>
    rw [State.step]
    exact h.of_task rfl rfl rfl rfl fun _ _ hblock => hblock

end
end

variable {x : Wakeup T}

section
variable (h : x.Ok)
include h

omit [DecidableEq T] in
/-- A thread that is blocked is in the queue while the waker is not about to unblock one. -/
lemma Wakeup.Ok.in_queue (hwaker : ∀ t, x.waker ≠ .unblock t) {t : T}
    (hout : x.base.pc t ≠ .outside) (hblock : x.base.task t = .blocked) : t ∈ x.base.queue :=
  (h.queued t hout hblock).resolve_right (hwaker t)

omit [DecidableEq T] in
lemma Wakeup.Ok.make_true (hwaker : x.waker = .makeTrue) :
    Wakeup.Ok { base := { x.base with env := true }, waker := .acquire } := by
  constructor
  case flag => exact fun _ => rfl
  case waker_lock => simp [WakerPc.locked]
  case waiter_lock => exact h.waiter_lock
  case awake => exact h.awake
  case queued => exact fun t hout hblock => .inl (h.in_queue (by simp [hwaker]) hout hblock)
  case blocking => exact h.blocking
  case settled => simp [WakerPc.started]
  case emptied => simp [WakerPc.emptied]

omit [DecidableEq T] in
/-- The waker takes the lock: no waiter is between its evaluation of the condition and blocking. -/
lemma Wakeup.Ok.take_lock (hwaker : x.waker = .acquire) (hfree : x.base.lock = none) :
    Wakeup.Ok { base := { x.base with lock := some (.inr ()) }, waker := .loop } := by
  have hnone : ∀ t, (x.base.pc t).locked ≠ true := by
    intro t hlocked
    have hlock := h.waiter_lock t hlocked
    rw [hfree] at hlock
    cases hlock
  constructor
  case flag => exact fun _ => h.flag (by simp [hwaker])
  case waker_lock => exact fun _ => rfl
  case waiter_lock => exact fun t hlocked => absurd hlocked (hnone t)
  case awake => exact h.awake
  case queued => exact fun t hout hblock => .inl (h.in_queue (by simp [hwaker]) hout hblock)
  case blocking => exact h.blocking
  case settled =>
    intro _ t
    constructor
    · intro hpc
      exact hnone t (by rw [hpc]; rfl)
    · intro hpc
      exact hnone t (by rw [hpc]; rfl)
  case emptied => simp [WakerPc.emptied]

omit [DecidableEq T] in
lemma Wakeup.Ok.pop (hwaker : x.waker = .loop) {t : T} {rest : List T}
    (hqueue : x.base.queue = t :: rest) :
    Wakeup.Ok { base := { x.base with queue := rest }, waker := .unblock t } := by
  have hstart : x.waker.started := by simp [hwaker, WakerPc.started]
  constructor
  case flag => exact fun _ => h.flag (by simp [hwaker])
  case waker_lock => exact fun _ => h.waker_lock (by simp [hwaker, WakerPc.locked])
  case waiter_lock => exact h.waiter_lock
  case awake => exact h.awake
  case queued =>
    intro t' hout hblock
    have hmem := h.in_queue (by simp [hwaker]) hout hblock
    rw [hqueue, List.mem_cons] at hmem
    exact hmem.symm.imp_right fun heq => by rw [heq]
  case blocking => exact fun t' hpc => absurd hpc (h.settled hstart t').2
  case settled => exact fun _ => h.settled hstart
  case emptied => simp [WakerPc.emptied]

lemma Wakeup.Ok.wake {t : T} (hwaker : x.waker = .unblock t) :
    Wakeup.Ok { base := x.base.unblock t, waker := .loop } := by
  have hok := h.unblock t
  have hstart : x.waker.started := by simp [hwaker, WakerPc.started]
  constructor
  case flag => exact fun _ => hok.flag (by simp [hwaker])
  case waker_lock => exact fun _ => hok.waker_lock (by simp [hwaker, WakerPc.locked])
  case waiter_lock => exact hok.waiter_lock
  case awake => exact hok.awake
  case queued =>
    intro t' hout hblock
    obtain hmem | hunblock := hok.queued t' hout hblock
    · exact .inl hmem
    -- The thread that was popped is no longer blocked.
    rw [hwaker] at hunblock
    cases hunblock
    have hawake : (x.base.unblock t).task t ≠ .blocked := by
      rw [State.unblock]
      split
      · simp [State.setTask]
      · assumption
    exact absurd hblock hawake
  case blocking => exact hok.blocking
  case settled => exact fun _ => hok.settled hstart
  case emptied => simp [WakerPc.emptied]

omit [DecidableEq T] in
lemma Wakeup.Ok.empty (hwaker : x.waker = .loop) (hqueue : x.base.queue = []) :
    Wakeup.Ok { x with waker := .finish } := by
  have hnone : ∀ t, x.base.pc t ≠ .outside → x.base.task t ≠ .blocked := by
    intro t hout hblock
    have hmem := h.in_queue (by simp [hwaker]) hout hblock
    rw [hqueue] at hmem
    cases hmem
  constructor
  case flag => exact fun _ => h.flag (by simp [hwaker])
  case waker_lock => exact fun _ => h.waker_lock (by simp [hwaker, locked])
  case waiter_lock => exact h.waiter_lock
  case awake => exact h.awake
  case queued => exact fun t hout hblock => absurd hblock (hnone t hout)
  case blocking => exact h.blocking
  case settled => exact fun _ => h.settled (by simp [hwaker, started])
  case emptied => exact fun _ => hnone

omit [DecidableEq T] in
lemma Wakeup.Ok.finish (hwaker : x.waker = .finish) :
    Wakeup.Ok { base := { x.base with lock := none }, waker := .returned } := by
  have hnone := h.emptied (by simp [hwaker, WakerPc.emptied])
  constructor
  case flag => exact fun _ => h.flag (by simp [hwaker])
  case waker_lock => simp [WakerPc.locked]
  case waiter_lock =>
    intro t hlocked
    exact absurd (by simp [hwaker, WakerPc.locked]) (h.not_locked hlocked)
  case awake => exact h.awake
  case queued => exact fun t hout hblock => absurd hblock (hnone t hout)
  case blocking => exact h.blocking
  case settled => exact fun _ => h.settled (by simp [hwaker, WakerPc.started])
  case emptied => exact fun _ => hnone

lemma Wakeup.Ok.waker : x.wakerStep.Ok := by
  rw [wakerStep]
  split
  · next hwaker => exact h.make_true hwaker
  · next hwaker =>
    split
    · next hfree => exact h.take_lock hwaker hfree
    · exact h
  · next hwaker =>
    split
    · next hqueue => exact h.empty hwaker hqueue
    · next hqueue => exact h.pop hwaker hqueue
  · next hwaker => exact h.wake hwaker
  · next hwaker => exact h.finish hwaker
  · exact h

lemma Wakeup.Ok.step (label : WakeupLabel T) : (x.step label).Ok := by
  cases label with
  | waiter label => exact h.waiter label
  | waker => exact h.waker

end

structure Wakeup.Woken (x : Wakeup T) : Prop extends x.Ok where
  returned : x.waker = .returned

lemma Wakeup.Woken.step (h : x.Woken) (label : WakeupLabel T) : (x.step label).Woken := by
  refine ⟨h.toOk.step label, ?_⟩
  cases label with
  | waiter label => exact h.returned
  | waker =>
    have heq : x.wakerStep = x := by simp only [Wakeup.wakerStep, h.returned]
    rw [Wakeup.step, heq, h.returned]

/-- Once the waker has returned no thread in `wait_event` is blocked, whatever steps follow. -/
theorem no_lost_wakeup (task : T → TaskState) (multitasking : Bool)
    (labels more : List (WakeupLabel T))
    (hreturned : (Runs.run Wakeup.step (Wakeup.init task multitasking) labels).waker = .returned) :
    let x := Runs.run Wakeup.step (Runs.run Wakeup.step (Wakeup.init task multitasking) labels) more
    ∀ t, x.base.pc t ≠ .outside → x.base.task t ≠ .blocked := by
  intro x
  have hok : (Runs.run step (init task multitasking) labels).Ok :=
    Runs.run_preserves (fun (x : Wakeup T) label (h : x.Ok) => h.step label)
      (ok_init task multitasking) labels
  have hwoken : x.Woken :=
    Runs.run_preserves (fun (x : Wakeup T) label (h : x.Woken) => h.step label)
      ⟨hok, hreturned⟩ more
  exact hwoken.emptied (by simp [hwoken.returned, emptied])

def blockedThenWoken : List (WakeupLabel ℕ) :=
  .waiter (.call 0) :: List.replicate 7 (.waiter (.advance 0)) ++ List.replicate 6 .waker

theorem no_lost_wakeup_blocked :
    let x := Runs.run Wakeup.step
      (Runs.run Wakeup.step (Wakeup.init (fun _ => .running) true) blockedThenWoken)
      [.waiter (.advance 0)]
    x.base.pc 0 = .off ∧ x.base.task 0 ≠ .blocked := by
  have hpc : (Runs.run step
      (Runs.run step (init (fun _ => .running) true) blockedThenWoken)
      [.waiter (.advance 0)]).base.pc 0 = .off := by decide
  exact ⟨hpc, no_lost_wakeup (fun _ => .running) true blockedThenWoken [.waiter (.advance 0)]
    (by decide) 0 (by rw [hpc]; decide)⟩

end KosKernel.Wait
