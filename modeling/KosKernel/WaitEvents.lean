import KosKernel.Runs
import KosKernel.WaitQueues

/-! Events of `kernel/wait.c`. A signal of an auto-reset event sets the flag, wakes one waiter and
clears the flag again, all under the lock of the event, so that no evaluation of the condition
ever sees the flag that a signal set. -/
namespace KosKernel.Wait
open Function State
variable {T K : Type*} [DecidableEq T]

structure Event (K : Type*) where
  manualReset : Bool
  signaled : Bool
  lock : Option K

/-- The lock of the event is taken and released within the evaluation. -/
def eventCheckCondition (e : Event K) : Option (Bool × Event K) :=
  match e.lock with
  | some _ => none
  | none => some (e.signaled, { e with signaled := if e.manualReset then e.signaled else false })

inductive SignalPc (T : Type*) where
  | outside
  | acquireEvent
  | acquireQueue
  | pop
  | unblock (t : T)
  | releaseQueue
  | finish
  deriving DecidableEq

structure EventSystem (T K : Type*) where
  base : State T K (Event K)
  signal : K → SignalPc T
  /-- The calls of `event_wait` that have returned and the calls of `event_signal` that have
  completed. -/
  returned : ℕ
  signals : ℕ

open EventSystem

section
variable [DecidableEq K] (x : EventSystem T K) (k : K)

def EventSystem.gotoSignal (pc : SignalPc T) : EventSystem T K :=
  { x with signal := update x.signal k pc }

def EventSystem.advanceSignal : EventSystem T K :=
  match x.signal k with
  | .outside => x
  | .acquireEvent =>
    match x.base.env.lock with
    | some _ => x
    | none =>
      { x with base := { x.base with env :=
        { x.base.env with lock := some k, signaled := true } } }.gotoSignal k .acquireQueue
  -- From here on `wait_queue_wake_one`, or `wait_queue_wake_all` for a manual event.
  | .acquireQueue =>
    match x.base.lock with
    | some _ => x
    | none => { x with base := { x.base with lock := some (.inr k) } }.gotoSignal k .pop
  | .pop =>
    match x.base.queue with
    | [] => x.gotoSignal k .releaseQueue
    | t :: rest => { x with base := { x.base with queue := rest } }.gotoSignal k (.unblock t)
  | .unblock t =>
    { x with base := x.base.unblock t }.gotoSignal k
      (if x.base.env.manualReset then .pop else .releaseQueue)
  | .releaseQueue => { x with base := { x.base with lock := none } }.gotoSignal k .finish
  | .finish =>
    { x with
      base := { x.base with env := { x.base.env with
        signaled := if x.base.env.manualReset then x.base.env.signaled else false
        lock := none } }
      signals := x.signals + 1 }.gotoSignal k .outside

/-- A waiter takes a step, and has returned if that leads out of `wait_event`. -/
def EventSystem.waiterStep (label : Label T) : EventSystem T K :=
  { x with
    base := x.base.step eventCheckCondition label
    returned :=
      match label with
      | .advance t =>
        if x.base.pc t ≠ .outside ∧ (x.base.advance t eventCheckCondition).pc t = .outside then
          x.returned + 1
        else x.returned
      | _ => x.returned }

end

inductive EventLabel (T K : Type*) where
  | waiter (label : Label T)
  | callSignal (k : K)
  | advanceSignal (k : K)

def EventSystem.step [DecidableEq K] (x : EventSystem T K) : EventLabel T K → EventSystem T K
  | .waiter label => x.waiterStep label
  | .callSignal k => if x.signal k = .outside then x.gotoSignal k .acquireEvent else x
  | .advanceSignal k => x.advanceSignal k

def EventSystem.init (manualReset signaled : Bool) (task : T → TaskState) (multitasking : Bool) :
    EventSystem T K where
  base := State.init ⟨manualReset, signaled, none⟩ task multitasking
  signal _ := .outside
  returned := 0
  signals := 0

section
variable [DecidableEq K]

def Completes (x : EventSystem T K) : EventLabel T K → Prop
  | .advanceSignal k => x.signal k = .finish
  | _ => False

def EventLabel.isCall : EventLabel T K → Bool
  | .callSignal _ => true
  | _ => false

/-- Without a further signal the thread can still return from `event_wait`. -/
def MayReturn (x : EventSystem T K) (t : T) : Prop :=
  ∃ more : List (EventLabel T K), (∀ label ∈ more, label.isCall = false) ∧
    (Runs.run EventSystem.step x more).base.pc t = .outside

/-- However the run goes on without a further signal, the thread can return while it has not. -/
def CertainToReturn (x : EventSystem T K) (t : T) : Prop :=
  ∀ more : List (EventLabel T K), (∀ label ∈ more, label.isCall = false) →
    (∀ n, (Runs.run EventSystem.step x (more.take n)).base.pc t ≠ .outside) →
      MayReturn (Runs.run EventSystem.step x more) t

/-- The event stays signaled, or a thread that waits is certain to return. -/
def SignalKept (x : EventSystem T K) : Prop :=
  x.base.env.signaled = true ∨ ∃ t, x.base.pc t ≠ .outside ∧ CertainToReturn x t

end

section
def Pc.succeeded : Pc → Bool
  | .remove | .removeUnlock | .lastAcquire | .lastRemove | .lastUnlock => true
  | _ => false

/-- Nobody has evaluated the condition and no signal has completed. -/
structure Untouched (initial : Bool) (x : EventSystem T K) : Prop where
  initial : initial = true
  returned : x.returned = 0
  signals : x.signals = 0
  waiters : ∀ t, x.base.pc t = .outside ∨ x.base.pc t = .precheck

structure EventSystem.Ok (initial : Bool) (x : EventSystem T K) : Prop where
  auto : x.base.env.manualReset = false
  quiet : x.base.env.lock = none → x.base.env.signaled = true → Untouched initial x
  bound : x.returned ≤ initial.toNat
  looping : ∀ t, (x.base.pc t).succeeded = false

variable {initial : Bool} {x : EventSystem T K} {t : T}

omit [DecidableEq T] in
lemma EventSystem.ok_init (signaled : Bool) (task : T → TaskState) (multitasking : Bool) :
    (init false signaled task multitasking : EventSystem T K).Ok signaled := by
  constructor
  case auto => rfl
  case quiet => exact fun _ hsig => ⟨hsig, rfl, rfl, fun _ => .inl rfl⟩
  case bound => exact Nat.zero_le _
  case looping => exact fun _ => rfl

/-- What a step of a waiter can do: nothing, move on within the loop while the event is not
signaled, or consume the initial state of the event. -/
inductive Advanced (initial : Bool) (x : EventSystem T K) (t : T) (base : State T K (Event K)) :
    Prop
  | stays (henv : base.env = x.base.env) (hpc : base.pc = x.base.pc)
  | moves (new : Pc) (henv : base.env = x.base.env) (hpc : base.pc = update x.base.pc t new)
      (hout : new ≠ .outside) (hnew : new.succeeded = false)
      (hquiet : ¬(x.base.env.lock = none ∧ x.base.env.signaled = true))
  | consumes (huntouched : Untouched initial x) (hout : x.base.pc t = .precheck)
      (henv : base.env = { x.base.env with signaled := false })
      (hpc : base.pc = update x.base.pc t .outside)

section
variable (h : x.Ok initial)
include h

omit [DecidableEq T] in
lemma EventSystem.Ok.not_signaled (hout : x.base.pc t ≠ .outside) (hpre : x.base.pc t ≠ .precheck) :
    ¬(x.base.env.lock = none ∧ x.base.env.signaled = true) := by
  rintro ⟨hlock, hsig⟩
  obtain hpc | hpc := (h.quiet hlock hsig).waiters t
  · exact hout hpc
  · exact hpre hpc

lemma EventSystem.Ok.evaluate_no {yes no : Pc}
    (hquiet : ¬(x.base.env.lock = none ∧ x.base.env.signaled = true)) (hout : no ≠ .outside)
    (hno : no.succeeded = false) :
    Advanced initial x t (x.base.evaluate t eventCheckCondition yes no) := by
  cases hlock : x.base.env.lock with
  | some k =>
    have heq : x.base.evaluate t eventCheckCondition yes no = x.base := by
      simp only [evaluate, eventCheckCondition, hlock]
    rw [heq]
    exact .stays rfl rfl
  | none =>
    have hsig : x.base.env.signaled = false := by
      cases hs : x.base.env.signaled with
      | false => rfl
      | true => exact absurd ⟨hlock, hs⟩ hquiet
    have heq : x.base.evaluate t eventCheckCondition yes no =
        { x.base with env := { x.base.env with signaled := false } }.goto t no := by
      simp [evaluate, eventCheckCondition, hlock, hsig, h.auto]
    rw [heq]
    refine .moves no ?_ rfl hout hno hquiet
    show { x.base.env with signaled := false } = x.base.env
    rw [← hsig]

lemma EventSystem.Ok.precheck (hpc : x.base.pc t = .precheck) :
    Advanced initial x t (x.base.evaluate t eventCheckCondition .outside .active) := by
  by_cases hquiet : x.base.env.lock = none ∧ x.base.env.signaled = true
  · have heq : x.base.evaluate t eventCheckCondition .outside .active =
        { x.base with env := { x.base.env with signaled := false } }.goto t .outside := by
      simp [evaluate, eventCheckCondition, hquiet.1, hquiet.2, h.auto]
    rw [heq]
    exact .consumes (h.quiet hquiet.1 hquiet.2) hpc rfl rfl
  · exact h.evaluate_no hquiet (by simp) rfl

lemma EventSystem.Ok.acquire (hout : x.base.pc t ≠ .outside) (hpre : x.base.pc t ≠ .precheck) :
    Advanced initial x t (x.base.acquire t .check) := by
  rw [State.acquire]
  split
  · exact .moves .check rfl rfl (by simp) rfl (h.not_signaled hout hpre)
  · exact .stays rfl rfl

lemma EventSystem.Ok.advanced (t : T) :
    Advanced initial x t (x.base.advance t eventCheckCondition) := by
  have hlooping := h.looping t
  rw [advance]
  have quiet : ∀ pc, x.base.pc t = pc → pc ≠ .outside → pc ≠ .precheck →
      ¬(x.base.env.lock = none ∧ x.base.env.signaled = true) := by
    rintro pc rfl hout hpre
    exact h.not_signaled hout hpre
  cases hpc : x.base.pc t with
  | outside => exact .stays rfl rfl
  | precheck => exact h.precheck hpc
  | active =>
    simp only
    split
    · exact .moves .acquire rfl rfl (by simp) rfl (quiet _ hpc (by simp) (by simp))
    · exact .moves .spin rfl rfl (by simp) rfl (quiet _ hpc (by simp) (by simp))
  | spin => exact h.evaluate_no (quiet _ hpc (by simp) (by simp)) (by simp) rfl
  | acquire => exact h.acquire (by simp [hpc]) (by simp [hpc])
  | check => exact h.evaluate_no (quiet _ hpc (by simp) (by simp)) (by simp) rfl
  | enqueue => exact .moves .block rfl rfl (by simp) rfl (quiet _ hpc (by simp) (by simp))
  | block => exact .moves .unlock rfl rfl (by simp) rfl (quiet _ hpc (by simp) (by simp))
  | unlock => exact .moves .schedule rfl rfl (by simp) rfl (quiet _ hpc (by simp) (by simp))
  | schedule =>
    refine .moves .off ?_ ?_ (by simp) rfl (quiet _ hpc (by simp) (by simp))
    · simp only [goto]
      split
      · rfl
      · rfl
    simp only [goto]
    split
    · rfl
    · rfl
  | off =>
    simp only
    split
    · exact .stays rfl rfl
    · exact .moves .acquire rfl rfl (by simp) rfl (quiet _ hpc (by simp) (by simp))
  | remove => rw [hpc] at hlooping; cases hlooping
  | removeUnlock => rw [hpc] at hlooping; cases hlooping
  | lastAcquire => rw [hpc] at hlooping; cases hlooping
  | lastRemove => rw [hpc] at hlooping; cases hlooping
  | lastUnlock => rw [hpc] at hlooping; cases hlooping

end
end

section
variable {initial : Bool} {x : EventSystem T K} {t : T}

section
variable (h : x.Ok initial)
include h

omit [DecidableEq T] in
lemma EventSystem.Ok.frame {y : EventSystem T K} (henv : y.base.env = x.base.env)
    (hpc : y.base.pc = x.base.pc) (hreturned : y.returned = x.returned)
    (hsignals : y.signals = x.signals) : y.Ok initial := by
  constructor
  case auto => rw [henv]; exact h.auto
  case quiet =>
    rw [henv]
    intro hlock hsig
    have huntouched := h.quiet hlock hsig
    exact ⟨huntouched.initial, hreturned.trans huntouched.returned,
      hsignals.trans huntouched.signals, by rw [hpc]; exact huntouched.waiters⟩
  case bound => rw [hreturned]; exact h.bound
  case looping => rw [hpc]; exact h.looping

/-- A thread moves where the event is not signaled or was not touched before. -/
lemma EventSystem.Ok.move {y : EventSystem T K} {new : Pc}
    (hpc : y.base.pc = update x.base.pc t new) (hnew : new.succeeded = false)
    (hauto : y.base.env.manualReset = false)
    (hquiet : y.base.env.lock = none → y.base.env.signaled = true → Untouched initial y)
    (hbound : y.returned ≤ initial.toNat) : y.Ok initial := by
  refine ⟨hauto, hquiet, hbound, ?_⟩
  intro t'
  rw [hpc]
  obtain rfl | hne := eq_or_ne t' t
  · rw [update_self]
    exact hnew
  · rw [update_of_ne hne]
    exact h.looping t'

lemma EventSystem.Ok.advance (t : T) : (x.waiterStep (.advance t)).Ok initial := by
  have hadvanced := h.advanced t
  rw [waiterStep]
  simp only [State.step]
  generalize x.base.advance t eventCheckCondition = base at hadvanced
  cases hadvanced with
  | stays henv hpc =>
    have hsame : ¬(x.base.pc t ≠ .outside ∧ base.pc t = .outside) := by
      rw [hpc]
      exact fun hboth => hboth.1 hboth.2
    rw [if_neg hsame]
    exact h.frame henv hpc rfl rfl
  | moves new henv hpc hout hnew hquiet =>
    have hin : base.pc t = new := by rw [hpc, update_self]
    rw [if_neg (by rw [hin]; exact fun hboth => hout hboth.2)]
    apply h.move hpc hnew
    · rw [henv]
      exact h.auto
    · rw [henv]
      exact fun hlock hsig => absurd ⟨hlock, hsig⟩ hquiet
    · exact h.bound
  | consumes huntouched hout henv hpc =>
    have hin : base.pc t = .outside := by rw [hpc, update_self]
    rw [if_pos ⟨by rw [hout]; simp, hin⟩]
    apply h.move hpc rfl
    · rw [henv]
      exact h.auto
    · rw [henv]
      intro _ hsig
      cases hsig
    show x.returned + 1 ≤ initial.toNat
    rw [huntouched.returned, huntouched.initial]
    exact Nat.le_refl 1

lemma EventSystem.Ok.call (t : T) : (x.waiterStep (.call t)).Ok initial := by
  by_cases hcall : x.base.pc t = .outside ∧ x.base.task t = .running
  · have heq : x.waiterStep (.call t) = { x with base := x.base.goto t .precheck } := by
      simp only [waiterStep, State.step, if_pos hcall]
    rw [heq]
    apply move h
    · rfl
    · rfl
    · exact h.auto
    · intro hlock hsig
      have huntouched := h.quiet hlock hsig
      refine ⟨huntouched.initial, huntouched.returned, huntouched.signals, ?_⟩
      intro t'
      obtain rfl | hne := eq_or_ne t' t
      · exact .inr (update_self ..)
      simp only [State.goto]
      rw [update_of_ne hne]
      exact huntouched.waiters t'
    · exact h.bound
  · have heq : x.waiterStep (.call t) = x := by simp only [waiterStep, State.step, if_neg hcall]
    rw [heq]
    exact h

lemma EventSystem.Ok.tasks {label : Label T} (hlabel : label.onlyTasks = true) :
    (x.waiterStep label).Ok initial := by
  obtain ⟨henv, hpc⟩ := x.base.step_frame eventCheckCondition hlabel
  apply h.frame henv hpc
  · cases label <;> first | rfl | cases hlabel
  · rfl

lemma EventSystem.Ok.waiter (label : Label T) : (x.waiterStep label).Ok initial := by
  cases label with
  | call t => exact h.call t
  | advance t => exact h.advance t
  | choose t => exact h.tasks rfl
  | dispatch t => exact h.tasks rfl
  | preempt t => exact h.tasks rfl
  | elsewhere t task => exact h.tasks rfl
  | unblock t => exact h.tasks rfl
  | startMultitasking => exact h.tasks rfl

end

variable [DecidableEq K]

/-- A signal leaves the event as it was or not signaled, and wakes without telling the waiter. -/
lemma EventSystem.Ok.signal (h : x.Ok initial) (k : K) : (x.advanceSignal k).Ok initial := by
  rw [advanceSignal]
  split
  · exact h
  · split
    · exact h
    refine ⟨h.auto, ?_, h.bound, h.looping⟩
    intro hlock
    cases hlock
  · split
    · exact h
    · exact h.frame rfl rfl rfl rfl
  · split
    · exact h.frame rfl rfl rfl rfl
    · exact h.frame rfl rfl rfl rfl
  · next t _ => exact h.frame (x.base.unblock_frame t).1 (x.base.unblock_frame t).2 rfl rfl
  · exact h.frame rfl rfl rfl rfl
  refine ⟨h.auto, ?_, h.bound, h.looping⟩
  intro _ hsig
  simp [gotoSignal, h.auto] at hsig

lemma EventSystem.Ok.step (h : x.Ok initial) (label : EventLabel T K) :
    (x.step label).Ok initial := by
  cases label with
  | waiter label => exact h.waiter label
  | callSignal k =>
    rw [EventSystem.step]
    split
    · exact h.frame rfl rfl rfl rfl
    · exact h
  | advanceSignal k => exact h.signal k

/-- A signal has completed, and the thread has not returned. -/
structure Stranded (initial : Bool) (t : T) (x : EventSystem T K) : Prop extends x.Ok initial where
  completed : 0 < x.signals
  waits : x.base.pc t ≠ .outside

lemma EventSystem.signals_le (x : EventSystem T K) (label : EventLabel T K) :
    x.signals ≤ (x.step label).signals := by
  cases label with
  | waiter label => exact Nat.le_refl _
  | callSignal k =>
    rw [step]
    split
    · exact Nat.le_refl _
    · exact Nat.le_refl _
  | advanceSignal k =>
    rw [step, advanceSignal]
    split
    · exact Nat.le_refl _
    · split <;> exact Nat.le_refl _
    · split <;> exact Nat.le_refl _
    · split <;> exact Nat.le_refl _
    · exact Nat.le_refl _
    · exact Nat.le_refl _
    · exact Nat.le_succ _

lemma EventSystem.signal_pc (x : EventSystem T K) (k : K) :
    (x.advanceSignal k).base.pc = x.base.pc := by
  rw [advanceSignal]
  split
  · rfl
  · split <;> rfl
  · split <;> rfl
  · split <;> rfl
  · next t _ => exact (x.base.unblock_frame t).2
  · rfl
  · rfl

lemma Stranded.step {t : T} (h : Stranded initial t x) (label : EventLabel T K) :
    Stranded initial t (x.step label) := by
  refine ⟨h.toOk.step label, h.completed.trans_le (x.signals_le label), ?_⟩
  cases label with
  | waiter label =>
    by_cases hlabel : label.onlyTasks = true
    · have hpc : (x.step (.waiter label)).base.pc = x.base.pc :=
        (x.base.step_frame eventCheckCondition hlabel).2
      rw [hpc]
      exact h.waits
    cases label with
    | call t' =>
      have hpc : (x.base.step eventCheckCondition (.call t')).pc t ≠ .outside := by
        rw [State.step]
        split
        · obtain rfl | hne := eq_or_ne t t'
          · simp [State.goto]
          · simpa [State.goto, hne] using h.waits
        · exact h.waits
      exact hpc
    | advance t' =>
      have hpc : (x.base.advance t' eventCheckCondition).pc t ≠ .outside := by
        cases h.toOk.advanced t' with
        | stays henv hpc => rw [hpc]; exact h.waits
        | moves new henv hpc hout hnew hquiet =>
          rw [hpc]
          obtain rfl | hne := eq_or_ne t t'
          · rw [update_self]
            exact hout
          · rw [update_of_ne hne]
            exact h.waits
        | consumes huntouched hout henv hpc => exact absurd huntouched.signals h.completed.ne'
      exact hpc
    | choose t' => exact absurd rfl hlabel
    | dispatch t' => exact absurd rfl hlabel
    | preempt t' => exact absurd rfl hlabel
    | elsewhere t' task => exact absurd rfl hlabel
    | unblock t' => exact absurd rfl hlabel
    | startMultitasking => exact absurd rfl hlabel
  | callSignal k =>
    rw [EventSystem.step]
    split
    · exact h.waits
    · exact h.waits
  | advanceSignal k =>
    rw [EventSystem.step, x.signal_pc k]
    exact h.waits

lemma Stranded.not_mayReturn (h : Stranded initial t x) : ¬MayReturn x t := by
  rintro ⟨more, -, hreturned⟩
  have hstranded : Stranded initial t (Runs.run EventSystem.step x more) :=
    Runs.run_preserves (fun (x : EventSystem T K) label (h : Stranded initial t x) => h.step label)
      h more
  exact hstranded.waits hreturned

lemma EventSystem.Ok.not_kept (h : x.Ok initial) {label : EventLabel T K}
    (hlabel : Completes x label) : ¬SignalKept (x.step label) := by
  cases label with
  | waiter label => exact hlabel.elim
  | callSignal k => exact hlabel.elim
  | advanceSignal k =>
    have hfinish : x.signal k = .finish := hlabel
    have hok := h.step (.advanceSignal k)
    have heq : x.step (.advanceSignal k) = { x with
        base := { x.base with env := { x.base.env with signaled := false, lock := none } }
        signals := x.signals + 1 }.gotoSignal k .outside := by
      rw [EventSystem.step, EventSystem.advanceSignal, hfinish]
      simp [h.auto]
    rintro (hsig | ⟨t, hwaits, hcertain⟩)
    · rw [heq] at hsig
      cases hsig
    have hstranded : Stranded initial t (x.step (.advanceSignal k)) :=
      ⟨hok, by rw [heq]; exact Nat.succ_pos _, hwaits⟩
    apply hstranded.not_mayReturn
    refine hcertain [] ?_ ?_
    · simp
    intro n
    rw [List.take_nil]
    exact hwaits

end

/-- For an auto-reset event: no more calls of `event_wait` return than there were signals, and no
signal is lost, in exactly those runs in which no call of `event_signal` completes. -/
theorem auto_reset_event_iff [DecidableEq K] (signaled : Bool) (task : T → TaskState)
    (multitasking : Bool) (labels : List (EventLabel T K)) :
    ((∀ n, (Runs.run EventSystem.step (EventSystem.init false signaled task multitasking)
          (labels.take n)).returned ≤
        (Runs.run EventSystem.step (EventSystem.init false signaled task multitasking)
          (labels.take n)).signals + signaled.toNat) ∧
      Runs.Along EventSystem.step (fun x label => Completes x label → SignalKept (x.step label))
        (EventSystem.init false signaled task multitasking) labels) ↔
    Runs.Along EventSystem.step (fun x label => ¬Completes x label)
      (EventSystem.init false signaled task multitasking) labels := by
  have hinit : (init false signaled task multitasking : EventSystem T K).Ok signaled :=
    ok_init signaled task multitasking
  have hstep : ∀ (x : EventSystem T K) label, x.Ok signaled → (x.step label).Ok signaled :=
    fun x label h => h.step label
  constructor
  · rintro ⟨-, hkept⟩
    apply Runs.along_imp hstep _ hinit labels hkept
    intro x label h hlost hcompletes
    exact h.not_kept hcompletes (hlost hcompletes)
  intro hnone
  refine ⟨?_, Runs.along_imp hstep (fun x label _ hnot hcompletes => absurd hcompletes hnot)
    hinit labels hnone⟩
  intro n
  have hok := Runs.run_preserves hstep hinit (labels.take n)
  exact hok.bound.trans (Nat.le_add_left _ _)

def signalOneWaiter : List (EventLabel ℕ ℕ) :=
  .waiter (.call 7) :: List.replicate 7 (.waiter (.advance 7)) ++
    .callSignal 0 :: List.replicate 5 (.advanceSignal 0)

/-- The waiter was woken, but neither it nor a later one can return. -/
theorem signal_lost :
    let x := Runs.run EventSystem.step (EventSystem.init false false (fun _ => .running) true)
      signalOneWaiter
    x.base.task 7 = .runnable ∧ Completes x (.advanceSignal 0) ∧
      ¬SignalKept (x.step (.advanceSignal 0)) := by
  have hok : (Runs.run step (init false false (fun _ => .running) true)
      signalOneWaiter).Ok false :=
    Runs.run_preserves (fun (x : EventSystem ℕ ℕ) label (h : x.Ok false) => h.step label)
      (ok_init false (fun _ => .running) true) signalOneWaiter
  have hcompletes : Completes (Runs.run step
      (init false false (fun _ => .running) true) signalOneWaiter)
      (.advanceSignal 0) := by
    show SignalPc.finish = SignalPc.finish
    rfl
  exact ⟨by decide, hcompletes, hok.not_kept hcompletes⟩

end KosKernel.Wait
