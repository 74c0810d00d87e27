import KosKernel.ProcessRoots
import Mathlib.Data.Fintype.Basic

/-! `process_wait` and the incarnations of a slot. A waiter keeps the pointer it was given; what it
points to can be a later process by the time it is used. -/
namespace KosKernel.Processes.Waits
open Function List

/-- What a waiter does next once it has read the exit code: unlink the process from its parent, and
the sections of `process_destroy` that free the threads, mark the process dead and release its root.
-/
inductive Stage
  | unlink | threads | mark | release
  deriving DecidableEq

/-- `pid` is that of the process when `process_wait` was called, which the code does not keep. -/
inductive Waiter
  | idle
  | waiting (proc : ProcessRef) (pid : ℕ)
  | exited (proc : ProcessRef) (pid : ℕ)
  | destroying (proc : ProcessRef) (pid : ℕ) (code : ℤ) (stage : Stage)
  | returned (pid : ℕ) (code : ℤ)
  deriving DecidableEq

def Waiter.target : Waiter → Option ProcessRef
  | .waiting proc _ | .exited proc _ | .destroying proc _ _ _ => some proc
  | .idle | .returned _ _ => none

/-- `exits` is history: the exit code each process ended with. -/
structure State (ι : Type*) where
  processes : Table
  nextPid : ℕ
  exits : ℕ → Option ℤ
  waiters : ι → Waiter

inductive Event (ι : Type*)
  | create
  | exit (proc : ProcessRef) (code : ℤ)
  | destroy (proc : ProcessRef)
  | wait (w : ι) (proc : ProcessRef)
  | advance (w : ι)
  | timeout (w : ι)

variable {ι : Type*}

def boot (root : ℕ) : State ι := ⟨bootTable root, 2, fun _ => none, fun _ => .idle⟩

def processCreate (s : State ι) (cr3 : ℕ) : State ι :=
  match freeSlot s.processes with
  | none => s
  | some i =>
    { s with
      processes := update s.processes (.slot i) ⟨s.nextPid, .active, 0, cr3⟩
      nextPid := s.nextPid + 1 }

/-- The process is left with this state, exit code and root, and the code goes down in history. -/
def State.settle (s : State ι) (proc : ProcessRef) (state : ProcessState) (code : ℤ) (root : ℕ) :
    State ι :=
  { s with
    processes := update s.processes proc ⟨(s.processes proc).pid, state, code, root⟩
    exits := update s.exits (s.processes proc).pid (some code) }

/-- The section of `process_exit`, or of `thread_exit`, under the lock of the process. -/
def processExit (s : State ι) (proc : ProcessRef) (code : ℤ) : State ι :=
  if (s.processes proc).pid ≤ 1 ∨ (s.processes proc).exited then s
  else s.settle proc .zombie code (s.processes proc).pml4Physical

/-- The section of `process_destroy` under the lock of the table. -/
def markDead (s : State ι) (proc : ProcessRef) : State ι :=
  if (s.processes proc).pid ≤ 1 then s
  else s.settle proc .dead (s.processes proc).exitCode (s.processes proc).pml4Physical

def State.setWaiter [DecidableEq ι] (s : State ι) (w : ι) (waiter : Waiter) : State ι :=
  { s with waiters := update s.waiters w waiter }

def advance [DecidableEq ι] (s : State ι) (w : ι) : State ι :=
  match s.waiters w with
  | .idle | .returned _ _ => s
  | .waiting proc pid => if (s.processes proc).exited then s.setWaiter w (.exited proc pid) else s
  | .exited proc pid => s.setWaiter w (.destroying proc pid (s.processes proc).exitCode .unlink)
  | .destroying proc pid code .unlink =>
    s.setWaiter w
      (if (s.processes proc).pid ≤ 1 then .returned pid code else .destroying proc pid code .threads)
  | .destroying proc pid code .threads => s.setWaiter w (.destroying proc pid code .mark)
  | .destroying proc pid code .mark =>
    (markDead s proc).setWaiter w (.destroying proc pid code .release)
  | .destroying proc pid code .release =>
    (s.settle proc (s.processes proc).state (s.processes proc).exitCode 0).setWaiter w
      (.returned pid code)

def step [DecidableEq ι] (cr3 : ℕ) (s : State ι) : Event ι → State ι
  | .create => processCreate s cr3
  | .exit proc code => processExit s proc code
  | .destroy proc => markDead s proc
  | .wait w proc =>
    if (s.waiters w).target = none then s.setWaiter w (.waiting proc (s.processes proc).pid) else s
  | .advance w => advance s w
  | .timeout w =>
    match s.waiters w with
    | .waiting _ _ => s.setWaiter w .idle
    | _ => s

/-- No slot is reused while a call of `process_wait` on it is in progress. -/
def Unwaited (s : State ι) : Event ι → Prop
  | .create => ∀ i ∈ freeSlot s.processes, ∀ w, (s.waiters w).target ≠ some (.slot i)
  | _ => True

instance [Fintype ι] (s : State ι) : ∀ event, Decidable (Unwaited s event)
  | .create => inferInstanceAs (Decidable (∀ i ∈ freeSlot s.processes, ∀ w, _))
  | .exit _ _ | .destroy _ | .wait _ _ | .advance _ | .timeout _ => inferInstanceAs (Decidable True)

/-- A waiter that is destroying a process destroys the one it was called on, and reports its code. -/
def Faithful (s : State ι) : Waiter → Prop
  | .destroying proc pid code _ => (s.processes proc).pid = pid ∧ s.exits pid = some code
  | .returned pid code => s.exits pid = some code
  | _ => True

/-- What a waiter knows about the process it points to. -/
def Knows (processes : Table) (exits : ℕ → Option ℤ) : Waiter → Prop
  | .idle => True
  | .waiting proc pid => (processes proc).pid = pid
  | .exited proc pid => (processes proc).pid = pid ∧ (processes proc).exited
  | .destroying proc pid code _ =>
    (processes proc).pid = pid ∧ (processes proc).exited ∧ (processes proc).exitCode = code
  | .returned pid code => exits pid = some code

/-- History agrees with a process: its code is down there once it has ended. -/
structure Agrees (nextPid : ℕ) (exits : ℕ → Option ℤ) (proc : Process) : Prop where
  fresh : proc.pid < nextPid
  recorded : proc.exited → exits proc.pid = some proc.exitCode
  running : 1 < proc.pid → ¬ proc.exited → exits proc.pid = none
  low : proc.pid ≤ 1 → ¬ proc.exited

/-- Pids are used once, and history agrees with the table. -/
structure Sound (processes : Table) (nextPid : ℕ) (exits : ℕ → Option ℤ) : Prop where
  start : 1 < nextPid
  agrees : ∀ p, Agrees nextPid exits (processes p)
  unique : ∀ p q, 1 < (processes p).pid → (processes p).pid = (processes q).pid → p = q
  past : ∀ pid, nextPid ≤ pid → exits pid = none

def Kept (s : State ι) : Prop :=
  Sound s.processes s.nextPid s.exits ∧ ∀ w, Knows s.processes s.exits (s.waiters w)

lemma boot_kept (root : ℕ) : Kept (boot root : State ι) := by
  refine ⟨⟨Nat.lt_succ_self 1, fun p => ⟨?_, fun hp => absurd hp ?_, fun _ _ => rfl, fun _ => ?_⟩,
    fun p _ hp => absurd hp ?_, fun _ _ => rfl⟩, fun _ => trivial⟩ <;>
  cases p <;> simp [boot, bootTable, Process.exited]

lemma Agrees.congr {nextPid nextPid' : ℕ} {exits exits' : ℕ → Option ℤ} {proc : Process}
    (h : Agrees nextPid exits proc) (hle : nextPid ≤ nextPid')
    (hexits : exits' proc.pid = exits proc.pid) : Agrees nextPid' exits' proc :=
  ⟨h.fresh.trans_le hle, fun hp => hexits.trans (h.recorded hp),
    fun hpid hp => hexits.trans (h.running hpid hp), h.low⟩

lemma Knows.transfer {procs processes' : Table} {exits exits' : ℕ → Option ℤ} {waiter : Waiter}
    (h : Knows procs exits waiter)
    (hproc : ∀ p ∈ waiter.target, (processes' p).pid = (procs p).pid ∧ ((procs p).exited →
        (processes' p).exited ∧ (processes' p).exitCode = (procs p).exitCode))
    (hexits : ∀ pid c, exits pid = some c → exits' pid = some c) :
    Knows processes' exits' waiter := by
  cases waiter with
  | idle => trivial
  | waiting p pid => exact (hproc p rfl).1.trans h
  | exited p pid => exact ⟨(hproc p rfl).1.trans h.1, ((hproc p rfl).2 h.2).1⟩
  | destroying p pid c stage =>
    obtain ⟨hpid, hended⟩ := hproc p rfl
    exact ⟨hpid.trans h.1, (hended h.2.1).1, (hended h.2.1).2.trans h.2.2⟩
  | returned pid c => exact hexits pid c h

variable {s : State ι}

section
variable (h : Kept s)
include h

/-- A process that is alive ends, or one that has ended keeps its code. -/
lemma Kept.settle {proc : ProcessRef} (hpid : ¬ (s.processes proc).pid ≤ 1) {state : ProcessState}
    (hstate : state = .zombie ∨ state = .dead) {code : ℤ}
    (hcode : (s.processes proc).exited → code = (s.processes proc).exitCode) (root : ℕ) :
    Kept (s.settle proc state code root) := by
  obtain ⟨hsound, hknows⟩ := h
  set record : Process := ⟨(s.processes proc).pid, state, code, root⟩ with hrecord
  have hexited : record.exited := by rcases hstate with rfl | rfl <;> rfl
  have hsame : ∀ p, (update s.processes proc record p).pid = (s.processes p).pid := by
    intro p
    by_cases hp : p = proc
    · rw [hp, update_self]
    · rw [update_of_ne hp]
  refine ⟨⟨hsound.start, ?_, fun p q => ?_, fun pid hle => ?_⟩,
    fun w => (hknows w).transfer (fun p _ => ⟨hsame p, fun hp => ?_⟩) fun pid c hc => ?_⟩ <;>
    dsimp only [State.settle] at *
  · refine (forall_update_iff _ fun _ => Agrees s.nextPid _).mpr ⟨⟨(hsound.agrees proc).fresh,
      fun _ => update_self _ _ _, fun _ hnot => absurd hexited hnot, fun hle => absurd hle hpid⟩,
      fun p hp => (hsound.agrees p).congr le_rfl (update_of_ne (fun heq => hp ?_) _ _)⟩
    exact (hsound.unique proc p (not_le.mp hpid) heq.symm).symm
  · rw [hsame, hsame]
    exact hsound.unique p q
  · rw [update_of_ne (Nat.ne_of_gt ((hsound.agrees proc).fresh.trans_le hle))]
    exact hsound.past pid hle
  · obtain rfl | heq := eq_or_ne p proc
    · rw [update_self]
      exact ⟨hexited, hcode hp⟩
    · rw [update_of_ne heq]
      exact ⟨hp, rfl⟩
  by_cases heq : pid = (s.processes proc).pid
  · -- A code that is down in history is that of the process it belongs to.
    subst heq
    have hended : (s.processes proc).exited := by
      by_contra hnot
      rw [(hsound.agrees proc).running (not_le.mp hpid) hnot] at hc
      cases hc
    rw [update_self, hcode hended, ← (hsound.agrees proc).recorded hended, hc]
  · rw [update_of_ne heq, hc]

lemma markDead_kept (proc : ProcessRef) : Kept (markDead s proc) := by
  unfold markDead
  split
  · exact h
  · rename_i hpid
    exact h.settle hpid (.inr rfl) (fun _ => rfl) _

lemma processExit_kept (proc : ProcessRef) (code : ℤ) : Kept (processExit s proc code) := by
  unfold processExit
  split
  · exact h
  rename_i halive
  rw [not_or] at halive
  exact h.settle halive.1 (.inl rfl) (fun hexited => absurd hexited halive.2) _

lemma processCreate_kept (cr3 : ℕ) (hfree : Unwaited s .create) : Kept (processCreate s cr3) := by
  unfold processCreate
  cases hslot : freeSlot s.processes with
  | none => exact h
  | some i =>
    obtain ⟨hsound, hknows⟩ := h
    have hself : update s.processes (.slot i) ⟨s.nextPid, .active, 0, cr3⟩ (.slot i) =
        ⟨s.nextPid, .active, 0, cr3⟩ := update_self _ _ _
    have hother : ∀ {p}, p ≠ .slot i →
        update s.processes (.slot i) ⟨s.nextPid, .active, 0, cr3⟩ p = s.processes p :=
      fun hp => update_of_ne hp _ _
    have hnext := Nat.lt_succ_self s.nextPid
    refine ⟨⟨hsound.start.trans hnext, (forall_update_iff _ fun _ => Agrees _ _).mpr
        ⟨⟨hnext, Bool.noConfusion, fun _ _ => hsound.past _ le_rfl,
          fun hle => absurd hsound.start (not_lt.mpr hle)⟩,
          fun p _ => (hsound.agrees p).congr hnext.le rfl⟩,
        fun p q => ?_, fun pid hle => hsound.past pid (Nat.le_of_succ_le hle)⟩,
      fun w => (hknows w).transfer (fun p hp => ?_) fun _ _ => id⟩ <;> dsimp only
    · by_cases hp : p = .slot i <;> by_cases hq : q = .slot i
      · rw [hp, hq]
        exact fun _ _ => rfl
      · rw [hp, hself, hother hq]
        exact fun _ heq => absurd heq (hsound.agrees q).fresh.ne'
      · rw [hq, hself, hother hp]
        exact fun _ heq => absurd heq (hsound.agrees p).fresh.ne
      · rw [hother hp, hother hq]
        exact hsound.unique p q
    · rw [hother fun heq => hfree i hslot w (heq ▸ hp)]
      exact ⟨rfl, fun hexited => ⟨hexited, rfl⟩⟩

lemma Kept.setWaiter [DecidableEq ι] (w : ι) {waiter : Waiter}
    (hw : Knows s.processes s.exits waiter) : Kept (s.setWaiter w waiter) :=
  ⟨h.1, (forall_update_iff _ fun _ => Knows s.processes s.exits).mpr ⟨hw, fun v _ => h.2 v⟩⟩

lemma advance_kept [DecidableEq ι] (w : ι) : Kept (advance s w) := by
  unfold advance
  have hw := h.2 w
  split <;> rename_i hwait <;> rw [hwait] at hw
  · exact h
  · exact h
  · split
    · rename_i hexited
      exact h.setWaiter w ⟨hw, hexited⟩
    · exact h
  · exact h.setWaiter w ⟨hw.1, hw.2, rfl⟩
  · refine h.setWaiter w ?_
    split
    · rename_i hpid
      exact absurd hw.2.1 ((h.1.agrees _).low hpid)
    · exact hw
  · exact h.setWaiter w hw
  · rename_i proc pid code
    have hcomm : (markDead s proc).setWaiter w (.destroying proc pid code .release) =
        markDead (s.setWaiter w (.destroying proc pid code .release)) proc := by
      unfold markDead State.setWaiter
      split <;> rfl
    have hnext : Knows s.processes s.exits (.destroying proc pid code .release) := hw
    rw [hcomm]
    exact markDead_kept (h.setWaiter w hnext) proc
  · obtain ⟨rfl, hexited, rfl⟩ := hw
    rename_i proc
    have hreturned : Kept (s.setWaiter w
        (.returned (s.processes proc).pid (s.processes proc).exitCode)) :=
      h.setWaiter w ((h.1.agrees proc).recorded hexited)
    refine hreturned.settle (fun hpid => (h.1.agrees proc).low hpid hexited) ?_ (fun _ => rfl) 0
    simpa [Process.exited] using hexited

end

lemma step_kept [DecidableEq ι] (cr3 : ℕ) (s : State ι) (event : Event ι) (h : Kept s)
    (hfree : Unwaited s event) : Kept (step cr3 s event) := by
  cases event with
  | create => exact processCreate_kept h cr3 hfree
  | exit proc code => exact processExit_kept h proc code
  | destroy proc => exact markDead_kept h proc
  | wait w proc =>
    rw [step]
    split
    · exact h.setWaiter w rfl
    · exact h
  | advance w => exact advance_kept h w
  | timeout w =>
    rw [step]
    split
    · exact h.setWaiter w trivial
    · exact h

/-- While no slot is reused under a waiter, every call of `process_wait` destroys the process it was
made on and reports the code that process ended with. -/
theorem run_faithful_of_unwaited [DecidableEq ι] (root cr3 : ℕ) (events : List (Event ι))
    (h : Runs.Along (step cr3) Unwaited (boot root) events) (w : ι) :
    let s := Runs.run (step cr3) (boot root) events
    Faithful s (s.waiters w) := by
  intro s
  obtain ⟨hsound, hknows⟩ : Kept s := Runs.run_invariant (step_kept cr3) (boot_kept root) events h
  have hw := hknows w
  cases hwait : s.waiters w with
  | idle | waiting | exited => trivial
  | destroying proc pid code stage =>
    rw [hwait] at hw
    refine ⟨hw.1, ?_⟩
    rw [← hw.1, ← hw.2.2]
    exact (hsound.agrees proc).recorded hw.2.1
  | returned pid code =>
    rw [hwait] at hw
    exact hw

/-- Two waiters on one process. -/
theorem run_faithful_of_unwaited_two :
    let s := Runs.run (step 1) (boot 1 : State (Fin 2)) ([.create, .wait 0 (.slot 0),
      .wait 1 (.slot 0), .exit (.slot 0) 7] ++ List.replicate 6 (.advance 0) ++
      List.replicate 6 (.advance 1) ++ [.create])
    s.waiters 1 = .returned 2 7 ∧ Faithful s (s.waiters 1) :=
  ⟨by decide +kernel, run_faithful_of_unwaited 1 1 _ (by decide +kernel) 1⟩

/-- The second waiter has seen that the process ended, and is held up there until the first has
destroyed it and its slot is reused. It reports the code of the new process, which is running, and
then destroys it. -/
theorem late_waiter_destroys_successor :
    let s := Runs.run (step 1) (boot 1 : State (Fin 2)) ([.create, .wait 0 (.slot 0),
      .wait 1 (.slot 0), .exit (.slot 0) 7, .advance 1] ++ List.replicate 6 (.advance 0) ++
      [.create] ++ List.replicate 4 (.advance 1))
    s.exits 2 = some 7 ∧ s.waiters 1 = .destroying (.slot 0) 2 0 .release ∧
      (s.processes (.slot 0)).pid = 3 ∧ (s.processes (.slot 0)).state = .dead ∧
      ¬ Faithful s (s.waiters 1) := by
  refine ⟨by decide +kernel, by decide +kernel, by decide +kernel, by decide +kernel, fun h => ?_⟩
  have hpid : ((3 : ℕ) = 2) := h.1
  cases hpid

end KosKernel.Processes.Waits
