import KosKernel.Runs
import Mathlib.Data.List.Range

/-! The process table of `kernel/process.c` and the page-table roots its processes refer to. -/
namespace KosKernel.Processes
open Function List

def processMaxCount : ℕ := 32

inductive ProcessState
  | unused | active | zombie | dead
  deriving DecidableEq

/-- `pml4Physical` is 0 when the process has no address space. -/
structure Process where
  pid : ℕ
  state : ProcessState
  exitCode : ℤ
  pml4Physical : ℕ
  deriving DecidableEq

/-- What a `struct process *` points to: one of the two fixed processes or a slot of the table. -/
inductive ProcessRef
  | idle | kernel
  | slot (index : ℕ)
  deriving DecidableEq

abbrev Table := ProcessRef → Process

def freeSlot (processes : Table) : Option ℕ :=
  (range processMaxCount).find? fun i =>
    (processes (.slot i)).state = .unused || (processes (.slot i)).state = .dead

def Process.exited (proc : Process) : Bool := proc.state = .zombie || proc.state = .dead

def Process.live (proc : Process) : Bool := proc.state = .active || proc.state = .zombie

/-- What `process_subsystem_init` sets up, with the boot page tables at `root`. -/
def bootTable (root : ℕ) : Table
  | .idle => ⟨0, .active, 0, root⟩
  | .kernel => ⟨1, .active, 0, root⟩
  | .slot _ => ⟨0, .unused, 0, 0⟩

namespace Roots

/-- `cr3` is without its flag bits. `allocated` are the roots that hold page tables, and `kernelPml4`
is the one `vmm_init` found, `vmm.kernel_pml4_phys`. -/
structure State where
  processes : Table
  nextPid : ℕ
  current : ProcessRef
  cr3 : ℕ
  allocated : List ℕ
  kernelPml4 : ℕ

namespace State
variable (s : State)

def root : ProcessRef → ℕ := Process.pml4Physical ∘ s.processes

/-- The boot page tables are never freed, and a root that is loaded is left first. -/
def vmmDestroyAddressSpace (root : ℕ) : State :=
  if root = 0 ∨ root = s.kernelPml4 then s
  else
    { s with
      cr3 := if s.cr3 = root then s.kernelPml4 else s.cr3
      allocated := s.allocated.filter (· ≠ root) }

/-- What `process_destroy` and `process_exec` do about a root that is given up. -/
def release (root : ℕ) : State :=
  if root ≠ 0 ∧ root ≠ s.root .kernel then s.vmmDestroyAddressSpace root else s

end State

def boot (root : ℕ) : State := ⟨bootTable root, 2, .kernel, root, [root], root⟩

def schedule (s : State) (next : ProcessRef) : State :=
  { s with
    current := next
    cr3 := if s.root next ≠ 0 ∧ s.current ≠ next then s.root next else s.cr3 }

/-- The new process gets the root that happens to be loaded. -/
def processCreate (s : State) : State :=
  match freeSlot s.processes with
  | none => s
  | some i =>
    { s with
      processes := update s.processes (.slot i) ⟨s.nextPid, .active, 0, s.cr3⟩
      nextPid := s.nextPid + 1 }

def processDestroy (s : State) (proc : ProcessRef) : State :=
  if (s.processes proc).pid ≤ 1 then s
  else
    let dead := { s with
      processes := update s.processes proc
        { s.processes proc with state := .dead, pml4Physical := 0 } }
    dead.release (s.root proc)

/-- `abandoned`: no thread is left and the parent is gone. -/
def processExit (s : State) (proc : ProcessRef) (code : ℤ) (abandoned : Bool) : State :=
  if (s.processes proc).pid ≤ 1 ∨ (s.processes proc).exited then s
  else
    let marked := { s with
      processes := update s.processes proc
        { s.processes proc with state := .zombie, exitCode := code } }
    if abandoned then processDestroy marked proc else marked

def processWait (s : State) (proc : ProcessRef) : State :=
  if (s.processes proc).exited then processDestroy s proc else s

/-- `root` is what `vmm_create_address_space` finds, a frame not in use or 0. An image that cannot be
loaded gives it back. -/
def processExec (s : State) (root : ℕ) (loaded : Bool) : State :=
  if root = 0 ∨ root ∈ s.allocated then s
  else
    let created := { s with allocated := root :: s.allocated }
    if loaded then
      { created.release (s.root s.current) with
        processes := update s.processes s.current
          { s.processes s.current with pml4Physical := root }
        cr3 := root }
    else created.vmmDestroyAddressSpace root

inductive Call
  | schedule (next : ProcessRef)
  | create
  | exec (root : ℕ) (loaded : Bool)
  | exit (proc : ProcessRef) (code : ℤ) (abandoned : Bool)
  | wait (proc : ProcessRef)
  | destroy (proc : ProcessRef)
  deriving DecidableEq

def step (s : State) : Call → State
  | .schedule next => schedule s next
  | .create => processCreate s
  | .exec root loaded => processExec s root loaded
  | .exit proc code abandoned => processExit s proc code abandoned
  | .wait proc => processWait s proc
  | .destroy proc => processDestroy s proc

/-- Processes are created while the boot page tables are loaded. -/
def KernelContext (s : State) : Call → Prop
  | .create => s.cr3 = s.kernelPml4
  | _ => True

instance (s : State) : ∀ call, Decidable (KernelContext s call)
  | .create => inferInstanceAs (Decidable (_ = _))
  | .exec _ _ | .schedule _ | .exit _ _ _ | .wait _ | .destroy _ =>
    inferInstanceAs (Decidable True)

/-- Every root referred to is allocated, and only the kernel's is shared. -/
structure Owned (kernelPml4 : ℕ) (root : ProcessRef → ℕ) (allocated : List ℕ) : Prop where
  kernel : kernelPml4 ∈ allocated
  allocated : ∀ p, root p = 0 ∨ root p ∈ allocated
  unique : ∀ p q, p ≠ q → root p = root q → root p = 0 ∨ root p = kernelPml4

section
variable {kernelPml4 : ℕ} {root : ProcessRef → ℕ} {allocated allocated' : List ℕ}

lemma Owned.mono (h : Owned kernelPml4 root allocated)
    (hkept : ∀ r ∈ allocated, r ∈ allocated') : Owned kernelPml4 root allocated' :=
  ⟨hkept _ h.kernel, fun p => (h.allocated p).imp_right (hkept _), h.unique⟩

/-- A process takes a root that is none, the kernel's, or new, and the root it had may be
released. -/
lemma Owned.assign (h : Owned kernelPml4 root allocated) (proc : ProcessRef) {r : ℕ}
    (hkept : ∀ r' ∈ allocated, r' ∈ allocated' ∨ r' = root proc ∧ r' ≠ 0 ∧ r' ≠ kernelPml4)
    (hr : r = 0 ∨ r ∈ allocated' ∧ (r = kernelPml4 ∨ r ∉ allocated)) :
    Owned kernelPml4 (update root proc r) allocated' := by
  have hown : ∀ p, r = root p → r = 0 ∨ r = kernelPml4 := by
    rintro p rfl
    refine hr.elim .inl fun hr => hr.2.elim .inr fun hnew => ?_
    exact .inl ((h.allocated p).resolve_right hnew)
  refine ⟨(hkept _ h.kernel).resolve_right fun hlost => hlost.2.2 rfl, fun p => ?_, fun p q hpq => ?_⟩
  · by_cases hp : p = proc
    · rw [hp, update_self]
      exact hr.imp_right And.left
    rw [update_of_ne hp]
    refine (h.allocated p).elim .inl fun hmem => ?_
    refine (hkept _ hmem).elim .inr fun ⟨hshared, hzero, hnot⟩ => ?_
    exact absurd (h.unique p proc hp hshared) (not_or.mpr ⟨hzero, hnot⟩)
  · obtain rfl | hp := eq_or_ne p proc
    · rw [update_self, update_of_ne hpq.symm]
      exact hown q
    rw [update_of_ne hp]
    by_cases hq : q = proc
    · rw [hq, update_self]
      intro heq
      rw [heq]
      exact hown p heq.symm
    · rw [update_of_ne hq]
      exact h.unique p q hpq

end

def Kept (s : State) : Prop := Owned s.kernelPml4 s.root s.allocated

lemma boot_kept (root : ℕ) : Kept (boot root) := by
  refine ⟨mem_singleton_self root, fun p => ?_, fun p q _ _ => ?_⟩
  · cases p <;> simp [boot, State.root, bootTable]
  · cases p <;> simp [boot, State.root, bootTable]

variable {s : State}

lemma vmmDestroyAddressSpace_fields (root : ℕ) :
    (s.vmmDestroyAddressSpace root).processes = s.processes ∧
    (s.vmmDestroyAddressSpace root).kernelPml4 = s.kernelPml4 ∧
    ∀ r ∈ s.allocated, r ∈ (s.vmmDestroyAddressSpace root).allocated ∨
      r = root ∧ r ≠ 0 ∧ r ≠ s.kernelPml4 := by
  unfold State.vmmDestroyAddressSpace
  split
  · exact ⟨rfl, rfl, fun _ => .inl⟩
  rename_i hguard
  refine ⟨rfl, rfl, fun r hr => ?_⟩
  obtain rfl | heq := eq_or_ne r root
  · exact .inr ⟨rfl, not_or.mp hguard⟩
  · exact .inl (mem_filter.mpr ⟨hr, decide_eq_true heq⟩)

lemma release_fields (root : ℕ) :
    (s.release root).processes = s.processes ∧ (s.release root).kernelPml4 = s.kernelPml4 ∧
    ∀ r ∈ s.allocated, r ∈ (s.release root).allocated ∨ r = root ∧ r ≠ 0 ∧ r ≠ s.kernelPml4 := by
  unfold State.release
  split
  · exact vmmDestroyAddressSpace_fields root
  · exact ⟨rfl, rfl, fun _ => .inl⟩

lemma processDestroy_kept (h : Kept s) (proc : ProcessRef) : Kept (processDestroy s proc) := by
  unfold processDestroy
  split
  · exact h
  set dead := { s with processes := update s.processes proc _ } with hdead
  obtain ⟨hprocesses, hkernel, hkept⟩ := release_fields (s := dead) (s.root proc)
  have hroot : (dead.release (s.root proc)).root = update s.root proc 0 := by
    rw [State.root, hprocesses, hdead, comp_update]
    rfl
  unfold Kept
  rw [hkernel, hroot]
  exact h.assign proc hkept (.inl rfl)

lemma processExec_kept (h : Kept s) (root : ℕ) (loaded : Bool) : Kept (processExec s root loaded) := by
  unfold processExec
  split
  · exact h
  rename_i hfound
  rw [not_or] at hfound
  set created := { s with allocated := root :: s.allocated } with hcreated
  cases loaded with
  | true =>
    obtain ⟨-, hkernel, hkept⟩ := release_fields (s := created) (s.root s.current)
    -- The new root is not the one given up, which is in use.
    have hnew : root ∈ (created.release (s.root s.current)).allocated := by
      refine (hkept root mem_cons_self).resolve_right fun hlost => ?_
      have hused := (h.allocated s.current).resolve_left (hlost.1 ▸ hlost.2.1)
      exact hfound.2 (hlost.1 ▸ hused)
    have howned : Owned (created.release (s.root s.current)).kernelPml4
        (Process.pml4Physical ∘ update s.processes s.current
          { s.processes s.current with pml4Physical := root })
        (created.release (s.root s.current)).allocated := by
      rw [hkernel, comp_update]
      exact h.assign s.current (fun r hr => hkept r (mem_cons_of_mem _ hr))
        (.inr ⟨hnew, .inr hfound.2⟩)
    exact howned
  | false =>
    obtain ⟨hprocesses, hkernel, hkept⟩ := vmmDestroyAddressSpace_fields (s := created) root
    have hroots : Kept (created.vmmDestroyAddressSpace root) := by
      unfold Kept
      rw [hkernel, State.root, hprocesses]
      refine h.mono fun r hr => (hkept r (mem_cons_of_mem _ hr)).resolve_right fun hlost => ?_
      exact hfound.2 (hlost.1 ▸ hr)
    exact hroots

lemma step_kept (s : State) (call : Call) (h : Kept s) (hcall : KernelContext s call) :
    Kept (step s call) := by
  cases call with
  | schedule next => exact h
  | create =>
    rw [step, processCreate]
    cases freeSlot s.processes with
    | none => exact h
    | some i =>
      have hcr3 : s.cr3 = s.kernelPml4 := hcall
      unfold Kept
      rw [State.root, comp_update, hcr3]
      exact h.assign _ (fun _ => .inl) (.inr ⟨h.kernel, .inl rfl⟩)
  | exec root loaded => exact processExec_kept h root loaded
  | exit proc code abandoned =>
    rw [step, processExit]
    split
    · exact h
    have hmark : Kept { s with
        processes := update s.processes proc
          { s.processes proc with state := .zombie, exitCode := code } } := by
      unfold Kept
      rw [State.root, comp_update]
      have hsame : Owned s.kernelPml4 (update s.root proc (s.root proc)) s.allocated := by
        rw [update_eq_self]
        exact h
      exact hsame
    dsimp only
    split
    · exact processDestroy_kept hmark proc
    · exact hmark
  | wait proc =>
    rw [step, processWait]
    split
    · exact processDestroy_kept h proc
    · exact h
  | destroy proc => exact processDestroy_kept h proc

/-- Between live processes only the kernel's root is shared, and the root of a live process is never
released. -/
def Exclusive (s : State) : Prop :=
  (∀ p q, (s.processes p).live → (s.processes q).live → p ≠ q → s.root p = s.root q →
    s.root p = 0 ∨ s.root p = s.kernelPml4) ∧
  ∀ p, (s.processes p).live → s.root p = 0 ∨ s.root p ∈ s.allocated

theorem run_exclusive_of_kernelContext (root : ℕ) (calls : List Call)
    (h : Runs.Along step KernelContext (boot root) calls) :
    Exclusive (Runs.run step (boot root) calls) := by
  have howned := Runs.run_invariant step_kept (boot_kept root) calls h
  exact ⟨fun p q _ _ => howned.unique p q, fun p _ => howned.allocated p⟩

/-- Two processes created by the kernel execute images, and one exits and is waited for; then the
kernel process executes an image itself, and the other process is destroyed. -/
theorem run_exclusive_of_kernelContext_two :
    Exclusive (Runs.run step (boot 1) [.create, .create, .schedule (.slot 0), .exec 2 true,
      .schedule (.slot 1), .exec 3 true, .schedule .kernel, .exit (.slot 0) 0 false,
      .wait (.slot 0), .create, .exec 4 true, .destroy (.slot 1)]) :=
  run_exclusive_of_kernelContext 1 _ (by decide +kernel)

/-- A process that has executed an image creates another and exits: the child has lost its address
space. -/
theorem run_not_exclusive :
    ¬ Exclusive (Runs.run step (boot 1) [.create, .schedule (.slot 0), .exec 2 true, .create]) ∧
    ¬ Exclusive (Runs.run step (boot 1) [.create, .schedule (.slot 0), .exec 2 true, .create,
      .schedule .kernel, .exit (.slot 0) 0 false, .wait (.slot 0)]) := by
  refine ⟨fun h => ?_, fun h => ?_⟩
  · exact absurd (h.1 (.slot 0) (.slot 1)) (by decide +kernel)
  · exact absurd (h.2 (.slot 1)) (by decide +kernel)

end Roots
end KosKernel.Processes
