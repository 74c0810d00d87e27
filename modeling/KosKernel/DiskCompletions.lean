import KosKernel.Runs
import Mathlib.Tactic

/-! Requests to a disk and the completions of the device, in `drivers/virtio_blk.c` and
`drivers/nvme.c`. A call that times out returns; the device may complete its request later. -/
namespace KosKernel.Disk
open Function Runs

/-- Requests are numbered as they are submitted. `succeeded` are those the device has completed
successfully, `reported` those whose call returned true. -/
structure Requests where
  next : ℕ
  outstanding : List ℕ
  succeeded : List ℕ
  reported : List ℕ

def Requests.submit (x : Requests) : Requests :=
  { x with next := x.next + 1, outstanding := x.next :: x.outstanding }

def Requests.complete (x : Requests) (r : ℕ) (ok : Bool) : Requests :=
  { x with
    outstanding := x.outstanding.erase r
    succeeded := if ok then r :: x.succeeded else x.succeeded }

/-- The call on the latest request returns. -/
def Requests.report (x : Requests) (ok : Bool) : Requests :=
  { x with reported := if ok then (x.next - 1) :: x.reported else x.reported }

def Requests.Honest (x : Requests) : Prop := ∀ r ∈ x.reported, r ∈ x.succeeded

/-- `poll` is a look at the completion, `finish` what follows one that was seen. -/
inductive Event
  | submit
  | complete (r status : ℕ)
  | poll
  | finish
  | timeout

inductive Call
  | idle | polling | polled
  deriving DecidableEq

structure Virtio extends Requests where
  usedIdx : BitVec 16
  lastUsedIdx : BitVec 16
  statusByte : ℕ
  call : Call

def Virtio.step (s : Virtio) : Event → Virtio
  | .submit =>
    if s.call = .idle then
      { s with toRequests := s.submit, statusByte := 0xff, call := .polling }
    else s
  | .complete r status =>
    if r ∈ s.outstanding then
      { s with
        toRequests := s.complete r (status = 0)
        usedIdx := s.usedIdx + 1
        statusByte := status }
    else s
  | .poll =>
    if s.call = .polling ∧ s.usedIdx ≠ s.lastUsedIdx then
      { s with lastUsedIdx := s.usedIdx, call := .polled }
    else s
  | .finish =>
    if s.call = .polled then
      { s with toRequests := s.report (s.statusByte = 0), call := .idle }
    else s
  | .timeout => if s.call = .polling then { s with call := .idle } else s

/-- The device has completed the earlier requests. -/
def Virtio.Alone (s : Virtio) : Event → Prop
  | .submit => s.outstanding = []
  | _ => True

/-- Only the latest request is outstanding, and a status of zero is its own. -/
structure Virtio.Ok (s : Virtio) : Prop where
  latest : ∀ r ∈ s.outstanding, s.next = r + 1
  status : s.call ≠ .idle → s.statusByte = 0 → s.next - 1 ∈ s.succeeded
  honest : s.Honest

lemma Virtio.Ok.step {s : Virtio} {event : Event} (h : s.Ok) (hcond : s.Alone event) :
    (s.step event).Ok := by
  obtain ⟨hlatest, hstatus, hhonest⟩ := h
  cases event with
  | submit =>
    simp only [Virtio.step]
    split_ifs with hidle
    · -- the status byte is not zero until the device has written it
      refine ⟨fun r hr => ?_, fun _ hzero => absurd hzero (by simp), hhonest⟩
      have hnone : s.outstanding = [] := hcond
      obtain rfl : r = s.next := by simpa [Requests.submit, hnone] using hr
      rfl
    · exact ⟨hlatest, hstatus, hhonest⟩
  | complete r status =>
    simp only [Virtio.step]
    split_ifs with hr
    · refine ⟨fun q hq => hlatest q (List.mem_of_mem_erase hq), fun _ hzero => ?_, fun q hq => ?_⟩
      -- the status is that of the only outstanding request, the latest one
      · have hzero : status = 0 := hzero
        have hnext : s.next - 1 = r := by
          rw [hlatest r hr]
          rfl
        simp [Requests.complete, hzero, hnext]
      · have hsucceeded := hhonest q hq
        simp only [Requests.complete]
        split_ifs
        · exact List.mem_cons_of_mem r hsucceeded
        · exact hsucceeded
    · exact ⟨hlatest, hstatus, hhonest⟩
  | poll =>
    simp only [Virtio.step]
    split_ifs with hpoll
    · refine ⟨hlatest, fun _ hzero => hstatus ?_ hzero, hhonest⟩
      rw [hpoll.1]
      decide
    · exact ⟨hlatest, hstatus, hhonest⟩
  | finish =>
    simp only [Virtio.step]
    split_ifs with hpolled
    · refine ⟨hlatest, fun hcall => absurd rfl hcall, fun q hq => ?_⟩
      by_cases hzero : s.statusByte = 0
      · have hlast := hstatus (by rw [hpolled]; decide) hzero
        simp only [Requests.report, hzero, decide_true, if_true] at hq
        rcases List.mem_cons.mp hq with rfl | hq
        · exact hlast
        · exact hhonest q hq
      · simp only [Requests.report, hzero, decide_false, Bool.false_eq_true, if_false] at hq
        exact hhonest q hq
    · exact ⟨hlatest, hstatus, hhonest⟩
  | timeout =>
    simp only [Virtio.step]
    split_ifs
    · exact ⟨hlatest, fun hcall => absurd rfl hcall, hhonest⟩
    · exact ⟨hlatest, hstatus, hhonest⟩

structure Nvme extends Requests where
  cqHead : ℕ
  cqPhase : Bool
  /-- phase bit and status code of each entry -/
  cq : ℕ → Bool × ℕ
  deviceTail : ℕ
  devicePhase : Bool
  busy : Bool

/-- The next place in a completion queue, and the phase there. -/
def advance (size place : ℕ) (phase : Bool) : ℕ × Bool :=
  ((place + 1) % size, if (place + 1) % size = 0 then !phase else phase)

def Nvme.step (size : ℕ) (s : Nvme) : Event → Nvme
  | .submit => if s.busy then s else { s with toRequests := s.submit, busy := true }
  | .complete r status =>
    if r ∈ s.outstanding then
      { s with
        toRequests := s.complete r (status = 0)
        cq := update s.cq s.deviceTail (s.devicePhase, status)
        deviceTail := (advance size s.deviceTail s.devicePhase).1
        devicePhase := (advance size s.deviceTail s.devicePhase).2 }
    else s
  | .poll =>
    if s.busy = true ∧ (s.cq s.cqHead).1 = s.cqPhase then
      { s with
        toRequests := s.report ((s.cq s.cqHead).2 = 0)
        cqHead := (advance size s.cqHead s.cqPhase).1
        cqPhase := (advance size s.cqHead s.cqPhase).2
        busy := false }
    else s
  | .finish => s
  | .timeout => { s with busy := false }

/-- The device has completed the earlier requests, and their calls have taken the completions. -/
def Nvme.Alone (s : Nvme) : Event → Prop
  | .submit => s.outstanding = [] ∧ (s.cqHead, s.cqPhase) = (s.deviceTail, s.devicePhase)
  | _ => True

/-- The driver has taken all completions, or all but that of the latest request. -/
structure Nvme.Ok (size : ℕ) (s : Nvme) : Prop where
  tail : s.deviceTail < size
  phases : ∀ i < size, (s.cq i).1 = if i < s.deviceTail then s.devicePhase else !s.devicePhase
  latest : s.outstanding = [] ∨ s.outstanding = [s.next - 1]
  taken : (s.cqHead, s.cqPhase) = (s.deviceTail, s.devicePhase) ∨
    s.outstanding = [] ∧ (s.deviceTail, s.devicePhase) = advance size s.cqHead s.cqPhase ∧
      ((s.cq s.cqHead).2 = 0 → s.next - 1 ∈ s.succeeded)
  honest : s.Honest

/-- The entries in front of the device have its phase, those behind it the other one. -/
lemma phases_advance {size place : ℕ} {phase : Bool} {cq : ℕ → Bool × ℕ} (h : place < size)
    (hcq : ∀ i < size, (cq i).1 = if i < place then phase else !phase) (status i : ℕ)
    (hi : i < size) : (update cq place (phase, status) i).1 =
      if i < (advance size place phase).1 then (advance size place phase).2
      else !(advance size place phase).2 := by
  have hold := hcq i hi
  obtain hwrap | hwrap := Nat.lt_or_ge (place + 1) size
  · rw [advance, Nat.mod_eq_of_lt hwrap]
    grind
  · obtain rfl : place + 1 = size := by omega
    rw [advance, Nat.mod_self]
    grind

lemma Nvme.Ok.step {size : ℕ} {s : Nvme} {event : Event} (h : s.Ok size) (hcond : s.Alone event) :
    (s.step size event).Ok size := by
  obtain ⟨htail, hphases, hlatest, htaken, hhonest⟩ := h
  cases event with
  | submit =>
    simp only [Nvme.step]
    split_ifs
    · exact ⟨htail, hphases, hlatest, htaken, hhonest⟩
    · exact ⟨htail, hphases, .inr (by simp [Requests.submit, hcond.1]), .inl hcond.2, hhonest⟩
  | complete r status =>
    simp only [Nvme.step]
    split_ifs with hr
    · -- the request is the latest one, and the driver has taken all completions before
      obtain hnone | hone := hlatest
      · simp [hnone] at hr
      obtain ⟨hhead, hphase⟩ : s.cqHead = s.deviceTail ∧ s.cqPhase = s.devicePhase := by grind
      obtain rfl : r = s.next - 1 := by simpa [hone] using hr
      refine ⟨Nat.mod_lt _ (by omega), phases_advance htail hphases status, ?_, .inr ⟨?_, ?_, ?_⟩, ?_⟩ <;>
        simp only [Requests.complete, Requests.Honest] at * <;> grind
    · exact ⟨htail, hphases, hlatest, htaken, hhonest⟩
  | poll =>
    simp only [Nvme.step]
    split_ifs with hpoll
    · have hfree := hphases s.deviceTail htail
      refine ⟨htail, hphases, hlatest, ?_, ?_⟩ <;>
        simp only [Requests.report, Requests.Honest] at * <;> grind
    · exact ⟨htail, hphases, hlatest, htaken, hhonest⟩
  | finish => exact ⟨htail, hphases, hlatest, htaken, hhonest⟩
  | timeout => exact ⟨htail, hphases, hlatest, htaken, hhonest⟩

def freshVirtio : Virtio := ⟨⟨0, [], [], []⟩, 0, 0, 0, .idle⟩

def freshNvme : Nvme := ⟨⟨0, [], [], []⟩, 0, true, fun _ => (false, 0), 0, true, false⟩

lemma freshVirtio_ok : freshVirtio.Ok :=
  ⟨List.forall_mem_nil _, fun h => absurd rfl h, List.forall_mem_nil _⟩

lemma freshNvme_ok {size : ℕ} (hsize : 0 < size) : freshNvme.Ok size :=
  ⟨hsize, fun _ _ => rfl, .inl rfl, .inl rfl, List.forall_mem_nil _⟩

/-- In every run in which a request is submitted only when nothing of an earlier one is left, a
call that returns true is about a request that the device has completed successfully. -/
theorem run_honest_of_alone (events : List Event)
    (hevents : Along Virtio.step Virtio.Alone freshVirtio events) {size : ℕ} (hsize : 0 < size)
    (commands : List Event) (hcommands : Along (Nvme.step size) Nvme.Alone freshNvme commands) :
    (run Virtio.step freshVirtio events).Honest ∧
      (run (Nvme.step size) freshNvme commands).Honest :=
  ⟨(run_invariant (fun _ _ => Virtio.Ok.step) freshVirtio_ok events hevents).honest,
    (run_invariant (fun _ _ => Nvme.Ok.step) (freshNvme_ok hsize) commands hcommands).honest⟩

/-- A request that times out and fails later, and one that succeeds. -/
def virtioEvents : List Event :=
  [.submit, .timeout, .complete 0 1, .submit, .complete 1 0, .poll, .finish]

/-- Three requests on a queue of two entries; the second one fails. -/
def nvmeEvents : List Event :=
  [.submit, .complete 0 0, .poll, .submit, .complete 1 1, .poll, .submit, .complete 2 0, .poll]

theorem run_honest_sample :
    ((run Virtio.step freshVirtio virtioEvents).reported = [1] ∧
        (run (Nvme.step 2) freshNvme nvmeEvents).reported = [2, 0]) ∧
      (run Virtio.step freshVirtio virtioEvents).Honest ∧
      (run (Nvme.step 2) freshNvme nvmeEvents).Honest :=
  ⟨by decide, run_honest_of_alone virtioEvents
    ⟨rfl, trivial, trivial, rfl, trivial, trivial, trivial, trivial⟩ two_pos nvmeEvents
    ⟨⟨rfl, rfl⟩, trivial, trivial, ⟨rfl, rfl⟩, trivial, trivial, ⟨rfl, rfl⟩, trivial, trivial,
      trivial⟩⟩

/-- The late completion of a request that timed out passes for that of the next one. -/
theorem late_completion_reported :
    ¬(run Virtio.step freshVirtio
      [.submit, .timeout, .submit, .complete 0 0, .poll, .finish]).Honest ∧
    ¬(run (Nvme.step 2) freshNvme [.submit, .timeout, .submit, .complete 0 0, .poll]).Honest := by
  unfold Requests.Honest
  decide

end KosKernel.Disk
