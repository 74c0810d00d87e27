import KosKernel.Runs
import Mathlib.Tactic

/-! The transmit ring of `drivers/e1000.c`, shared with the device: the driver writes a frame to
the descriptor at `tx_next` and moves TDT past it, the device completes the descriptor at TDH. -/
namespace KosKernel.E1000
open Function Runs

abbrev Slot := Fin 32

/-- `accepted`: the frames of the calls that returned true since the last reset, with their
descriptors, as long as the device has not completed them. -/
structure State where
  initialized : Bool
  tdh : Slot
  tdt : Slot
  txNext : Slot
  done : Slot → Bool
  length : Slot → ℕ
  buffer : Slot → List (BitVec 8)
  accepted : List (Slot × List (BitVec 8))

inductive Event
  | send (frame : List (BitVec 8))
  | complete
  /-- `dev_ops_reset`, and whether the device came out of its reset in time -/
  | reset (ok : Bool)

def sendFrame (s : State) (frame : List (BitVec 8)) : Bool × State :=
  if frame.length < 14 ∨ 2048 < frame.length then (false, s)
  else if s.initialized = false ∨ s.done s.txNext = false then (false, s)
  else
    (true, { s with
      buffer := update s.buffer s.txNext (frame ++ (s.buffer s.txNext).drop frame.length)
      length := update s.length s.txNext frame.length
      done := update s.done s.txNext false
      txNext := s.txNext + 1
      tdt := s.txNext + 1
      accepted := (s.txNext, frame) :: s.accepted })

-- TDH and TDT behind a reset that the device does not finish in time
variable (hung : Slot × Slot → Slot × Slot)

def step (s : State) : Event → State
  | .send frame => (sendFrame s frame).2
  | .complete =>
    if s.tdh = s.tdt then s
    else { s with
      done := update s.done s.tdh true
      tdh := s.tdh + 1
      accepted := s.accepted.filter fun e => e.1 ≠ s.tdh }
  -- the descriptors keep the status they had
  | .reset true => { s with tdh := 0, tdt := 0, txNext := 0, accepted := [] }
  | .reset false => { s with tdh := (hung (s.tdh, s.tdt)).1, tdt := (hung (s.tdh, s.tdt)).2 }

/-- The assumption on the device: a reset that is not finished does not move the ring. -/
def RingHeld : Prop := ∀ registers, hung registers = registers

/-- The slot is one of TDH up to but excluding TDT, around the ring. -/
def State.Queued (s : State) (slot : Slot) : Prop := (slot - s.tdh).val < (s.tdt - s.tdh).val

def Safe (s : State) : Prop :=
  ∀ e ∈ s.accepted, s.Queued e.1 ∧ (s.buffer e.1).take e.2.length = e.2 ∧
    s.length e.1 = e.2.length

/-- `e1000_send_frame` is not called when one descriptor is left. -/
def Spare (s : State) : Event → Prop
  | .send _ => s.txNext + 1 ≠ s.tdh
  | _ => True

lemma sub_succ : ∀ a b : Slot, a + 1 ≠ b → (a + 1 - b).val = (a - b).val + 1 := by decide

lemma sub_succ_right : ∀ a b : Slot, a ≠ b → (a - (b + 1)).val + 1 = (a - b).val := by decide

/-- The driver and the device right after `e1000_configure_rings`. -/
structure Fresh (s : State) : Prop where
  next : s.txNext = s.tdt
  accepted : s.accepted = []

section
variable {hung} (hhung : RingHeld hung)
include hhung

lemma safe_step {s : State} {event : Event} (hcond : Spare s event)
    (h : s.txNext = s.tdt ∧ Safe s) :
    (step hung s event).txNext = (step hung s event).tdt ∧ Safe (step hung s event) := by
  obtain ⟨hnext, hsafe⟩ := h
  cases event with
  | send frame =>
    simp only [step, sendFrame]
    split_ifs
    · exact ⟨hnext, hsafe⟩
    · exact ⟨hnext, hsafe⟩
    have hgrow := sub_succ s.txNext s.tdh hcond
    refine ⟨rfl, List.forall_mem_cons.mpr ⟨by simp [State.Queued, hgrow], fun e he => ?_⟩⟩
    obtain ⟨hqueued, hbytes, hlength⟩ := hsafe e he
    rw [State.Queued, ← hnext] at hqueued
    -- an accepted frame is queued, so its descriptor is not the next one
    have hne : e.1 ≠ s.txNext := by
      intro heq
      simp [heq] at hqueued
    simp only [State.Queued, update_of_ne hne, hgrow]
    exact ⟨by omega, hbytes, hlength⟩
  | complete =>
    simp only [step]
    split_ifs with hempty
    · exact ⟨hnext, hsafe⟩
    refine ⟨hnext, fun e he => ?_⟩
    obtain ⟨hmem, hne⟩ := List.mem_filter.mp he
    obtain ⟨hqueued, hbytes⟩ := hsafe e hmem
    have hslot := sub_succ_right e.1 s.tdh (by simpa using hne)
    have htail := sub_succ_right s.tdt s.tdh (Ne.symm hempty)
    unfold State.Queued at hqueued ⊢
    exact ⟨by dsimp only; omega, hbytes⟩
  | reset ok =>
    cases ok with
    | false =>
      simp only [step, hhung (s.tdh, s.tdt)]
      exact ⟨hnext, hsafe⟩
    | true => exact ⟨rfl, by simp [Safe, step]⟩

/-- In every run in which one descriptor is kept free, no accepted frame is lost or overwritten. -/
theorem run_safe_of_spare {s : State} (hs : Fresh s) (events : List Event)
    (hrun : Along (step hung) Spare s events) : Safe (run (step hung) s events) :=
  (@run_invariant _ _ _ _ (fun s => s.txNext = s.tdt ∧ Safe s)
    (fun _ _ hinv hcond => safe_step hhung hcond hinv) _
    ⟨hs.next, by simp [Safe, hs.accepted]⟩ events hrun).2

end

def sampleRing : State := ⟨true, 0, 0, 0, fun _ => true, fun _ => 0, fun _ => [], []⟩

def sampleFrame : List (BitVec 8) := List.replicate 14 0

theorem run_safe_sample :
    Safe (run (step id) sampleRing [.send sampleFrame, .complete, .send sampleFrame, .reset false]) :=
  run_safe_of_spare (fun _ => rfl) ⟨rfl, rfl⟩
    [.send sampleFrame, .complete, .send sampleFrame, .reset false]
    ⟨show sampleRing.txNext + 1 ≠ sampleRing.tdh by decide, trivial,
      show (1 + 1 : Slot) ≠ 1 by decide, trivial, trivial⟩

/-- With all 32 descriptors in use TDT is at TDH again, and the ring looks empty. -/
theorem full_ring_looks_empty :
    ¬Safe (run (step id) sampleRing (List.replicate 32 (.send sampleFrame))) := by
  unfold Safe State.Queued
  decide +kernel

end KosKernel.E1000
