import KosKernel.Syscalls

/-! Whatever the arguments, a system call reaches only user memory, through kernel buffers that
are large enough. -/
namespace KosKernel.Syscall
open Handle
variable {ν : Type*} {network : Network ν} {given : Prop}

def Network.ReceivesWithin (network : Network ν) : Prop :=
  ∀ e sock len flags, (kosRecv network e sock len flags).1.result.toInt ≤ len

def Outcome.Sound (given : Prop) (o : Outcome ν) : Prop := ∀ a ∈ o.accesses, a.Sound given

lemma return_sound (k : Kernel ν) (result : BitVec 64) : (k.return result).Sound given := by
  intro a ha
  cases ha

lemma Outcome.Sound.append {o : Outcome ν} (h : o.Sound given) {accesses : List Access}
    (haccesses : ∀ a ∈ accesses, a.Sound given) :
    ({ o with accesses := accesses ++ o.accesses } : Outcome ν).Sound given := by
  intro a ha
  obtain ha | ha := List.mem_append.mp ha
  · exact haccesses a ha
  · exact h a ha

lemma sysExit_sound (k : Kernel ν) (arg0 : BitVec 64) : (sysExit network k arg0).Sound given := by
  unfold sysExit processExit
  split
  · exact return_sound _ _
  split_ifs
  · exact return_sound _ _
  · intro a ha
    cases ha
  · exact return_sound _ _

lemma writeLoop_sound (uaddr : BitVec 64) (len fuel : ℕ) (k : Kernel ν) (written : ℕ) :
    (writeLoop uaddr len fuel k written).Sound given := by
  induction fuel generalizing k written with
  | zero => exact return_sound _ _
  | succ fuel ih =>
    unfold writeLoop
    split
    · have hcopy : ∀ a ∈ (copyFromUser k.memory (some 256) (uaddr + BitVec.ofNat 64 written)
          (BitVec.ofNat 64 (min (len - written) 256))).2, a.Sound given := by
        apply copyFromUser_confined
        intro _
        rw [BitVec.toNat_ofNat]
        exact (Nat.mod_le _ _).trans (Nat.min_le_right _ _)
      dsimp only
      split
      · next heq =>
        rw [heq] at hcopy
        exact hcopy
      · next heq =>
        rw [heq] at hcopy
        exact (ih _ _).append hcopy
    · exact return_sound _ _

lemma sysWrite_sound (k : Kernel ν) (arg0 arg1 arg2 : BitVec 64) :
    (sysWrite k arg0 arg1 arg2).Sound given := by
  unfold sysWrite
  dsimp only
  split_ifs
  · exact return_sound _ _
  · exact writeLoop_sound _ _ _ _ _

lemma readLoop_sound (uaddr : BitVec 64) (maxLen : ℕ) (keys : List (Option (BitVec 8)))
    (k : Kernel ν) (count : ℕ) : (readLoop uaddr maxLen keys k count).Sound given := by
  induction keys generalizing k count with
  | nil =>
    unfold readLoop
    split_ifs
    · intro a ha
      cases ha
    · intro a ha
      cases ha
  | cons key keys ih =>
    unfold readLoop
    split
    · cases key with
      | none => exact ih k count
      | some ch =>
        have hcopy : ∀ a ∈ (copyToUser k.memory (uaddr + BitVec.ofNat 64 count) (some 128) [ch]
            1#64).2, a.Sound given := by
          apply copyToUser_confined
          intro _
          decide
        dsimp only
        split
        · split
          · next heq =>
            rw [heq] at hcopy
            exact hcopy
          · next heq =>
            rw [heq] at hcopy
            split
            · exact hcopy
            · exact (ih _ _).append hcopy
        · exact ih k count
    · intro a ha
      cases ha

section
variable (k : Kernel ν)
include k

lemma sysRead_sound (arg0 arg1 arg2 : BitVec 64) : (sysRead k arg0 arg1 arg2).Sound given := by
  unfold sysRead
  dsimp only
  split_ifs
  · exact return_sound _ _
  · exact return_sound _ _
  · exact readLoop_sound _ _ _ _ _

lemma sysOpen_sound (arg0 : BitVec 64) : (sysOpen k arg0).Sound given := by
  have hcopy : ∀ a ∈ (strncpyFromUser k.memory (some 256) arg0 256).2.2, a.Sound given :=
    strncpyFromUser_confined le_rfl
  exact hcopy

lemma sysClose_sound (arg0 : BitVec 64) : (sysClose network k arg0).Sound given := by
  unfold sysClose
  split
  · exact return_sound _ _
  · exact return_sound _ _

lemma sysSocket_sound (arg0 arg1 arg2 : BitVec 64) :
    (sysSocket network k arg0 arg1 arg2).Sound given := by
  unfold sysSocket
  dsimp only
  split
  · exact return_sound _ _
  split_ifs
  · exact return_sound _ _
  · split
    · exact return_sound _ _
    · exact return_sound _ _

lemma sysConnect_sound (arg0 arg1 arg2 : BitVec 64) :
    (sysConnect network k arg0 arg1 arg2).Sound given := by
  unfold sysConnect
  split_ifs with hlen
  · exact return_sound _ _
  have hcopy : ∀ a ∈ (copyFromUser k.memory (some sockaddrSize) arg1
      (BitVec.ofNat 64 sockaddrSize)).2, a.Sound given := by
    apply copyFromUser_confined
    intro _
    decide
  split
  · next heq =>
    rw [heq] at hcopy
    exact hcopy
  · next heq =>
    rw [heq] at hcopy
    dsimp only
    split_ifs
    · exact hcopy
    · exact hcopy

end

lemma datagramLength_le (arg2 : BitVec 64) : datagramLength arg2 ≤ 1024 := Nat.min_le_right _ _

lemma sysSendto_sound (k : Kernel ν) (arg0 arg1 arg2 : BitVec 64) :
    (sysSendto network k arg0 arg1 arg2).Sound given := by
  unfold sysSendto
  have hcopy : ∀ a ∈ (copyFromUser k.memory (some 1024) arg1
      (BitVec.ofNat 64 (datagramLength arg2))).2, a.Sound given := by
    apply copyFromUser_confined
    intro _
    rw [BitVec.toNat_ofNat]
    exact (Nat.mod_le _ _).trans (datagramLength_le arg2)
  split
  · next heq =>
    rw [heq] at hcopy
    exact hcopy
  · next heq =>
    rw [heq] at hcopy
    dsimp only
    split_ifs
    · exact hcopy
    · exact hcopy

lemma signExtend_toNat {n : BitVec 32} (hpos : 0 < n.toInt) :
    ((n.signExtend 64).toNat : ℤ) = n.toInt := by
  have hmsb : n.msb = false := by
    rw [BitVec.msb_eq_toInt, decide_eq_false_iff_not]
    omega
  rw [BitVec.signExtend_eq_setWidth_of_msb_false hmsb, BitVec.toNat_setWidth,
    BitVec.toInt_eq_toNat_of_msb hmsb]
  have := n.isLt
  omega

lemma sysRecvfrom_sound (k : Kernel ν) (arg0 arg1 arg2 arg3 : BitVec 64) :
    (sysRecvfrom network k arg0 arg1 arg2 arg3).Sound network.ReceivesWithin := by
  unfold sysRecvfrom
  dsimp only
  split_ifs with hsock hpos
  · exact return_sound _ _
  · have hcopy : ∀ a ∈ (copyToUser k.memory arg1 (some 1024)
        (kosRecv network k.system.env (currentLookup k arg0 rightRead) (datagramLength arg2)
          (arg3.setWidth 32)).2
        ((kosRecv network k.system.env (currentLookup k arg0 rightRead) (datagramLength arg2)
          (arg3.setWidth 32)).1.result.signExtend 64)).2, a.Sound network.ReceivesWithin := by
      apply copyToUser_confined
      intro hwithin
      have hle := hwithin k.system.env (currentLookup k arg0 rightRead) (datagramLength arg2)
        (arg3.setWidth 32)
      have hvalue := signExtend_toNat hpos
      have hmax := datagramLength_le arg2
      omega
    split
    · next heq =>
      rw [heq] at hcopy
      exact hcopy
    · next heq =>
      rw [heq] at hcopy
      exact hcopy
  · intro a ha
    cases ha

lemma sound_ite {c : Prop} [Decidable c] {o o' : Outcome ν} (h : o.Sound given)
    (h' : o'.Sound given) : (if c then o else o').Sound given := by
  split
  · exact h
  · exact h'

theorem syscall_memory_confined (network : Network ν) (k : Kernel ν)
    (number arg0 arg1 arg2 arg3 arg4 arg5 : BitVec 64) :
    (∀ a ∈ (kosSyscallDispatch network k number arg0 arg1 arg2 arg3 arg4 arg5).accesses,
      a.Confined ∧ (network.ReceivesWithin → a.Fits)) ∧
    ∀ a ∈ (strlenUser k.memory arg0).2, a.Confined := by
  refine ⟨?_, strlenUser_confined k.memory arg0⟩
  have hsound : (kosSyscallDispatch network k number arg0 arg1 arg2 arg3 arg4 arg5).Sound
      network.ReceivesWithin := by
    unfold kosSyscallDispatch
    refine sound_ite (sysExit_sound k arg0) ?_
    iterate 6 refine sound_ite (return_sound _ _) ?_
    refine sound_ite (sysWrite_sound k arg0 arg1 arg2) ?_
    refine sound_ite (sysRead_sound k arg0 arg1 arg2) ?_
    refine sound_ite (sysOpen_sound k arg0) ?_
    refine sound_ite (sysClose_sound k arg0) ?_
    refine sound_ite (sysSocket_sound k arg0 arg1 arg2) ?_
    refine sound_ite (sysConnect_sound k arg0 arg1 arg2) ?_
    refine sound_ite (sysSendto_sound k arg0 arg1 arg2) ?_
    exact sound_ite (sysRecvfrom_sound k arg0 arg1 arg2 arg3) (return_sound _ _)
  exact hsound

def silentNetwork : Network Unit where
  tcpConnect _ _ _ := (-1#32, ())
  tcpSend _ _ _ := (-1#32, ())
  tcpReceive _ _ _ := (-1#32, [], ())
  tcpClose _ _ := ()
  udpOpen _ := (some 0#16, ())
  udpClose _ _ := ()
  udpSendto _ _ _ _ := (false, ())
  udpRecvfrom _ _ _ := (none, ())
  udpRecvfromTimeout _ _ _ _ := (none, ())

/-- A process without objects whose memory is full of the letter A. -/
def idleKernel (handles : ℕ → Option HandleTable) (objects : ℕ → ObjectHeader Destructor) :
    Kernel Unit where
  system := ⟨handles, objects, ⟨fun _ => { freshSocket 0 with inUse := false }, ()⟩⟩
  current := some 1
  pid _ := 2#64
  ppid _ := 1#64
  exited _ := none
  memory _ := 65#8
  keys := []
  serial := []
  console := []
  consoleReady := true
  uptimeSeconds := 0#64
  taskCount := 1#64

lemma silentNetwork_receivesWithin : silentNetwork.ReceivesWithin := by
  have herror : ∀ code ∈ [EINVAL, ENOTCONN, EAGAIN, EIO, EOPNOTSUPP], (error code).toInt ≤ 0 := by
    decide
  intro e sock len flags
  have hlen : ∀ code ∈ [EINVAL, ENOTCONN, EAGAIN, EIO, EOPNOTSUPP], (error code).toInt ≤ len :=
    fun code hcode => (herror code hcode).trans (Int.natCast_nonneg len)
  unfold kosRecv
  split
  · exact hlen EINVAL (by decide)
  dsimp only
  split
  · split
    · exact hlen ENOTCONN (by decide)
    have hneg : isNegative (-1#32) = true := rfl
    simp only [silentNetwork, hneg, if_true]
    split
    · exact hlen EAGAIN (by decide)
    · exact hlen EIO (by decide)
  · split
    · simp only [silentNetwork, ite_self]
      exact hlen EAGAIN (by decide)
    · exact hlen EOPNOTSUPP (by decide)

theorem syscall_memory_confined_sample :
    (kosSyscallDispatch silentNetwork (idleKernel (fun _ => none) fun _ => ⟨.none, 0#32, none⟩)
      SYS_sendto 0#64 0x1000#64 5#64 0#64 0#64 0#64).accesses = [⟨0x1000#64, 5, 0, 1024⟩] ∧
    Access.Fits ⟨0x1000#64, 5, 0, 1024⟩ := by
  have haccesses : (kosSyscallDispatch silentNetwork
      (idleKernel (fun _ => none) fun _ => ⟨.none, 0#32, none⟩)
      SYS_sendto 0#64 0x1000#64 5#64 0#64 0#64 0#64).accesses = [⟨0x1000#64, 5, 0, 1024⟩] := by
    decide +kernel
  have h := (syscall_memory_confined silentNetwork
    (idleKernel (fun _ => none) fun _ => ⟨.none, 0#32, none⟩) SYS_sendto 0#64 0x1000#64 5#64 0#64
    0#64 0#64).1
  rw [haccesses] at h
  exact ⟨haccesses, (h _ List.mem_cons_self).2 silentNetwork_receivesWithin⟩

end KosKernel.Syscall
