import KosKernel.SyscallConfinement
import KosKernel.HandleDerivation

/-! The socket calls look their handle up without its type, so a handle to another kind of
object that carries the right they ask for is used as a socket. -/
namespace KosKernel.Syscall
open Handle
variable {ν : Type*} (network : Network ν)

inductive SocketSyscall
  | connect
  | sendto
  | recvfrom
  deriving DecidableEq

def SocketSyscall.number : SocketSyscall → BitVec 64
  | .connect => SYS_connect
  | .sendto => SYS_sendto
  | .recvfrom => SYS_recvfrom

def SocketSyscall.right : SocketSyscall → BitVec 32
  | .connect => rightWrite
  | .sendto => rightWrite
  | .recvfrom => rightRead

/-- The arguments pass the checks that are made before the object is used. -/
def SocketSyscall.ArgumentsPass (k : Kernel ν) (arg1 arg2 : BitVec 64) : SocketSyscall → Prop
  | .connect => sockaddrSize ≤ arg2.toNat ∧ accessOk arg1 (BitVec.ofNat 64 sockaddrSize) = true ∧
      sockaddrSize ≤ (arg2.setWidth 32).toNat ∧
      familyOk (readBytes k.memory arg1 sockaddrSize) = true
  | .sendto => accessOk arg1 (BitVec.ofNat 64 (datagramLength arg2)) = true
  | .recvfrom => True

/-- The handle names a live object, of whatever kind, for which it carries the right of the
call. -/
def namesOther (k : Kernel ν) (arg0 : BitVec 64) (right : BitVec 32) : Prop :=
  currentLookup k arg0 right ≠ 0 ∧
    (k.system.objects (currentLookup k arg0 right)).type ≠ .socket

def Outcome.Fails (o : Outcome ν) : Prop := ∃ code, 0 < code ∧ code < 2 ^ 31 ∧ o.result = some (errno code)

/-- Only sockets are used, and a handle to anything else makes the call fail. -/
structure TypeSafe (k : Kernel ν) (arg0 : BitVec 64) (o : Outcome ν) : Prop where
  touched : ∀ object ∈ o.touched, (k.system.objects object).type = .socket
  other_fails : namesOther k arg0 rightNone →
    o.Fails ∧ o.touched = [] ∧ o.kernel.system = k.system

variable {right : BitVec 32}

section
lemma handleLookup_none {s : SystemState ν} {proc : ℕ} {handle : BitVec 32}
    (h : handleLookup s proc handle right ≠ 0) :
    handleLookup s proc handle rightNone = handleLookup s proc handle right := by
  obtain ⟨table, entry, htable, hentry, -, hobj⟩ := handleLookup_ne_zero h
  rw [hobj]
  simp [handleLookup, htable, hentry, rightNone]

lemma currentLookup_none {k : Kernel ν} {arg0 : BitVec 64} (h : currentLookup k arg0 right ≠ 0) :
    currentLookup k arg0 rightNone = currentLookup k arg0 right := by
  unfold currentLookup at h ⊢
  cases hcurrent : k.current with
  | none => rfl
  | some proc =>
    simp only [hcurrent] at h
    exact handleLookup_none h

end

section
section
variable {sock : ℕ} (e : NetState ν) (addr : List (BitVec 8)) (addrlen : BitVec 32)
  (hsock : sock ≠ 0)
include e addr addrlen hsock

lemma kosConnect_touched (hlen : sockaddrSize ≤ addrlen.toNat) (hfamily : familyOk addr = true) :
    (kosConnect network e sock addr addrlen).touched = [sock] := by
  unfold kosConnect
  rw [if_neg (by simp [hsock, hlen]), if_neg (by simp [hfamily])]
  dsimp only
  split
  · split <;> rfl
  · split <;> rfl

lemma kosConnect_refused (hbad : ¬(sockaddrSize ≤ addrlen.toNat ∧ familyOk addr = true)) :
    kosConnect network e sock addr addrlen = ⟨error EINVAL, e, []⟩ ∨
      kosConnect network e sock addr addrlen = ⟨error EAFNOSUPPORT, e, []⟩ := by
  unfold kosConnect
  by_cases hlen : sockaddrSize ≤ addrlen.toNat
  · right
    have hfamily : familyOk addr = false := by
      rw [← Bool.not_eq_true]
      exact fun h => hbad ⟨hlen, h⟩
    rw [if_neg (by simp [hsock, hlen]), if_pos hfamily]
  · left
    exact if_pos (.inr (not_le.mp hlen))

end

lemma kosSend_touched (e : NetState ν) {sock : ℕ} (buf : List (BitVec 8)) (hsock : sock ≠ 0) :
    (kosSend network e sock buf).touched = [sock] := by
  unfold kosSend
  rw [if_neg hsock]
  dsimp only
  split
  · split <;> rfl
  split
  · split <;> rfl
  · rfl

lemma kosRecv_touched (e : NetState ν) {sock : ℕ} (len : ℕ) (flags : BitVec 32) (hsock : sock ≠ 0) :
    (kosRecv network e sock len flags).1.touched = [sock] := by
  unfold kosRecv
  rw [if_neg hsock]
  dsimp only
  split
  · split
    · rfl
    · split <;> rfl
  split
  · split <;> rfl
  · rfl

end

section
variable {k : Kernel ν} {arg0 arg1 arg2 arg3 : BitVec 64}

variable {o : Outcome ν}

lemma typeSafe_of_error (code : ℕ) (hcode : 0 < code ∧ code < 2 ^ 31)
    (hres : o.result = some (errno code)) (htouch : o.touched = [])
    (hsystem : o.kernel.system = k.system) : TypeSafe k arg0 o := by
  constructor
  · intro obj hobj
    rw [htouch] at hobj
    cases hobj
  · intro _
    exact ⟨⟨code, hcode.1, hcode.2, hres⟩, htouch, hsystem⟩

lemma typeSafe_iff_of_touched
    (hsock : currentLookup k arg0 right ≠ 0) (htouch : o.touched = [currentLookup k arg0 right]) :
    TypeSafe k arg0 o ↔ ¬namesOther k arg0 right := by
  constructor
  · intro h hother
    exact hother.2 (h.touched _ (by rw [htouch]; exact List.mem_singleton_self _))
  intro hsocket
  have htype : (k.system.objects (currentLookup k arg0 right)).type = .socket := by
    by_contra hne
    exact hsocket ⟨hsock, hne⟩
  constructor
  · intro obj hobj
    rw [htouch] at hobj
    rw [List.mem_singleton.mp hobj, htype]
  intro hother
  rw [namesOther, currentLookup_none hsock] at hother
  exact absurd htype hother.2

lemma typeSafe_iff_of_refused {pass : Prop}
    (hsafe : TypeSafe k arg0 o) (hrefuse : ¬(pass ∧ currentLookup k arg0 right ≠ 0)) :
    TypeSafe k arg0 o ↔ ¬(pass ∧ namesOther k arg0 right) :=
  iff_of_true hsafe fun h => hrefuse ⟨h.1, h.2.1⟩

lemma copyFromUser_ok (memory : UserMemory) (buffer : ℕ) {src size : BitVec 64}
    (h : accessOk src size = true) :
    ∃ accesses, copyFromUser memory (some buffer) src size =
      (some (readBytes memory src size.toNat), accesses) := by
  unfold copyFromUser
  by_cases hzero : size = 0#64
  · subst hzero
    exact ⟨[], if_pos rfl⟩
  refine ⟨[⟨src, size.toNat, 0, buffer⟩], ?_⟩
  rw [if_neg hzero]
  exact if_neg (by simp [h])

lemma copyFromUser_bad {memory : UserMemory} {buffer : ℕ} {src size : BitVec 64}
    (h : accessOk src size = false) : copyFromUser memory (some buffer) src size = (none, []) := by
  have hzero : size ≠ 0#64 := by
    rintro rfl
    simp [accessOk] at h
  unfold copyFromUser
  rw [if_neg hzero]
  exact if_pos h

lemma sysRecvfrom_typeSafe :
    TypeSafe k arg0 (sysRecvfrom network k arg0 arg1 arg2 arg3) ↔ ¬namesOther k arg0 rightRead := by
  by_cases hsock : currentLookup k arg0 rightRead = 0
  · refine iff_of_true ?_ (fun h => h.1 hsock)
    have hcall : sysRecvfrom network k arg0 arg1 arg2 arg3 = k.return (errno EBADF) := if_pos hsock
    rw [hcall]
    exact typeSafe_of_error EBADF (by decide) rfl rfl rfl
  apply typeSafe_iff_of_touched hsock
  have htouch := kosRecv_touched network k.system.env (datagramLength arg2)
    (arg3.setWidth 32) hsock
  unfold sysRecvfrom
  rw [if_neg hsock]
  dsimp only
  split
  · split <;> exact htouch
  · exact htouch

lemma sysSendto_typeSafe :
    TypeSafe k arg0 (sysSendto network k arg0 arg1 arg2) ↔
      ¬(SocketSyscall.sendto.ArgumentsPass k arg1 arg2 ∧ namesOther k arg0 rightWrite) := by
  unfold sysSendto
  by_cases hok : accessOk arg1 (BitVec.ofNat 64 (datagramLength arg2)) = true
  · obtain ⟨accesses, hcopy⟩ := copyFromUser_ok k.memory 1024 hok
    rw [hcopy]
    dsimp only
    by_cases hsock : currentLookup k arg0 rightWrite = 0
    · rw [if_pos hsock]
      exact typeSafe_iff_of_refused (typeSafe_of_error EBADF (by decide) rfl rfl rfl)
        fun h => h.2 hsock
    rw [if_neg hsock]
    have hpass : SocketSyscall.sendto.ArgumentsPass k arg1 arg2 := hok
    simp only [hpass, true_and]
    exact typeSafe_iff_of_touched hsock (kosSend_touched network _ _ hsock)
  · rw [copyFromUser_bad (Bool.eq_false_iff.mpr hok)]
    exact typeSafe_iff_of_refused (typeSafe_of_error EFAULT (by decide) rfl rfl rfl)
      fun h => hok h.1

lemma sysConnect_typeSafe :
    TypeSafe k arg0 (sysConnect network k arg0 arg1 arg2) ↔
      ¬(SocketSyscall.connect.ArgumentsPass k arg1 arg2 ∧ namesOther k arg0 rightWrite) := by
  unfold sysConnect
  by_cases hlen : arg2.toNat < sockaddrSize
  · rw [if_pos hlen]
    exact typeSafe_iff_of_refused (typeSafe_of_error EINVAL (by decide) rfl rfl rfl)
      fun h => absurd h.1.1 (not_le.mpr hlen)
  rw [if_neg hlen]
  by_cases hok : accessOk arg1 (BitVec.ofNat 64 sockaddrSize) = true
  · obtain ⟨accesses, hcopy⟩ := copyFromUser_ok k.memory sockaddrSize hok
    have hsize : (BitVec.ofNat 64 sockaddrSize).toNat = sockaddrSize := rfl
    rw [hcopy, hsize]
    dsimp only
    by_cases hsock : currentLookup k arg0 rightWrite = 0
    · rw [if_pos hsock]
      exact typeSafe_iff_of_refused (typeSafe_of_error EBADF (by decide) rfl rfl rfl)
        fun h => h.2 hsock
    rw [if_neg hsock]
    by_cases haddr : sockaddrSize ≤ (arg2.setWidth 32).toNat ∧
        familyOk (readBytes k.memory arg1 sockaddrSize) = true
    · have hpass : SocketSyscall.connect.ArgumentsPass k arg1 arg2 :=
        ⟨not_lt.mp hlen, hok, haddr.1, haddr.2⟩
      simp only [hpass, true_and]
      exact typeSafe_iff_of_touched hsock (kosConnect_touched network _ _ _ hsock haddr.1 haddr.2)
    refine typeSafe_iff_of_refused ?_ (fun h => haddr ⟨h.1.2.2.1, h.1.2.2.2⟩)
    obtain hcall | hcall := kosConnect_refused network k.system.env
      (readBytes k.memory arg1 sockaddrSize) (arg2.setWidth 32) hsock haddr
    · rw [hcall]
      exact typeSafe_of_error EINVAL (by decide) rfl rfl rfl
    · rw [hcall]
      exact typeSafe_of_error EAFNOSUPPORT (by decide) rfl rfl rfl
  · rw [copyFromUser_bad (Bool.eq_false_iff.mpr hok)]
    exact typeSafe_iff_of_refused (typeSafe_of_error EFAULT (by decide) rfl rfl rfl)
      fun h => hok h.1.2.1

end

/-- A socket call is type safe exactly when its arguments are refused, or its handle does not
carry the right of the call to an object of another kind. -/
theorem socket_calls_type_safe_iff (network : Network ν) (k : Kernel ν) (call : SocketSyscall)
    (arg0 arg1 arg2 arg3 arg4 arg5 : BitVec 64) :
    TypeSafe k arg0 (kosSyscallDispatch network k call.number arg0 arg1 arg2 arg3 arg4 arg5) ↔
      ¬(call.ArgumentsPass k arg1 arg2 ∧ namesOther k arg0 call.right) := by
  cases call with
  | connect => exact sysConnect_typeSafe network
  | sendto => exact sysSendto_typeSafe network
  | recvfrom =>
    rw [SocketSyscall.ArgumentsPass, true_and]
    exact sysRecvfrom_typeSafe network

def eventCreate (network : Network ν) (s : SystemState ν) (process ev : ℕ) : BitVec 32 × SystemState ν :=
  if ev = 0 then (invalidHandle, s)
  else
    match handleCreate (kosObjectInit s ev .event (some .event)) process ev
      (rightWait ||| rightSignal ||| rightRead ||| rightWrite ||| rightDuplicate |||
        rightDestroy) with
    | (handle, s) => (handle, kosObjectUnref (runKernelDestructor network) s ev)

def eventKernel : Kernel Unit :=
  let k := idleKernel (fun _ => some handleTableCreate) fun _ => ⟨.none, 0#32, none⟩
  { k with system := (eventCreate silentNetwork k.system 1 4096).2 }

/-- Receiving from the handle of an event uses the event as a socket. -/
theorem event_used_as_socket :
    (eventCreate silentNetwork (idleKernel (fun _ => some handleTableCreate)
      fun _ => ⟨.none, 0#32, none⟩).system 1 4096).1 = 0x10000#32 ∧
    (eventKernel.system.objects 4096).type = .event ∧
    (kosSyscallDispatch silentNetwork eventKernel SYS_recvfrom 0x10000#64 0x1000#64 64#64 0#64 0#64
      0#64).touched = [4096] := by
  decide +kernel

end KosKernel.Syscall
