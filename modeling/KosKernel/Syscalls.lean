import KosKernel.UserAccess
import KosKernel.Sockets

/-! The system call dispatcher of `kernel/syscall.c`. -/
namespace KosKernel.Syscall
open Handle

def SYS_exit : BitVec 64 := 1#64
def SYS_read : BitVec 64 := 3#64
def SYS_write : BitVec 64 := 4#64
def SYS_open : BitVec 64 := 5#64
def SYS_close : BitVec 64 := 6#64
def SYS_getpid : BitVec 64 := 15#64
def SYS_getppid : BitVec 64 := 16#64
def SYS_yield : BitVec 64 := 17#64
def SYS_sleep : BitVec 64 := 18#64
def SYS_socket : BitVec 64 := 20#64
def SYS_connect : BitVec 64 := 21#64
def SYS_sendto : BitVec 64 := 23#64
def SYS_recvfrom : BitVec 64 := 24#64
def SYS_gettime : BitVec 64 := 30#64
def SYS_sysinfo : BitVec 64 := 31#64

def ENOENT : ℕ := 2
def EBADF : ℕ := 9
def ENOSYS : ℕ := 38

/-- What the calls read and write. The keys are what successive polls of the keyboard give. -/
structure Kernel (ν : Type*) where
  system : SystemState ν
  current : Option ℕ
  pid : ℕ → BitVec 64
  ppid : ℕ → BitVec 64
  exited : ℕ → Option (BitVec 32)
  memory : UserMemory
  keys : List (Option (BitVec 8))
  serial : List (BitVec 8)
  console : List (BitVec 8)
  consoleReady : Bool
  uptimeSeconds : BitVec 64
  taskCount : BitVec 64

/-- A call that has not returned, because its thread ended or still waits, has no result. -/
structure Outcome (ν : Type*) where
  result : Option (BitVec 64)
  kernel : Kernel ν
  accesses : List Access
  touched : List ℕ

variable {ν : Type*} (network : Network ν)

def Kernel.return (k : Kernel ν) (result : BitVec 64) : Outcome ν := ⟨some result, k, [], []⟩

def processExit (k : Kernel ν) (process : ℕ) (code : BitVec 32) : Outcome ν :=
  if (k.exited process).isSome then k.return 0#64
  else
    ⟨none, { k with
      exited := Function.update k.exited process (some code)
      system := handleTableDestroy (runKernelDestructor network) k.system process }, [], []⟩

def sysExit (k : Kernel ν) (arg0 : BitVec 64) : Outcome ν :=
  match k.current with
  | none => k.return 0#64
  | some process =>
    if k.pid process > 1#64 then processExit network k process (arg0.setWidth 32)
    else k.return 0#64

def transferLimit : ℕ := 65536

/-- Buffer and length are the last two of three arguments, or the first two of two. -/
def bufferArgs (arg0 arg1 arg2 : BitVec 64) : BitVec 64 × ℕ :=
  if arg2 > 0#64 then (arg1, arg2.toNat) else (arg0, arg1.toNat)

/-- The loop of `SYS_write`; each pass writes at least one byte. -/
def writeLoop (uaddr : BitVec 64) (len : ℕ) : (fuel : ℕ) → Kernel ν → (written : ℕ) → Outcome ν
  | 0, k, written => k.return (BitVec.ofNat 64 written)
  | fuel + 1, k, written =>
    if written < len then
      let chunk := min (len - written) 256
      match copyFromUser k.memory (some 256) (uaddr + BitVec.ofNat 64 written)
        (BitVec.ofNat 64 chunk) with
      | (none, accesses) => ⟨some (errno EFAULT), k, accesses, []⟩
      | (some bytes, accesses) =>
        let k := { k with
          serial := k.serial ++ bytes
          console := if k.consoleReady then k.console ++ bytes else k.console }
        let rest := writeLoop uaddr len fuel k (written + chunk)
        { rest with accesses := accesses ++ rest.accesses }
    else k.return (BitVec.ofNat 64 written)

def sysWrite (k : Kernel ν) (arg0 arg1 arg2 : BitVec 64) : Outcome ν :=
  match bufferArgs arg0 arg1 arg2 with
  | (uaddr, len) =>
    if len = 0 then k.return 0#64
    else writeLoop uaddr (min len transferLimit) (min len transferLimit) k 0

/-- The loop of `SYS_read`, over what the polls of the keyboard give. -/
def readLoop (uaddr : BitVec 64) (maxLen : ℕ) :
    List (Option (BitVec 8)) → Kernel ν → (readBytes : ℕ) → Outcome ν
  | keys, k, readBytes =>
    if readBytes < maxLen then
      match keys with
      | [] => ⟨none, { k with keys := [] }, [], []⟩
      | none :: keys => readLoop uaddr maxLen keys k readBytes
      | some ch :: keys =>
        if ch ≠ 0#8 then
          match copyToUser k.memory (uaddr + BitVec.ofNat 64 readBytes) (some 128) [ch] 1#64 with
          | (none, accesses) => ⟨some (errno EFAULT), { k with keys := keys }, accesses, []⟩
          | (some memory, accesses) =>
            let k := { k with memory := memory }
            if ch = 10#8 then
              ⟨some (BitVec.ofNat 64 (readBytes + 1)), { k with keys := keys }, accesses, []⟩
            else
              let rest := readLoop uaddr maxLen keys k (readBytes + 1)
              { rest with accesses := accesses ++ rest.accesses }
        else readLoop uaddr maxLen keys k readBytes
    else ⟨some (BitVec.ofNat 64 readBytes), { k with keys := keys }, [], []⟩

def sysRead (k : Kernel ν) (arg0 arg1 arg2 : BitVec 64) : Outcome ν :=
  match bufferArgs arg0 arg1 arg2 with
  | (uaddr, len) =>
    if len = 0 then k.return 0#64
    else
      let maxLen := min len transferLimit
      if accessOk uaddr (BitVec.ofNat 64 maxLen) = false then k.return (errno EFAULT)
      else readLoop uaddr maxLen k.keys k 0

def sysOpen (k : Kernel ν) (arg0 : BitVec 64) : Outcome ν :=
  match strncpyFromUser k.memory (some 256) arg0 256 with
  | (res, _, accesses) =>
    ⟨some (if res.msb then errno EFAULT else errno ENOENT), k, accesses, []⟩

def sysClose (k : Kernel ν) (arg0 : BitVec 64) : Outcome ν :=
  match k.current with
  | none => k.return 0#64
  | some process =>
    Kernel.return { k with system :=
      (handleClose (runKernelDestructor network) k.system process (arg0.setWidth 32)).2 } 0#64

def sysSocket (k : Kernel ν) (arg0 arg1 arg2 : BitVec 64) : Outcome ν :=
  match kosSocket network k.system (arg0.setWidth 32) (arg1.setWidth 32) (arg2.setWidth 32) with
  | (ret, sock, system) =>
    let k := { k with system := system }
    match sock with
    | none => k.return (errno EINVAL)
    | some sock =>
      if ret ≠ 0#32 then k.return (errno EINVAL)
      else
        match k.current with
        | none => k.return ((k.system.env.sockets sock).id.setWidth 64)
        | some process =>
          match handleCreate k.system process sock (rightRead ||| rightWrite ||| rightDestroy) with
          | (handle, system) => Kernel.return { k with system := system } (handle.setWidth 64)

/-- The object of a handle of the current process, null without one. -/
def currentLookup (k : Kernel ν) (arg0 : BitVec 64) (rights : BitVec 32) : ℕ :=
  match k.current with
  | none => 0
  | some process => handleLookup k.system process (arg0.setWidth 32) rights

def Kernel.afterCall (k : Kernel ν) (call : SocketCall ν) (accesses : List Access) : Outcome ν :=
  ⟨some (call.result.signExtend 64), { k with system := { k.system with env := call.env } },
    accesses, call.touched⟩

def sysConnect (k : Kernel ν) (arg0 arg1 arg2 : BitVec 64) : Outcome ν :=
  if arg2.toNat < sockaddrSize then k.return (errno EINVAL)
  else
    match copyFromUser k.memory (some sockaddrSize) arg1 (BitVec.ofNat 64 sockaddrSize) with
    | (none, accesses) => ⟨some (errno EFAULT), k, accesses, []⟩
    | (some kaddr, accesses) =>
      let sock := currentLookup k arg0 rightWrite
      if sock = 0 then ⟨some (errno EBADF), k, accesses, []⟩
      else k.afterCall (kosConnect network k.system.env sock kaddr (arg2.setWidth 32)) accesses

def datagramLength (arg2 : BitVec 64) : ℕ := min (min arg2.toNat transferLimit) 1024

def sysSendto (k : Kernel ν) (arg0 arg1 arg2 : BitVec 64) : Outcome ν :=
  match copyFromUser k.memory (some 1024) arg1 (BitVec.ofNat 64 (datagramLength arg2)) with
  | (none, accesses) => ⟨some (errno EFAULT), k, accesses, []⟩
  | (some kbuf, accesses) =>
    let sock := currentLookup k arg0 rightWrite
    if sock = 0 then ⟨some (errno EBADF), k, accesses, []⟩
    else k.afterCall (kosSend network k.system.env sock kbuf) accesses

def sysRecvfrom (k : Kernel ν) (arg0 arg1 arg2 arg3 : BitVec 64) : Outcome ν :=
  let sock := currentLookup k arg0 rightRead
  if sock = 0 then k.return (errno EBADF)
  else
    match kosRecv network k.system.env sock (datagramLength arg2) (arg3.setWidth 32) with
    | (call, kbuf) =>
      let done := k.afterCall call []
      if 0 < call.result.toInt then
        match copyToUser k.memory arg1 (some 1024) kbuf (call.result.signExtend 64) with
        | (none, accesses) => { done with result := some (errno EFAULT), accesses := accesses }
        | (some memory, accesses) =>
          { done with kernel := { done.kernel with memory := memory }, accesses := accesses }
      else done

/-- Yielding and sleeping let other threads run; this state is that of the caller. -/
def kosSyscallDispatch (k : Kernel ν) (number arg0 arg1 arg2 arg3 _arg4 _arg5 : BitVec 64) :
    Outcome ν :=
  if number = SYS_exit then sysExit network k arg0
  else if number = SYS_getpid then k.return ((k.current.map k.pid).getD 1#64)
  else if number = SYS_getppid then k.return ((k.current.map k.ppid).getD 0#64)
  else if number = SYS_yield then k.return 0#64
  else if number = SYS_sleep then k.return 0#64
  else if number = SYS_gettime then k.return k.uptimeSeconds
  else if number = SYS_sysinfo then k.return k.taskCount
  else if number = SYS_write then sysWrite k arg0 arg1 arg2
  else if number = SYS_read then sysRead k arg0 arg1 arg2
  else if number = SYS_open then sysOpen k arg0
  else if number = SYS_close then sysClose network k arg0
  else if number = SYS_socket then sysSocket network k arg0 arg1 arg2
  else if number = SYS_connect then sysConnect network k arg0 arg1 arg2
  else if number = SYS_sendto then sysSendto network k arg0 arg1 arg2
  else if number = SYS_recvfrom then sysRecvfrom network k arg0 arg1 arg2 arg3
  else k.return (errno ENOSYS)

end KosKernel.Syscall
