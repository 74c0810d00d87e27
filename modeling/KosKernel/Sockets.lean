import KosKernel.HandleState

/-! The socket pool of `net/socket_subsystem.c`. A socket is an object, so its header is that of
the object at its address; the other fields are read and written through the address alone.
The transports below it are parameters. -/
namespace KosKernel.Syscall
open Handle

structure Endpoint where
  address : BitVec 32
  port : BitVec 16
  deriving DecidableEq

structure Network (ν : Type*) where
  tcpConnect : ν → BitVec 32 → BitVec 16 → BitVec 32 × ν
  tcpSend : ν → BitVec 32 → List (BitVec 8) → BitVec 32 × ν
  tcpReceive : ν → BitVec 32 → ℕ → BitVec 32 × List (BitVec 8) × ν
  tcpClose : ν → BitVec 32 → ν
  udpOpen : ν → Option (BitVec 16) × ν
  udpClose : ν → BitVec 16 → ν
  udpSendto : ν → BitVec 16 → Endpoint → List (BitVec 8) → Bool × ν
  /-- The number of bytes received and the bytes, or nothing. -/
  udpRecvfrom : ν → BitVec 16 → ℕ → Option (BitVec 64 × List (BitVec 8)) × ν
  udpRecvfromTimeout : ν → BitVec 16 → ℕ → BitVec 32 → Option (BitVec 64 × List (BitVec 8)) × ν

def AF_UNSPEC : ℕ := 0
def AF_INET : ℕ := 2
def SOCK_STREAM : BitVec 32 := 1#32
def SOCK_DGRAM : BitVec 32 := 2#32
def SOCK_RAW : BitVec 32 := 3#32
def SOCK_NONBLOCK : BitVec 32 := 0x0800#32
def SOCK_CLOEXEC : BitVec 32 := 0x80000#32
def IPPROTO_TCP : BitVec 32 := 6#32
def IPPROTO_UDP : BitVec 32 := 17#32
def MSG_DONTWAIT : BitVec 32 := 0x40#32
def SS_UNCONNECTED : BitVec 32 := 1#32
def SS_CONNECTING : BitVec 32 := 2#32
def SS_CONNECTED : BitVec 32 := 3#32
def SS_CLOSED : BitVec 32 := 6#32

def EIO : ℕ := 5
def EAGAIN : ℕ := 11
def ENOMEM : ℕ := 12
def EINVAL : ℕ := 22
def EPIPE : ℕ := 32
def EDESTADDRREQ : ℕ := 89
def EOPNOTSUPP : ℕ := 95
def EAFNOSUPPORT : ℕ := 97
def ENOTCONN : ℕ := 107
def ECONNREFUSED : ℕ := 111

def error (code : ℕ) : BitVec 32 := -BitVec.ofNat 32 code

structure Socket where
  id : BitVec 32
  domain : BitVec 32
  type : BitVec 32
  protocol : BitVec 32
  state : BitVec 32
  flags : BitVec 32
  localEndpoint : Endpoint
  remoteEndpoint : Endpoint
  rcvtimeoMs : BitVec 32
  sndtimeoMs : BitVec 32
  lastError : BitVec 32
  reuseAddr : Bool
  broadcast : Bool
  nonblocking : Bool
  transportHandle : BitVec 32
  inUse : Bool
  deriving DecidableEq

inductive Destructor
  | event
  | waitQueue
  | socket
  deriving DecidableEq

/-- What lies at the address of an object, read as a socket, and the transports. -/
structure NetState (ν : Type*) where
  sockets : ℕ → Socket
  net : ν

abbrev SystemState (ν : Type*) := HandleSystem Destructor (NetState ν)

def maxSockets : ℕ := 32

/-- Address and stride of the pool are made up; the source leaves both to the compiler and the
linker. Only that the slots are apart from each other and from the null address is used of them. -/
def poolBase : ℕ := 0x100000
def socketSize : ℕ := 192
def poolAddress (i : ℕ) : ℕ := poolBase + socketSize * i

variable {ν : Type*} (network : Network ν)

def setSocket (e : NetState ν) (sock : ℕ) (value : Socket) : NetState ν :=
  { e with sockets := Function.update e.sockets sock value }

def isNegative (n : BitVec 32) : Bool := n.msb

def socketDestroy (sock : ℕ) (e : NetState ν) : NetState ν :=
  let s := e.sockets sock
  let e :=
    if s.type = SOCK_STREAM ∧ isNegative s.transportHandle = false then
      setSocket { e with net := network.tcpClose e.net s.transportHandle } sock
        { s with transportHandle := -1#32 }
    else if s.type = SOCK_DGRAM ∧ isNegative s.transportHandle = false then
      setSocket { e with net := network.udpClose e.net (s.transportHandle.setWidth 16) } sock
        { s with transportHandle := -1#32 }
    else e
  setSocket e sock { e.sockets sock with inUse := false, state := SS_CLOSED }

/-- The events and wait queues that other destructors free are no part of this state. -/
def runKernelDestructor : Destructor → ℕ → NetState ν → NetState ν
  | .socket, sock, e => socketDestroy network sock e
  | _, _, e => e

def freePoolSlot (e : NetState ν) : Option ℕ :=
  (List.range maxSockets).find? fun i => !(e.sockets (poolAddress i)).inUse

def freshSocket (i : ℕ) : Socket where
  id := BitVec.ofNat 32 i
  domain := 0#32
  type := 0#32
  protocol := 0#32
  state := SS_UNCONNECTED
  flags := 0#32
  localEndpoint := ⟨0#32, 0#16⟩
  remoteEndpoint := ⟨0#32, 0#16⟩
  rcvtimeoMs := 0#32
  sndtimeoMs := 0#32
  lastError := 0#32
  reuseAddr := false
  broadcast := false
  nonblocking := false
  transportHandle := -1#32
  inUse := true

/-- Domain, type and protocol keep their old values until the caller sets them. -/
def allocateSocketLocked (s : SystemState ν) : Option ℕ × SystemState ν :=
  match freePoolSlot s.env with
  | none => (none, s)
  | some i =>
    let sock := poolAddress i
    let old := s.env.sockets sock
    (some sock,
      kosObjectInit
        { s with
          env := setSocket s.env sock { freshSocket i with
            domain := old.domain, type := old.type, protocol := old.protocol } }
        sock .socket (some .socket))

def baseType (type : BitVec 32) : BitVec 32 := type &&& ~~~(SOCK_NONBLOCK ||| SOCK_CLOEXEC)

def domainOk (domain : BitVec 32) : Bool :=
  domain = BitVec.ofNat 32 AF_INET ∨ domain = BitVec.ofNat 32 AF_UNSPEC

def typeOk (type : BitVec 32) : Bool :=
  baseType type = SOCK_STREAM ∨ baseType type = SOCK_DGRAM ∨ baseType type = SOCK_RAW

def defaultProtocol (type protocol : BitVec 32) : BitVec 32 :=
  if protocol = 0#32 then
    if baseType type = SOCK_STREAM then IPPROTO_TCP
    else if baseType type = SOCK_DGRAM then IPPROTO_UDP
    else protocol
  else protocol

def kosSocket (s : SystemState ν) (domain type protocol : BitVec 32) :
    BitVec 32 × Option ℕ × SystemState ν :=
  if domainOk domain = false then (error EAFNOSUPPORT, none, s)
  else if typeOk type = false then (error EINVAL, none, s)
  else
    match allocateSocketLocked s with
    | (none, s) => (error ENOMEM, none, s)
    | (some sock, s) =>
      let s := { s with
        env := setSocket s.env sock { s.env.sockets sock with
          domain := domain
          type := baseType type
          protocol := defaultProtocol type protocol
          nonblocking := type &&& SOCK_NONBLOCK ≠ 0#32 } }
      if baseType type = SOCK_DGRAM then
        match network.udpOpen s.env.net with
        | (none, net) =>
          (error ENOMEM, none, { s with
            env := setSocket { s.env with net := net } sock
              { s.env.sockets sock with inUse := false } })
        | (some udpId, net) =>
          (0#32, some sock, { s with
            env := setSocket { s.env with net := net } sock
              { s.env.sockets sock with transportHandle := udpId.setWidth 32 } })
      else (0#32, some sock, s)

/-- The fields of a `sockaddr_in` of 16 bytes, in network byte order. -/
def sockaddrSize : ℕ := 16

def byteAt (bytes : List (BitVec 8)) (i : ℕ) : BitVec 8 := bytes.getD i 0#8

/-- The family is in host order (little endian), the rest in network order. -/
def sinFamily (bytes : List (BitVec 8)) : BitVec 16 := byteAt bytes 1 ++ byteAt bytes 0
def sinPort (bytes : List (BitVec 8)) : BitVec 16 := byteAt bytes 2 ++ byteAt bytes 3
def sinAddress (bytes : List (BitVec 8)) : BitVec 32 :=
  byteAt bytes 4 ++ byteAt bytes 5 ++ byteAt bytes 6 ++ byteAt bytes 7

def familyOk (bytes : List (BitVec 8)) : Bool :=
  sinFamily bytes = BitVec.ofNat 16 AF_INET ∨ sinFamily bytes = BitVec.ofNat 16 AF_UNSPEC

/-- A call on a socket: its result, the state after, and the objects whose fields it used as
those of a socket. -/
structure SocketCall (ν : Type*) where
  result : BitVec 32
  env : NetState ν
  touched : List ℕ

def kosConnect (e : NetState ν) (sock : ℕ) (addr : List (BitVec 8)) (addrlen : BitVec 32) :
    SocketCall ν :=
  if sock = 0 ∨ addrlen.toNat < sockaddrSize then ⟨error EINVAL, e, []⟩
  else if familyOk addr = false then ⟨error EAFNOSUPPORT, e, []⟩
  else
    let e := setSocket e sock
      { e.sockets sock with remoteEndpoint := ⟨sinAddress addr, sinPort addr⟩ }
    let s := e.sockets sock
    if s.type = SOCK_STREAM then
      let e := setSocket e sock { s with state := SS_CONNECTING }
      match network.tcpConnect e.net (sinAddress addr) (sinPort addr) with
      | (tcpId, net) =>
        let e := { e with net := net }
        if isNegative tcpId then
          ⟨error ECONNREFUSED, setSocket e sock { e.sockets sock with state := SS_UNCONNECTED },
            [sock]⟩
        else
          ⟨0#32, setSocket e sock { e.sockets sock with
            transportHandle := tcpId, state := SS_CONNECTED }, [sock]⟩
    else if s.type = SOCK_DGRAM then
      ⟨0#32, setSocket e sock { s with state := SS_CONNECTED }, [sock]⟩
    else ⟨error EOPNOTSUPP, e, [sock]⟩

def kosSend (e : NetState ν) (sock : ℕ) (buf : List (BitVec 8)) : SocketCall ν :=
  if sock = 0 then ⟨error EINVAL, e, []⟩
  else
    let s := e.sockets sock
    if s.type = SOCK_STREAM then
      if s.state ≠ SS_CONNECTED ∨ isNegative s.transportHandle then ⟨error ENOTCONN, e, [sock]⟩
      else
        match network.tcpSend e.net s.transportHandle buf with
        | (sent, net) =>
          ⟨if isNegative sent then error EPIPE else sent, { e with net := net }, [sock]⟩
    else if s.type = SOCK_DGRAM then
      if s.remoteEndpoint.port = 0#16 then ⟨error EDESTADDRREQ, e, [sock]⟩
      else
        match network.udpSendto e.net (s.transportHandle.setWidth 16) s.remoteEndpoint buf with
        | (ok, net) =>
          ⟨if ok then BitVec.ofNat 32 buf.length else error EIO, { e with net := net }, [sock]⟩
    else ⟨error EOPNOTSUPP, e, [sock]⟩

/-- The call and the bytes it leaves in the buffer of its caller. -/
def kosRecv (e : NetState ν) (sock len : ℕ) (flags : BitVec 32) :
    SocketCall ν × List (BitVec 8) :=
  if sock = 0 then (⟨error EINVAL, e, []⟩, [])
  else
    let s := e.sockets sock
    if s.type = SOCK_STREAM then
      if s.state ≠ SS_CONNECTED ∨ isNegative s.transportHandle then
        (⟨error ENOTCONN, e, [sock]⟩, [])
      else
        match network.tcpReceive e.net s.transportHandle len with
        | (recvd, bytes, net) =>
          if isNegative recvd then
            (⟨if s.nonblocking then error EAGAIN else error EIO, { e with net := net }, [sock]⟩,
              bytes)
          else (⟨recvd, { e with net := net }, [sock]⟩, bytes)
    else if s.type = SOCK_DGRAM then
      let received :=
        if s.nonblocking ∨ flags &&& MSG_DONTWAIT ≠ 0#32 then
          network.udpRecvfrom e.net (s.transportHandle.setWidth 16) len
        else
          network.udpRecvfromTimeout e.net (s.transportHandle.setWidth 16) len
            (if s.rcvtimeoMs > 0#32 then s.rcvtimeoMs else 5000#32)
      match received with
      | (none, net) => (⟨error EAGAIN, { e with net := net }, [sock]⟩, [])
      | (some (actual, bytes), net) =>
        (⟨actual.setWidth 32, { e with net := net }, [sock]⟩, bytes)
    else (⟨error EOPNOTSUPP, e, [sock]⟩, [])

end KosKernel.Syscall
