import ThrottleVpn.Tun2Socks.Headers
import ThrottleVpn.Foundation.Buckets
import ThrottleVpn.Limiter.RateLimiter

/-! The engine's records, what the operating system answers, and what the engine does.

A handler maps the engine and the answers of the calls it makes to the new engine
and the list of its effects in order. Nothing the kernel decides is assumed here.
The table locks are not modelled: one thread runs every handler.
-/

set_option autoImplicit false

namespace ThrottleVpn.Tun2Socks

open Foundation Limiter

def maxPacketSize : Nat := 65535
def sessionTableSize : Nat := 2048
def tcpSessionTimeout : Int := 120
def udpSessionTimeout : Int := 60
def smallPktThreshold : Nat := 128

structure Flow where
  src : IpAddr
  srcPort : UInt16
  dst : IpAddr
  dstPort : UInt16
  deriving DecidableEq, Repr

/-- From 10.0.0.2 port 40000 to 1.1.1.1 port 443. -/
def sampleFlow : Flow := ⟨.v4 0x0200000A, htons 40000, .v4 0x01010101, htons 443⟩

/-- From fd00::2 port 40000 to 2606:4700:4700::1111 port 443. -/
def sampleFlow6 : Flow :=
  ⟨.v6 #v[0xFD, 0, 0, 0, 0, 0, 0, 0, 0, 0, 0, 0, 0, 0, 0, 2], htons 40000,
    .v6 #v[0x26, 0x06, 0x47, 0, 0x47, 0, 0, 0, 0, 0, 0, 0, 0, 0, 0x11, 0x11], htons 443⟩

def sessionHash (flow : Flow) : Fin sessionTableSize :=
  let ports := flow.srcPort.toUInt32 ^^^ (flow.dstPort.toUInt32 <<< 16)
  let mixed := match flow.src with
    | .v4 _ => ports ^^^ (flow.src.word0 ^^^ flow.dst.word0)
    | .v6 _ => ports ^^^
      (flow.src.word0 ^^^ flow.src.word3 ^^^ flow.dst.word0 ^^^ flow.dst.word3)
  ⟨mixed.toNat % sessionTableSize, Nat.mod_lt _ (by decide)⟩

inductive TcpState where
  | synSent
  | established
  | finWait
  | closed
  deriving DecidableEq, Repr

/-- `tcp_session_t`. `addr` is the address of the record itself; `pendingData` is
the allocated block, of which the first `pendingLen` bytes are in use. -/
structure TcpSession where
  addr : Nat
  flow : Flow
  sockFd : Nat
  state : TcpState
  clientSeq : UInt32
  ourSeq : UInt32
  lastActive : Int
  pendingData : Option (List UInt8)
  pendingLen : Nat
  pendingCap : Nat
  deriving DecidableEq, Repr

structure UdpSession where
  addr : Nat
  flow : Flow
  sockFd : Nat
  lastActive : Int
  deriving DecidableEq, Repr

structure EpollEvents where
  input : Bool
  output : Bool
  deriving DecidableEq, Repr

/-- `send()`: a byte count, EAGAIN or EWOULDBLOCK, any other error. -/
inductive SendResult where
  | accepted (count : Nat)
  | wouldBlock
  | failed
  deriving DecidableEq, Repr

def SendResult.taken (result : SendResult) (data : List UInt8) : List UInt8 :=
  match result with
  | .accepted count => data.take count
  | .wouldBlock | .failed => []

/-- `recv()`: what is queued (nothing at the end of the stream), EAGAIN, another error. -/
inductive RecvResult where
  | bytes (queued : List UInt8)
  | wouldBlock
  | failed
  deriving DecidableEq, Repr

inductive ConnectResult where
  | connected
  | inProgress
  | failed
  deriving DecidableEq, Repr

inductive Protocol where
  | tcp
  | udp
  deriving DecidableEq, Repr

inductive Effect where
  /-- The packets of one writer call, one `write(e->tun_fd, …)` each. -/
  | tunWrite (packets : List Packet)
  | socket (fd : Nat) (protocol : Protocol)
  | connect (fd : Nat) (peer : IpAddr) (port : UInt16) (result : ConnectResult)
  | epollAdd (fd : Nat) (interest : EpollEvents)
  | epollMod (fd : Nat) (interest : EpollEvents)
  | epollDel (fd : Nat)
  | send (fd : Nat) (data : List UInt8) (result : SendResult)
  | recv (fd : Nat) (data : List UInt8)
  | shutdown (fd : Nat)
  | close (fd : Nat)
  /-- Payload copied to the end of `pending_data`. -/
  | hold (fd : Nat) (data : List UInt8)
  /-- `free(pending_data)` after the flush. -/
  | release (fd : Nat)
  | sleep (microseconds : Int)
  /-- A header access past the end of the packet. -/
  | outOfBounds
  deriving DecidableEq, Repr

/-- Answers of the calls made while one TUN packet is handled. `delay` is the time
from the last known clock reading to the one the limiter makes, `realloc` the
content of fresh heap memory, or failure. -/
structure TunReplies where
  delay : Nat
  isnTime : Int
  time : Int
  calloc : Bool
  socket : Option Nat
  protect : Bool
  connect : ConnectResult
  realloc : Option UInt8
  send : SendResult
  deriving DecidableEq, Repr

structure SocketReplies where
  availableDelay : Nat
  consumeDelay : Nat
  time : Int
  soError : Int
  send : SendResult
  recv : RecvResult
  deriving DecidableEq, Repr

def TunReplies.smooth (fd : Nat) (time : Int) : TunReplies :=
  ⟨0, time, time, true, some fd, true, .inProgress, some 0, .accepted maxPacketSize⟩

def SocketReplies.smooth (queued : List UInt8) : SocketReplies :=
  ⟨0, 0, 0, 0, .accepted maxPacketSize, .bytes queued⟩

/-- `engine_t`. `clock` is a lower bound of CLOCK_MONOTONIC: the last reading plus
the sleeps since. `nextAddr` is the heap's next unused address. -/
structure Engine where
  tunFd : Nat
  mtu : Int
  tcpTable : Buckets sessionTableSize TcpSession
  udpTable : Buckets sessionTableSize UdpSession
  ulLimiter : RateLimiter
  dlLimiter : RateLimiter
  ulBytes : Int
  dlBytes : Int
  clock : Int
  nextAddr : Nat

namespace Engine

def start (tunFd : Nat) (mtu ulStart dlStart : Int) : Engine where
  tunFd := tunFd
  mtu := mtu
  tcpTable := Buckets.empty
  udpTable := Buckets.empty
  ulLimiter := RateLimiter.init 1000000000 ulStart
  dlLimiter := RateLimiter.init 1000000000 dlStart
  ulBytes := 0
  dlBytes := 0
  clock := max ulStart dlStart
  nextAddr := 0

def tcpFind (engine : Engine) (flow : Flow) : Option TcpSession :=
  (engine.tcpTable (sessionHash flow)).find? fun session => decide (session.flow = flow)

def tcpFindByFd (engine : Engine) (fd : Nat) : Option TcpSession :=
  engine.tcpTable.search fun session => session.sockFd == fd

def udpFind (engine : Engine) (flow : Flow) : Option UdpSession :=
  (engine.udpTable (sessionHash flow)).find? fun session => decide (session.flow = flow)

def udpFindByFd (engine : Engine) (fd : Nat) : Option UdpSession :=
  engine.udpTable.search fun session => session.sockFd == fd

def tcpRemove (engine : Engine) (target : TcpSession) : Engine × List Effect :=
  ({ engine with
      tcpTable := engine.tcpTable.unlink TcpSession.addr (sessionHash target.flow) target.addr },
    [.epollDel target.sockFd, .close target.sockFd])

def tcpStore (engine : Engine) (session : TcpSession) : Engine :=
  { engine with tcpTable := engine.tcpTable.store TcpSession.addr session }

def udpStore (engine : Engine) (session : UdpSession) : Engine :=
  { engine with udpTable := engine.udpTable.store UdpSession.addr session }

end Engine

/-- The record `tcp_create` fills in. The initial sequence number mixes the wall
clock with the ports as stored. -/
def TcpSession.fresh (addr : Nat) (flow : Flow) (clientIsn : UInt32) (fd : Nat)
    (isnTime time : Int) : TcpSession where
  addr := addr
  flow := flow
  sockFd := fd
  state := .synSent
  clientSeq := clientIsn + 1
  ourSeq := UInt32.ofInt (isnTime * 1000 + flow.srcPort.toNat) ^^^ flow.dstPort.toUInt32
  lastActive := time
  pendingData := none
  pendingLen := 0
  pendingCap := 0

namespace Engine

/-- `tcp_create`. A failed calloc or socket leaves nothing behind, a refused
protect only a closed descriptor; the result of connect is not looked at. -/
def tcpCreate (engine : Engine) (replies : TunReplies) (flow : Flow) (clientIsn : UInt32) :
    Engine × List Effect :=
  match replies.calloc, replies.socket with
  | true, some fd =>
    if replies.protect then
      let session := TcpSession.fresh engine.nextAddr flow clientIsn fd replies.isnTime replies.time
      ({ engine with
          tcpTable := engine.tcpTable.push (sessionHash flow) session
          nextAddr := engine.nextAddr + 1 },
        [.socket fd .tcp, .connect fd flow.dst flow.dstPort replies.connect,
          .epollAdd fd ⟨true, true⟩])
    else (engine, [.socket fd .tcp, .close fd])
  | _, _ => (engine, [])

def udpCreate (engine : Engine) (replies : TunReplies) (flow : Flow) :
    Engine × List Effect × Option UdpSession :=
  match replies.calloc, replies.socket with
  | true, some fd =>
    if replies.protect then
      let session : UdpSession := ⟨engine.nextAddr, flow, fd, replies.time⟩
      ({ engine with
          udpTable := engine.udpTable.push (sessionHash flow) session
          nextAddr := engine.nextAddr + 1 },
        [.socket fd .udp, .connect fd flow.dst flow.dstPort replies.connect,
          .epollAdd fd ⟨true, false⟩], some session)
    else (engine, [.socket fd .udp, .close fd], none)
  | _, _ => (engine, [], none)

end Engine

end ThrottleVpn.Tun2Socks
