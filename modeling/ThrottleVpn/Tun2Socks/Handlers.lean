import ThrottleVpn.Tun2Socks.Parsing
import ThrottleVpn.Tun2Socks.Relay

/-! The event handlers of the engine and one step of its loop. -/

set_option autoImplicit false

namespace ThrottleVpn.Tun2Socks

open Foundation Limiter

namespace Engine

def settle (engine : Engine) (handled : Handled) : Engine × List Effect :=
  if handled.removed then
    let (engine, closing) := engine.tcpRemove handled.session
    (engine, handled.effects ++ closing)
  else (engine.tcpStore handled.session, handled.effects)

/-! ### Packets from the device -/

def chargeUpload (engine : Engine) (delay pktLen : Nat) : Engine × List Effect :=
  let now := engine.clock + delay
  let (limiter, wait) := engine.ulLimiter.consume wrap now pktLen (pktLen ≤ smallPktThreshold)
  ({ engine with
      ulLimiter := limiter
      ulBytes := wrap (engine.ulBytes + pktLen)
      clock := if 0 < wait then now + 1000 * wait else now },
    if 0 < wait then [.sleep wait] else [])

def openTcp (engine : Engine) (replies : TunReplies) (flow : Flow) (clientIsn : UInt32) :
    Engine × List Effect :=
  match engine.tcpFind flow with
  | some session =>
    let (engine, closing) := engine.tcpRemove session
    let (engine, opening) := engine.tcpCreate replies flow clientIsn
    (engine, closing ++ opening)
  | none => engine.tcpCreate replies flow clientIsn

def handleTcpTun (engine : Engine) (replies : TunReplies) (src dst : IpAddr) (segment : List UInt8)
    (pktLen : Nat) : Engine × List Effect :=
  match parseTcp segment with
  | .error reject => (engine, reject.effects)
  | .ok (hdr, payload) =>
    let (engine, pause) := engine.chargeUpload replies.delay pktLen
    let flow : Flow := ⟨src, hdr.srcPort, dst, hdr.dstPort⟩
    if hasFlag hdr.flags tfSyn ∧ ¬hasFlag hdr.flags tfAck then
      let (engine, effects) := engine.openTcp replies flow (ntohl hdr.seq)
      (engine, pause ++ effects)
    else
      match engine.tcpFind flow with
      | some session =>
        let (engine, effects) := engine.settle (session.segmentArrives engine.mtu replies hdr payload)
        (engine, pause ++ effects)
      | none => (engine, pause)

def udpSession (engine : Engine) (replies : TunReplies) (flow : Flow) :
    Engine × List Effect × Option UdpSession :=
  match engine.udpFind flow with
  | some session => (engine, [], some session)
  | none => engine.udpCreate replies flow

def handleUdpTun (engine : Engine) (replies : TunReplies) (src dst : IpAddr) (segment : List UInt8)
    (pktLen : Nat) : Engine × List Effect :=
  match parseUdp segment with
  | .error reject => (engine, reject.effects)
  | .ok (hdr, payload) =>
    let (engine, pause) := engine.chargeUpload replies.delay pktLen
    match engine.udpSession replies ⟨src, hdr.srcPort, dst, hdr.dstPort⟩ with
    | (engine, opening, some session) =>
      (engine.udpStore { session with lastActive := replies.time },
        pause ++ opening ++ [.send session.sockFd payload replies.send])
    | (engine, opening, none) => (engine, pause ++ opening)

def handleTunReadable (engine : Engine) (replies : TunReplies) (queued : List UInt8) :
    Engine × List Effect :=
  let packet := queued.take maxPacketSize
  match parseIp packet with
  | .error reject => (engine, reject.effects)
  | .ok ip =>
    let segment := packet.drop ip.hdrLen
    if ip.proto = 6 then engine.handleTcpTun replies ip.src ip.dst segment packet.length
    else if ip.proto = 17 then engine.handleUdpTun replies ip.src ip.dst segment packet.length
    else (engine, [])

/-! ### Responses from the sockets -/

/-- `max_read`. The limiter is only consulted, and refilled, while a cap is set. -/
def readSize (engine : Engine) (delay : Nat) : Engine × Nat :=
  if 0 < engine.dlLimiter.ratePerSec then
    let now := engine.clock + delay
    let (limiter, avail) := engine.dlLimiter.available wrap now
    ({ engine with dlLimiter := limiter, clock := now },
      if 0 < avail ∧ avail < maxPacketSize then avail.toNat
      else if avail ≤ 0 then 1500 else maxPacketSize)
  else (engine, maxPacketSize)

/-- How long a download handler sleeps for an advised wait: in batches of 2 ms, at most 5 ms. -/
def pacingPause (wait : Int) : Int :=
  if 0 < wait ∧ wait ≤ 2000 then 2000
  else if 2000 < wait then (if wait < 5000 then wait else 5000)
  else 0

def chargeDownload (engine : Engine) (delay count : Nat) : Engine × List Effect :=
  let now := engine.clock + delay
  let (limiter, wait) := engine.dlLimiter.consume wrap now count (count ≤ smallPktThreshold)
  ({ engine with
      dlLimiter := limiter
      dlBytes := wrap (engine.dlBytes + count)
      clock := now + 1000 * pacingPause wait },
    if 0 < wait then [.sleep (pacingPause wait)] else [])

def readTcp (engine : Engine) (session : TcpSession) (replies : SocketReplies) :
    Engine × List Effect :=
  let (engine, maxRead) := engine.readSize replies.availableDelay
  match replies.recv with
  | .bytes queued =>
    let data := queued.take maxRead
    if data = [] then
      let (engine, effects) := engine.settle (session.remoteClosed engine.mtu)
      (engine, .recv session.sockFd [] :: effects)
    else
      let (engine, pause) := engine.chargeDownload replies.consumeDelay data.length
      let (engine, effects) := engine.settle (session.received engine.mtu replies.time data)
      (engine, .recv session.sockFd data :: pause ++ effects)
  | .wouldBlock => (engine, [])
  | .failed => engine.settle (session.recvFailed engine.mtu)

/-- A readable UDP socket: `recv` takes one datagram and discards what does not fit. -/
def readUdp (engine : Engine) (session : UdpSession) (replies : SocketReplies) :
    Engine × List Effect :=
  let (engine, maxRead) := engine.readSize replies.availableDelay
  match replies.recv with
  | .bytes queued =>
    let data := queued.take maxRead
    if data = [] then (engine, [.recv session.sockFd []])
    else
      let (engine, pause) := engine.chargeDownload replies.consumeDelay data.length
      (engine.udpStore { session with lastActive := replies.time },
        .recv session.sockFd data :: pause ++ [.tunWrite (writeUdp session data)])
  | .wouldBlock | .failed => (engine, [])

def handleSocketEvent (engine : Engine) (fd : Nat) (events : EpollEvents) (replies : SocketReplies) :
    Engine × List Effect :=
  match engine.tcpFindByFd fd with
  | some session =>
    if session.state = .synSent ∧ events.output then
      engine.settle (session.connectCompletes engine.mtu replies.soError replies.send)
    else if events.input then engine.readTcp session replies
    else (engine, [])
  | none =>
    match engine.udpFindByFd fd with
    | some session => if events.input then engine.readUdp session replies else (engine, [])
    | none => (engine, [])

/-! ### Cleanup and the loop -/

def tcpExpired (now : Int) (session : TcpSession) : Bool :=
  session.state == .closed || decide (tcpSessionTimeout < now - session.lastActive)

def udpExpired (now : Int) (session : UdpSession) : Bool :=
  decide (udpSessionTimeout < now - session.lastActive)

def cleanup (engine : Engine) (now : Int) : Engine × List Effect :=
  ({ engine with
      tcpTable := engine.tcpTable.sweep fun session => !tcpExpired now session
      udpTable := engine.udpTable.sweep fun session => !udpExpired now session },
    ((engine.tcpTable.records.filter (tcpExpired now)).flatMap fun session =>
      [.epollDel session.sockFd, .close session.sockFd]) ++
    (engine.udpTable.records.filter (udpExpired now)).flatMap fun session =>
      [.epollDel session.sockFd, .close session.sockFd])

/-- `engine_set_rates`, called from the service between two steps of the loop. -/
def setRates (engine : Engine) (dlBps ulBps : Int) : Engine :=
  { engine with
    dlLimiter := engine.dlLimiter.update dlBps
    ulLimiter := engine.ulLimiter.update ulBps }

end Engine

/-- What can happen next: an epoll entry for the TUN or for a socket, the periodic
cleanup, or a call of `engine_set_rates`. -/
inductive Input where
  | tunReadable (queued : List UInt8) (replies : TunReplies)
  | socketReady (fd : Nat) (events : EpollEvents) (replies : SocketReplies)
  | cleanup (now : Int)
  | setRates (dlBps ulBps : Int)
  deriving DecidableEq, Repr

namespace Engine

def step (engine : Engine) : Input → Engine × List Effect
  | .tunReadable queued replies => engine.handleTunReadable replies queued
  | .socketReady fd events replies => engine.handleSocketEvent fd events replies
  | .cleanup now => engine.cleanup now
  | .setRates dlBps ulBps => (engine.setRates dlBps ulBps, [])

def next (engine : Engine) (input : Input) : Engine := (engine.step input).1

theorem next_socketReady (engine : Engine) (fd : Nat) (events : EpollEvents) (replies : SocketReplies) :
    engine.next (.socketReady fd events replies) = (engine.handleSocketEvent fd events replies).1 := rfl

end Engine

end ThrottleVpn.Tun2Socks
