import ThrottleVpn.Tun2Socks.Decoding
import ThrottleVpn.Tun2Socks.Handlers

/-! What one step of the engine can do.

A step hands an event to one linked session, opens or replaces a session, relays
or delivers one datagram, sweeps the tables, or changes neither table. Every
invariant of the tables and of the sockets is derived from this list.
-/

set_option autoImplicit false

namespace ThrottleVpn.Tun2Socks

open Foundation Limiter

/-- A SYN that is no SYN-ACK. -/
def TcpHdr.Opens (hdr : TcpHdr) : Prop := hasFlag hdr.flags tfSyn ∧ ¬hasFlag hdr.flags tfAck

instance (hdr : TcpHdr) : Decidable hdr.Opens := inferInstanceAs (Decidable (_ ∧ _))

def sampleSyn : List UInt8 :=
  Packet.bytes
    { ip := .v4
        { verIhl := 0x45, tos := 0, totalLen := htons 40, ident := 0, flagsFrag := 0, ttl := 64
          protocol := 6, hdrCsum := 0, srcAddr := 0x0200000A, dstAddr := 0x01010101 }
      transport := .tcp
        { srcPort := htons 40000, dstPort := htons 443, seq := htonl 1000, ack := 0, offRsvd := 0x50
          flags := tfSyn, window := 65535, csum := 0, urgPtr := 0 }
      payload := [] }

def Effect.Idle : Effect → Prop
  | .sleep _ | .outOfBounds => True
  | _ => False

def TunReplies.opens (replies : TunReplies) : Option Nat :=
  if replies.calloc ∧ replies.protect then replies.socket else none

def TunReplies.opening (replies : TunReplies) (protocol : Protocol) (flow : Flow)
    (interest : EpollEvents) : List Effect :=
  match replies.calloc, replies.socket with
  | true, some fd =>
    if replies.protect then
      [.socket fd protocol, .connect fd flow.dst flow.dstPort replies.connect, .epollAdd fd interest]
    else [.socket fd protocol, .close fd]
  | _, _ => []

section
variable {replies : TunReplies} {fd : Nat}

theorem TunReplies.opening_some (opens : replies.opens = some fd) (protocol : Protocol) (flow : Flow)
    (interest : EpollEvents) :
    replies.opening protocol flow interest =
      [.socket fd protocol, .connect fd flow.dst flow.dstPort replies.connect, .epollAdd fd interest] := by
  unfold TunReplies.opens at opens
  split at opens
  next answers => simp only [TunReplies.opening, answers.1, opens, answers.2, if_true]
  next => cases opens

theorem TunReplies.opening_none (opens : replies.opens = none) (protocol : Protocol) (flow : Flow)
    (interest : EpollEvents) :
    replies.opening protocol flow interest = [] ∨
      ∃ fd, replies.opening protocol flow interest = [.socket fd protocol, .close fd] := by
  unfold TunReplies.opens at opens
  unfold TunReplies.opening
  split
  next fd allocated opened =>
    rw [allocated, opened] at opens
    split
    next shielded => simp [shielded] at opens
    next => exact .inr ⟨fd, rfl⟩
  next => exact .inl rfl

end

def SessionEvent.call (fd : Nat) : SessionEvent → List Effect
  | .received data _ => [.recv fd data]
  | .remoteClosed => [.recv fd []]
  | .segment _ _ _ | .writable _ _ | .recvFailed => []

def Handled.closing (handled : Handled) : List Effect :=
  if handled.removed then [.epollDel handled.session.sockFd, .close handled.session.sockFd] else []

section
variable {P : Effect → Prop} (recv : ∀ fd data, P (.recv fd data)) (close : ∀ fd, P (.close fd))

include recv in
theorem SessionEvent.forall_call (event : SessionEvent) (fd : Nat) : ∀ effect ∈ event.call fd, P effect := by
  intro effect member
  cases event with
  | received data time => exact List.mem_singleton.mp member ▸ recv fd data
  | remoteClosed => exact List.mem_singleton.mp member ▸ recv fd []
  | segment | writable | recvFailed => cases member

include close in
theorem Handled.forall_closing (handled : Handled) (del : ∀ fd, P (.epollDel fd)) :
    ∀ effect ∈ handled.closing, P effect := by
  unfold Handled.closing
  split
  · exact List.forall_mem_cons.mpr ⟨del _, List.forall_mem_singleton.mpr (close _)⟩
  · exact List.forall_mem_nil P

include close in
theorem TunReplies.forall_opening (replies : TunReplies) {protocol : Protocol} {flow : Flow}
    {interest : EpollEvents} (socket : ∀ fd, P (.socket fd protocol))
    (connect : ∀ fd, P (.connect fd flow.dst flow.dstPort replies.connect))
    (add : ∀ fd, P (.epollAdd fd interest)) : ∀ effect ∈ replies.opening protocol flow interest, P effect := by
  unfold TunReplies.opening
  split
  · split
    · simp only [List.forall_mem_cons]
      exact ⟨socket _, connect _, add _, List.forall_mem_nil P⟩
    · exact List.forall_mem_cons.mpr ⟨socket _, List.forall_mem_singleton.mpr (close _)⟩
  · exact List.forall_mem_nil P

end

/-- An input reaches a session as an event. `recv` is called on a connecting session
only if the socket was not reported writable. -/
inductive Reaches (session : TcpSession) : Input → SessionEvent → Prop where
  | segment {queued : List UInt8} {replies : TunReplies} {hdr : TcpHdr} {payload : List UInt8}
      (decoded : decode (queued.take maxPacketSize) = .ok (.tcp session.flow hdr payload))
      (known : ¬hdr.Opens) :
      Reaches session (.tunReadable queued replies) (.segment hdr payload replies)
  | writable {events : EpollEvents} {replies : SocketReplies} (connecting : session.state = .synSent)
      (output : events.output = true) :
      Reaches session (.socketReady session.sockFd events replies) (.writable replies.soError replies.send)
  | received {events : EpollEvents} {replies : SocketReplies} {queued : List UInt8} (count : Nat)
      (answer : replies.recv = .bytes queued) (some : queued.take count ≠ [])
      (pending : session.state = .synSent → events.output = false) :
      Reaches session (.socketReady session.sockFd events replies)
        (.received (queued.take count) replies.time)
  | remoteClosed {events : EpollEvents} {replies : SocketReplies} (answer : replies.recv = .bytes [])
      (pending : session.state = .synSent → events.output = false) :
      Reaches session (.socketReady session.sockFd events replies) .remoteClosed
  | recvFailed {events : EpollEvents} {replies : SocketReplies} (answer : replies.recv = .failed)
      (pending : session.state = .synSent → events.output = false) :
      Reaches session (.socketReady session.sockFd events replies) .recvFailed

/-- Without a packet or datagram to relay, at most an empty datagram is received. -/
theorem forall_idle {held : UdpSession → Prop} {effects : List Effect} {P : Effect → Prop}
    (quiet : ∀ effect ∈ effects, effect.Idle ∨ ∃ session, held session ∧ effect = .recv session.sockFd [])
    (idle : ∀ effect : Effect, effect.Idle → P effect) (recv : ∀ fd, P (.recv fd [])) :
    ∀ effect ∈ effects, P effect := by
  intro effect member
  rcases quiet effect member with silent | ⟨session, -, rfl⟩
  · exact idle effect silent
  · exact recv session.sockFd

/-- An input that has nothing for the sessions there are. Whether a flow has one is
asked of the lookup, as the source does. -/
inductive Ignored (find : Flow → Option TcpSession) (tcp : TcpSession → Prop) (udp : UdpSession → Prop) :
    Input → Prop where
  | dropped {queued : List UInt8} {replies : TunReplies} {reject : Reject}
      (rejected : decode (queued.take maxPacketSize) = .error reject) :
      Ignored find tcp udp (.tunReadable queued replies)
  | stray {queued : List UInt8} {replies : TunReplies} {flow : Flow} {hdr : TcpHdr} {payload : List UInt8}
      (decoded : decode (queued.take maxPacketSize) = .ok (.tcp flow hdr payload)) (known : ¬hdr.Opens)
      (unknown : find flow = none) :
      Ignored find tcp udp (.tunReadable queued replies)
  | unattached {fd : Nat} {events : EpollEvents} {replies : SocketReplies}
      (noTcp : ∀ session, tcp session → session.sockFd ≠ fd)
      (noUdp : ∀ session, udp session → session.sockFd ≠ fd) :
      Ignored find tcp udp (.socketReady fd events replies)
  | starved {session : TcpSession} {events : EpollEvents} {replies : SocketReplies} (known : tcp session)
      (pending : session.state = .synSent → events.output = false)
      (nothing : events.input = true → replies.recv = .wouldBlock) :
      Ignored find tcp udp (.socketReady session.sockFd events replies)
  | silent {session : UdpSession} {events : EpollEvents} {replies : SocketReplies} (known : udp session)
      (nothing : events.input = true → ∀ queued, replies.recv = .bytes queued → queued = []) :
      Ignored find tcp udp (.socketReady session.sockFd events replies)
  | setRates {dlBps ulBps : Int} : Ignored find tcp udp (.setRates dlBps ulBps)

namespace Engine

/-! ### What the limiter parts leave alone -/

section
variable (engine : Engine) (delay count : Nat)

@[simp] theorem chargeUpload_tcpTable :
    (engine.chargeUpload delay count).1.tcpTable = engine.tcpTable := by simp only [chargeUpload]

@[simp] theorem chargeUpload_udpTable :
    (engine.chargeUpload delay count).1.udpTable = engine.udpTable := by simp only [chargeUpload]

@[simp] theorem chargeUpload_nextAddr :
    (engine.chargeUpload delay count).1.nextAddr = engine.nextAddr := by simp only [chargeUpload]

@[simp] theorem chargeUpload_mtu :
    (engine.chargeUpload delay count).1.mtu = engine.mtu := by simp only [chargeUpload]

@[simp] theorem chargeUpload_dlLimiter :
    (engine.chargeUpload delay count).1.dlLimiter = engine.dlLimiter := by simp only [chargeUpload]

@[simp] theorem chargeDownload_tcpTable :
    (engine.chargeDownload delay count).1.tcpTable = engine.tcpTable := by simp only [chargeDownload]

@[simp] theorem chargeDownload_udpTable :
    (engine.chargeDownload delay count).1.udpTable = engine.udpTable := by simp only [chargeDownload]

@[simp] theorem chargeDownload_nextAddr :
    (engine.chargeDownload delay count).1.nextAddr = engine.nextAddr := by simp only [chargeDownload]

@[simp] theorem chargeDownload_mtu :
    (engine.chargeDownload delay count).1.mtu = engine.mtu := by simp only [chargeDownload]

@[simp] theorem chargeDownload_ulLimiter :
    (engine.chargeDownload delay count).1.ulLimiter = engine.ulLimiter := by simp only [chargeDownload]

@[simp] theorem readSize_tcpTable : (engine.readSize delay).1.tcpTable = engine.tcpTable := by
  unfold readSize
  split <;> rfl

@[simp] theorem readSize_udpTable : (engine.readSize delay).1.udpTable = engine.udpTable := by
  unfold readSize
  split <;> rfl

@[simp] theorem readSize_nextAddr : (engine.readSize delay).1.nextAddr = engine.nextAddr := by
  unfold readSize
  split <;> rfl

@[simp] theorem readSize_mtu : (engine.readSize delay).1.mtu = engine.mtu := by
  unfold readSize
  split <;> rfl

@[simp] theorem readSize_ulLimiter : (engine.readSize delay).1.ulLimiter = engine.ulLimiter := by
  unfold readSize
  split <;> rfl

theorem readSize_pos : 0 < (engine.readSize delay).2 := by
  unfold readSize maxPacketSize
  dsimp only
  split
  · split
    · omega
    · split <;> exact Nat.zero_lt_succ _
  · exact Nat.zero_lt_succ _

theorem chargeUpload_idle : ∀ effect ∈ (engine.chargeUpload delay count).2, effect.Idle := by
  intro effect member
  simp only [chargeUpload] at member
  split at member
  · obtain rfl := List.mem_singleton.mp member
    trivial
  · cases member

theorem chargeDownload_idle : ∀ effect ∈ (engine.chargeDownload delay count).2, effect.Idle := by
  intro effect member
  simp only [chargeDownload] at member
  split at member
  · obtain rfl := List.mem_singleton.mp member
    trivial
  · cases member

end

/-! ### Creating and settling sessions -/

theorem tcpCreate_spec (engine : Engine) (replies : TunReplies) (flow : Flow) (isn : UInt32) :
    engine.tcpCreate replies flow isn =
      match replies.opens with
      | some fd =>
        ({ engine with
            tcpTable := engine.tcpTable.push (sessionHash flow)
              (.fresh engine.nextAddr flow isn fd replies.isnTime replies.time)
            nextAddr := engine.nextAddr + 1 },
          replies.opening .tcp flow ⟨true, true⟩)
      | none => (engine, replies.opening .tcp flow ⟨true, true⟩) := by
  unfold tcpCreate TunReplies.opening TunReplies.opens
  cases replies.calloc <;> cases replies.socket <;> cases replies.protect <;> rfl

theorem udpCreate_spec (engine : Engine) (replies : TunReplies) (flow : Flow) :
    engine.udpCreate replies flow =
      match replies.opens with
      | some fd =>
        ({ engine with
            udpTable := engine.udpTable.push (sessionHash flow) ⟨engine.nextAddr, flow, fd, replies.time⟩
            nextAddr := engine.nextAddr + 1 },
          replies.opening .udp flow ⟨true, false⟩, some ⟨engine.nextAddr, flow, fd, replies.time⟩)
      | none => (engine, replies.opening .udp flow ⟨true, false⟩, none) := by
  unfold udpCreate TunReplies.opening TunReplies.opens
  cases replies.calloc <;> cases replies.socket <;> cases replies.protect <;> rfl

theorem settle_effects (engine : Engine) (handled : Handled) :
    (engine.settle handled).2 = handled.effects ++ handled.closing := by
  unfold settle Handled.closing
  split
  · rfl
  · rw [List.append_nil]

theorem settle_nextAddr (engine : Engine) (handled : Handled) :
    (engine.settle handled).1.nextAddr = engine.nextAddr := by
  unfold settle
  split <;> rfl

theorem settle_udpTable (engine : Engine) (handled : Handled) :
    (engine.settle handled).1.udpTable = engine.udpTable := by
  unfold settle
  split <;> rfl

theorem settle_congr {engine charged : Engine} (table : charged.tcpTable = engine.tcpTable)
    (handled : Handled) : (charged.settle handled).1.tcpTable = (engine.settle handled).1.tcpTable := by
  unfold settle
  split
  · simp only [tcpRemove, table]
  · simp only [tcpStore, table]

theorem tcpFind_linked {engine : Engine} {flow : Flow} {session : TcpSession}
    (found : engine.tcpFind flow = some session) :
    engine.tcpTable.Linked session ∧ session.flow = flow := by
  have hit := List.find?_some found
  exact ⟨⟨_, List.mem_of_find?_eq_some found⟩, of_decide_eq_true hit⟩

theorem udpFind_linked {engine : Engine} {flow : Flow} {session : UdpSession}
    (found : engine.udpFind flow = some session) :
    engine.udpTable.Linked session ∧ session.flow = flow := by
  have hit := List.find?_some found
  exact ⟨⟨_, List.mem_of_find?_eq_some found⟩, of_decide_eq_true hit⟩

def withoutFlow (engine : Engine) (flow : Flow) : Buckets sessionTableSize TcpSession :=
  match engine.tcpFind flow with
  | some session =>
    engine.tcpTable.unlink TcpSession.addr (sessionHash session.flow) session.addr
  | none => engine.tcpTable

/-- A SYN clears its flow and, if the socket could be set up, links a fresh session. -/
theorem openTcp_spec (engine : Engine) (replies : TunReplies) (flow : Flow) (isn : UInt32) :
    (engine.openTcp replies flow isn).1 =
      match replies.opens with
      | some fd =>
        { engine with
          tcpTable := (engine.withoutFlow flow).push (sessionHash flow)
            (.fresh engine.nextAddr flow isn fd replies.isnTime replies.time)
          nextAddr := engine.nextAddr + 1 }
      | none => { engine with tcpTable := engine.withoutFlow flow } := by
  unfold openTcp withoutFlow
  simp only [tcpCreate_spec]
  cases replies.opens <;> cases engine.tcpFind flow <;> simp only [tcpRemove]

theorem openTcp_effects (engine : Engine) (replies : TunReplies) (flow : Flow) (isn : UInt32) :
    (engine.openTcp replies flow isn).2 =
      ((engine.tcpFind flow).elim [] fun old => [.epollDel old.sockFd, .close old.sockFd]) ++
        replies.opening .tcp flow ⟨true, true⟩ := by
  unfold openTcp
  simp only [tcpCreate_spec]
  cases replies.opens <;> cases engine.tcpFind flow <;>
    simp only [tcpRemove, Option.elim, List.nil_append]

theorem openTcp_congr {engine charged : Engine} (table : charged.tcpTable = engine.tcpTable)
    (addr : charged.nextAddr = engine.nextAddr) (replies : TunReplies) (flow : Flow) (isn : UInt32) :
    (charged.openTcp replies flow isn).1.tcpTable = (engine.openTcp replies flow isn).1.tcpTable ∧
      (charged.openTcp replies flow isn).1.nextAddr = (engine.openTcp replies flow isn).1.nextAddr ∧
      (charged.openTcp replies flow isn).2 = (engine.openTcp replies flow isn).2 := by
  have lookup : charged.tcpFind flow = engine.tcpFind flow := by simp only [tcpFind, table]
  have cleared : charged.withoutFlow flow = engine.withoutFlow flow := by
    simp only [withoutFlow, lookup, table]
  rw [openTcp_spec, openTcp_spec, openTcp_effects, openTcp_effects, cleared, addr, lookup]
  cases replies.opens <;> exact ⟨rfl, rfl, rfl⟩

theorem openTcp_udpTable (engine : Engine) (replies : TunReplies) (flow : Flow) (isn : UInt32) :
    (engine.openTcp replies flow isn).1.udpTable = engine.udpTable := by
  rw [openTcp_spec]
  cases replies.opens <;> rfl

/-- The TUN branch in terms of the decoded packet. -/
theorem handleTunReadable_eq (engine : Engine) (replies : TunReplies) (queued : List UInt8) :
    engine.handleTunReadable replies queued =
      match decode (queued.take maxPacketSize) with
      | .error reject => (engine, reject.effects)
      | .ok (.tcp flow hdr payload) =>
        let (engine, pause) := engine.chargeUpload replies.delay (queued.take maxPacketSize).length
        if hdr.Opens then
          let (engine, effects) := engine.openTcp replies flow (ntohl hdr.seq)
          (engine, pause ++ effects)
        else
          match engine.tcpFind flow with
          | some session =>
            let (engine, effects) :=
              engine.settle (session.segmentArrives engine.mtu replies hdr payload)
            (engine, pause ++ effects)
          | none => (engine, pause)
      | .ok (.udp flow _ payload) =>
        let (engine, pause) := engine.chargeUpload replies.delay (queued.take maxPacketSize).length
        match engine.udpSession replies flow with
        | (engine, opening, some session) =>
          (engine.udpStore { session with lastActive := replies.time },
            pause ++ opening ++ [.send session.sockFd payload replies.send])
        | (engine, opening, none) => (engine, pause ++ opening) := by
  unfold handleTunReadable decode
  simp only [bind, Except.bind, pure, Except.pure, throw, throwThe, MonadExceptOf.throw]
  cases parseIp (queued.take maxPacketSize) with
  | error reject => rfl
  | ok ip =>
    dsimp only
    split
    · unfold handleTcpTun
      cases parseTcp ((queued.take maxPacketSize).drop ip.hdrLen) with
      | error reject => rfl
      | ok parsed => rfl
    · split
      · unfold handleUdpTun
        cases parseUdp ((queued.take maxPacketSize).drop ip.hdrLen) with
        | error reject => rfl
        | ok parsed => rfl
      · rfl

/-! ### The cases of a step -/

/-- What a step turns the engine into and does, by the input it was given. -/
inductive Step (engine next : Engine) (effects : List Effect) : Input → Prop where
  | handled {input : Input} {session : TcpSession} {event : SessionEvent} (pause : List Effect)
      (linked : engine.tcpTable.Linked session) (reaches : Reaches session input event)
      (pauses : ∀ effect ∈ pause, effect.Idle)
      (tcp : next.tcpTable = (engine.settle (session.handle engine.mtu event)).1.tcpTable)
      (udp : next.udpTable = engine.udpTable) (addr : next.nextAddr = engine.nextAddr)
      (lines : effects = event.call session.sockFd ++ pause ++
        ((session.handle engine.mtu event).effects ++ (session.handle engine.mtu event).closing)) :
      Step engine next effects input
  | opened {queued : List UInt8} {replies : TunReplies} {flow : Flow} {hdr : TcpHdr}
      {payload : List UInt8} (pause : List Effect)
      (decoded : decode (queued.take maxPacketSize) = .ok (.tcp flow hdr payload)) (opens : hdr.Opens)
      (pauses : ∀ effect ∈ pause, effect.Idle)
      (tcp : next.tcpTable = (engine.openTcp replies flow (ntohl hdr.seq)).1.tcpTable)
      (udp : next.udpTable = engine.udpTable)
      (addr : next.nextAddr = (engine.openTcp replies flow (ntohl hdr.seq)).1.nextAddr)
      (lines : effects = pause ++ (engine.openTcp replies flow (ntohl hdr.seq)).2) :
      Step engine next effects (.tunReadable queued replies)
  | relayed {queued : List UInt8} {replies : TunReplies} {session : UdpSession} {hdr : UdpHdr}
      {payload : List UInt8} (pause : List Effect)
      (decoded : decode (queued.take maxPacketSize) = .ok (.udp session.flow hdr payload))
      (linked : engine.udpTable.Linked session) (pauses : ∀ effect ∈ pause, effect.Idle)
      (tcp : next.tcpTable = engine.tcpTable)
      (udp : next.udpTable =
        engine.udpTable.store UdpSession.addr { session with lastActive := replies.time })
      (addr : next.nextAddr = engine.nextAddr)
      (lines : effects = pause ++ [.send session.sockFd payload replies.send]) :
      Step engine next effects (.tunReadable queued replies)
  | associated {queued : List UInt8} {replies : TunReplies} {flow : Flow} {hdr : UdpHdr}
      {payload : List UInt8} {fd : Nat} (pause : List Effect)
      (decoded : decode (queued.take maxPacketSize) = .ok (.udp flow hdr payload))
      (unknown : engine.udpFind flow = none) (opens : replies.opens = some fd)
      (pauses : ∀ effect ∈ pause, effect.Idle) (tcp : next.tcpTable = engine.tcpTable)
      (udp : next.udpTable =
        (engine.udpTable.push (sessionHash flow) ⟨engine.nextAddr, flow, fd, replies.time⟩).store
          UdpSession.addr ⟨engine.nextAddr, flow, fd, replies.time⟩)
      (addr : next.nextAddr = engine.nextAddr + 1)
      (lines : effects = pause ++ replies.opening .udp flow ⟨true, false⟩ ++
        [.send fd payload replies.send]) :
      Step engine next effects (.tunReadable queued replies)
  | refused {queued : List UInt8} {replies : TunReplies} {flow : Flow} {hdr : UdpHdr}
      {payload : List UInt8} (pause : List Effect)
      (decoded : decode (queued.take maxPacketSize) = .ok (.udp flow hdr payload))
      (opens : replies.opens = none) (pauses : ∀ effect ∈ pause, effect.Idle)
      (tcp : next.tcpTable = engine.tcpTable) (udp : next.udpTable = engine.udpTable)
      (addr : next.nextAddr = engine.nextAddr)
      (lines : effects = pause ++ replies.opening .udp flow ⟨true, false⟩) :
      Step engine next effects (.tunReadable queued replies)
  | delivered {events : EpollEvents} {replies : SocketReplies} {session : UdpSession}
      (data : List UInt8) (pause : List Effect) (linked : engine.udpTable.Linked session)
      (pauses : ∀ effect ∈ pause, effect.Idle) (tcp : next.tcpTable = engine.tcpTable)
      (udp : next.udpTable =
        engine.udpTable.store UdpSession.addr { session with lastActive := replies.time })
      (addr : next.nextAddr = engine.nextAddr)
      (lines : effects = .recv session.sockFd data :: pause ++ [.tunWrite (writeUdp session data)])
      (nonempty : data ≠ []) (received : ∃ queued count, replies.recv = .bytes queued ∧ data = queued.take count) :
      Step engine next effects (.socketReady session.sockFd events replies)
  | swept {now : Int} (tcp : next.tcpTable = engine.tcpTable.sweep fun session => !tcpExpired now session)
      (udp : next.udpTable = engine.udpTable.sweep fun session => !udpExpired now session)
      (addr : next.nextAddr = engine.nextAddr) (lines : effects = (engine.cleanup now).2) :
      Step engine next effects (.cleanup now)
  | idle {input : Input} (tcp : next.tcpTable = engine.tcpTable) (udp : next.udpTable = engine.udpTable)
      (addr : next.nextAddr = engine.nextAddr)
      (quiet : ∀ effect ∈ effects, effect.Idle ∨
        ∃ session, engine.udpTable.Linked session ∧ effect = .recv session.sockFd [])
      (ignored : Ignored engine.tcpFind engine.tcpTable.Linked engine.udpTable.Linked input) :
      Step engine next effects input

section
variable {engine charged : Engine}

theorem Step.of_settle {session : TcpSession} {input : Input} (event : SessionEvent)
    (pause : List Effect) (linked : engine.tcpTable.Linked session) (reaches : Reaches session input event)
    (pauses : ∀ effect ∈ pause, effect.Idle) (tcp : charged.tcpTable = engine.tcpTable)
    (udp : charged.udpTable = engine.udpTable) (addr : charged.nextAddr = engine.nextAddr)
    (mtu : charged.mtu = engine.mtu) :
    Step engine (charged.settle (session.handle charged.mtu event)).1
      (event.call session.sockFd ++ pause ++ (charged.settle (session.handle charged.mtu event)).2)
      input := by
  apply Step.handled pause linked reaches pauses
  · rw [mtu, settle_congr tcp]
  · rw [settle_udpTable, udp]
  · rw [settle_nextAddr, addr]
  · rw [settle_effects, mtu]

theorem handleTunReadable_step (engine : Engine) (replies : TunReplies) (queued : List UInt8) :
    Step engine (engine.handleTunReadable replies queued).1 (engine.handleTunReadable replies queued).2
      (.tunReadable queued replies) := by
  have pauses := chargeUpload_idle engine replies.delay (queued.take maxPacketSize).length
  have tcp := chargeUpload_tcpTable engine replies.delay (queued.take maxPacketSize).length
  have udp := chargeUpload_udpTable engine replies.delay (queued.take maxPacketSize).length
  have addr := chargeUpload_nextAddr engine replies.delay (queued.take maxPacketSize).length
  have mtu := chargeUpload_mtu engine replies.delay (queued.take maxPacketSize).length
  rw [handleTunReadable_eq]
  generalize engine.chargeUpload replies.delay (queued.take maxPacketSize).length = charged at *
  cases decoded : decode (queued.take maxPacketSize) with
  | error reject =>
    refine .idle rfl rfl rfl ?_ (.dropped decoded)
    intro effect member
    cases reject with
    | drop => cases member
    | outOfBounds =>
      obtain rfl := List.mem_singleton.mp member
      exact .inl trivial
  | ok packet =>
    cases packet with
    | tcp flow hdr payload =>
      dsimp only
      split
      next opens =>
        obtain ⟨table, next, effects⟩ := openTcp_congr tcp addr replies flow (ntohl hdr.seq)
        apply Step.opened charged.2 decoded opens pauses table _ next
        · rw [effects]
        · rw [openTcp_udpTable, udp]
      next known =>
        -- any other segment belongs to a session or is dropped
        split
        next session found =>
          obtain ⟨linked, rfl⟩ := tcpFind_linked found
          rw [tcp] at linked
          exact .of_settle (.segment hdr payload replies) charged.2 linked (.segment decoded known)
            pauses tcp udp addr mtu
        next absent =>
          have unknown : engine.tcpFind flow = none := by simpa only [tcpFind, tcp] using absent
          exact .idle tcp udp addr (fun effect member => .inl (pauses effect member))
            (.stray decoded known unknown)
    | udp flow hdr payload =>
      dsimp only [udpSession]
      have lookup : charged.1.udpFind flow = engine.udpFind flow := by simp only [udpFind, udp]
      cases found : charged.1.udpFind flow with
      | some session =>
        obtain ⟨linked, rfl⟩ := udpFind_linked found
        rw [udp] at linked
        dsimp only
        refine .relayed charged.2 decoded linked pauses tcp ?_ addr ?_
        · simp only [udpStore, udp]
        · rw [List.append_nil]
      | none =>
        rw [lookup] at found
        simp only [udpCreate_spec]
        cases opens : replies.opens with
        | some fd =>
          dsimp only
          refine .associated charged.2 decoded found opens pauses tcp ?_ ?_ ?_
          · simp only [udpStore, udp, addr]
          · simp only [udpStore, addr]
          · rfl
        | none => exact .refused charged.2 decoded opens pauses tcp udp addr rfl

theorem readTcp_step {session : TcpSession} (linked : engine.tcpTable.Linked session)
    (events : EpollEvents) (replies : SocketReplies)
    (pending : session.state = .synSent → events.output = false) :
    Step engine (engine.readTcp session replies).1 (engine.readTcp session replies).2
      (.socketReady session.sockFd events replies) := by
  have tcp := readSize_tcpTable engine replies.availableDelay
  have udp := readSize_udpTable engine replies.availableDelay
  have addr := readSize_nextAddr engine replies.availableDelay
  have mtu := readSize_mtu engine replies.availableDelay
  have pos := readSize_pos engine replies.availableDelay
  unfold readTcp
  generalize engine.readSize replies.availableDelay = refilled at *
  cases answer : replies.recv with
  | bytes queued =>
    dsimp only
    split
    next empty =>
      obtain rfl : queued = [] := (List.take_eq_nil_iff.mp empty).resolve_left (by omega)
      exact .of_settle .remoteClosed [] linked (.remoteClosed answer pending) (by simp) tcp udp addr mtu
    next some =>
      have pauses := chargeDownload_idle refilled.1 replies.consumeDelay (queued.take refilled.2).length
      apply Step.of_settle (.received (queued.take refilled.2) replies.time) _ linked
        (.received refilled.2 answer some pending) pauses
      · rw [chargeDownload_tcpTable, tcp]
      · rw [chargeDownload_udpTable, udp]
      · rw [chargeDownload_nextAddr, addr]
      · rw [chargeDownload_mtu, mtu]
  | wouldBlock => exact .idle tcp udp addr (by simp) (.starved linked pending fun _ => answer)
  | failed => exact .of_settle .recvFailed [] linked (.recvFailed answer pending) (by simp) tcp udp addr mtu

theorem readUdp_step {session : UdpSession} (linked : engine.udpTable.Linked session)
    (events : EpollEvents) (replies : SocketReplies) :
    Step engine (engine.readUdp session replies).1 (engine.readUdp session replies).2
      (.socketReady session.sockFd events replies) := by
  have tcp := readSize_tcpTable engine replies.availableDelay
  have udp := readSize_udpTable engine replies.availableDelay
  have addr := readSize_nextAddr engine replies.availableDelay
  have pos := readSize_pos engine replies.availableDelay
  unfold readUdp
  generalize engine.readSize replies.availableDelay = refilled at *
  cases answer : replies.recv with
  | bytes queued =>
    dsimp only
    split
    next empty =>
      -- an empty datagram is dropped
      have nothing : queued = [] := (List.take_eq_nil_iff.mp empty).resolve_left (by omega)
      refine .idle tcp udp addr ?_ (.silent linked fun _ other same => ?_)
      · intro effect member
        obtain rfl := List.mem_singleton.mp member
        exact .inr ⟨session, linked, rfl⟩
      · rw [answer] at same
        cases same
        exact nothing
    next some =>
      have pauses := chargeDownload_idle refilled.1 replies.consumeDelay (queued.take refilled.2).length
      refine .delivered (queued.take refilled.2) _ linked pauses ?_ ?_ ?_ rfl some ⟨queued, refilled.2, answer, rfl⟩
      · simp only [udpStore, chargeDownload_tcpTable, tcp]
      · simp only [udpStore, chargeDownload_udpTable, udp]
      · simp only [udpStore, chargeDownload_nextAddr, addr]
  | wouldBlock => exact .idle tcp udp addr (by simp) (.silent linked (by simp [answer]))
  | failed => exact .idle tcp udp addr (by simp) (.silent linked (by simp [answer]))

theorem handleSocketEvent_step (engine : Engine) (fd : Nat) (events : EpollEvents)
    (replies : SocketReplies) :
    Step engine (engine.handleSocketEvent fd events replies).1
      (engine.handleSocketEvent fd events replies).2 (.socketReady fd events replies) := by
  unfold handleSocketEvent
  cases found : engine.tcpFindByFd fd with
  | some session =>
    obtain ⟨linked, hit⟩ := Buckets.search_some found
    obtain rfl : session.sockFd = fd := beq_iff_eq.mp hit
    dsimp only
    split
    next completes =>
      have handled : session.handle engine.mtu (.writable replies.soError replies.send) =
          session.connectCompletes engine.mtu replies.soError replies.send := if_pos completes.1
      rw [← handled]
      exact .of_settle _ [] linked (.writable completes.1 completes.2) (by simp) rfl rfl rfl rfl
    next waits =>
      have pending : session.state = .synSent → events.output = false := fun connecting =>
        Bool.eq_false_iff.mpr fun output => waits ⟨connecting, output⟩
      split
      · exact readTcp_step linked events replies pending
      next unread =>
        exact .idle rfl rfl rfl (by simp) (.starved linked pending fun input => absurd input unread)
  | none =>
    dsimp only
    split
    next session found =>
      obtain ⟨linked, hit⟩ := Buckets.search_some found
      obtain rfl : session.sockFd = fd := beq_iff_eq.mp hit
      split
      · exact readUdp_step linked events replies
      next unread =>
        exact .idle rfl rfl rfl (by simp) (.silent linked fun input => absurd input unread)
    next absent =>
      -- no session has this descriptor
      refine .idle rfl rfl rfl (by simp) (.unattached ?_ ?_)
      · intro session linked
        simpa using Buckets.search_none_iff.mp found session linked
      · intro session linked
        simpa using Buckets.search_none_iff.mp absent session linked

end

/-- Every step is one of the cases. -/
theorem step_spec (engine : Engine) (input : Input) :
    Step engine (engine.next input) (engine.step input).2 input := by
  cases input with
  | tunReadable queued replies => exact handleTunReadable_step engine replies queued
  | socketReady fd events replies => exact handleSocketEvent_step engine fd events replies
  | cleanup now => exact .swept rfl rfl rfl rfl
  | setRates dlBps ulBps => exact .idle rfl rfl rfl (by simp [step]) .setRates

end Engine

end ThrottleVpn.Tun2Socks
