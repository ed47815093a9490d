import ThrottleVpn.Foundation.Lookup
import ThrottleVpn.Foundation.Refinement
import ThrottleVpn.Tun2Socks.Sockets

/-! The sessions without the hash tables.

There is at most one TCP and one UDP session for each flow, and the moves name
flows only: chains, buckets and pointers are gone, and how long a step sleeps is
left open. The engine does nothing but these moves.
-/

set_option autoImplicit false

namespace ThrottleVpn.Tun2Socks

open Foundation

structure Sessions where
  tcp : Flow → Option TcpSession
  udp : Flow → Option UdpSession
  serial : Nat

namespace Sessions

def empty : Sessions := ⟨fun _ => none, fun _ => none, 0⟩

def closing (session : Option TcpSession) : List Effect :=
  session.elim [] fun old => [.epollDel old.sockFd, .close old.sockFd]

def opened (sessions : Sessions) (replies : TunReplies) (flow : Flow) (isn : UInt32) : Sessions :=
  match replies.opens with
  | some fd =>
    { sessions with
      tcp := Function.update sessions.tcp flow
        (some (.fresh sessions.serial flow isn fd replies.isnTime replies.time))
      serial := sessions.serial + 1 }
  | none => { sessions with tcp := Function.update sessions.tcp flow none }

theorem opened_other (sessions : Sessions) (replies : TunReplies) {target flow : Flow} (isn : UInt32)
    (other : flow ≠ target) : (sessions.opened replies target isn).tcp flow = sessions.tcp flow := by
  unfold opened
  cases replies.opens <;> simp [other]

theorem opened_udp (sessions : Sessions) (replies : TunReplies) (target : Flow) (isn : UInt32) :
    (sessions.opened replies target isn).udp = sessions.udp := by
  unfold opened
  cases replies.opens <;> rfl

def Left (handled : Handled) : Option TcpSession :=
  if handled.removed then none else some handled.session

/-- The moves, labelled with an input and the calls it leads to. -/
inductive Move (mtu : Int) (sessions : Sessions) : Input × List Effect → Sessions → Prop where
  | handled {input : Input} {session : TcpSession} {event : SessionEvent} (pause : List Effect)
      (known : sessions.tcp session.flow = some session) (reaches : Reaches session input event)
      (pauses : ∀ effect ∈ pause, effect.Idle) :
      Move mtu sessions
        (input, event.call session.sockFd ++ pause ++
          ((session.handle mtu event).effects ++ (session.handle mtu event).closing))
        { sessions with tcp := Function.update sessions.tcp session.flow (Left (session.handle mtu event)) }
  | opened {queued : List UInt8} {replies : TunReplies} {flow : Flow} {hdr : TcpHdr}
      {payload : List UInt8} (pause : List Effect)
      (decoded : decode (queued.take maxPacketSize) = .ok (.tcp flow hdr payload)) (opens : hdr.Opens)
      (pauses : ∀ effect ∈ pause, effect.Idle) :
      Move mtu sessions
        (.tunReadable queued replies,
          pause ++ (closing (sessions.tcp flow) ++ replies.opening .tcp flow ⟨true, true⟩))
        (sessions.opened replies flow (ntohl hdr.seq))
  | relayed {queued : List UInt8} {replies : TunReplies} {session : UdpSession} {hdr : UdpHdr}
      {payload : List UInt8} (pause : List Effect)
      (decoded : decode (queued.take maxPacketSize) = .ok (.udp session.flow hdr payload))
      (known : sessions.udp session.flow = some session) (pauses : ∀ effect ∈ pause, effect.Idle) :
      Move mtu sessions
        (.tunReadable queued replies, pause ++ [.send session.sockFd payload replies.send])
        { sessions with
          udp := Function.update sessions.udp session.flow (some { session with lastActive := replies.time }) }
  | associated {queued : List UInt8} {replies : TunReplies} {flow : Flow} {hdr : UdpHdr}
      {payload : List UInt8} {fd : Nat} (pause : List Effect)
      (decoded : decode (queued.take maxPacketSize) = .ok (.udp flow hdr payload))
      (unknown : sessions.udp flow = none) (opens : replies.opens = some fd)
      (pauses : ∀ effect ∈ pause, effect.Idle) :
      Move mtu sessions
        (.tunReadable queued replies, pause ++ replies.opening .udp flow ⟨true, false⟩ ++
          [.send fd payload replies.send])
        { sessions with
          udp := Function.update sessions.udp flow (some ⟨sessions.serial, flow, fd, replies.time⟩)
          serial := sessions.serial + 1 }
  | refused {queued : List UInt8} {replies : TunReplies} {flow : Flow} {hdr : UdpHdr}
      {payload : List UInt8} (pause : List Effect)
      (decoded : decode (queued.take maxPacketSize) = .ok (.udp flow hdr payload))
      (opens : replies.opens = none) (pauses : ∀ effect ∈ pause, effect.Idle) :
      Move mtu sessions (.tunReadable queued replies, pause ++ replies.opening .udp flow ⟨true, false⟩) sessions
  | delivered {events : EpollEvents} {replies : SocketReplies} {session : UdpSession}
      (data : List UInt8) (pause : List Effect) (known : sessions.udp session.flow = some session)
      (pauses : ∀ effect ∈ pause, effect.Idle) (nonempty : data ≠ [])
      (received : ∃ queued count, replies.recv = .bytes queued ∧ data = queued.take count) :
      Move mtu sessions
        (.socketReady session.sockFd events replies,
          .recv session.sockFd data :: pause ++ [.tunWrite (writeUdp session data)])
        { sessions with
          udp := Function.update sessions.udp session.flow (some { session with lastActive := replies.time }) }
  /-- The expired sessions go in any order, each of them once. -/
  | swept {now : Int} (tcpGone : List TcpSession) (udpGone : List UdpSession)
      (tcpOnce : tcpGone.Nodup) (udpOnce : udpGone.Nodup)
      (tcpAll : ∀ session, session ∈ tcpGone ↔
        sessions.tcp session.flow = some session ∧ Engine.tcpExpired now session = true)
      (udpAll : ∀ session, session ∈ udpGone ↔
        sessions.udp session.flow = some session ∧ Engine.udpExpired now session = true) :
      Move mtu sessions
        (.cleanup now, closings (tcpGone.map TcpSession.sockFd ++ udpGone.map UdpSession.sockFd))
        { sessions with
          tcp := fun flow => (sessions.tcp flow).filter fun session => !Engine.tcpExpired now session
          udp := fun flow => (sessions.udp flow).filter fun session => !Engine.udpExpired now session }
  | idle {input : Input} {effects : List Effect}
      (quiet : ∀ effect ∈ effects, effect.Idle ∨
        ∃ session, sessions.udp session.flow = some session ∧ effect = .recv session.sockFd [])
      (ignored : Ignored sessions.tcp (fun session => sessions.tcp session.flow = some session)
        (fun session => sessions.udp session.flow = some session) input) :
      Move mtu sessions (input, effects) sessions

end Sessions

namespace Engine

def sessions (engine : Engine) : Sessions := ⟨engine.tcpFind, engine.udpFind, engine.nextAddr⟩

def shown (engine : Engine) (input : Input) : Input × List Effect := (input, (engine.step input).2)

namespace Tables
variable {engine : Engine} (tables : engine.Tables)
include tables

theorem tcpFind_eq_some_iff {flow : Flow} {session : TcpSession} :
    engine.tcpFind flow = some session ↔ engine.tcpTable.Linked session ∧ session.flow = flow :=
  tables.tcp.find_eq_some_iff

theorem tcpFind_linked {session : TcpSession} (linked : engine.tcpTable.Linked session) :
    engine.tcpFind session.flow = some session := tables.tcpFind_eq_some_iff.mpr ⟨linked, rfl⟩

theorem udpFind_eq_some_iff {flow : Flow} {session : UdpSession} :
    engine.udpFind flow = some session ↔ engine.udpTable.Linked session ∧ session.flow = flow :=
  tables.udp.find_eq_some_iff

theorem udpFind_linked {session : UdpSession} (linked : engine.udpTable.Linked session) :
    engine.udpFind session.flow = some session := tables.udpFind_eq_some_iff.mpr ⟨linked, rfl⟩

theorem tcpLinked_iff {session : TcpSession} :
    engine.tcpTable.Linked session ↔ engine.tcpFind session.flow = some session :=
  ⟨tables.tcpFind_linked, fun found => (tables.tcpFind_eq_some_iff.mp found).1⟩

theorem udpLinked_iff {session : UdpSession} :
    engine.udpTable.Linked session ↔ engine.udpFind session.flow = some session :=
  ⟨tables.udpFind_linked, fun found => (tables.udpFind_eq_some_iff.mp found).1⟩

theorem lookup_settle {session : TcpSession} (linked : engine.tcpTable.Linked session) (event : SessionEvent) :
    (engine.settle (session.handle engine.mtu event)).1.tcpFind =
      Function.update engine.tcpFind session.flow (Sessions.Left (session.handle engine.mtu event)) := by
  have same := session.handle_identity engine.mtu event
  simp only [TcpSession.identity, Prod.mk.injEq] at same
  show Buckets.lookup sessionHash TcpSession.flow _ = _
  rw [settle_tcpTable]
  unfold Sessions.Left
  split
  · exact tables.tcp.lookup_unlink linked
  · exact tables.tcp.lookup_store linked _ same.1 same.2.1

theorem lookup_withoutFlow (flow : Flow) :
    Buckets.lookup sessionHash TcpSession.flow (engine.withoutFlow flow) =
      Function.update engine.tcpFind flow none := by
  unfold withoutFlow
  cases found : engine.tcpFind flow with
  | some session =>
    obtain ⟨linked, rfl⟩ := tables.tcpFind_eq_some_iff.mp found
    exact tables.tcp.lookup_unlink linked
  | none =>
    have same := Function.update_eq_self flow engine.tcpFind
    rw [found] at same
    rw [same]
    rfl

theorem sessions_openTcp (replies : TunReplies) (flow : Flow) (isn : UInt32) :
    (engine.openTcp replies flow isn).1.sessions = engine.sessions.opened replies flow isn := by
  obtain ⟨chained, -⟩ := withoutFlow_chained tables flow
  have cleared := tables.lookup_withoutFlow flow
  rw [openTcp_spec]
  unfold Sessions.opened
  cases replies.opens with
  | some fd =>
    have absent : Buckets.lookup sessionHash TcpSession.flow (engine.withoutFlow flow) flow = none := by
      rw [cleared, Function.update_self]
    have pushed := chained.lookup_push (.fresh engine.nextAddr flow isn fd replies.isnTime replies.time) absent rfl
    rw [cleared] at pushed
    simp only [sessions, Sessions.mk.injEq, and_true]
    exact ⟨pushed.trans (Function.update_idem ..), rfl⟩
  | none =>
    simp only [sessions, Sessions.mk.injEq, and_true]
    exact ⟨cleared, rfl⟩

end Tables

theorem sessions_eq (engine : Engine) :
    engine.sessions = ⟨Buckets.lookup sessionHash TcpSession.flow engine.tcpTable,
      Buckets.lookup sessionHash UdpSession.flow engine.udpTable, engine.nextAddr⟩ := rfl

theorem Tables.sessions_swept {engine next : Engine} (tables : engine.Tables) {now : Int}
    (tcp : next.tcpTable = engine.tcpTable.sweep fun session => !tcpExpired now session)
    (udp : next.udpTable = engine.udpTable.sweep fun session => !udpExpired now session)
    (addr : next.nextAddr = engine.nextAddr) :
    next.sessions = { engine.sessions with
      tcp := fun flow => (engine.tcpFind flow).filter fun session => !tcpExpired now session
      udp := fun flow => (engine.udpFind flow).filter fun session => !udpExpired now session } := by
  rw [sessions_eq, tcp, udp, addr, tables.tcp.lookup_sweep, tables.udp.lookup_sweep]
  rfl

theorem Tables.sessions_touched {engine next : Engine} (tables : engine.Tables) {session : UdpSession} {time : Int}
    (linked : engine.udpTable.Linked session) (tcp : next.tcpTable = engine.tcpTable)
    (udp : next.udpTable = engine.udpTable.store UdpSession.addr { session with lastActive := time })
    (addr : next.nextAddr = engine.nextAddr) :
    next.sessions = { engine.sessions with
      udp := Function.update engine.sessions.udp session.flow (some { session with lastActive := time }) } := by
  rw [sessions_eq, tcp, udp, addr, tables.udp.lookup_store linked { session with lastActive := time } rfl rfl]
  rfl

theorem Tables.move_idle {engine next : Engine} (tables : engine.Tables) {input : Input} {effects : List Effect}
    (tcp : next.tcpTable = engine.tcpTable) (udp : next.udpTable = engine.udpTable)
    (addr : next.nextAddr = engine.nextAddr)
    (quiet : ∀ effect ∈ effects, effect.Idle ∨
      ∃ session, engine.udpTable.Linked session ∧ effect = .recv session.sockFd [])
    (ignored : Ignored engine.tcpFind engine.tcpTable.Linked engine.udpTable.Linked input) :
    Sessions.Move engine.mtu engine.sessions (input, effects) next.sessions := by
  have after : next.sessions = engine.sessions := by
    rw [sessions_eq, tcp, udp, addr]
    rfl
  have tcpKnown : engine.tcpTable.Linked = fun session => engine.tcpFind session.flow = some session := by
    funext session
    exact propext tables.tcpLinked_iff
  have udpKnown : engine.udpTable.Linked = fun session => engine.udpFind session.flow = some session := by
    funext session
    exact propext tables.udpLinked_iff
  rw [tcpKnown, udpKnown] at ignored
  rw [after]
  refine .idle ?_ ignored
  intro effect member
  refine (quiet effect member).imp_right ?_
  rintro ⟨session, linked, rfl⟩
  exact ⟨session, tables.udpFind_linked linked, rfl⟩

/-- Every step of the engine is a move of the sessions. -/
theorem Tables.move {engine : Engine} (tables : engine.Tables) (input : Input) :
    Sessions.Move engine.mtu engine.sessions (engine.shown input) (engine.next input).sessions := by
  have spec := step_spec engine input
  unfold shown
  generalize (engine.step input).2 = effects at *
  generalize engine.next input = next at *
  cases spec with
  | @handled _ session event pause linked reaches pauses tcp udp addr lines =>
    have after : next.sessions = { engine.sessions with
        tcp := Function.update engine.sessions.tcp session.flow
          (Sessions.Left (session.handle engine.mtu event)) } := by
      rw [sessions_eq, tcp, udp, addr]
      exact congrArg (Sessions.mk · _ _) (tables.lookup_settle linked event)
    rw [lines, after]
    exact .handled pause (tables.tcpFind_linked linked) reaches pauses
  | @opened queued replies flow hdr payload pause decoded opens pauses tcp udp addr lines =>
    have after : next.sessions = engine.sessions.opened replies flow (ntohl hdr.seq) := by
      rw [sessions_eq, tcp, udp, addr, ← tables.sessions_openTcp, sessions_eq, openTcp_udpTable]
    rw [lines, after, openTcp_effects]
    exact .opened pause decoded opens pauses
  | @relayed queued replies session hdr payload pause decoded linked pauses tcp udp addr lines =>
    rw [lines, tables.sessions_touched linked tcp udp addr]
    exact .relayed pause decoded (tables.udpFind_linked linked) pauses
  | @associated queued replies flow hdr payload fd pause decoded unknown opens pauses tcp udp addr lines =>
    let session : UdpSession := ⟨engine.nextAddr, flow, fd, replies.time⟩
    have pushed := tables.udp.push session (tables.udp.find_eq_none_iff.mp unknown) rfl
    have after : next.sessions = { engine.sessions with
        udp := Function.update engine.sessions.udp flow (some session)
        serial := engine.sessions.serial + 1 } := by
      rw [sessions_eq, tcp, udp, addr, pushed.lookup_store (Buckets.linked_push.mpr (.inl rfl)) session rfl rfl,
        tables.udp.lookup_push session unknown rfl, Function.update_idem]
      rfl
    rw [lines, after]
    exact .associated pause decoded unknown opens pauses
  | @refused queued replies flow hdr payload pause decoded opens pauses tcp udp addr lines =>
    have after : next.sessions = engine.sessions := by
      rw [sessions_eq, tcp, udp, addr]
      rfl
    rw [lines, after]
    exact .refused pause decoded opens pauses
  | @delivered events replies session data pause linked pauses tcp udp addr lines nonempty received =>
    rw [lines, tables.sessions_touched linked tcp udp addr]
    exact .delivered data pause (tables.udpFind_linked linked) pauses nonempty received
  | @swept now tcp udp addr lines =>
    rw [lines, tables.sessions_swept tcp udp addr, cleanup_effects]
    -- the chains are walked in order; which order that is does not matter
    apply Sessions.Move.swept
    · exact tables.tcp.records_nodup.filter _
    · exact tables.udp.records_nodup.filter _
    · intro session
      rw [List.mem_filter, Buckets.mem_records]
      exact and_congr_left fun _ => tables.tcpLinked_iff
    · intro session
      rw [List.mem_filter, Buckets.mem_records]
      exact and_congr_left fun _ => tables.udpLinked_iff
  | @idle input tcp udp addr quiet ignored => exact tables.move_idle tcp udp addr quiet ignored

theorem refines_sessions (mtu : Int) :
    Refines next (fun _ _ => True) shown (Sessions.Move mtu) sessions
      fun engine => engine.Tables ∧ engine.mtu = mtu where
  preserved := fun engine input ⟨tables, same⟩ _ => ⟨tables.next input, (next_mtu engine input).trans same⟩
  moves := by
    rintro engine input ⟨tables, rfl⟩ -
    exact tables.move input

/-- Every run of the engine is, call for call, a path of moves on maps from flows to
sessions. -/
theorem runs_are_session_paths (tunFd : Nat) (mtu ulStart dlStart : Int) (inputs : List Input) :
    Moves.Path (Sessions.Move mtu) .empty (trace next shown (start tunFd mtu ulStart dlStart) inputs)
      (inputs.foldl next (start tunFd mtu ulStart dlStart)).sessions :=
  (refines_sessions mtu).path (admits_of_forall fun _ _ _ => trivial)
    ⟨tables_start tunFd mtu ulStart dlStart, rfl⟩

end Engine

end ThrottleVpn.Tun2Socks
