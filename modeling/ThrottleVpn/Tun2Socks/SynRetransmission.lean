import ThrottleVpn.Tun2Socks.Tables

/-! A SYN for a flow that already has a session.

`handle_tcp_tun` takes every SYN without ACK for a new connection: the session of
the 4-tuple is removed first, so a retransmitted SYN restarts the connect.
-/

set_option autoImplicit false

namespace ThrottleVpn.Tun2Socks

open Foundation Limiter

def synOf (queued : List UInt8) : Option (Flow × UInt32) :=
  let packet := queued.take maxPacketSize
  match parseIp packet with
  | .error _ => none
  | .ok ip =>
    match parseTcp (packet.drop ip.hdrLen) with
    | .error _ => none
    | .ok (hdr, _) =>
      if ip.proto = 6 ∧ hasFlag hdr.flags tfSyn ∧ ¬hasFlag hdr.flags tfAck then
        some (⟨ip.src, hdr.srcPort, ip.dst, hdr.dstPort⟩, ntohl hdr.seq)
      else none

namespace Engine

theorem handleTunReadable_syn {queued : List UInt8} {flow : Flow} {isn : UInt32}
    (syn : synOf queued = some (flow, isn)) (engine : Engine) (replies : TunReplies) :
    let charged := engine.chargeUpload replies.delay (queued.take maxPacketSize).length
    engine.handleTunReadable replies queued =
      ((charged.1.openTcp replies flow isn).1, charged.2 ++ (charged.1.openTcp replies flow isn).2) := by
  unfold synOf at syn
  unfold handleTunReadable handleTcpTun
  dsimp only at syn ⊢
  cases ipParsed : parseIp (queued.take maxPacketSize) with
  | error reject => simp [ipParsed] at syn
  | ok ip =>
    cases tcpParsed : parseTcp ((queued.take maxPacketSize).drop ip.hdrLen) with
    | error reject => simp [ipParsed, tcpParsed] at syn
    | ok parsed =>
      simp only [ipParsed, tcpParsed] at syn ⊢
      split at syn
      next opens =>
        simp only [Option.some.injEq, Prod.mk.injEq] at syn
        obtain ⟨rfl, rfl⟩ := syn
        rw [if_pos opens.1, if_pos opens.2]
      next => cases syn

theorem openTcp_linked {engine : Engine} (tables : Tables engine) (replies : TunReplies) (flow : Flow)
    (isn : UInt32) (session : TcpSession) :
    (engine.openTcp replies flow isn).1.tcpTable.Linked session ↔
      (replies.opens.map fun fd =>
          TcpSession.fresh engine.nextAddr flow isn fd replies.isnTime replies.time) = some session ∨
        engine.tcpTable.Linked session ∧ session.flow ≠ flow := by
  obtain ⟨-, cleared⟩ := withoutFlow_chained tables flow
  rw [openTcp_spec]
  cases replies.opens with
  | some fd =>
    rw [Buckets.linked_push, cleared, Option.map_some, Option.some.injEq, eq_comm]
  | none =>
    rw [Option.map_none]
    exact (cleared session).trans ⟨.inr, fun either => either.resolve_left (by simp)⟩

theorem openTcp_find {engine : Engine} (tables : Tables engine) (replies : TunReplies) (flow : Flow)
    (isn : UInt32) :
    (engine.openTcp replies flow isn).1.tcpFind flow =
      replies.opens.map fun fd => .fresh engine.nextAddr flow isn fd replies.isnTime replies.time := by
  have chained := openTcp_chained tables replies flow isn
  apply Option.ext
  intro session
  refine chained.find_eq_some_iff.trans ?_
  rw [openTcp_linked tables]
  constructor
  · rintro ⟨fresh | ⟨-, other⟩, same⟩
    · exact fresh
    · exact absurd same other
  · intro fresh
    obtain ⟨fd, -, rfl⟩ := Option.map_eq_some_iff.mp fresh
    exact ⟨.inl fresh, rfl⟩

theorem openTcp_find_other {engine : Engine} (tables : Tables engine) (replies : TunReplies)
    {flow other : Flow} (different : other ≠ flow) (isn : UInt32) :
    (engine.openTcp replies flow isn).1.tcpFind other = engine.tcpFind other := by
  have chained := openTcp_chained tables replies flow isn
  apply Option.ext
  intro session
  refine chained.find_eq_some_iff.trans (Iff.trans ?_ tables.tcp.find_eq_some_iff.symm)
  rw [openTcp_linked tables]
  constructor
  · rintro ⟨fresh | ⟨linked, -⟩, same⟩
    · obtain ⟨fd, -, rfl⟩ := Option.map_eq_some_iff.mp fresh
      exact absurd same.symm different
    · exact ⟨linked, same⟩
  · rintro ⟨linked, rfl⟩
    exact ⟨.inr ⟨linked, different⟩, rfl⟩

theorem openTcp_closes {engine : Engine} {flow : Flow} {session : TcpSession}
    (found : engine.tcpFind flow = some session) (replies : TunReplies) (isn : UInt32) :
    .epollDel session.sockFd ∈ (engine.openTcp replies flow isn).2 ∧
      .close session.sockFd ∈ (engine.openTcp replies flow isn).2 := by
  rw [openTcp_effects, found]
  simp

end Engine

/-- The fields a retransmission would have to leave alone. -/
structure SameConnection (before after : TcpSession) : Prop where
  sockFd : after.sockFd = before.sockFd
  ourSeq : after.ourSeq = before.ourSeq
  clientSeq : after.clientSeq = before.clientSeq
  state : after.state = before.state
  pendingData : after.pendingData = before.pendingData
  pendingLen : after.pendingLen = before.pendingLen

/-- Further copies of the SYN that created a session leave the connection alone. -/
def SynIdempotent : Prop :=
  ∀ (tunFd : Nat) (mtu ulStart dlStart : Int) (earlier later copies : List Input) (queued : List UInt8)
    (first : TunReplies) (flow : Flow) (isn : UInt32) (session : TcpSession),
    synOf queued = some (flow, isn) →
    let created := earlier.foldl Engine.next (Engine.start tunFd mtu ulStart dlStart)
    let reached := (.tunReadable queued first :: later).foldl Engine.next created
    reached.tcpFind flow = some session → session.addr = created.nextAddr →
    (∀ copy ∈ copies, ∃ replies, copy = .tunReadable queued replies) →
    ∃ after, (copies.foldl Engine.next reached).tcpFind flow = some after ∧ SameConnection session after

/-- The client resends its SYN after the connection was established: the socket
is replaced and the client's connection starts over. -/
theorem syn_not_idempotent : ¬SynIdempotent := by
  intro idempotent
  let connected : Input := .socketReady 7 ⟨false, true⟩ (.smooth [])
  let start := Engine.start 3 1500 0 0
  let established : TcpSession :=
    { TcpSession.fresh 0 sampleFlow 1000 7 0 0 with
      state := .established
      ourSeq := (TcpSession.fresh 0 sampleFlow 1000 7 0 0).ourSeq + 1 }
  obtain ⟨after, found, same⟩ := idempotent 3 1500 0 0 [] [connected]
    [.tunReadable sampleSyn (.smooth 8 3)] sampleSyn (.smooth 7 0) sampleFlow 1000 established
    (by decide +kernel) (by decide +kernel) rfl (by simp)
  have restarted : ([.tunReadable sampleSyn (.smooth 8 3)].foldl Engine.next
      ([.tunReadable sampleSyn (.smooth 7 0), connected].foldl Engine.next start)).tcpFind sampleFlow =
        some (.fresh 1 sampleFlow 1000 8 3 3) := by decide +kernel
  obtain rfl := Option.some.inj (found.symm.trans restarted)
  exact absurd same.sockFd (by decide)

/-- In every reachable state, one more copy of a SYN closes the socket of the
flow's session and removes it; a fresh session, or none if the socket could not
be set up, takes its place. The other flows keep their sessions. -/
theorem syn_replaces_session (tunFd : Nat) (mtu ulStart dlStart : Int) (inputs : List Input)
    {queued : List UInt8} {flow : Flow} {isn : UInt32} (syn : synOf queued = some (flow, isn))
    (replies : TunReplies) :
    let engine := inputs.foldl Engine.next (Engine.start tunFd mtu ulStart dlStart)
    let after := engine.step (.tunReadable queued replies)
    (after.1.tcpFind flow = replies.opens.map fun fd =>
      .fresh engine.nextAddr flow isn fd replies.isnTime replies.time) ∧
    (∀ session, engine.tcpFind flow = some session →
      .epollDel session.sockFd ∈ after.2 ∧ .close session.sockFd ∈ after.2 ∧
        ∀ other, after.1.tcpTable.Linked other → other.addr ≠ session.addr) ∧
    ∀ other, other ≠ flow → after.1.tcpFind other = engine.tcpFind other := by
  intro engine after
  have tables : engine.Tables := Engine.tables_run tunFd mtu ulStart dlStart inputs
  have charged := tables.chargeUpload replies.delay (queued.take maxPacketSize).length
  have opened : after = _ := Engine.handleTunReadable_syn syn engine replies
  rw [opened]
  refine ⟨?_, fun session found => ?_, fun other different => ?_⟩
  · rw [Engine.openTcp_find charged, Engine.chargeUpload_nextAddr]
  · have before : (engine.chargeUpload replies.delay (queued.take maxPacketSize).length).1.tcpFind flow =
        some session := by
      simpa only [Engine.tcpFind, Engine.chargeUpload_tcpTable] using found
    have closes := Engine.openTcp_closes before replies isn
    refine ⟨List.mem_append_right _ closes.1, List.mem_append_right _ closes.2, fun other linked same => ?_⟩
    obtain ⟨linkedBefore, sameFlow⟩ := tables.tcp.find_eq_some_iff.mp found
    rcases (Engine.openTcp_linked charged replies flow isn other).mp linked with fresh | ⟨linked, elsewhere⟩
    · obtain ⟨fd, -, rfl⟩ := Option.map_eq_some_iff.mp fresh
      have used := tables.tcp.allocated session linkedBefore
      rw [← same, Engine.chargeUpload_nextAddr] at used
      exact absurd used (Nat.lt_irrefl _)
    · rw [Engine.chargeUpload_tcpTable] at linked
      obtain rfl := tables.tcp.addrs other session linked linkedBefore same
      exact elsewhere sameFlow
  · rw [Engine.openTcp_find_other charged replies different]
    simp only [Engine.tcpFind, Engine.chargeUpload_tcpTable]

theorem syn_replaces_session_sample :
    let engine := [Input.tunReadable sampleSyn (.smooth 7 0), .socketReady 7 ⟨false, true⟩ (.smooth [])].foldl
      Engine.next (Engine.start 3 1500 0 0)
    let after := engine.step (.tunReadable sampleSyn (.smooth 8 3))
    .epollDel 7 ∈ after.2 ∧ .close 7 ∈ after.2 ∧ ∀ other, after.1.tcpTable.Linked other → other.addr ≠ 0 :=
  (syn_replaces_session 3 1500 0 0 _ (by decide +kernel : synOf sampleSyn = some (sampleFlow, 1000))
    (.smooth 8 3)).2.1
    { TcpSession.fresh 0 sampleFlow 1000 7 0 0 with
      state := .established
      ourSeq := (TcpSession.fresh 0 sampleFlow 1000 7 0 0).ourSeq + 1 } (by decide +kernel)

end ThrottleVpn.Tun2Socks
