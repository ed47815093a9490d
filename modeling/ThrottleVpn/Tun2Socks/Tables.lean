import ThrottleVpn.Foundation.Runs
import ThrottleVpn.Tun2Socks.Steps

/-! The session tables over whole runs of the engine.

Whatever arrives and whatever the system answers, both tables stay hash tables
with one session per flow, and every TCP session in them is the state of some
run of the session handlers from its creation.
-/

set_option autoImplicit false

namespace ThrottleVpn.Tun2Socks

open Foundation Limiter

def Effect.Quiet : Effect → Prop
  | .tunWrite _ | .send _ _ _ | .hold _ _ | .release _ => False
  | _ => True

theorem Effect.Idle.quiet {effect : Effect} (idle : effect.Idle) : effect.Quiet := by
  cases effect <;> trivial

theorem TunReplies.opening_quiet (replies : TunReplies) (protocol : Protocol) (flow : Flow)
    (interest : EpollEvents) : ∀ effect ∈ replies.opening protocol flow interest, effect.Quiet :=
  replies.forall_opening (fun _ => trivial) (fun _ => trivial) (fun _ => trivial) fun _ => trivial

theorem Handled.closing_quiet (handled : Handled) : ∀ effect ∈ handled.closing, effect.Quiet :=
  handled.forall_closing (fun _ => trivial) fun _ => trivial

theorem SessionEvent.call_quiet (event : SessionEvent) (fd : Nat) : ∀ effect ∈ event.call fd, effect.Quiet :=
  event.forall_call (fun _ _ => trivial) fd

namespace Engine

/-! ### One step, as the TCP sessions see it -/

structure Tables (engine : Engine) : Prop where
  tcp : engine.tcpTable.Chained sessionHash TcpSession.flow TcpSession.addr engine.nextAddr
  udp : engine.udpTable.Chained sessionHash UdpSession.flow UdpSession.addr engine.nextAddr

def UdpOnly (engine : Engine) : Effect → Prop
  | .tunWrite packets => ∀ packet ∈ packets, ∃ hdr, packet.transport = .udp hdr
  | .send fd _ _ => ∃ session, engine.udpTable.Linked session ∧ session.sockFd = fd
  | .hold _ _ | .release _ => False
  | _ => True

theorem udpOnly_of_quiet {effect : Effect} (quiet : effect.Quiet) (engine : Engine) :
    engine.UdpOnly effect := by
  cases effect <;> trivial

/-- What one step is for the TCP sessions. Segments for the client and bytes for
a TCP socket come from the handlers of a linked session and from nowhere else. -/
inductive TcpStep (engine next : Engine) (effects : List Effect) : Prop where
  | handled (session : TcpSession) (event : SessionEvent) (before after : List Effect)
      (linked : engine.tcpTable.Linked session)
      (table : next.tcpTable = (engine.settle (session.handle engine.mtu event)).1.tcpTable)
      (addr : next.nextAddr = engine.nextAddr)
      (lines : effects = before ++ (session.handle engine.mtu event).effects ++ after)
      (quiet : ∀ effect ∈ before ++ after, effect.Quiet)
  | opened (replies : TunReplies) (flow : Flow) (isn : UInt32)
      (table : next.tcpTable = (engine.openTcp replies flow isn).1.tcpTable)
      (addr : next.nextAddr = (engine.openTcp replies flow isn).1.nextAddr)
      (quiet : ∀ effect ∈ effects, effect.Quiet)
  | swept (keep : TcpSession → Bool) (table : next.tcpTable = engine.tcpTable.sweep keep)
      (addr : next.nextAddr = engine.nextAddr) (quiet : ∀ effect ∈ effects, effect.Quiet)
  | untouched (table : next.tcpTable = engine.tcpTable) (addr : engine.nextAddr ≤ next.nextAddr)
      (udp : ∀ effect ∈ effects, next.UdpOnly effect)

theorem openTcp_quiet (engine : Engine) (replies : TunReplies) (flow : Flow) (isn : UInt32) :
    ∀ effect ∈ (engine.openTcp replies flow isn).2, effect.Quiet := by
  intro effect member
  rw [openTcp_effects] at member
  rcases List.mem_append.mp member with member | member
  · cases found : engine.tcpFind flow with
    | some old =>
      simp only [found, Option.elim, List.mem_cons, List.not_mem_nil, or_false] at member
      rcases member with rfl | rfl <;> trivial
    | none =>
      rw [found] at member
      cases member
  · exact replies.opening_quiet _ _ _ effect member

theorem cleanup_quiet (engine : Engine) (now : Int) : ∀ effect ∈ (engine.cleanup now).2, effect.Quiet := by
  intro effect member
  simp only [cleanup, List.mem_append, List.mem_flatMap, List.mem_cons, List.not_mem_nil, or_false] at member
  rcases member with ⟨session, -, rfl | rfl⟩ | ⟨session, -, rfl | rfl⟩ <;> trivial

theorem writeUdp_udp (session : UdpSession) (payload : List UInt8) :
    ∀ packet ∈ writeUdp session payload, ∃ hdr, packet.transport = .udp hdr := by
  intro packet member
  have outcome := writeUdp_cases session payload
  split at outcome
  · rw [outcome] at member
    cases member
  · obtain ⟨ip, hdr, same⟩ := outcome
    rw [same] at member
    obtain rfl := List.mem_singleton.mp member
    exact ⟨hdr, rfl⟩

theorem Step.tcpStep {engine next : Engine} {effects : List Effect} {input : Input}
    (step : Step engine next effects input) : TcpStep engine next effects := by
  cases step with
  | @handled _ session event pause linked reaches pauses tcp udp addr lines =>
    refine .handled session event (event.call session.sockFd ++ pause)
      (session.handle engine.mtu event).closing linked tcp addr ?_ fun effect member => ?_
    · rw [lines, ← List.append_assoc]
    · rcases List.mem_append.mp member with member | member
      · rcases List.mem_append.mp member with member | member
        · exact event.call_quiet _ effect member
        · exact (pauses effect member).quiet
      · exact Handled.closing_quiet _ effect member
  | @opened queued replies flow hdr payload pause decoded opens pauses tcp udp addr lines =>
    refine .opened replies flow (ntohl hdr.seq) tcp addr fun effect member => ?_
    rw [lines] at member
    rcases List.mem_append.mp member with member | member
    · exact (pauses effect member).quiet
    · exact openTcp_quiet _ _ _ _ effect member
  | @relayed queued replies session hdr payload pause decoded linked pauses tcp udp addr lines =>
    refine .untouched tcp addr.ge fun effect member => ?_
    rw [lines] at member
    rcases List.mem_append.mp member with member | member
    · exact udpOnly_of_quiet (pauses effect member).quiet _
    · obtain rfl := List.mem_singleton.mp member
      refine ⟨{ session with lastActive := replies.time }, ?_, rfl⟩
      rw [udp]
      exact Buckets.linked_stored linked rfl
  | @associated queued replies flow hdr payload fd pause decoded unknown opens pauses tcp udp addr lines =>
    -- the new UDP session takes an address, and sends on the socket it was given
    refine .untouched tcp (by omega) fun effect member => ?_
    rw [lines] at member
    rcases List.mem_append.mp member with member | member
    · rcases List.mem_append.mp member with member | member
      · exact udpOnly_of_quiet (pauses effect member).quiet _
      · exact udpOnly_of_quiet (replies.opening_quiet _ _ _ effect member) _
    · obtain rfl := List.mem_singleton.mp member
      refine ⟨⟨engine.nextAddr, flow, fd, replies.time⟩, ?_, rfl⟩
      rw [udp]
      exact Buckets.linked_stored (Buckets.linked_push.mpr (.inl rfl)) rfl
  | @refused queued replies flow hdr payload pause decoded opens pauses tcp udp addr lines =>
    refine .untouched tcp addr.ge fun effect member => ?_
    rw [lines] at member
    rcases List.mem_append.mp member with member | member
    · exact udpOnly_of_quiet (pauses effect member).quiet _
    · exact udpOnly_of_quiet (replies.opening_quiet _ _ _ effect member) _
  | @delivered events replies session data pause linked pauses tcp udp addr lines =>
    refine .untouched tcp addr.ge fun effect member => ?_
    rw [lines] at member
    rcases List.mem_cons.mp member with rfl | member
    · trivial
    · rcases List.mem_append.mp member with member | member
      · exact udpOnly_of_quiet (pauses effect member).quiet _
      · obtain rfl := List.mem_singleton.mp member
        exact writeUdp_udp session data
  | @swept now tcp udp addr lines =>
    rw [lines]
    exact .swept _ tcp addr (cleanup_quiet engine now)
  | @idle input tcp udp addr quiet ignored =>
    exact .untouched tcp addr.ge (forall_idle quiet (fun _ idle => udpOnly_of_quiet idle.quiet _) fun _ => trivial)

theorem step_tcp (engine : Engine) (input : Input) :
    TcpStep engine (engine.next input) (engine.step input).2 := (step_spec engine input).tcpStep

/-! ### Keeping the tables -/

theorem withoutFlow_chained {engine : Engine} (tables : Tables engine) (flow : Flow) :
    (engine.withoutFlow flow).Chained sessionHash TcpSession.flow TcpSession.addr engine.nextAddr ∧
      ∀ session, (engine.withoutFlow flow).Linked session ↔
        engine.tcpTable.Linked session ∧ session.flow ≠ flow := by
  unfold withoutFlow
  cases found : engine.tcpFind flow with
  | some old =>
    obtain ⟨linked, same⟩ := tables.tcp.find_eq_some_iff.mp found
    refine ⟨tables.tcp.unlink linked, fun session => ?_⟩
    rw [tables.tcp.linked_unlink linked]
    refine and_congr_right fun member => not_congr ⟨fun here => here ▸ same, fun here => ?_⟩
    exact tables.tcp.key_unique member linked (here.trans same.symm)
  | none =>
    have absent := tables.tcp.find_eq_none_iff.mp found
    exact ⟨tables.tcp, fun session => ⟨fun linked => ⟨linked, absent session linked⟩, And.left⟩⟩

theorem openTcp_chained {engine : Engine} (tables : Tables engine) (replies : TunReplies) (flow : Flow)
    (isn : UInt32) :
    (engine.openTcp replies flow isn).1.tcpTable.Chained sessionHash TcpSession.flow TcpSession.addr
      (engine.openTcp replies flow isn).1.nextAddr := by
  obtain ⟨chained, linked⟩ := withoutFlow_chained tables flow
  rw [openTcp_spec]
  cases replies.opens with
  | some fd =>
    exact chained.push (.fresh engine.nextAddr flow isn fd replies.isnTime replies.time)
      (fun other member => ((linked other).mp member).2) rfl
  | none => exact chained

theorem TcpStep.nextAddr_le {engine next : Engine} {effects : List Effect}
    (step : TcpStep engine next effects) : engine.nextAddr ≤ next.nextAddr := by
  cases step with
  | handled session event before after linked table addr lines quiet => exact addr.ge
  | opened replies flow isn table addr quiet =>
    rw [addr, openTcp_spec]
    cases replies.opens with
    | some fd => exact Nat.le_succ _
    | none => exact le_rfl
  | swept keep table addr quiet => exact addr.ge
  | untouched table addr udp => exact addr

theorem settle_tcpTable (engine : Engine) (session : TcpSession) (event : SessionEvent) :
    (engine.settle (session.handle engine.mtu event)).1.tcpTable =
      if (session.handle engine.mtu event).removed then
        engine.tcpTable.unlink TcpSession.addr (sessionHash session.flow) session.addr
      else engine.tcpTable.store TcpSession.addr (session.handle engine.mtu event).session := by
  have same := session.handle_identity engine.mtu event
  simp only [TcpSession.identity, Prod.mk.injEq] at same
  unfold settle
  split
  · simp only [tcpRemove, same]
  · rfl

theorem TcpStep.chained {engine next : Engine} {effects : List Effect}
    (step : TcpStep engine next effects) (tables : Tables engine) :
    next.tcpTable.Chained sessionHash TcpSession.flow TcpSession.addr next.nextAddr := by
  cases step with
  | handled session event before after linked table addr lines quiet =>
    have same := session.handle_identity engine.mtu event
    simp only [TcpSession.identity, Prod.mk.injEq] at same
    rw [table, addr, settle_tcpTable]
    split
    · exact tables.tcp.unlink linked
    · exact tables.tcp.store _ linked same.1 same.2.1
  | opened replies flow isn table addr quiet =>
    rw [table, addr]
    exact openTcp_chained tables replies flow isn
  | swept keep table addr quiet =>
    rw [table, addr]
    exact tables.tcp.sweep keep
  | untouched table addr udp =>
    rw [table]
    exact tables.tcp.mono addr

theorem Tables.chargeUpload {engine : Engine} (tables : Tables engine) (delay count : Nat) :
    Tables (engine.chargeUpload delay count).1 where
  tcp := by simpa using tables.tcp
  udp := by simpa using tables.udp

theorem Step.udpChained {engine next : Engine} {effects : List Effect} {input : Input}
    (step : Step engine next effects input) (tables : Tables engine) :
    next.udpTable.Chained sessionHash UdpSession.flow UdpSession.addr next.nextAddr := by
  have kept : next.udpTable = engine.udpTable →
      next.udpTable.Chained sessionHash UdpSession.flow UdpSession.addr next.nextAddr := by
    intro same
    rw [same]
    exact tables.udp.mono step.tcpStep.nextAddr_le
  cases step with
  | handled pause linked reaches pauses tcp udp addr lines => exact kept udp
  | opened pause decoded opens pauses tcp udp addr lines => exact kept udp
  | relayed pause decoded linked pauses tcp udp addr lines =>
    rw [udp, addr]
    exact tables.udp.store _ linked rfl rfl
  | @associated queued replies flow hdr payload fd pause decoded unknown opens pauses tcp udp addr lines =>
    have pushed := tables.udp.push ⟨engine.nextAddr, flow, fd, replies.time⟩
      (tables.udp.find_eq_none_iff.mp unknown) rfl
    rw [udp, addr]
    exact pushed.store _ (Buckets.linked_push.mpr (.inl rfl)) rfl rfl
  | refused pause decoded opens pauses tcp udp addr lines => exact kept udp
  | delivered data pause linked pauses tcp udp addr lines =>
    rw [udp, addr]
    exact tables.udp.store _ linked rfl rfl
  | swept tcp udp addr lines =>
    rw [udp, addr]
    exact tables.udp.sweep _
  | idle tcp udp addr quiet ignored => exact kept udp

theorem Tables.next {engine : Engine} (tables : Tables engine) (input : Input) :
    Tables (engine.next input) where
  tcp := (step_tcp engine input).chained tables
  udp := (step_spec engine input).udpChained tables

theorem Step.tcp_sessions {engine next : Engine} {effects : List Effect} {input : Input}
    (step : Step engine next effects input) (tables : Tables engine) {Before After : TcpSession → Prop}
    (holds : ∀ session, engine.tcpTable.Linked session → Before session)
    (later : ∀ session, Before session → After session)
    (opened : ∀ queued replies flow hdr payload, input = .tunReadable queued replies →
      decode (queued.take maxPacketSize) = .ok (.tcp flow hdr payload) → ∀ fd,
      After (.fresh engine.nextAddr flow (ntohl hdr.seq) fd replies.isnTime replies.time))
    (handled : ∀ session event, engine.tcpTable.Linked session → Reaches session input event →
      (session.handle engine.mtu event).removed = false → Before session →
      After (session.handle engine.mtu event).session) :
    ∀ session, next.tcpTable.Linked session → After session := by
  intro session linked
  have kept : ∀ {table : Buckets sessionTableSize TcpSession}, table = engine.tcpTable →
      table.Linked session → After session := by
    rintro _ rfl linked
    exact later session (holds session linked)
  cases step with
  | @handled _ old event pause oldLinked reaches pauses tcp udp addr lines =>
    have same := old.handle_identity engine.mtu event
    simp only [TcpSession.identity, Prod.mk.injEq] at same
    rw [tcp, settle_tcpTable] at linked
    split at linked
    · exact kept rfl ((tables.tcp.linked_unlink oldLinked).mp linked).1
    next stays =>
      rcases (tables.tcp.linked_store _ oldLinked same.1).mp linked with rfl | ⟨linked, -⟩
      · exact handled old event oldLinked reaches (by simpa using stays) (holds old oldLinked)
      · exact kept rfl linked
  | @opened queued replies flow hdr payload pause decoded opens pauses tcp udp addr lines =>
    obtain ⟨-, cleared⟩ := withoutFlow_chained tables flow
    rw [tcp, openTcp_spec] at linked
    cases opens : replies.opens with
    | some fd =>
      simp only [opens] at linked
      rcases Buckets.linked_push.mp linked with rfl | linked
      · exact opened queued replies flow hdr payload rfl decoded fd
      · exact kept rfl ((cleared session).mp linked).1
    | none =>
      simp only [opens] at linked
      exact kept rfl ((cleared session).mp linked).1
  | relayed pause decoded oldLinked pauses tcp udp addr lines => exact kept tcp linked
  | associated pause decoded unknown opens pauses tcp udp addr lines => exact kept tcp linked
  | refused pause decoded opens pauses tcp udp addr lines => exact kept tcp linked
  | delivered data pause oldLinked pauses tcp udp addr lines => exact kept tcp linked
  | swept tcp udp addr lines =>
    rw [tcp] at linked
    exact kept rfl (Buckets.linked_sweep.mp linked).1
  | idle tcp udp addr quiet ignored => exact kept tcp linked

theorem Step.udp_flows {engine next : Engine} {effects : List Effect} {input : Input}
    (step : Step engine next effects input) (tables : Tables engine) {Holds : Flow → Prop}
    (holds : ∀ session, engine.udpTable.Linked session → Holds session.flow)
    (opened : ∀ queued replies flow hdr payload, input = .tunReadable queued replies →
      decode (queued.take maxPacketSize) = .ok (.udp flow hdr payload) → Holds flow) :
    ∀ session, next.udpTable.Linked session → Holds session.flow := by
  intro session linked
  have kept : ∀ {table : Buckets sessionTableSize UdpSession}, table = engine.udpTable →
      table.Linked session → Holds session.flow := by
    rintro _ rfl linked
    exact holds session linked
  have stored : ∀ {old : UdpSession} (time : Int), engine.udpTable.Linked old →
      (engine.udpTable.store UdpSession.addr { old with lastActive := time }).Linked session →
      Holds session.flow := by
    intro old time oldLinked linked
    rcases (tables.udp.linked_store { old with lastActive := time } oldLinked rfl).mp linked with
      rfl | ⟨linked, -⟩
    · exact holds old oldLinked
    · exact holds session linked
  cases step with
  | handled pause oldLinked reaches pauses tcp udp addr lines => exact kept udp linked
  | opened pause decoded opens pauses tcp udp addr lines => exact kept udp linked
  | relayed pause decoded oldLinked pauses tcp udp addr lines =>
    rw [udp] at linked
    exact stored _ oldLinked linked
  | @associated queued replies flow hdr payload fd pause decoded unknown opens pauses tcp udp addr lines =>
    have grown := tables.udp.push ⟨engine.nextAddr, flow, fd, replies.time⟩
      (tables.udp.find_eq_none_iff.mp unknown) rfl
    have here := opened queued replies flow hdr payload rfl decoded
    rw [udp] at linked
    rcases (grown.linked_store _ (Buckets.linked_push.mpr (.inl rfl)) rfl).mp linked with
      rfl | ⟨linked, -⟩
    · exact here
    · rcases Buckets.linked_push.mp linked with rfl | linked
      · exact here
      · exact holds session linked
  | refused pause decoded opens pauses tcp udp addr lines => exact kept udp linked
  | delivered data pause oldLinked pauses tcp udp addr lines =>
    rw [udp] at linked
    exact stored _ oldLinked linked
  | swept tcp udp addr lines =>
    rw [udp] at linked
    exact kept rfl (Buckets.linked_sweep.mp linked).1
  | idle tcp udp addr quiet ignored => exact kept udp linked

theorem tables_start (tunFd : Nat) (mtu ulStart dlStart : Int) :
    Tables (Engine.start tunFd mtu ulStart dlStart) := ⟨.empty, .empty⟩

theorem tables_run (tunFd : Nat) (mtu ulStart dlStart : Int) (inputs : List Input) :
    Tables (inputs.foldl Engine.next (Engine.start tunFd mtu ulStart dlStart)) :=
  run_invariant Tables (fun _ input tables => tables.next input)
    (tables_start tunFd mtu ulStart dlStart) inputs

/-! ### Sessions in the table are runs of the session handlers -/

theorem settle_mtu (engine : Engine) (handled : Handled) :
    (engine.settle handled).1.mtu = engine.mtu := by
  unfold settle
  split <;> rfl

theorem openTcp_mtu (engine : Engine) (replies : TunReplies) (flow : Flow) (isn : UInt32) :
    (engine.openTcp replies flow isn).1.mtu = engine.mtu := by
  rw [openTcp_spec]
  cases replies.opens <;> rfl

theorem udpSession_mtu (engine : Engine) (replies : TunReplies) (flow : Flow) :
    (engine.udpSession replies flow).1.mtu = engine.mtu := by
  unfold udpSession udpCreate
  dsimp only
  split
  · rfl
  · split
    · split <;> rfl
    · rfl

theorem handleTunReadable_mtu (engine : Engine) (replies : TunReplies) (queued : List UInt8) :
    (engine.handleTunReadable replies queued).1.mtu = engine.mtu := by
  unfold handleTunReadable handleTcpTun handleUdpTun
  dsimp only
  cases parseIp (queued.take maxPacketSize) with
  | error reject => rfl
  | ok ip =>
    dsimp only
    split
    · cases parseTcp ((queued.take maxPacketSize).drop ip.hdrLen) with
      | error reject => rfl
      | ok parsed =>
        dsimp only
        split
        · rw [openTcp_mtu, chargeUpload_mtu]
        · split
          · rw [settle_mtu, chargeUpload_mtu]
          · exact chargeUpload_mtu ..
    · split
      · cases parseUdp ((queued.take maxPacketSize).drop ip.hdrLen) with
        | error reject => rfl
        | ok parsed =>
          have kept := udpSession_mtu
            (engine.chargeUpload replies.delay (queued.take maxPacketSize).length).1 replies
            ⟨ip.src, parsed.1.srcPort, ip.dst, parsed.1.dstPort⟩
          rw [chargeUpload_mtu] at kept
          dsimp only
          split
          next same =>
            rw [same] at kept
            exact kept
          next same =>
            rw [same] at kept
            exact kept
      · rfl

theorem handleSocketEvent_mtu (engine : Engine) (fd : Nat) (events : EpollEvents)
    (replies : SocketReplies) : (engine.handleSocketEvent fd events replies).1.mtu = engine.mtu := by
  unfold handleSocketEvent readTcp readUdp
  dsimp only
  cases engine.tcpFindByFd fd with
  | some session =>
    dsimp only
    split
    · exact settle_mtu ..
    · split
      · cases replies.recv with
        | bytes queued =>
          dsimp only
          split
          · rw [settle_mtu, readSize_mtu]
          · rw [settle_mtu, chargeDownload_mtu, readSize_mtu]
        | wouldBlock => exact readSize_mtu ..
        | failed => rw [settle_mtu, readSize_mtu]
      · rfl
  | none =>
    cases engine.udpFindByFd fd with
    | some session =>
      dsimp only
      split
      · cases replies.recv with
        | bytes queued =>
          dsimp only
          split
          · exact readSize_mtu ..
          · rw [udpStore, chargeDownload_mtu, readSize_mtu]
        | wouldBlock => exact readSize_mtu ..
        | failed => exact readSize_mtu ..
      · rfl
    | none => rfl

theorem next_mtu (engine : Engine) (input : Input) : (engine.next input).mtu = engine.mtu := by
  cases input with
  | tunReadable queued replies => exact handleTunReadable_mtu ..
  | socketReady fd events replies =>
    rw [next_socketReady]
    exact handleSocketEvent_mtu ..
  | cleanup now => rfl
  | setRates dlBps ulBps => rfl

/-- Every session in the table is the state of a session run that is still going on. -/
def Backed (engine : Engine) : Prop :=
  ∀ session, engine.tcpTable.Linked session →
    ∃ run : SessionRun, run.Genuine engine.mtu ∧ run.session = session ∧ run.removed = false

theorem Backed.next {engine : Engine} (tables : Tables engine) (backed : Backed engine) (input : Input) :
    Backed (engine.next input) := by
  unfold Backed
  rw [next_mtu]
  apply (step_spec engine input).tcp_sessions tables backed (fun _ => id)
  · intro queued replies flow hdr payload same decoded fd
    exact ⟨_, .start .., rfl, rfl⟩
  · rintro session event linked reaches stays ⟨run, genuine, rfl, going⟩
    refine ⟨run.step engine.mtu event, genuine.step event, ?_, ?_⟩
    · rw [SessionRun.step, if_neg (by simp [going])]
    · rw [SessionRun.step, if_neg (by simp [going])]
      exact stays

/-- In every run from the start, the sessions in the table are states of session runs. -/
theorem backed_run (tunFd : Nat) (mtu ulStart dlStart : Int) (inputs : List Input) :
    Backed (inputs.foldl Engine.next (Engine.start tunFd mtu ulStart dlStart)) := by
  have both := run_invariant (fun engine => Tables engine ∧ Backed engine)
    (fun _ input holds => ⟨holds.1.next input, holds.2.next holds.1 input⟩)
    ⟨tables_start tunFd mtu ulStart dlStart, fun session ⟨index, member⟩ => by cases member⟩ inputs
  exact both.2

/-- Every TCP segment the engine writes is written by a step of a session run. -/
theorem segment_from_run (tunFd : Nat) (mtu ulStart dlStart : Int) (inputs : List Input) (input : Input)
    {packets : List Packet} {packet : Packet} {hdr : TcpHdr} :
    let engine := inputs.foldl Engine.next (Engine.start tunFd mtu ulStart dlStart)
    .tunWrite packets ∈ (engine.step input).2 → packet ∈ packets → packet.transport = .tcp hdr →
    ∃ (run : SessionRun) (event : SessionEvent), run.Genuine engine.mtu ∧ run.removed = false ∧
      engine.tcpTable.Linked run.session ∧
      .tunWrite packets ∈ (run.session.handle engine.mtu event).effects := by
  intro engine written member tcp
  have tables := tables_run tunFd mtu ulStart dlStart inputs
  cases step_tcp engine input with
  | handled session event before after linked table addr lines quiet =>
    obtain ⟨run, genuine, rfl, going⟩ := backed_run tunFd mtu ulStart dlStart inputs session linked
    refine ⟨run, event, genuine, going, linked, ?_⟩
    rw [lines, List.mem_append, List.mem_append] at written
    rcases written with (early | here) | late
    · exact (quiet _ (List.mem_append_left _ early)).elim
    · exact here
    · exact (quiet _ (List.mem_append_right _ late)).elim
  | opened replies flow isn table addr quiet => exact (quiet _ written).elim
  | swept keep table addr quiet => exact (quiet _ written).elim
  | untouched table addr udp =>
    obtain ⟨other, same⟩ := udp _ written packet member
    rw [tcp] at same
    cases same

end Engine

end ThrottleVpn.Tun2Socks
