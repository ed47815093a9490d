import ThrottleVpn.Tun2Socks.Sockets

/-! Where the bytes on the sockets and on the device come from.

Whatever is handed to a socket is a run of payloads of packets of the flow the
socket was created for, and every payload written to the device was received, in
the same step, on a socket created for the flow of the packet.
-/

set_option autoImplicit false

namespace ThrottleVpn.Tun2Socks

open Foundation

def payloads (protocol : Protocol) (flow : Flow) (inputs : List Input) : List (List UInt8) :=
  ((inputs.filterMap Input.decoded?).filter fun decoded =>
    decide (decoded.protocol = protocol ∧ decoded.flow = flow)).map Decoded.payload

/-- Bytes that are the payloads of some packets of the flow, one after the other. -/
def FromFlow (protocol : Protocol) (flow : Flow) (inputs : List Input) (data : List UInt8) : Prop :=
  ∃ parts : List (List UInt8), parts.Sublist (payloads protocol flow inputs) ∧ data = parts.flatten

section
variable {protocol : Protocol} {flow : Flow} {past : List Input} {data : List UInt8}

theorem payloads_append (further : List Input) :
    payloads protocol flow (past ++ further) =
      payloads protocol flow past ++ payloads protocol flow further := by
  simp only [payloads, List.filterMap_append, List.filter_append, List.map_append]

theorem payloads_arrived {queued : List UInt8} {replies : TunReplies} {decoded : Decoded}
    (same : decode (queued.take maxPacketSize) = .ok decoded) :
    payloads decoded.protocol decoded.flow [.tunReadable queued replies] = [decoded.payload] := by
  simp [payloads, Input.decoded?, same, Except.toOption]

theorem fromFlow_nil : FromFlow protocol flow past [] := ⟨[], List.nil_sublist _, rfl⟩

theorem FromFlow.later (source : FromFlow protocol flow past data) (input : Input) :
    FromFlow protocol flow (past ++ [input]) data := by
  obtain ⟨parts, among, same⟩ := source
  refine ⟨parts, ?_, same⟩
  rw [payloads_append]
  exact among.trans (List.sublist_append_left ..)

theorem FromFlow.arrived {queued : List UInt8} {decoded : Decoded}
    (source : FromFlow decoded.protocol decoded.flow past data)
    (same : decode (queued.take maxPacketSize) = .ok decoded) (replies : TunReplies) :
    FromFlow decoded.protocol decoded.flow (past ++ [.tunReadable queued replies])
      (data ++ decoded.payload) := by
  obtain ⟨parts, among, rfl⟩ := source
  refine ⟨parts ++ [decoded.payload], ?_, by simp⟩
  rw [payloads_append, payloads_arrived same]
  exact among.append_right _

theorem fromFlow_arrived {queued : List UInt8} {decoded : Decoded}
    (same : decode (queued.take maxPacketSize) = .ok decoded) (replies : TunReplies) :
    FromFlow decoded.protocol decoded.flow (past ++ [.tunReadable queued replies]) decoded.payload :=
  fromFlow_nil.arrived same replies

end

/-! ### What a handler sends, keeps and writes -/

namespace TcpSession
variable {session : TcpSession} (live : session.Live) (mtu : Int)

theorem pending_congr {before after : TcpSession} (buffer : before.BufferOk)
    (data : after.pendingData = before.pendingData) (len : after.pendingLen = before.pendingLen)
    (cap : after.pendingCap = before.pendingCap) :
    after.BufferOk ∧ after.pendingBytes = before.pendingBytes := by
  unfold BufferOk pendingBytes at *
  rw [data, len, cap]
  exact ⟨buffer, rfl⟩

include live

theorem dataArrives_pending (buffer : session.BufferOk) (replies : TunReplies) (hdr : TcpHdr)
    (payload : List UInt8) :
    let out := session.dataArrives mtu replies hdr payload
    out.session.BufferOk ∧
      (out.session.pendingBytes = session.pendingBytes ∨
        out.session.pendingBytes = session.pendingBytes ++ payload) := by
  intro result
  rcases dataArrives_cases live mtu replies hdr payload with
    ⟨-, out⟩ | ⟨some, -, out⟩ | ⟨-, -, -, out⟩ | ⟨-, -, -, out⟩
  · simp only [result, out]
    exact ⟨buffer, .inl trivial⟩
  · have numbered := @pending_congr session
      { session with clientSeq := ntohl hdr.seq + UInt32.ofNat payload.length } buffer rfl rfl rfl
    obtain ⟨kept, ⟨-, grows, -⟩ | ⟨-, same, -⟩⟩ := bufferPending_spec numbered.1 replies.realloc some
    · rw [numbered.2] at grows
      simp only [result, out]
      exact ⟨kept, .inr grows⟩
    · rw [numbered.2] at same
      simp only [result, out]
      exact ⟨kept, .inl same⟩
  · have kept := @pending_congr session result.session buffer
      (by simp only [result, out, writeTcp_pendingData]) (by simp only [result, out, writeTcp_pendingLen])
      (by simp only [result, out, writeTcp_pendingCap])
    exact ⟨kept.1, .inl kept.2⟩
  · have kept := @pending_congr session result.session buffer
      (by simp only [result, out, writeTcp_pendingData]) (by simp only [result, out, writeTcp_pendingLen])
      (by simp only [result, out, writeTcp_pendingCap])
    exact ⟨kept.1, .inl kept.2⟩

theorem handle_pending (buffer : session.BufferOk) (event : SessionEvent) :
    let out := session.handle mtu event
    out.removed = true ∨ out.session.BufferOk ∧
      (out.session.pendingBytes = session.pendingBytes ∨ out.session.pendingBytes = [] ∨
        ∃ hdr payload replies, event = .segment hdr payload replies ∧
          out.session.pendingBytes = session.pendingBytes ++ payload) := by
  cases event with
  | segment hdr payload replies =>
    obtain ⟨kept, pending⟩ := @dataArrives_pending { session with lastActive := replies.time } live mtu
      buffer replies hdr payload
    simp only [handle]
    rcases @segmentArrives_cases session mtu replies hdr payload with
      ⟨-, out⟩ | ⟨-, -, out⟩ | ⟨-, -, -, out⟩
    · exact .inl (by rw [out])
    · rw [out]
      exact .inr ⟨kept, pending.imp id fun grows => .inr ⟨hdr, payload, replies, rfl, grows⟩⟩
    · exact .inl (by rw [out]; rfl)
  | writable soError result =>
    simp only [handle]
    split
    · rcases session.connectCompletes_cases mtu soError result with
        ⟨-, -, out⟩ | ⟨-, out⟩ | ⟨-, out⟩
      · have kept := @pending_congr session (session.connectCompletes mtu soError result).session buffer
          (by rw [out, writeTcp_pendingData]) (by rw [out, writeTcp_pendingLen])
          (by rw [out, writeTcp_pendingCap])
        exact .inr ⟨kept.1, .inl kept.2⟩
      · rw [out]
        exact .inr ⟨⟨rfl, rfl⟩, .inr (.inl rfl)⟩
      · exact .inl (by rw [out])
    · exact .inr ⟨buffer, .inl rfl⟩
  | received data time =>
    simp only [handle]
    have kept := @pending_congr session (session.received mtu time data).session buffer
      (by rw [received, writeTcp_pendingData]) (by rw [received, writeTcp_pendingLen])
      (by rw [received, writeTcp_pendingCap])
    exact .inr ⟨kept.1, .inl kept.2⟩
  | remoteClosed => exact .inl rfl
  | recvFailed => exact .inl rfl

theorem handle_sends (event : SessionEvent) {fd : Nat} {data : List UInt8} {result : SendResult}
    (sent : .send fd data result ∈ (session.handle mtu event).effects) :
    data = session.pendingBytes ∨ ∃ hdr replies, event = .segment hdr data replies := by
  cases event with
  | segment hdr payload replies =>
    right
    have here : ({ session with lastActive := replies.time } : TcpSession).Live := live
    have data : ∀ fd bytes result, .send fd bytes result ∈
        (dataArrives { session with lastActive := replies.time } mtu replies hdr payload).effects →
        bytes = payload := by
      intro fd bytes result sent
      rcases dataArrives_cases here mtu replies hdr payload with
        ⟨-, out⟩ | ⟨-, -, out⟩ | ⟨-, -, -, out⟩ | ⟨-, -, -, out⟩
      · simp [out] at sent
      · obtain ⟨-, -, none | hold⟩ := bufferPending_frame
          { session with
            lastActive := replies.time
            clientSeq := ntohl hdr.seq + UInt32.ofNat payload.length } replies.realloc payload
        · simp [out, none] at sent
        · simp [out, hold] at sent
      · simp only [out, List.mem_cons, List.not_mem_nil, or_false, Effect.send.injEq, reduceCtorEq] at sent
        exact sent.2.1
      · simp only [out, List.mem_cons, List.not_mem_nil, or_false, Effect.send.injEq, reduceCtorEq] at sent
        exact sent.2.1
    simp only [handle] at sent
    rcases @segmentArrives_cases session mtu replies hdr payload with
      ⟨-, out⟩ | ⟨-, -, out⟩ | ⟨-, -, -, out⟩
    · simp [out] at sent
    · rw [out] at sent
      obtain rfl := data _ _ _ sent
      exact ⟨hdr, replies, rfl⟩
    · rw [out] at sent
      rcases List.mem_append.mp sent with sent | sent
      · obtain rfl := data _ _ _ sent
        exact ⟨hdr, replies, rfl⟩
      · simp [finArrives] at sent
  | writable soError result =>
    left
    simp only [handle] at sent
    split at sent
    · rcases session.connectCompletes_cases mtu soError result with
        ⟨-, -, out⟩ | ⟨-, out⟩ | ⟨-, out⟩ <;> rw [out] at sent <;> simp at sent
      exact sent.2.1
    · cases sent
  | received data time => simp [handle, received] at sent
  | remoteClosed => simp [handle, remoteClosed] at sent
  | recvFailed => simp [handle, recvFailed] at sent

/-- Packets are written for the flow of the session, with data only if it was just
received, and with SYN only if the connect has just been found complete. -/
theorem handle_writes (event : SessionEvent) {packets : List Packet}
    (written : .tunWrite packets ∈ (session.handle mtu event).effects) :
    ∃ (sender : TcpSession) (flags : UInt8) (payload : List UInt8),
      sender.flow = session.flow ∧ packets = (writeTcp mtu sender flags payload).2 ∧
      (payload = [] ∨ ∃ time, event = .received payload time) ∧
      (hasFlag flags tfSyn = true → session.state = .synSent ∧ ∃ result, event = .writable 0 result) := by
  -- none of the control segments but the SYN-ACK has the flag
  have ack : hasFlag tfAck tfSyn = false := by decide
  have finAck : hasFlag (tfFin ||| tfAck) tfSyn = false := by decide
  have rst : hasFlag tfRst tfSyn = false := by decide
  have rstAck : hasFlag (tfRst ||| tfAck) tfSyn = false := by decide
  have plain : ∀ {flags : UInt8}, hasFlag flags tfSyn = false → hasFlag flags tfSyn = true →
      session.state = .synSent ∧ ∃ result, event = .writable 0 result :=
    fun none some => absurd (none.symm.trans some) Bool.false_ne_true
  cases event with
  | segment hdr payload replies =>
    have here : ({ session with lastActive := replies.time } : TcpSession).Live := live
    have same := dataArrives_identity { session with lastActive := replies.time } mtu replies hdr payload
    simp only [identity, Prod.mk.injEq] at same
    have data : ∀ packets, .tunWrite packets ∈
        (dataArrives { session with lastActive := replies.time } mtu replies hdr payload).effects →
        ∃ (sender : TcpSession) (flags : UInt8), sender.flow = session.flow ∧
          packets = (writeTcp mtu sender flags []).2 ∧ hasFlag flags tfSyn = false := by
      intro packets written
      rcases dataArrives_cases here mtu replies hdr payload with
        ⟨-, out⟩ | ⟨-, -, out⟩ | ⟨-, -, -, out⟩ | ⟨-, -, -, out⟩
      · simp [out] at written
      · obtain ⟨-, -, none | hold⟩ := bufferPending_frame
          { session with
            lastActive := replies.time
            clientSeq := ntohl hdr.seq + UInt32.ofNat payload.length } replies.realloc payload
        · simp [out, none] at written
        · simp [out, hold] at written
      · simp only [out, List.mem_cons, List.not_mem_nil, or_false, Effect.tunWrite.injEq, reduceCtorEq,
          false_or] at written
        exact ⟨_, _, by rfl, written, ack⟩
      · simp only [out, List.mem_cons, List.not_mem_nil, or_false, Effect.tunWrite.injEq, reduceCtorEq,
          false_or] at written
        exact ⟨_, _, by rfl, written, rstAck⟩
    simp only [handle] at written
    rcases @segmentArrives_cases session mtu replies hdr payload with
      ⟨-, out⟩ | ⟨-, -, out⟩ | ⟨-, -, -, out⟩
    · simp [out] at written
    · rw [out] at written
      obtain ⟨sender, flags, flow, packets, none⟩ := data _ written
      exact ⟨sender, flags, [], flow, packets, .inl rfl, plain none⟩
    · rw [out] at written
      rcases List.mem_append.mp written with written | written
      · obtain ⟨sender, flags, flow, packets, none⟩ := data _ written
        exact ⟨sender, flags, [], flow, packets, .inl rfl, plain none⟩
      · simp only [finArrives, List.mem_cons, List.not_mem_nil, or_false, Effect.tunWrite.injEq,
          reduceCtorEq] at written
        rcases written with first | second
        · exact ⟨_, _, [], by exact same.2.1, first, .inl rfl, plain ack⟩
        · exact ⟨_, _, [], by simpa using same.2.1, second, .inl rfl, plain finAck⟩
  | writable soError result =>
    simp only [handle] at written
    split at written
    next connecting =>
      rcases session.connectCompletes_cases mtu soError result with
        ⟨rfl, -, out⟩ | ⟨rfl, out⟩ | ⟨-, out⟩
      · simp only [out, List.mem_cons, List.not_mem_nil, or_false, Effect.tunWrite.injEq,
          reduceCtorEq] at written
        exact ⟨_, _, [], by rfl, written, .inl rfl, fun _ => ⟨connecting, result, rfl⟩⟩
      · simp only [out, List.mem_cons, List.not_mem_nil, or_false, Effect.tunWrite.injEq, reduceCtorEq,
          false_or] at written
        rcases written with synAck | flushed
        · exact ⟨_, _, [], by rfl, synAck, .inl rfl, fun _ => ⟨connecting, result, rfl⟩⟩
        · exact ⟨_, _, [], by simp, flushed, .inl rfl, plain ack⟩
      · simp only [out, List.mem_singleton, Effect.tunWrite.injEq] at written
        exact ⟨_, _, [], by rfl, written, .inl rfl, plain rst⟩
    next => cases written
  | received data time =>
    simp only [handle, received, List.mem_singleton, Effect.tunWrite.injEq] at written
    exact ⟨_, _, data, by rfl, written, .inr ⟨time, rfl⟩, plain (by decide)⟩
  | remoteClosed =>
    simp only [handle, remoteClosed, List.mem_singleton, Effect.tunWrite.injEq] at written
    exact ⟨_, _, [], by rfl, written, .inl rfl, plain finAck⟩
  | recvFailed =>
    simp only [handle, recvFailed, List.mem_singleton, Effect.tunWrite.injEq] at written
    exact ⟨_, _, [], by rfl, written, .inl rfl, plain rst⟩

end TcpSession

theorem Engine.Step.written {engine next : Engine} {effects : List Effect} {input : Input}
    (step : engine.Step next effects input) {packets : List Packet}
    (written : .tunWrite packets ∈ effects) :
    (∃ session event pause, engine.tcpTable.Linked session ∧ Reaches session input event ∧
      .tunWrite packets ∈ (session.handle engine.mtu event).effects ∧
      effects = event.call session.sockFd ++ pause ++
        ((session.handle engine.mtu event).effects ++ (session.handle engine.mtu event).closing)) ∨
    ∃ session data pause, engine.udpTable.Linked session ∧ packets = writeUdp session data ∧
      effects = .recv session.sockFd data :: pause ++ [.tunWrite packets] := by
  have mute : ∀ {effects : List Effect}, (∀ effect ∈ effects, effect.Quiet) →
      .tunWrite packets ∉ effects := fun all member => all _ member
  cases step with
  | @handled _ session event pause linked reaches pauses tcp udp addr lines =>
    refine .inl ⟨session, event, pause, linked, reaches, ?_, lines⟩
    rw [lines] at written
    rcases List.mem_append.mp written with early | late
    · refine absurd early (mute fun effect member => ?_)
      rcases List.mem_append.mp member with member | member
      · exact event.call_quiet _ effect member
      · exact (pauses effect member).quiet
    · -- what the removal calls is not a write
      exact (List.mem_append.mp late).resolve_right (mute (Handled.closing_quiet _))
  | opened pause decoded opens pauses tcp udp addr lines =>
    rw [lines] at written
    refine absurd written (mute fun effect member => ?_)
    rcases List.mem_append.mp member with member | member
    · exact (pauses effect member).quiet
    · exact openTcp_quiet _ _ _ _ effect member
  | relayed pause decoded linked pauses tcp udp addr lines =>
    rw [lines, List.mem_append, List.mem_singleton] at written
    rcases written with early | last
    · exact absurd early (mute fun effect member => (pauses effect member).quiet)
    · cases last
  | @associated queued replies flow hdr payload fd pause decoded unknown opens pauses tcp udp addr lines =>
    rw [lines, List.mem_append, List.mem_append, List.mem_singleton] at written
    rcases written with (early | opening) | last
    · exact absurd early (mute fun effect member => (pauses effect member).quiet)
    · exact absurd opening (mute (replies.opening_quiet _ _ _))
    · cases last
  | @refused queued replies flow hdr payload pause decoded opens pauses tcp udp addr lines =>
    rw [lines, List.mem_append] at written
    rcases written with early | opening
    · exact absurd early (mute fun effect member => (pauses effect member).quiet)
    · exact absurd opening (mute (replies.opening_quiet _ _ _))
  | @delivered events replies session data pause linked pauses tcp udp addr lines =>
    have place := written
    rw [lines, List.cons_append, List.mem_cons, List.mem_append, List.mem_singleton] at place
    rcases place with first | early | last
    · cases first
    · exact absurd early (mute fun effect member => (pauses effect member).quiet)
    · obtain rfl : packets = writeUdp session data := by simpa using last
      exact .inr ⟨session, data, pause, linked, rfl, lines⟩
  | @swept now tcp udp addr lines =>
    rw [lines] at written
    exact absurd written (mute (cleanup_quiet engine now))
  | idle tcp udp addr quiet ignored =>
    rcases quiet _ written with idle | ⟨session, -, same⟩
    · exact idle.elim
    · cases same

/-! ### The run so far -/

structure TcpSession.Sourced (past : List Input) (session : TcpSession) : Prop where
  buffer : session.BufferOk
  pending : FromFlow .tcp session.flow past session.pendingBytes

theorem TcpSession.Sourced.later {past : List Input} {session : TcpSession}
    (sourced : session.Sourced past) (input : Input) : session.Sourced (past ++ [input]) :=
  ⟨sourced.buffer, sourced.pending.later input⟩

theorem TcpSession.Sourced.handle {past : List Input} {session : TcpSession} {input : Input}
    {event : SessionEvent} (sourced : session.Sourced past) (live : session.Live) (mtu : Int)
    (reaches : Reaches session input event) (stays : (session.handle mtu event).removed = false) :
    (session.handle mtu event).session.Sourced (past ++ [input]) := by
  have same := session.handle_identity mtu event
  simp only [identity, Prod.mk.injEq] at same
  rcases handle_pending live mtu sourced.buffer event with gone | ⟨buffer, pending⟩
  · rw [gone] at stays
    cases stays
  · refine ⟨buffer, ?_⟩
    rw [same.2.1]
    rcases pending with kept | flushed | ⟨hdr, payload, replies, rfl, grown⟩
    · rw [kept]
      exact sourced.pending.later input
    · rw [flushed]
      exact fromFlow_nil
    · cases reaches with
      | segment decoded known =>
        rw [grown]
        exact @FromFlow.arrived past _ _ (.tcp session.flow hdr payload) sourced.pending decoded replies

namespace System

structure Traced (past : List Input) (system : System) : Prop where
  owns : system.Owns
  tcp : ∀ session, system.engine.tcpTable.Linked session → session.Sourced past

theorem traced_start (tunFd : Nat) (mtu ulStart dlStart : Int) :
    Traced [] (start tunFd mtu ulStart dlStart) where
  owns := owns_start tunFd mtu ulStart dlStart
  tcp := fun session ⟨_, member⟩ => by cases member

namespace Traced
variable {past : List Input} {system : System} (traced : Traced past system) {input : Input}
include traced

theorem next (fresh : system.Fresh input) : Traced (past ++ [input]) (system.next input) where
  owns := traced.owns.next fresh
  tcp := by
    refine (Engine.step_spec system.engine input).tcp_sessions traced.owns.tables traced.tcp ?_ ?_ ?_
    · exact fun session sourced => sourced.later input
    · intro queued replies flow hdr payload same decoded fd
      exact ⟨⟨rfl, rfl⟩, fromFlow_nil⟩
    · intro session event linked reaches stays sourced
      exact sourced.handle (traced.owns.live session linked) _ reaches stays

end Traced

end System

/-! ### What a step sends and writes -/

/-- A `send` finds the socket of the flow its bytes came from, connected to where
the flow goes. -/
def Kernel.Feeds (inputs : List Input) (kernel : Kernel) : Effect → Prop
  | .send fd data _ => ∃ socket flow, kernel fd = some socket ∧ socket.flow = some flow ∧
      socket.peer = some (flow.dst, flow.dstPort) ∧ FromFlow socket.protocol flow inputs data
  | _ => True

/-- A packet written after `recv` carries bytes of that call, to the flow of its socket. -/
def Kernel.Answers (kernel : Kernel) (effects : List Effect) (packets : List Packet) : Prop :=
  ∀ packet ∈ packets, ∃ decoded, decode packet.bytes = .ok decoded ∧
    (decoded.payload ≠ [] → ∃ fd data later socket,
      effects = .recv fd data :: later ∧ .tunWrite packets ∈ later ∧ kernel fd = some socket ∧
      socket.protocol = decoded.protocol ∧ socket.flow = some decoded.flow.reversed ∧
      decoded.payload <:+: data)

theorem Effect.Quiet.feeds {effect : Effect} (quiet : effect.Quiet) (inputs : List Input)
    (kernel : Kernel) : kernel.Feeds inputs effect := by
  cases effect <;> trivial

theorem Flow.reversed_reversed (flow : Flow) : flow.reversed.reversed = flow := rfl

theorem chunkAt_within (mss : Nat) (payload : List UInt8) (index : Nat) :
    chunkAt mss payload index <:+: payload :=
  (List.take_prefix _ _).isInfix.trans (List.drop_suffix _ _).isInfix

namespace System

namespace Traced
variable {past : List Input} {system : System} (traced : Traced past system) {input : Input}
include traced

theorem feeds_tcp {session : TcpSession} (linked : system.engine.tcpTable.Linked session)
    {inputs : List Input} {data : List UInt8} (source : FromFlow .tcp session.flow inputs data)
    (result : SendResult) : system.kernel.Feeds inputs (.send session.sockFd data result) := by
  obtain ⟨phase, -, socket⟩ := traced.owns.paired.held _ (.inl ⟨session, linked, rfl⟩)
  exact ⟨_, session.flow, socket, rfl, rfl, source⟩

theorem feeds_udp {session : UdpSession} (linked : system.engine.udpTable.Linked session)
    {inputs : List Input} {data : List UInt8} (source : FromFlow .udp session.flow inputs data)
    (result : SendResult) : system.kernel.Feeds inputs (.send session.sockFd data result) := by
  obtain ⟨phase, -, socket⟩ := traced.owns.paired.held _ (.inr ⟨session, linked, rfl⟩)
  exact ⟨_, session.flow, socket, rfl, rfl, source⟩

/-- Every `send` of a step finds the socket its bytes are for. -/
theorem feeds (fresh : system.Fresh input) :
    Admits (Kernel.apply input.flow? system.engine.nextAddr) (Kernel.Feeds (past ++ [input]))
      system.kernel (system.effects input) := by
  have spec := Engine.step_spec system.engine input
  unfold Fresh at fresh
  unfold effects at fresh ⊢
  generalize (system.engine.step input).2 = effects at *
  generalize system.engine.next input = next at *
  -- most calls hand over no bytes, whatever sockets there are
  have silent : ∀ {flow owner kernel} {effects : List Effect}, (∀ effect ∈ effects, effect.Quiet) →
      Admits (Kernel.apply flow owner) (Kernel.Feeds (past ++ [input])) kernel effects :=
    fun all => admits_of_forall fun effect member kernel => (all effect member).feeds _ kernel
  cases spec with
  | @handled _ session event pause linked reaches pauses tcp udp addr lines =>
    have live := traced.owns.live session linked
    have sourced := traced.tcp session linked
    have isOpen := traced.owns.tcp_isOpen linked
    have on : ∀ effect ∈ event.call session.sockFd ++ pause, (∃ fd, effect.On fd) ∧
        system.kernel.Feeds (past ++ [input]) effect := by
      intro effect member
      rcases List.mem_append.mp member with member | member
      · exact ⟨⟨_, event.call_on session.sockFd effect member⟩,
          (event.call_quiet _ effect member).feeds _ _⟩
      · exact ⟨⟨0, (pauses effect member).on 0⟩, (pauses effect member).quiet.feeds _ _⟩
    have handles : ∀ effect ∈ (session.handle system.engine.mtu event).effects,
        (∃ fd, effect.On fd) ∧ system.kernel.Feeds (past ++ [input]) effect := by
      intro effect member
      have here := session.handle_on system.engine.mtu event effect member
      refine ⟨⟨_, here⟩, ?_⟩
      cases effect with
      | send fd data result =>
        obtain rfl : fd = session.sockFd := here
        apply traced.feeds_tcp linked
        rcases TcpSession.handle_sends live system.engine.mtu event member with
          rfl | ⟨hdr, replies, rfl⟩
        · exact sourced.pending.later input
        · cases reaches with
          | segment decoded known => exact fromFlow_arrived decoded replies
      | _ => trivial
    have kept := Kernel.run_on input.flow? system.engine.nextAddr
      (fun effect member => (on effect member).1) system.kernel
    unfold Kernel.run at kept
    rw [lines, admits_append, kept]
    refine ⟨Kernel.admits_on _ _ on, ?_⟩
    rw [admits_append]
    exact ⟨Kernel.admits_on _ _ handles, silent (Handled.closing_quiet _)⟩
  | @opened queued replies flow hdr payload pause decoded opens pauses tcp udp addr lines =>
    rw [lines]
    apply silent
    intro effect member
    rcases List.mem_append.mp member with member | member
    · exact (pauses effect member).quiet
    · exact Engine.openTcp_quiet _ _ _ _ effect member
  | @relayed queued replies session hdr payload pause decoded linked pauses tcp udp addr lines =>
    rw [lines, admits_after _ _ (idle_steady pauses system.kernel)]
    refine ⟨silent fun effect member => (pauses effect member).quiet, ?_, trivial⟩
    exact traced.feeds_udp linked (fromFlow_arrived decoded replies) _
  | @associated queued replies flow hdr payload fd pause decoded unknown opens pauses tcp udp addr lines =>
    have ran := Kernel.run_opening_some (some flow) system.engine.nextAddr opens .udp flow ⟨true, false⟩
      system.kernel
    unfold Kernel.run at ran
    simp only [Input.flow?, Input.decoded?, decoded, Except.toOption, Option.map_some]
    rw [lines, List.append_assoc, admits_after _ _ (idle_steady pauses system.kernel), admits_append]
    refine ⟨silent fun effect member => (pauses effect member).quiet,
      silent (replies.opening_quiet _ _ _), ?_, trivial⟩
    rw [show Decoded.flow (.udp flow hdr payload) = flow from rfl, ran]
    exact ⟨_, flow, Function.update_self .., rfl, rfl, fromFlow_arrived decoded replies⟩
  | @refused queued replies flow hdr payload pause decoded opens pauses tcp udp addr lines =>
    rw [lines]
    apply silent
    intro effect member
    rcases List.mem_append.mp member with member | member
    · exact (pauses effect member).quiet
    · exact replies.opening_quiet _ _ _ effect member
  | delivered data pause linked pauses tcp udp addr lines =>
    rw [lines]
    apply admits_of_forall
    intro effect member kernel
    rcases List.mem_cons.mp member with rfl | member
    · trivial
    · rcases List.mem_append.mp member with member | member
      · exact (pauses effect member).quiet.feeds _ kernel
      · obtain rfl := List.mem_singleton.mp member
        trivial
  | @swept now tcp udp addr lines =>
    apply silent
    rw [lines]
    exact Engine.cleanup_quiet system.engine now
  | idle tcp udp addr quiet ignored =>
    exact silent (forall_idle quiet (fun _ idle => idle.quiet) fun _ => trivial)

theorem answers {packets : List Packet} (written : .tunWrite packets ∈ system.effects input) :
    system.kernel.Answers (system.effects input) packets := by
  intro packet member
  rcases (Engine.step_spec system.engine input).written written with
    ⟨session, event, pause, linked, reaches, here, lines⟩ | ⟨session, data, pause, linked, rfl, lines⟩
  · obtain ⟨phase, -, socket⟩ := traced.owns.paired.held _ (.inl ⟨session, linked, rfl⟩)
    have uniform := traced.owns.standing.uniform session linked
    obtain ⟨sender, flags, payload, flow, same, source, -⟩ :=
      TcpSession.handle_writes (traced.owns.live session linked) system.engine.mtu event here
    rw [same] at member
    obtain ⟨index, sent⟩ := List.mem_iff_getElem?.mp member
    obtain ⟨⟨hdr, decoded, -⟩, -⟩ := writeTcp_pass (by rw [flow]; exact uniform) sent
    refine ⟨_, decoded, fun some => ?_⟩
    rcases source with rfl | ⟨time, rfl⟩
    · exact absurd (List.eq_nil_of_infix_nil (chunkAt_within ..)) some
    · refine ⟨session.sockFd, payload, _, _, lines, ?_, socket, rfl, ?_, chunkAt_within ..⟩
      · apply List.mem_append_right
        exact List.mem_append_left _ here
      · rw [Decoded.flow, flow, Flow.reversed_reversed]
        rfl
  · obtain ⟨phase, -, socket⟩ := traced.owns.paired.held _ (.inr ⟨session, linked, rfl⟩)
    obtain ⟨⟨hdr, decoded, -⟩, -⟩ :=
      writeUdp_carries (traced.owns.standing.udpUniform session linked) member
    refine ⟨_, decoded, fun _ => ⟨session.sockFd, data, _, _, lines, ?_, socket, rfl, rfl, ?_⟩⟩
    · simp
    · exact List.infix_rfl

end Traced

theorem traced_run {tunFd : Nat} {mtu ulStart dlStart : Int} {inputs : List Input}
    (fresh : Admits next Fresh (start tunFd mtu ulStart dlStart) inputs) :
    Traced inputs (inputs.foldl next (start tunFd mtu ulStart dlStart)) :=
  fresh.history_invariant Traced (fun _ _ _ traced fresh => traced.next fresh)
    (traced_start tunFd mtu ulStart dlStart)

/-- No byte crosses from one flow to another. In every run and at every step: bytes
are handed to a socket only if they are payloads of packets of the flow and the
protocol it was created for, and it is connected to where the flow goes; a packet
with a payload carries bytes that the step received on a socket created for the
packet's flow and protocol. -/
theorem flows_isolated (tunFd : Nat) (mtu ulStart dlStart : Int) (past : List Input) (input : Input)
    (fresh : Admits next Fresh (start tunFd mtu ulStart dlStart) (past ++ [input])) :
    let system := past.foldl next (start tunFd mtu ulStart dlStart)
    (∀ before fd data result later,
      system.effects input = before ++ .send fd data result :: later →
      ∃ socket flow, system.after input before fd = some socket ∧ socket.flow = some flow ∧
        socket.peer = some (flow.dst, flow.dstPort) ∧
        FromFlow socket.protocol flow (past ++ [input]) data) ∧
    ∀ packets, .tunWrite packets ∈ system.effects input → ∀ packet ∈ packets,
      ∃ decoded, decode packet.bytes = .ok decoded ∧
        (decoded.payload ≠ [] → ∃ fd data later socket,
          system.effects input = .recv fd data :: later ∧ .tunWrite packets ∈ later ∧
          system.kernel fd = some socket ∧ socket.protocol = decoded.protocol ∧
          socket.flow = some decoded.flow.reversed ∧ decoded.payload <:+: data) := by
  intro system
  rw [admits_append] at fresh
  have traced := traced_run fresh.1
  refine ⟨fun before fd data result later lines => ?_, fun packets written => traced.answers written⟩
  have feeds := traced.feeds fresh.2.1
  rw [lines, admits_append] at feeds
  exact feeds.2.1

def sampleData : List UInt8 :=
  Packet.bytes
    { ip := .v4
        { verIhl := 0x45, tos := 0, totalLen := htons 43, ident := 0, flagsFrag := 0, ttl := 64
          protocol := 6, hdrCsum := 0, srcAddr := 0x0200000A, dstAddr := 0x01010101 }
      transport := .tcp
        { srcPort := htons 40000, dstPort := htons 443, seq := htonl 1001, ack := 0, offRsvd := 0x50
          flags := tfPsh ||| tfAck, window := 65535, csum := 0, urgPtr := 0 }
      payload := [1, 2, 3] }

theorem flows_isolated_sample :
    let past : List Input :=
      [.tunReadable sampleSyn (.smooth 7 0), .socketReady 7 ⟨false, true⟩ (.smooth [])]
    let input : Input := .tunReadable sampleData (.smooth 8 0)
    ∃ socket flow, (past.foldl next (start 3 1500 0 0)).kernel 7 = some socket ∧ socket.flow = some flow ∧
      socket.peer = some (flow.dst, flow.dstPort) ∧
      FromFlow socket.protocol flow (past ++ [input]) [1, 2, 3] := by
  intro past input
  exact (flows_isolated 3 1500 0 0 past input (by decide +kernel)).1 [] 7 [1, 2, 3]
    (.accepted maxPacketSize) ((past.foldl next (start 3 1500 0 0)).effects input).tail (by decide +kernel)

end System

end ThrottleVpn.Tun2Socks
