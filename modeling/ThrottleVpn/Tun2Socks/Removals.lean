import ThrottleVpn.Tun2Socks.Sockets

/-! How TCP sessions leave the table.

A handler that removes a session tells the client first, unless it was the client
that gave the connection up. The periodic cleanup tells nobody.
-/

set_option autoImplicit false

namespace ThrottleVpn.Tun2Socks

open Foundation

/-- The client gives a connection up: a RST, or a new SYN for its 4-tuple. -/
def Input.Abandons (input : Input) (flow : Flow) : Prop :=
  ∃ hdr payload, input.decoded? = some (.tcp flow hdr payload) ∧
    (hasFlag hdr.flags tfRst = true ∨ hdr.Opens)

/-- A packet that ends the connection of a flow, as the client reads it. -/
def Packet.Ends (packet : Packet) (flow : Flow) : Prop :=
  ∃ hdr, decode packet.bytes = .ok (.tcp flow.reversed hdr []) ∧
    (hasFlag hdr.flags tfFin = true ∨ hasFlag hdr.flags tfRst = true)

/-- The client is told before the descriptor of the session is closed. -/
def Announces (effects : List Effect) (session : TcpSession) : Prop :=
  ∃ before packets later, effects = before ++ .tunWrite packets :: later ∧
    (∃ packet ∈ packets, packet.Ends session.flow) ∧ .close session.sockFd ∈ later

namespace Engine

def Removes (engine : Engine) (input : Input) (session : TcpSession) : Prop :=
  engine.tcpTable.Linked session ∧
    ∀ other, (engine.next input).tcpTable.Linked other → other.addr ≠ session.addr

def Announced (engine : Engine) (input : Input) : Prop :=
  ∀ session, engine.Removes input session →
    input.Abandons session.flow ∨ Announces (engine.step input).2 session

/-- A cleanup finds every TCP session used within the timeout. -/
def KeepsBusy (engine : Engine) (input : Input) : Prop :=
  ∀ now, input = .cleanup now → ∀ session, engine.tcpTable.Linked session →
    now - session.lastActive ≤ tcpSessionTimeout

end Engine

/-! ### Handlers that remove their session -/

theorem control_ends {mtu : Int} {sender : TcpSession} {flow : Flow} {flags : UInt8} (same : sender.flow = flow)
    (uniform : flow.OneVersion) (ends : hasFlag flags tfFin = true ∨ hasFlag flags tfRst = true) :
    ∃ packet ∈ (writeTcp mtu sender flags []).2, packet.Ends flow := by
  subst same
  obtain ⟨-, packet, written, -⟩ := writeTcp_nil mtu sender flags
  have sent : (writeTcp mtu sender flags []).2[0]? = some packet := by rw [written]; rfl
  obtain ⟨⟨hdr, decoded, -, -, set⟩, -⟩ := writeTcp_pass uniform sent
  have chunk : chunkAt (sender.flow.mss mtu) [] 0 = [] := by simp [chunkAt]
  have given : flagsAt (sender.flow.mss mtu) flags [] 0 = flags := by simp [flagsAt]
  rw [given] at set
  rw [chunk] at decoded
  exact ⟨packet, by simp [written], hdr, decoded, set ▸ ends⟩

namespace TcpSession
variable {session : TcpSession} (live : session.Live) (uniform : session.flow.OneVersion) (mtu : Int)
include live uniform

theorem handle_removed (event : SessionEvent) (removed : (session.handle mtu event).removed = true) :
    (∃ hdr payload replies, event = .segment hdr payload replies ∧ hasFlag hdr.flags tfRst = true) ∨
      ∃ packets, .tunWrite packets ∈ (session.handle mtu event).effects ∧
        ∃ packet ∈ packets, packet.Ends session.flow := by
  have fin : hasFlag (tfFin ||| tfAck) tfFin = true ∨ hasFlag (tfFin ||| tfAck) tfRst = true := by decide
  have rst : hasFlag tfRst tfFin = true ∨ hasFlag tfRst tfRst = true := by decide
  have rstAck : hasFlag (tfRst ||| tfAck) tfFin = true ∨ hasFlag (tfRst ||| tfAck) tfRst = true := by decide
  cases event with
  | segment hdr payload replies =>
    have here : ({ session with lastActive := replies.time } : TcpSession).Live := live
    have same := dataArrives_identity { session with lastActive := replies.time } mtu replies hdr payload
    simp only [identity, Prod.mk.injEq] at same
    simp only [handle] at removed ⊢
    rcases @segmentArrives_cases session mtu replies hdr payload with
      ⟨reset, -⟩ | ⟨-, -, out⟩ | ⟨-, -, -, out⟩
    · exact .inl ⟨hdr, payload, replies, rfl, reset⟩
    · right
      rw [out] at removed ⊢
      rcases dataArrives_cases here mtu replies hdr payload with
        ⟨-, data⟩ | ⟨-, -, data⟩ | ⟨-, -, -, data⟩ | ⟨-, -, -, data⟩
      · simp [data] at removed
      · -- a segment that is buffered removes nothing
        obtain ⟨stays, -⟩ := bufferPending_frame
          { session with
            lastActive := replies.time
            clientSeq := ntohl hdr.seq + UInt32.ofNat payload.length } replies.realloc payload
        rw [data, stays] at removed
        cases removed
      · simp [data] at removed
      · rw [data]
        exact ⟨_, List.mem_cons_of_mem _ (List.mem_singleton.mpr rfl), control_ends (by rfl) uniform rstAck⟩
    · right
      rw [out]
      exact ⟨_, List.mem_append_right _ (List.mem_cons_of_mem _ List.mem_cons_self),
        control_ends (by simpa using same.2.1) uniform fin⟩
  | writable soError result =>
    right
    simp only [handle] at removed ⊢
    split at removed
    next connecting =>
      rw [if_pos connecting]
      rcases session.connectCompletes_cases mtu soError result with
        ⟨-, -, out⟩ | ⟨-, out⟩ | ⟨-, out⟩
      · simp [out] at removed
      · simp [out] at removed
      · rw [out]
        exact ⟨_, List.mem_singleton.mpr rfl, control_ends (by rfl) uniform rst⟩
    next => cases removed
  | received data time => cases removed
  | remoteClosed => exact .inr ⟨_, List.mem_singleton.mpr rfl, control_ends (by rfl) uniform fin⟩
  | recvFailed => exact .inr ⟨_, List.mem_singleton.mpr rfl, control_ends (by rfl) uniform rst⟩

end TcpSession

namespace Engine

namespace Standing
variable {engine : Engine} (standing : Standing engine) (input : Input)
include standing

/-- Only three kinds of step remove a TCP session. -/
theorem removes_cases {session : TcpSession} (removes : engine.Removes input session) :
    (∃ event pause, Reaches session input event ∧ (session.handle engine.mtu event).removed = true ∧
      (engine.step input).2 = event.call session.sockFd ++ pause ++
        ((session.handle engine.mtu event).effects ++ (session.handle engine.mtu event).closing)) ∨
    (∃ queued replies hdr payload, input = .tunReadable queued replies ∧ hdr.Opens ∧
      decode (queued.take maxPacketSize) = .ok (.tcp session.flow hdr payload)) ∨
    ∃ now, input = .cleanup now ∧ tcpExpired now session = true := by
  obtain ⟨linked, gone⟩ := removes
  have spec := step_spec engine input
  generalize (engine.step input).2 = effects at *
  generalize engine.next input = next at *
  have stays : next.tcpTable ≠ engine.tcpTable := by
    intro same
    exact gone session (same ▸ linked) rfl
  cases spec with
  | @handled _ old event pause oldLinked reaches pauses tcp udp addr lines =>
    have same := old.handle_identity engine.mtu event
    simp only [TcpSession.identity, Prod.mk.injEq] at same
    rw [tcp, settle_tcpTable] at gone
    split at gone
    next removed =>
      -- the handler unlinks its own session and no other
      by_cases here : session = old
      · subst here
        exact .inl ⟨event, pause, reaches, removed, lines⟩
      · exact absurd rfl (gone session ((standing.tables.tcp.linked_unlink oldLinked).mpr ⟨linked, here⟩))
    next =>
      by_cases here : session = old
      · subst here
        exact absurd same.1 (gone _ ((standing.tables.tcp.linked_store _ linked same.1).mpr (.inl rfl)))
      · exact absurd rfl
          (gone session ((standing.tables.tcp.linked_store _ oldLinked same.1).mpr (.inr ⟨linked, here⟩)))
  | @opened queued replies flow hdr payload pause decoded opens pauses tcp udp addr lines =>
    -- a SYN replaces the session of its flow
    obtain ⟨-, cleared⟩ := withoutFlow_chained standing.tables flow
    by_cases here : session.flow = flow
    · subst here
      exact .inr (.inl ⟨queued, replies, hdr, payload, rfl, opens, decoded⟩)
    · have remains := (cleared session).mpr ⟨linked, here⟩
      refine absurd rfl (gone session ?_)
      rw [tcp, openTcp_spec]
      cases replies.opens with
      | some fd => exact Buckets.linked_push.mpr (.inr remains)
      | none => exact remains
  | relayed pause decoded oldLinked pauses tcp udp addr lines => exact absurd tcp stays
  | associated pause decoded unknown opens pauses tcp udp addr lines => exact absurd tcp stays
  | refused pause decoded opens pauses tcp udp addr lines => exact absurd tcp stays
  | delivered data pause oldLinked pauses tcp udp addr lines => exact absurd tcp stays
  | @swept now tcp udp addr lines =>
    refine .inr (.inr ⟨now, rfl, ?_⟩)
    by_contra kept
    refine absurd rfl (gone session ?_)
    rw [tcp]
    exact Buckets.linked_sweep.mpr ⟨linked, by simpa using kept⟩
  | idle tcp udp addr quiet ignored => exact absurd tcp stays

theorem announced_handled {session : TcpSession} (removes : engine.Removes input session)
    (notSwept : ∀ now, input = .cleanup now → tcpExpired now session = false) :
    input.Abandons session.flow ∨ Announces (engine.step input).2 session := by
  have linked := removes.1
  rcases standing.removes_cases input removes with
    ⟨event, pause, reaches, removed, lines⟩ | ⟨queued, replies, hdr, payload, rfl, opens, decoded⟩ |
      ⟨now, same, expired⟩
  · rcases TcpSession.handle_removed (standing.live session linked) (standing.uniform session linked)
      engine.mtu event removed with ⟨hdr, payload, replies, rfl, reset⟩ | ⟨packets, written, ends⟩
    · cases reaches with
      | segment decoded known =>
        exact .inl ⟨hdr, payload, by simp [Input.decoded?, decoded, Except.toOption], .inl reset⟩
    · right
      -- the segment is among the effects of the handler, the descriptor is closed behind them
      obtain ⟨before, later, split⟩ := List.append_of_mem written
      refine ⟨event.call session.sockFd ++ pause ++ before, packets,
        later ++ (session.handle engine.mtu event).closing, ?_, ends, ?_⟩
      · rw [lines, split]
        simp only [List.append_assoc, List.cons_append]
      · have same := session.handle_identity engine.mtu event
        simp only [TcpSession.identity, Prod.mk.injEq] at same
        apply List.mem_append_right
        unfold Handled.closing
        rw [if_pos removed, same.2.2]
        simp
  · exact .inl ⟨hdr, payload, by simp [Input.decoded?, decoded, Except.toOption], .inr opens⟩
  · rw [notSwept now same] at expired
    cases expired

theorem cleanup_silent {now : Int} {session : TcpSession} (linked : engine.tcpTable.Linked session)
    (expired : tcpExpired now session = true) :
    engine.Removes (.cleanup now) session ∧ ¬Input.Abandons (.cleanup now) session.flow ∧
      ¬Announces (engine.step (.cleanup now)).2 session := by
  refine ⟨⟨linked, fun other remains same => ?_⟩, ?_, ?_⟩
  · obtain ⟨otherLinked, kept⟩ := Buckets.linked_sweep.mp remains
    obtain rfl := standing.tables.tcp.addrs other session otherLinked linked same
    simp [expired] at kept
  · rintro ⟨hdr, payload, decoded, -⟩
    cases decoded
  · rintro ⟨before, packets, later, lines, -⟩
    refine cleanup_quiet engine now (.tunWrite packets) ?_
    rw [show (engine.cleanup now).2 = (engine.step (.cleanup now)).2 from rfl, lines]
    simp

theorem announced_iff : engine.Announced input ↔ engine.KeepsBusy input := by
  constructor
  · rintro announced now rfl session linked
    by_contra idle
    have expired : tcpExpired now session = true := by
      unfold tcpExpired
      rw [Bool.or_eq_true]
      exact .inr (decide_eq_true (not_le.mp idle))
    obtain ⟨removes, keeps, silent⟩ := standing.cleanup_silent linked expired
    exact (announced session removes).elim keeps silent
  · intro busy session removes
    apply standing.announced_handled input removes
    intro now same
    have inTime := busy now same session removes.1
    rcases standing.live session removes.1 with state | state <;> simp [tcpExpired, state, inTime]

end Standing

/-- A run removes no TCP session silently exactly if no cleanup finds one unused for
longer than the timeout. -/
theorem removals_announced_iff (tunFd : Nat) (mtu ulStart dlStart : Int) (inputs : List Input) :
    Admits next Announced (start tunFd mtu ulStart dlStart) inputs ↔
      Admits next KeepsBusy (start tunFd mtu ulStart dlStart) inputs :=
  admits_congr Standing (fun _ input standing => standing.announced_iff input)
    (fun _ input standing _ => standing.next input) (standing_start tunFd mtu ulStart dlStart) inputs

/-- A connection opened at time 0 is gone at the cleanup of second 121, and the
client has not been told. -/
theorem idle_session_removed_silently :
    ¬Admits next Announced (start 3 1500 0 0) [.tunReadable sampleSyn (.smooth 7 0), .cleanup 121] := by
  intro announced
  have standing := (standing_start 3 1500 0 0).next (.tunReadable sampleSyn (.smooth 7 0))
  have found : ((start 3 1500 0 0).next (.tunReadable sampleSyn (.smooth 7 0))).tcpFind sampleFlow =
      some (.fresh 0 sampleFlow 1000 7 0 0) := by decide +kernel
  obtain ⟨removes, keeps, silent⟩ :=
    standing.cleanup_silent (tcpFind_linked found).1 (by decide : tcpExpired 121 _ = true)
  exact (announced.2.1 _ removes).elim keeps silent

end Engine

end ThrottleVpn.Tun2Socks
