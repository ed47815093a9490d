import ThrottleVpn.Tun2Socks.Download

/-! Resets, and the client that has to obey them.

A client in SYN-SENT takes a RST only if it acknowledges the SYN, later only if it
has exactly the next number expected. As long as the client has every segment
written so far, `our_seq` is that number.
-/

set_option autoImplicit false

namespace ThrottleVpn.Tun2Socks

open Foundation

/-- The client's side of a connection: no SYN-ACK yet, or the number it expects next. -/
inductive Client where
  | synSent (isn : UInt32)
  | synchronised (next : UInt32)
  deriving DecidableEq, Repr

def Packet.span (packet : Packet) : UInt32 :=
  (hasFlag packet.tcpFlags tfSyn).toUInt32 + UInt32.ofNat packet.payload.length +
    (hasFlag packet.tcpFlags tfFin).toUInt32

namespace Client

def receive (client : Client) (packet : Packet) : Client :=
  match client with
  | synSent isn =>
    if hasFlag packet.tcpFlags tfSyn ∧ hasFlag packet.tcpFlags tfAck then
      synchronised (packet.seq + packet.span)
    else synSent isn
  | synchronised next =>
    if packet.seq = next then synchronised (next + packet.span) else synchronised next

/-- The client drops the connection on this RST (RFC 793, RFC 5961). -/
def Aborts : Client → Packet → Prop
  | synSent isn, packet => hasFlag packet.tcpFlags tfAck = true ∧ packet.ack = isn + 1
  | synchronised next, packet => packet.seq = next

instance : (client : Client) → (packet : Packet) → Decidable (client.Aborts packet)
  | synSent _, _ => inferInstanceAs (Decidable (_ ∧ _))
  | synchronised _, _ => inferInstanceAs (Decidable (_ = _))

end Client

/-- A RST is obeyed by a client that has all the segments before it. -/
def Obeyed (isn : UInt32) (past : List Packet) (packet : Packet) : Prop :=
  hasFlag packet.tcpFlags tfRst = true → (past.foldl Client.receive (.synSent isn)).Aborts packet

instance (isn : UInt32) (past : List Packet) (packet : Packet) : Decidable (Obeyed isn past packet) :=
  inferInstanceAs (Decidable (_ → _))

/-- The connection does not fail before the SYN-ACK. -/
def SessionRun.Unrefused (run : SessionRun) : SessionEvent → Prop
  | .writable soError _ => run.removed = false → run.session.state = .synSent → soError = 0
  | .recvFailed => run.removed = false → run.session.state ≠ .synSent
  | .segment _ _ _ | .received _ _ | .remoteClosed => True

instance (run : SessionRun) : (event : SessionEvent) → Decidable (run.Unrefused event)
  | .writable _ _ => inferInstanceAs (Decidable (_ → _ → _))
  | .recvFailed => inferInstanceAs (Decidable (_ → _))
  | .segment _ _ _ | .received _ _ | .remoteClosed => inferInstanceAs (Decidable True)

/-! ### What a write does to the client -/

theorem receive_in_sequence {packet : Packet} {seq : UInt32} (same : packet.seq = seq) :
    Client.receive (.synchronised seq) packet = .synchronised (seq + packet.span) := if_pos same

theorem segmentLoop_followed {headers mss : Nat} {build : TcpSession → UInt8 → List UInt8 → Packet}
    (builds : Builds headers build) {flags : UInt8} (noSyn : hasFlag flags tfSyn = false)
    (payload : List UInt8) (fuel offset : Nat) (session : TcpSession) (inside : offset ≤ payload.length) :
    (segmentLoop headers mss build flags payload fuel offset session).2.foldl Client.receive
        (.synchronised session.ourSeq) =
      .synchronised (segmentLoop headers mss build flags payload fuel offset session).1.ourSeq := by
  induction fuel generalizing offset session with
  | zero => rfl
  | succ fuel ih =>
    have synCleared := hasFlag_clear flags (tfPsh ||| tfFin) tfSyn (by decide)
    have finCleared := hasFlag_cleared flags (tfPsh ||| tfFin) tfFin (by decide)
    unfold segmentLoop
    dsimp only
    split
    · rfl
    · by_cases more : offset + ((payload.drop offset).take mss).length < payload.length
      · have notLast : (offset + ((payload.drop offset).take mss).length == payload.length) = false := by
          simpa using Nat.ne_of_lt more
        have span : session.ourSeq +
            (build session (flags &&& ~~~(tfPsh ||| tfFin)) ((payload.drop offset).take mss)).span =
            advanceSeq session.ourSeq (offset == 0) false (flags &&& ~~~(tfPsh ||| tfFin))
              ((payload.drop offset).take mss).length := by
          simp [Packet.span, advanceSeq, builds.tcpFlags, builds.payload, synCleared, noSyn, finCleared,
            Bool.toUInt32]
        -- the client expects the next segment where this one ends
        simp only [if_pos more, notLast, List.foldl_cons]
        rw [receive_in_sequence (builds.seq _ _ _), span]
        exact ih _ { session with
          ourSeq := advanceSeq session.ourSeq (offset == 0) false (flags &&& ~~~(tfPsh ||| tfFin))
            ((payload.drop offset).take mss).length } (le_of_lt more)
      · have last : (offset + ((payload.drop offset).take mss).length == payload.length) = true := by
          rw [beq_iff_eq]
          have short : ((payload.drop offset).take mss).length ≤ (payload.drop offset).length :=
            List.length_take_le' _ _
          rw [List.length_drop] at short
          omega
        have span : session.ourSeq + (build session flags ((payload.drop offset).take mss)).span =
            advanceSeq session.ourSeq (offset == 0) true flags ((payload.drop offset).take mss).length := by
          cases fin : hasFlag flags tfFin <;>
            simp [Packet.span, advanceSeq, builds.tcpFlags, builds.payload, noSyn, fin, Bool.toUInt32,
              UInt32.add_assoc]
        simp only [if_neg more, last, List.foldl_cons, List.foldl_nil]
        rw [receive_in_sequence (builds.seq _ _ _), span]

section
variable (mtu : Int) (session : TcpSession) {flags : UInt8} (payload : List UInt8)

theorem writeTcp_followed (noSyn : hasFlag flags tfSyn = false) :
    (writeTcp mtu session flags payload).2.foldl Client.receive (.synchronised session.ourSeq) =
      .synchronised (writeTcp mtu session flags payload).1.ourSeq := by
  obtain ⟨fallback, build, builds, same⟩ := writeTcp_cases mtu session flags payload
  rw [same]
  exact segmentLoop_followed builds noSyn payload _ 0 session (Nat.zero_le _)

theorem writeTcp_awaited (noSyn : hasFlag flags tfSyn = false) (isn : UInt32) :
    (writeTcp mtu session flags payload).2.foldl Client.receive (.synSent isn) = .synSent isn := by
  have plain := writeTcp_packets mtu session flags payload
  generalize (writeTcp mtu session flags payload).2 = packets at *
  induction packets with
  | nil => rfl
  | cons packet rest ih =>
    rw [List.forall_mem_cons] at plain
    have waits : Client.receive (.synSent isn) packet = .synSent isn := by
      apply if_neg
      rw [plain.1.2.1, noSyn]
      simp
    rw [List.foldl_cons, waits, ih plain.2]

theorem writeTcp_rst :
    ∀ packet ∈ (writeTcp mtu session flags payload).2,
      hasFlag packet.tcpFlags tfRst = hasFlag flags tfRst := by
  obtain ⟨fallback, build, builds, same⟩ := writeTcp_cases mtu session flags payload
  rw [same]
  intro packet member
  obtain ⟨seq, chunkFlags, chunk, rfl, chosen, -⟩ :=
    ((segmentLoop_frame _ flags payload _ _ session).2 packet member).built
  rw [builds.tcpFlags]
  rcases chosen with rfl | rfl
  · rfl
  · exact hasFlag_clear flags (tfPsh ||| tfFin) tfRst (by decide)

end

/-! ### The client and the session -/

/-- A client that has all segments so far knows what the session takes it to know. -/
structure Tracks (isn : UInt32) (session : TcpSession) (past : List Packet) : Prop where
  live : session.Live
  connecting : session.state = .synSent → past.foldl Client.receive (.synSent isn) = .synSent isn
  connected : session.state = .established →
    past.foldl Client.receive (.synSent isn) = .synchronised session.ourSeq

theorem extends_without_rst {isn : UInt32} {packets : List Packet}
    (none : ∀ packet ∈ packets, hasFlag packet.tcpFlags tfRst = false) (past : List Packet) :
    Extends (Obeyed isn) past packets := by
  induction packets generalizing past with
  | nil => trivial
  | cons packet rest ih =>
    rw [List.forall_mem_cons] at none
    refine ⟨fun reset => ?_, ih none.2 _⟩
    rw [none.1] at reset
    cases reset

theorem extends_write {isn : UInt32} (mtu : Int) (session : TcpSession) {flags : UInt8}
    (payload : List UInt8) (none : hasFlag flags tfRst = false) (past : List Packet) :
    Extends (Obeyed isn) past (writeTcp mtu session flags payload).2 := by
  apply extends_without_rst
  intro packet member
  rw [writeTcp_rst mtu session payload packet member, none]

theorem extends_reset_iff {isn : UInt32} (mtu : Int) (session : TcpSession) {flags : UInt8}
    (reset : hasFlag flags tfRst = true) (past : List Packet) :
    Extends (Obeyed isn) past (writeTcp mtu session flags []).2 ↔
      match past.foldl Client.receive (.synSent isn) with
      | .synSent isn => hasFlag flags tfAck = true ∧ session.clientSeq = isn + 1
      | .synchronised next => session.ourSeq = next := by
  obtain ⟨-, packet, sent, seq, ack, same, -, -⟩ := writeTcp_nil mtu session flags
  rw [sent]
  simp only [Extends, and_true, Obeyed, same, reset, forall_const]
  cases past.foldl Client.receive (.synSent isn) with
  | synSent isn => rw [Client.Aborts, same, ack]
  | synchronised next => rw [Client.Aborts, seq]

namespace Tracks
open TcpSession (dataArrives_cases bufferPending_frame segmentArrives_cases)
variable {isn : UInt32} {session : TcpSession} {past : List Packet} (tracks : Tracks isn session past)
  (mtu : Int)
include tracks

theorem write {flags : UInt8} (payload : List UInt8) (noSyn : hasFlag flags tfSyn = false) :
    Tracks isn (writeTcp mtu session flags payload).1
      (past ++ (writeTcp mtu session flags payload).2) where
  live := by
    unfold TcpSession.Live
    rw [writeTcp_state]
    exact tracks.live
  connecting := by
    rw [writeTcp_state, List.foldl_append]
    intro waiting
    rw [tracks.connecting waiting, writeTcp_awaited mtu session payload noSyn]
  connected := by
    rw [writeTcp_state, List.foldl_append]
    intro connected
    rw [tracks.connected connected, writeTcp_followed mtu session payload noSyn]

theorem synAck (waiting : session.state = .synSent) :
    Tracks isn { (writeTcp mtu session (tfSyn ||| tfAck) []).1 with state := .established }
      (past ++ (writeTcp mtu session (tfSyn ||| tfAck) []).2) where
  live := .inr rfl
  connecting := fun waiting => by cases waiting
  connected := by
    intro _
    obtain ⟨after, packet, sent, seq, -, same, empty, -⟩ := writeTcp_nil mtu session (tfSyn ||| tfAck)
    have both : hasFlag (tfSyn ||| tfAck) tfSyn = true ∧ hasFlag (tfSyn ||| tfAck) tfAck = true := by decide
    have noFin : hasFlag (tfSyn ||| tfAck) tfFin = false := by decide
    rw [List.foldl_append, tracks.connecting waiting, sent, after]
    simp [Client.receive, Packet.span, advanceSeq, same, seq, empty, both, noFin, Bool.toUInt32]

theorem congr {other : TcpSession} (state : other.state = session.state)
    (ourSeq : other.ourSeq = session.ourSeq) : Tracks isn other past where
  live := by
    unfold TcpSession.Live
    rw [state]
    exact tracks.live
  connecting := by
    rw [state]
    exact tracks.connecting
  connected := by
    rw [state, ourSeq]
    exact tracks.connected

theorem dataArrives (replies : TunReplies) (hdr : TcpHdr) (payload : List UInt8) :
    let out := session.dataArrives mtu replies hdr payload
    let packets := emitted (out.effects.map Line.effect)
    Extends (Obeyed isn) past packets ∧ (out.removed = false → Tracks isn out.session (past ++ packets)) := by
  have numbered := @congr isn session past tracks
    { session with clientSeq := ntohl hdr.seq + UInt32.ofNat payload.length } rfl rfl
  intro result packets
  rcases dataArrives_cases tracks.live mtu replies hdr payload with
    ⟨-, out⟩ | ⟨-, -, out⟩ | ⟨-, -, -, out⟩ | ⟨-, connected, -, out⟩
  · have none : packets = [] := by simp [packets, result, out, emitted]
    rw [none, List.append_nil]
    simp only [result, out]
    exact ⟨trivial, fun _ => tracks⟩
  · obtain ⟨-, ⟨block, len, cap, same⟩, effects⟩ := bufferPending_frame
      { session with clientSeq := ntohl hdr.seq + UInt32.ofNat payload.length } replies.realloc payload
    have none : packets = [] := by
      rcases effects with empty | hold
      · simp [packets, result, out, empty, emitted]
      · simp [packets, result, out, hold, emitted]
    rw [none, List.append_nil]
    simp only [result, out, same]
    exact ⟨trivial, fun _ => tracks.congr rfl rfl⟩
  · have sent : packets = (writeTcp mtu { session with
        clientSeq := ntohl hdr.seq + UInt32.ofNat payload.length } tfAck []).2 := by
      simp [packets, result, out, emitted]
    rw [sent]
    simp only [result, out]
    exact ⟨extends_write mtu _ [] (by decide) past, fun _ => numbered.write mtu [] (by decide)⟩
  · have sent : packets = (writeTcp mtu { session with
        clientSeq := ntohl hdr.seq + UInt32.ofNat payload.length } (tfRst ||| tfAck) []).2 := by
      simp [packets, result, out, emitted]
    rw [sent]
    refine ⟨?_, fun stays => ?_⟩
    · rw [extends_reset_iff mtu _ (by decide), tracks.connected connected]
    · simp [result, out] at stays

theorem segmentArrives (replies : TunReplies) (hdr : TcpHdr) (payload : List UInt8) :
    let out := session.segmentArrives mtu replies hdr payload
    let packets := emitted (out.effects.map Line.effect)
    Extends (Obeyed isn) past packets ∧ (out.removed = false → Tracks isn out.session (past ++ packets)) := by
  have here := @congr isn session past tracks { session with lastActive := replies.time } rfl rfl
  obtain ⟨good, data⟩ := here.dataArrives mtu replies hdr payload
  intro result packets
  rcases @segmentArrives_cases session mtu replies hdr payload with
    ⟨-, out⟩ | ⟨-, -, out⟩ | ⟨-, stays, -, out⟩
  · simp only [packets, result, out]
    exact ⟨trivial, fun stays => by cases stays⟩
  · simp only [packets, result, out]
    exact ⟨good, data⟩
  · simp only [packets, result, out, List.map_append, emitted_append]
    refine ⟨extends_append.mpr ⟨good, ?_⟩, fun stays => by cases stays⟩
    simp only [TcpSession.finArrives, emitted, List.map_cons, List.map_nil, List.flatMap_cons,
      List.flatMap_nil, Line.packets, List.append_nil]
    exact extends_append.mpr ⟨extends_write mtu _ [] (by decide) _, extends_write mtu _ [] (by decide) _⟩

theorem connectCompletes (waiting : session.state = .synSent) (soError : Int) (result : SendResult) :
    let out := session.connectCompletes mtu soError result
    let packets := emitted (out.effects.map Line.effect)
    (Extends (Obeyed isn) past packets ↔ soError = 0) ∧
      (out.removed = false → Tracks isn out.session (past ++ packets)) := by
  have noRst : hasFlag (tfSyn ||| tfAck) tfRst = false := by decide
  have after := tracks.synAck mtu waiting
  intro handled packets
  rcases session.connectCompletes_cases mtu soError result with
    ⟨fine, -, out⟩ | ⟨fine, out⟩ | ⟨refused, out⟩
  · have sent : packets = (writeTcp mtu session (tfSyn ||| tfAck) []).2 := by
      simp [packets, handled, out, emitted]
    rw [sent]
    simp only [handled, out]
    exact ⟨iff_of_true (extends_write mtu session [] noRst past) fine, fun _ => after⟩
  · have sent : packets = (writeTcp mtu session (tfSyn ||| tfAck) []).2 ++
        (writeTcp mtu { (writeTcp mtu session (tfSyn ||| tfAck) []).1 with state := .established }
          tfAck []).2 := by
      simp [packets, handled, out, emitted]
    rw [sent]
    simp only [handled, out]
    refine ⟨iff_of_true (extends_append.mpr ⟨extends_write mtu session [] noRst past, ?_⟩) fine, fun _ => ?_⟩
    · exact extends_write mtu _ [] (by decide) _
    · rw [← List.append_assoc]
      exact (after.write mtu [] (by decide)).congr rfl rfl
  · have sent : packets = (writeTcp mtu session tfRst []).2 := by
      simp [packets, handled, out, emitted]
    rw [sent]
    simp only [handled, out]
    refine ⟨iff_of_false ?_ refused, fun stays => by cases stays⟩
    rw [extends_reset_iff mtu session (by decide), tracks.connecting waiting]
    exact fun acknowledges => absurd acknowledges.1 (by decide)

theorem recvFailed :
    Extends (Obeyed isn) past (emitted ((session.recvFailed mtu).effects.map Line.effect)) ↔
      session.state ≠ .synSent := by
  have sent : emitted ((session.recvFailed mtu).effects.map Line.effect) = (writeTcp mtu session tfRst []).2 := by
    simp [TcpSession.recvFailed, emitted]
  rw [sent, extends_reset_iff mtu session (by decide)]
  rcases tracks.live with waiting | connected
  · rw [tracks.connecting waiting]
    exact iff_of_false (fun acknowledges => absurd acknowledges.1 (by decide)) (fun other => other waiting)
  · rw [tracks.connected connected]
    exact iff_of_true rfl (by simp [connected])

end Tracks

/-! ### Whole runs -/

/-- What a handler sends is obeyed exactly if the connection is not refused. -/
theorem Tracks.handle {isn : UInt32} {run : SessionRun} (mtu : Int) (kept : run.removed = false)
    (tracks : Tracks isn run.session (emitted run.history)) (event : SessionEvent) :
    let out := run.session.handle mtu event
    let packets := emitted (out.effects.map Line.effect)
    (Extends (Obeyed isn) (emitted run.history) packets ↔ run.Unrefused event) ∧
      (out.removed = false → Tracks isn out.session (emitted run.history ++ packets)) := by
  cases event with
  | segment hdr payload replies =>
    obtain ⟨good, after⟩ := tracks.segmentArrives mtu replies hdr payload
    exact ⟨iff_of_true good trivial, after⟩
  | writable soError result =>
    by_cases waiting : run.session.state = .synSent
    · have completes := tracks.connectCompletes mtu waiting soError result
      simp only [TcpSession.handle, SessionRun.Unrefused, kept, waiting, forall_const]
      exact completes
    · simp only [TcpSession.handle, if_neg waiting, SessionRun.Unrefused]
      have none : emitted (List.map Line.effect []) = [] := rfl
      rw [none, List.append_nil]
      exact ⟨iff_of_true trivial fun _ other => absurd other waiting, fun _ => tracks⟩
  | received data time =>
    have noRst : hasFlag (tfPsh ||| tfAck) tfRst = false := by decide
    have noSyn : hasFlag (tfPsh ||| tfAck) tfSyn = false := by decide
    have here := @Tracks.congr isn run.session _ tracks { run.session with lastActive := time } rfl rfl
    simp only [TcpSession.handle, TcpSession.received, emitted, List.map_cons, List.map_nil,
      List.flatMap_cons, List.flatMap_nil, Line.packets, List.append_nil]
    exact ⟨iff_of_true (extends_write mtu _ data noRst _) trivial, fun _ => here.write mtu data noSyn⟩
  | remoteClosed =>
    have noRst : hasFlag (tfFin ||| tfAck) tfRst = false := by decide
    simp only [TcpSession.handle, TcpSession.remoteClosed, emitted, List.map_cons, List.map_nil,
      List.flatMap_cons, List.flatMap_nil, Line.packets, List.append_nil]
    exact ⟨iff_of_true (extends_write mtu _ [] noRst _) trivial, fun stays => by cases stays⟩
  | recvFailed =>
    have fails := tracks.recvFailed mtu
    simp only [TcpSession.handle, SessionRun.Unrefused, kept, forall_const]
    exact ⟨fails, fun stays => by cases stays⟩

theorem SessionRun.unrefused_removed {run : SessionRun} (gone : run.removed = true) (event : SessionEvent) :
    run.Unrefused event := by
  cases event <;> simp [Unrefused, gone]

theorem obeyed_from_iff {isn : UInt32} (mtu : Int) (events : List SessionEvent) (run : SessionRun)
    (tracks : run.removed = false → Tracks isn run.session (emitted run.history)) :
    Judged (Obeyed isn) (emitted (events.foldl (SessionRun.step mtu) run).history) ↔
      Judged (Obeyed isn) (emitted run.history) ∧
        Admits (SessionRun.step mtu) SessionRun.Unrefused run events := by
  induction events generalizing run with
  | nil => simp [Admits]
  | cons event rest ih =>
    rw [List.foldl_cons, Admits]
    cases gone : run.removed with
    | true =>
      have same := SessionRun.step_removed gone mtu event
      rw [same, ih run tracks]
      simp [SessionRun.unrefused_removed gone event]
    | false =>
      obtain ⟨good, after⟩ := (tracks gone).handle mtu gone event
      have step := SessionRun.step_kept gone mtu event
      have history : emitted (run.step mtu event).history = emitted run.history ++
          emitted ((run.session.handle mtu event).effects.map Line.effect) := by
        rw [step, emitted_append]
        simp [emitted]
      rw [ih (run.step mtu event), history, judged_append, good, and_assoc]
      rw [history, step]
      exact after

/-- Every RST of a session is one that a client with all the segments before it obeys,
exactly if the connection is not refused before the SYN-ACK: no connect and no `recv`
fails while the session is connecting. -/
theorem resets_obeyed_iff (mtu : Int) (addr : Nat) (flow : Flow) (isn : UInt32) (fd : Nat)
    (isnTime time : Int) (events : List SessionEvent) :
    let start := SessionRun.start (.fresh addr flow isn fd isnTime time)
    Judged (Obeyed isn) (emitted (events.foldl (SessionRun.step mtu) start).history) ↔
      Admits (SessionRun.step mtu) SessionRun.Unrefused start events := by
  intro start
  have tracks : Tracks isn start.session (emitted start.history) := ⟨.inl rfl, fun _ => rfl, fun connected => by cases connected⟩
  rw [obeyed_from_iff mtu events start fun _ => tracks]
  exact and_iff_right (judged_nil _)

/-- ECONNREFUSED: the client has sent its SYN and gets a RST without ACK. -/
theorem refusal_not_obeyed :
    ¬∀ (mtu : Int) (addr : Nat) (flow : Flow) (isn : UInt32) (fd : Nat) (isnTime time : Int)
      (events : List SessionEvent), Judged (Obeyed isn)
        (emitted (events.foldl (SessionRun.step mtu) (.start (.fresh addr flow isn fd isnTime time))).history) := by
  intro obeyed
  exact absurd (obeyed 1500 0 sampleFlow 1000 7 0 0 [.writable 111 .failed]) (by decide +kernel)

end ThrottleVpn.Tun2Socks
