import ThrottleVpn.Tun2Socks.Streams

/-! Sequence numbers towards the client.

Each handler call moves `our_seq` by what its packets take: one for a SYN, one
for a FIN, and one for each byte. Over a run the data segments lay the bytes
received from the server end to end, whatever their lengths and the MTU.
-/

set_option autoImplicit false

namespace ThrottleVpn.Tun2Socks

open Foundation

/-! ### What the packets of a history say -/

def synAcked (history : List Line) : Bool := (emitted history).any fun packet => hasFlag packet.tcpFlags tfSyn

def finSent (history : List Line) : Bool := (emitted history).any fun packet => hasFlag packet.tcpFlags tfFin

def dataSegments (history : List Line) : List (UInt32 × List UInt8) :=
  (pieces (emitted history)).filter fun piece => !piece.2.isEmpty

/-- No packet of a write exceeds the MTU, and only the last one has PSH or FIN. -/
def Shaped (mtu : Int) (line : Line) : Prop :=
  (∀ packet ∈ line.packets, (packet.bytes.length : Int) ≤ mtu) ∧
    ∀ packet ∈ line.packets.dropLast,
      hasFlag packet.tcpFlags tfPsh = false ∧ hasFlag packet.tcpFlags tfFin = false

section
variable (first second : List Line)

theorem emitted_append : emitted (first ++ second) = emitted first ++ emitted second := by
  simp [emitted]

@[simp] theorem synAcked_append : synAcked (first ++ second) = (synAcked first || synAcked second) := by
  simp [synAcked, emitted_append]

@[simp] theorem finSent_append : finSent (first ++ second) = (finSent first || finSent second) := by
  simp [finSent, emitted_append]

@[simp] theorem dataSegments_append :
    dataSegments (first ++ second) = dataSegments first ++ dataSegments second := by
  simp [dataSegments, emitted_append, pieces]

end

/-- The packets of the effects, and the number they leave `our_seq` at. -/
structure Emits (mtu : Int) (before after : UInt32) (effects : List Effect) (syn fin : Bool)
    (data : List UInt8) : Prop where
  ourSeq : after = before + syn.toUInt32 + UInt32.ofNat data.length + fin.toUInt32
  opens : synAcked (effects.map Line.effect) = syn
  closes : finSent (effects.map Line.effect) = fin
  tiles : Tiles advance32 (before + syn.toUInt32) (dataSegments (effects.map Line.effect)) data
  shaped : ∀ effect ∈ effects, Shaped mtu (.effect effect)

section
variable {mtu : Int}

theorem emits_silent (number : UInt32) (effects : List Effect)
    (silent : ∀ effect ∈ effects, (Line.effect effect).packets = []) :
    Emits mtu number number effects false false [] := by
  have none : emitted (effects.map Line.effect) = [] := by
    simpa [emitted, List.flatMap_eq_nil_iff] using silent
  constructor
  · simp [Bool.toUInt32]
  · simp [synAcked, none]
  · simp [finSent, none]
  · simp [dataSegments, none, pieces, Tiles]
  · intro effect member
    simp only [Shaped, silent effect member]
    simp

theorem emits_control {session : TcpSession} (room : session.flow.MtuFits mtu) (flags : UInt8) :
    Emits mtu session.ourSeq (writeTcp mtu session flags []).1.ourSeq
      [.tunWrite (writeTcp mtu session flags []).2] (hasFlag flags tfSyn) (hasFlag flags tfFin) [] := by
  obtain ⟨after, packet, sent, -, -, same, empty, size⟩ := writeTcp_nil mtu session flags
  constructor
  · rw [after]
    simp only [advanceSeq, Bool.true_and, Bool.toUInt32]
    cases hasFlag flags tfSyn <;> cases hasFlag flags tfFin <;> simp
  · simp [synAcked, emitted, sent, same]
  · simp [finSent, emitted, sent, same]
  · simp [dataSegments, emitted, sent, pieces, empty, Tiles]
  · intro effect member
    obtain rfl := List.mem_singleton.mp member
    have fits : (session.flow.headers : Int) ≤ mtu := le_of_lt room.1
    simpa [Shaped, sent, size] using fits

theorem emits_data {session : TcpSession} (room : session.flow.MtuFits mtu) (payload : List UInt8) :
    Emits mtu session.ourSeq (writeTcp mtu session (tfPsh ||| tfAck) payload).1.ourSeq
      [.tunWrite (writeTcp mtu session (tfPsh ||| tfAck) payload).2] false false payload := by
  have noSyn : hasFlag (tfPsh ||| tfAck) tfSyn = false := by decide
  have noFin : hasFlag (tfPsh ||| tfAck) tfFin = false := by decide
  have written := writeTcp_packets mtu session (tfPsh ||| tfAck) payload
  obtain ⟨after, tiled, sizes, last⟩ := writeTcp_sends room noSyn payload
  constructor
  · rw [after]
    simp [advanceSeq, noFin, Bool.toUInt32]
  · simp only [synAcked, emitted, List.map_cons, List.map_nil, List.flatMap_cons, List.flatMap_nil,
      Line.packets, List.append_nil, List.any_eq_false]
    intro packet member
    simp [(written packet member).2.1, noSyn]
  · simp only [finSent, emitted, List.map_cons, List.map_nil, List.flatMap_cons, List.flatMap_nil,
      Line.packets, List.append_nil, List.any_eq_false]
    intro packet member
    simp [(written packet member).2.2 noFin]
  · simpa [dataSegments, emitted, Bool.toUInt32] using tiled.nonempty advance32_zero
  · intro effect member
    obtain rfl := List.mem_singleton.mp member
    exact ⟨sizes, last⟩

theorem Emits.dataSegments_nil {before after : UInt32} {effects : List Effect} {syn fin : Bool}
    (emits : Emits mtu before after effects syn fin []) : dataSegments (effects.map Line.effect) = [] := by
  have tiled := emits.tiles
  cases segments : dataSegments (effects.map Line.effect) with
  | nil => rfl
  | cons piece rest =>
    rw [segments] at tiled
    have empty : piece.2 = [] := List.prefix_nil.mp tiled.2.1
    have kept : piece ∈ dataSegments (effects.map Line.effect) := by simp [segments]
    have nonempty := (List.mem_filter.mp kept).2
    simp [empty] at nonempty

variable {before middle after : UInt32} {first second : List Effect} {syn fin : Bool} {data : List UInt8}

theorem Emits.after_quiet (quiet : Emits mtu before middle first false false [])
    (rest : Emits mtu middle after second syn fin data) : Emits mtu before after (first ++ second) syn fin data := by
  have same : middle = before := by simpa [Bool.toUInt32] using quiet.ourSeq
  subst same
  constructor
  · exact rest.ourSeq
  · rw [List.map_append, synAcked_append, quiet.opens, rest.opens, Bool.false_or]
  · rw [List.map_append, finSent_append, quiet.closes, rest.closes, Bool.false_or]
  · rw [List.map_append, dataSegments_append, quiet.dataSegments_nil]
    exact rest.tiles
  · intro effect member
    rcases List.mem_append.mp member with member | member
    · exact quiet.shaped effect member
    · exact rest.shaped effect member

theorem Emits.then_quiet (emits : Emits mtu before middle first syn fin data)
    (quiet : Emits mtu middle after second false false []) :
    Emits mtu before after (first ++ second) syn fin data := by
  have same : after = middle := by simpa [Bool.toUInt32] using quiet.ourSeq
  subst same
  constructor
  · exact emits.ourSeq
  · rw [List.map_append, synAcked_append, quiet.opens, emits.opens, Bool.or_false]
  · rw [List.map_append, finSent_append, quiet.closes, emits.closes, Bool.or_false]
  · rw [List.map_append, dataSegments_append, quiet.dataSegments_nil, List.append_nil]
    exact emits.tiles
  · intro effect member
    rcases List.mem_append.mp member with member | member
    · exact emits.shaped effect member
    · exact quiet.shaped effect member

end

/-! ### The handlers -/

namespace TcpSession
variable {mtu : Int} {session : TcpSession}

theorem dataArrives_emits (room : session.flow.MtuFits mtu) (live : session.Live) (replies : TunReplies)
    (hdr : TcpHdr) (payload : List UInt8) :
    let data := session.dataArrives mtu replies hdr payload
    Emits mtu session.ourSeq data.session.ourSeq data.effects false false [] ∧
      data.session.flow = session.flow ∧ (data.removed = false → data.session.state = session.state) := by
  let next : TcpSession := { session with clientSeq := ntohl hdr.seq + UInt32.ofNat payload.length }
  have nextRoom : next.flow.MtuFits mtu := room
  rcases session.dataArrives_cases live mtu replies hdr payload with
    ⟨-, same⟩ | ⟨-, -, same⟩ | ⟨-, -, -, same⟩ | ⟨-, -, -, same⟩
  · rw [same]
    exact ⟨emits_silent _ _ (by simp), rfl, fun _ => rfl⟩
  · obtain ⟨-, ⟨block, len, cap, kept⟩, effects⟩ := next.bufferPending_frame replies.realloc payload
    rw [same]
    dsimp only
    rw [kept]
    refine ⟨emits_silent _ _ ?_, rfl, fun _ => rfl⟩
    rcases effects with none | hold
    · rw [none]
      simp
    · rw [hold]
      simp
  · rw [same]
    refine ⟨(emits_silent _ [_] (by simp)).after_quiet ?_, by simp, by simp⟩
    exact emits_control nextRoom tfAck
  · rw [same]
    refine ⟨(emits_silent _ [_] (by simp)).after_quiet ?_, by simp, by simp⟩
    exact emits_control nextRoom (tfRst ||| tfAck)

theorem finArrives_emits (room : session.flow.MtuFits mtu) (hdr : TcpHdr) :
    let fin := session.finArrives mtu hdr
    Emits mtu session.ourSeq fin.session.ourSeq fin.effects false true [] ∧ fin.session.flow = session.flow := by
  let next : TcpSession := { session with clientSeq := ntohl hdr.seq + 1 }
  have nextRoom : next.flow.MtuFits mtu := room
  have ack := emits_control nextRoom tfAck
  have ackRoom : (writeTcp mtu next tfAck []).1.flow.MtuFits mtu := by simpa using nextRoom
  have fin := emits_control ackRoom (tfFin ||| tfAck)
  refine ⟨?_, by simp [finArrives]⟩
  exact ack.after_quiet (fin.then_quiet (emits_silent _ _ (by simp)))

theorem connectCompletes_emits (room : session.flow.MtuFits mtu) (soError : Int) (result : SendResult) :
    let out := session.connectCompletes mtu soError result
    Emits mtu session.ourSeq out.session.ourSeq out.effects (!out.removed) false [] ∧
      out.session.flow = session.flow := by
  have synAck := emits_control room (tfSyn ||| tfAck)
  rcases session.connectCompletes_cases mtu soError result with ⟨-, -, same⟩ | ⟨-, same⟩ | ⟨-, same⟩
  · rw [same]
    exact ⟨synAck.then_quiet (emits_silent _ _ (by simp)), by simp⟩
  · rw [same]
    let next : TcpSession :=
      { (writeTcp mtu session (tfSyn ||| tfAck) []).1 with state := .established }
    have nextRoom : next.flow.MtuFits mtu := by simpa [next] using room
    have ack := emits_control nextRoom tfAck
    refine ⟨synAck.then_quiet ?_, by simp⟩
    refine (emits_silent _ [_] (by simp)).after_quiet ?_
    exact ack.then_quiet (emits_silent _ _ (by simp))
  · rw [same]
    exact ⟨emits_control room tfRst, by simp⟩

/-- One event, whichever handler it reaches. -/
theorem handle_emits (room : session.flow.MtuFits mtu) (live : session.Live) (event : SessionEvent) :
    let handled := session.handle mtu event
    ∃ syn fin, Emits mtu session.ourSeq handled.session.ourSeq handled.effects syn fin
        (Line.event event).received ∧ handled.session.flow = session.flow ∧
      (syn = true → session.state = .synSent ∧ (Line.event event).received = []) ∧
      (handled.removed = false → fin = false ∧
        handled.session.state = if syn then .established else session.state) := by
  cases event with
  | segment hdr payload replies =>
    let noted : TcpSession := { session with lastActive := replies.time }
    have notedRoom : noted.flow.MtuFits mtu := room
    have alive : noted.Live := live
    obtain ⟨emits, flow, state⟩ := dataArrives_emits notedRoom alive replies hdr payload
    have kept : (session.handle mtu (.segment hdr payload replies)) =
        session.segmentArrives mtu replies hdr payload := rfl
    rcases session.segmentArrives_cases mtu replies hdr payload with ⟨-, same⟩ | ⟨-, -, same⟩ | ⟨-, -, -, same⟩
    · rw [kept, same]
      exact ⟨false, false, emits_silent _ _ (by simp), rfl, by simp, by simp⟩
    · rw [kept, same]
      exact ⟨false, false, emits, flow, by simp, fun still => ⟨rfl, state still⟩⟩
    · have finRoom : (noted.dataArrives mtu replies hdr payload).session.flow.MtuFits mtu := by
        rw [flow]
        exact room
      obtain ⟨fin, finFlow⟩ := finArrives_emits finRoom hdr
      rw [kept, same]
      exact ⟨false, true, emits.after_quiet fin, finFlow.trans flow, by simp, by simp [finArrives]⟩
  | writable soError result =>
    by_cases connecting : session.state = .synSent
    · obtain ⟨emits, flow⟩ := connectCompletes_emits room soError result
      simp only [handle, if_pos connecting]
      refine ⟨_, false, emits, flow, fun _ => ⟨connecting, rfl⟩, fun still => ⟨rfl, ?_⟩⟩
      rcases session.connectCompletes_cases mtu soError result with ⟨-, -, same⟩ | ⟨-, same⟩ | ⟨-, same⟩
      · simp [same]
      · simp [same]
      · simp [same] at still
    · simp only [handle, if_neg connecting]
      exact ⟨false, false, emits_silent _ _ (by simp), trivial, by simp, by simp⟩
  | received data time =>
    let noted : TcpSession := { session with lastActive := time }
    have notedRoom : noted.flow.MtuFits mtu := room
    exact ⟨false, false, emits_data notedRoom data, by simp [handle, received], by simp,
      fun _ => ⟨rfl, by simp [handle, received]⟩⟩
  | remoteClosed =>
    exact ⟨false, true, emits_control room (tfFin ||| tfAck), by simp [handle, remoteClosed], by simp,
      by simp [handle, remoteClosed]⟩
  | recvFailed =>
    exact ⟨false, false, emits_control room tfRst, by simp [handle, recvFailed], by simp,
      by simp [handle, recvFailed]⟩

end TcpSession

/-! ### Runs -/

/-- Data comes from the server only after the connect completion was handled. -/
def ReceivesConnected (run : SessionRun) : SessionEvent → Prop
  | .received _ _ => run.session.state = .established
  | _ => True

instance (run : SessionRun) : (event : SessionEvent) → Decidable (ReceivesConnected run event)
  | .received _ _ => inferInstanceAs (Decidable (_ = _))
  | .segment _ _ _ | .writable _ _ | .remoteClosed | .recvFailed => inferInstanceAs (Decidable True)

/-- `our_seq` counts the SYN-ACK, the bytes received and the FIN; the data segments
tile the bytes received; every packet has its shape. -/
structure Sequenced (mtu : Int) (isn : UInt32) (run : SessionRun) : Prop where
  ourSeq : run.session.ourSeq = isn + (synAcked run.history).toUInt32 +
    UInt32.ofNat (received run.history).length + (finSent run.history).toUInt32
  tiles : Tiles advance32 (isn + 1) (dataSegments run.history) (received run.history)
  shaped : ∀ line ∈ run.history, Shaped mtu line

structure Streaming (flow : Flow) (run : SessionRun) : Prop where
  flow : run.session.flow = flow
  unfinished : finSent run.history = false
  phase : run.session.state = .synSent ∧ synAcked run.history = false ∧ received run.history = [] ∨
    run.session.state = .established ∧ synAcked run.history = true

theorem received_effects (past : List Line) (effects : List Effect) :
    received (past ++ effects.map Line.effect) = received past := by
  induction effects generalizing past with
  | nil => simp
  | cons effect rest ih =>
    rw [List.map_cons, append_cons_concat, ih]
    simp

theorem Sequenced.step {mtu : Int} {isn : UInt32} {flow : Flow} {run : SessionRun} (room : flow.MtuFits mtu)
    (sequenced : Sequenced mtu isn run) (streaming : run.removed = false → Streaming flow run)
    (event : SessionEvent) (allowed : ReceivesConnected run event) :
    Sequenced mtu isn (run.step mtu event) ∧
      ((run.step mtu event).removed = false → Streaming flow (run.step mtu event)) := by
  cases kept : run.removed with
  | true =>
    rw [SessionRun.step_removed kept]
    exact ⟨sequenced, streaming⟩
  | false =>
    obtain ⟨same, unfinished, phase⟩ := streaming kept
    have sessionRoom : run.session.flow.MtuFits mtu := same ▸ room
    have live : run.session.Live := phase.imp And.left And.left
    obtain ⟨syn, fin, emits, flowKept, opens, after⟩ := TcpSession.handle_emits sessionRoom live event
    have arrivedSyn : synAcked (run.history ++ [.event event]) = synAcked run.history := by
      simp [synAcked, emitted]
    have arrivedFin : finSent (run.history ++ [.event event]) = finSent run.history := by
      simp [finSent, emitted]
    have arrivedData : dataSegments (run.history ++ [.event event]) = dataSegments run.history := by
      simp [dataSegments, emitted, pieces]
    -- the SYN|ACK is sent once, and data from the server only after it
    have opening : syn = true → synAcked run.history = false ∧ received run.history = [] := by
      intro opened
      rcases phase with ⟨-, fresh⟩ | ⟨connected, -⟩
      · exact fresh
      · exact absurd ((opens opened).1.symm.trans connected) (by decide)
    have flowing : (Line.event event).received ≠ [] → synAcked run.history = true := by
      intro some
      have connected : run.session.state = .established := by
        cases event with
        | received data time => exact allowed
        | segment hdr payload replies => exact absurd rfl some
        | writable soError result => exact absurd rfl some
        | remoteClosed => exact absurd rfl some
        | recvFailed => exact absurd rfl some
      rcases phase with ⟨connecting, -⟩ | ⟨-, acked⟩
      · exact absurd (connecting.symm.trans connected) (by decide)
      · exact acked
    rw [SessionRun.step_kept kept, append_cons_concat]
    refine ⟨⟨?_, ?_, ?_⟩, fun still => ⟨flowKept.trans same, ?_, ?_⟩⟩
    · -- our_seq: one for a SYN, one for a FIN, and the bytes received
      rw [synAcked_append, finSent_append, received_effects, emits.opens, emits.closes, arrivedSyn, arrivedFin,
        unfinished, received_concat, List.length_append, UInt32.ofNat_add, Bool.false_or, emits.ourSeq,
        sequenced.ourSeq, unfinished]
      cases syn with
      | true =>
        obtain ⟨fresh, none⟩ := opening rfl
        simp [fresh, none, Bool.toUInt32]
      | false => simp [Bool.toUInt32, UInt32.add_assoc]
    · -- the segments continue where those before them ended
      rw [dataSegments_append, received_effects, received_concat, arrivedData]
      refine tiles_append advance32_zero advance32_add sequenced.tiles ?_
      by_cases none : (Line.event event).received = []
      · have quiet : dataSegments ((run.session.handle mtu event).effects.map Line.effect) = [] :=
          (none ▸ emits).dataSegments_nil
        rw [quiet, none]
        rfl
      · have here : run.session.ourSeq + syn.toUInt32 =
            advance32 (isn + 1) (received run.history).length := by
          have plain : syn = false := by
            cases syn with
            | true => exact absurd (opens rfl).2 none
            | false => rfl
          rw [plain, sequenced.ourSeq, flowing none, unfinished]
          simp [advance32, Bool.toUInt32]
        rw [← here]
        exact emits.tiles
    · intro line member
      rcases List.mem_append.mp member with member | member
      · rcases List.mem_append.mp member with member | member
        · exact sequenced.shaped line member
        · obtain rfl := List.mem_singleton.mp member
          simp [Shaped]
      · obtain ⟨effect, sent, rfl⟩ := List.mem_map.mp member
        exact emits.shaped effect sent
    · rw [finSent_append, emits.closes, arrivedFin, unfinished, (after still).1]
      rfl
    · rw [synAcked_append, emits.opens, received_effects, received_concat, arrivedSyn]
      have state := (after still).2
      cases syn with
      | true => exact .inr ⟨state, Bool.or_true _⟩
      | false =>
        rw [Bool.or_false]
        rcases phase with ⟨connecting, fresh, none⟩ | ⟨connected, acked⟩
        · refine .inl ⟨state.trans connecting, fresh, ?_⟩
          have silent : (Line.event event).received = [] := by
            by_contra some
            exact absurd ((flowing some).symm.trans fresh) (by decide)
          rw [none, silent]
          rfl
        · exact .inr ⟨state.trans connected, acked⟩

/-- Download sequence accounting: at every moment of every run `our_seq` counts the
SYN-ACK, the bytes received from the server and the FIN; the data segments tile these
bytes from the number after the ISN on; no packet exceeds the MTU, and PSH and FIN
are left to the last packet of a write. -/
theorem download_sequenced (mtu : Int) (addr : Nat) (flow : Flow) (room : flow.MtuFits mtu) (clientIsn : UInt32)
    (fd : Nat) (isnTime time : Int) (events : List SessionEvent)
    (allowed : Admits (SessionRun.step mtu) ReceivesConnected
      (.start (.fresh addr flow clientIsn fd isnTime time)) events) :
    Sequenced mtu (TcpSession.fresh addr flow clientIsn fd isnTime time).ourSeq
      (List.foldl (SessionRun.step mtu) (.start (.fresh addr flow clientIsn fd isnTime time)) events) := by
  let session := TcpSession.fresh addr flow clientIsn fd isnTime time
  have initial : Sequenced mtu session.ourSeq (.start session) := by
    refine ⟨?_, rfl, by simp [SessionRun.start]⟩
    simp [SessionRun.start, synAcked, finSent, emitted, received, Bool.toUInt32]
  have opened : Streaming flow (.start session) := ⟨rfl, rfl, .inl ⟨rfl, rfl, rfl⟩⟩
  exact (allowed.invariant
    (fun run => Sequenced mtu session.ourSeq run ∧ (run.removed = false → Streaming flow run))
    (fun _ event both received => both.1.step room both.2 event received) ⟨initial, fun _ => opened⟩).1

theorem download_sequenced_sample :
    Sequenced 41 sampleSession.ourSeq (List.foldl (SessionRun.step 41) (.start sampleSession)
      [.writable 0 (.accepted 0), .received [1, 2, 3] 5, .remoteClosed]) :=
  download_sequenced 41 0 sampleFlow (by decide) 1000 7 0 0 _ (by decide +kernel)

end ThrottleVpn.Tun2Socks
