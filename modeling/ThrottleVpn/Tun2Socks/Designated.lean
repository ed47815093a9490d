import ThrottleVpn.Tun2Socks.Isolation
import ThrottleVpn.Tun2Socks.Slices

/-! The bytes that the IP header designates.

The IP header says where the transport segment starts, where it ends, and whether
the packet starts its datagram. The engine reads the first of the three only, so
it takes the rest of a fragment for headers, and the bytes behind the datagram for
payload. What it does with the packets it does read in full agrees with the header.
-/

set_option autoImplicit false

namespace ThrottleVpn.Tun2Socks

open Foundation

structure IpLayout where
  start : Nat
  stop : Nat
  offset : Nat
  deriving DecidableEq, Repr

/-- The length and fragment fields of RFC 791 and the length field of RFC 8200. -/
def ipLayout (packet : List UInt8) : Option IpLayout := do
  let first ← packet[0]?
  if first.toNat / 16 = 4 then
    let totalLen ← load16 packet 2
    let flagsFrag ← load16 packet 6
    return ⟨first.toNat % 16 * 4, (ntohs totalLen).toNat, (ntohs flagsFrag).toNat % 8192⟩
  else if first.toNat / 16 = 6 then
    let payloadLen ← load16 packet 4
    return ⟨40, 40 + (ntohs payloadLen).toNat, 0⟩
  else none

def designated (packet : List UInt8) : Option (List UInt8) := do
  let layout ← ipLayout packet
  if layout.offset = 0 then some ((packet.take layout.stop).drop layout.start) else none

def decodeSegment (ip : IpPacket) (segment : List UInt8) : Except Reject Decoded := do
  if ip.proto = 6 then
    let (hdr, payload) ← parseTcp segment
    return .tcp ⟨ip.src, hdr.srcPort, ip.dst, hdr.dstPort⟩ hdr payload
  else if ip.proto = 17 then
    let (hdr, payload) ← parseUdp segment
    return .udp ⟨ip.src, hdr.srcPort, ip.dst, hdr.dstPort⟩ hdr payload
  else throw .drop

/-- What a packet carries by its IP header. -/
def designate (packet : List UInt8) : Option Decoded := do
  let ip ← (parseIp packet).toOption
  let segment ← designated packet
  (decodeSegment ip segment).toOption

/-- Nothing that is taken from the packet lies behind what the IP header designates. -/
def Decoded.Whole (packet : List UInt8) (layout : IpLayout) : Decoded → Prop
  | .tcp _ _ _ => layout.offset = 0 ∧ packet.length ≤ layout.stop
  | .udp _ hdr _ => layout.offset = 0 ∧ layout.start + (ntohs hdr.length).toNat ≤ layout.stop

instance (packet : List UInt8) (layout : IpLayout) :
    (decoded : Decoded) → Decidable (decoded.Whole packet layout)
  | .tcp _ _ _ | .udp _ _ _ => inferInstanceAs (Decidable (_ ∧ _))

theorem decode_eq (packet : List UInt8) :
    decode packet = parseIp packet >>= fun ip => decodeSegment ip (packet.drop ip.hdrLen) := rfl

theorem parseIp_layout {packet : List UInt8} {ip : IpPacket} (parsed : parseIp packet = .ok ip) :
    ip.hdrLen ≤ packet.length ∧ ∃ layout, ipLayout packet = some layout ∧ layout.start = ip.hdrLen := by
  have inside : ip.hdrLen ≤ packet.length := by
    rcases parseIp_cases packet with dropped | ⟨other, same, -, inside⟩
    · rw [dropped] at parsed
      cases parsed
    · obtain rfl : other = ip := Except.ok.inj (same.symm.trans parsed)
      exact inside
  refine ⟨inside, ?_⟩
  unfold parseIp at parsed
  simp only [bind, Except.bind, pure, Except.pure, throw, throwThe, MonadExceptOf.throw] at parsed
  unfold ipLayout
  by_cases empty : packet.length = 0
  · rw [if_pos empty] at parsed
    cases parsed
  · obtain ⟨first, loaded⟩ := @byte_inside packet 0 (by omega)
    simp only [if_neg empty, loaded, access] at parsed
    simp only [loaded, Option.bind_eq_bind, Option.bind_some]
    split at parsed
    next v4 =>
      obtain ⟨src, srcLoaded⟩ := @load32_inside packet 12 (by omega)
      obtain ⟨dst, dstLoaded⟩ := @load32_inside packet 16 (by omega)
      obtain ⟨proto, protoLoaded⟩ := @byte_inside packet 9 (by omega)
      obtain ⟨totalLen, lenLoaded⟩ := @load16_inside packet 2 (by omega)
      obtain ⟨flagsFrag, fragLoaded⟩ := @load16_inside packet 6 (by omega)
      split at parsed
      · cases parsed
      · simp only [srcLoaded, dstLoaded, protoLoaded, Except.ok.injEq] at parsed
        rw [if_pos v4.1, lenLoaded, fragLoaded, ← parsed]
        exact ⟨_, rfl, rfl⟩
    next other =>
      split at parsed
      next v6 =>
        obtain ⟨src, srcLoaded⟩ := @load128_inside packet 8 (by omega)
        obtain ⟨dst, dstLoaded⟩ := @load128_inside packet 24 (by omega)
        obtain ⟨proto, protoLoaded⟩ := @byte_inside packet 6 (by omega)
        obtain ⟨payloadLen, lenLoaded⟩ := @load16_inside packet 4 (by omega)
        simp only [srcLoaded, dstLoaded, protoLoaded, Except.ok.injEq] at parsed
        rw [if_neg (by omega), if_pos v6.1, lenLoaded, ← parsed]
        exact ⟨_, rfl, rfl⟩
      · cases parsed

/-! ### A segment and a prefix of it -/

theorem load16_take {bytes : List UInt8} {offset count : Nat} (inside : offset + 2 ≤ count) :
    load16 (bytes.take count) offset = load16 bytes offset := by
  unfold load16
  rw [List.getElem?_take_of_lt (by omega), List.getElem?_take_of_lt (by omega)]

theorem UdpHdr.load_take {segment : List UInt8} {count : Nat} (inside : 8 ≤ count) :
    UdpHdr.load (segment.take count) = UdpHdr.load segment := by
  unfold UdpHdr.load
  rw [load16_take (by omega), load16_take (by omega), load16_take (by omega), load16_take (by omega)]

theorem parseUdp_ok_iff {segment payload : List UInt8} {hdr : UdpHdr} :
    parseUdp segment = .ok (hdr, payload) ↔ UdpHdr.load segment = some hdr ∧
      8 ≤ (ntohs hdr.length).toNat ∧ (ntohs hdr.length).toNat ≤ segment.length ∧
      payload = (segment.drop 8).take ((ntohs hdr.length).toNat - 8) := by
  constructor
  · intro parsed
    rcases parseUdp_cases segment with dropped | ⟨other, loaded, whole, inside, same⟩
    · rw [dropped] at parsed
      cases parsed
    · obtain ⟨rfl, rfl⟩ := Prod.mk.inj (Except.ok.inj (same.symm.trans parsed))
      exact ⟨loaded, whole, inside, rfl⟩
  · rintro ⟨loaded, whole, inside, rfl⟩
    unfold parseUdp
    simp only [bind, Except.bind, pure, Except.pure, loaded, access]
    rw [if_neg (by omega), if_neg (by omega)]
    simp only [Except.ok.injEq, Prod.mk.injEq, true_and]
    congr 1
    omega

theorem parseTcp_ok_iff {segment payload : List UInt8} {hdr : TcpHdr} :
    parseTcp segment = .ok (hdr, payload) ↔ TcpHdr.load segment = some hdr ∧ 20 ≤ hdr.hdrLen ∧
      hdr.hdrLen ≤ segment.length ∧ payload = segment.drop hdr.hdrLen := by
  constructor
  · intro parsed
    rcases parseTcp_cases segment with dropped | ⟨other, loaded, whole, inside, same⟩
    · rw [dropped] at parsed
      cases parsed
    · obtain ⟨rfl, rfl⟩ := Prod.mk.inj (Except.ok.inj (same.symm.trans parsed))
      exact ⟨loaded, whole, inside, rfl⟩
  · rintro ⟨loaded, whole, inside, rfl⟩
    unfold TcpHdr.hdrLen at *
    unfold parseTcp
    simp only [bind, Except.bind, pure, Except.pure, loaded, access]
    rw [if_neg (by omega), if_neg (by omega)]

theorem parseUdp_take_iff {segment payload : List UInt8} {hdr : UdpHdr} (count : Nat)
    (parsed : parseUdp segment = .ok (hdr, payload)) :
    parseUdp (segment.take count) = .ok (hdr, payload) ↔ (ntohs hdr.length).toNat ≤ count := by
  obtain ⟨loaded, whole, inside, rfl⟩ := parseUdp_ok_iff.mp parsed
  rw [parseUdp_ok_iff, List.length_take]
  constructor
  · rintro ⟨-, -, fits, -⟩
    exact fits.trans (min_le_left _ _)
  · intro fits
    refine ⟨?_, whole, by omega, ?_⟩
    · rw [UdpHdr.load_take (by omega), loaded]
    · rw [List.drop_take, List.take_take, min_eq_left (by omega)]

theorem parseTcp_take_iff {segment payload : List UInt8} {hdr : TcpHdr} (count : Nat)
    (parsed : parseTcp segment = .ok (hdr, payload)) :
    parseTcp (segment.take count) = .ok (hdr, payload) ↔ segment.length ≤ count := by
  obtain ⟨loaded, whole, inside, rfl⟩ := parseTcp_ok_iff.mp parsed
  constructor
  · intro taken
    obtain ⟨-, -, fits, same⟩ := parseTcp_ok_iff.mp taken
    have lengths := congrArg List.length same
    rw [List.length_drop, List.length_drop, List.length_take] at lengths
    rw [List.length_take] at fits
    omega
  · intro fits
    rw [List.take_of_length_le fits, parsed]

section
variable {packet segment payload : List UInt8} {ip : IpPacket} {layout : IpLayout} {flow : Flow}

theorem decodeSegment_tcp_iff {hdr : TcpHdr} :
    decodeSegment ip segment = .ok (.tcp flow hdr payload) ↔ ip.proto = 6 ∧
      flow = ⟨ip.src, hdr.srcPort, ip.dst, hdr.dstPort⟩ ∧ parseTcp segment = .ok (hdr, payload) := by
  unfold decodeSegment
  simp only [bind, Except.bind, pure, Except.pure, throw, throwThe, MonadExceptOf.throw]
  split
  next isTcp =>
    cases parseTcp segment with
    | error reject => simp
    | ok parsed =>
      obtain ⟨other, rest⟩ := parsed
      simp only [Except.ok.injEq, Decoded.tcp.injEq, Prod.mk.injEq]
      constructor
      · rintro ⟨rfl, rfl, rfl⟩
        exact ⟨isTcp, rfl, rfl, rfl⟩
      · rintro ⟨-, rfl, rfl, rfl⟩
        exact ⟨rfl, rfl, rfl⟩
  next notTcp =>
    constructor
    · intro same
      split at same
      · cases parsed : parseUdp segment <;> rw [parsed] at same <;> cases same
      · cases same
    · rintro ⟨isTcp, -⟩
      exact absurd isTcp notTcp

theorem decodeSegment_udp_iff {hdr : UdpHdr} :
    decodeSegment ip segment = .ok (.udp flow hdr payload) ↔ ip.proto = 17 ∧
      flow = ⟨ip.src, hdr.srcPort, ip.dst, hdr.dstPort⟩ ∧ parseUdp segment = .ok (hdr, payload) := by
  unfold decodeSegment
  simp only [bind, Except.bind, pure, Except.pure, throw, throwThe, MonadExceptOf.throw]
  split
  next isTcp =>
    constructor
    · intro same
      cases parsed : parseTcp segment <;> rw [parsed] at same <;> cases same
    · rintro ⟨isUdp, -⟩
      rw [isTcp] at isUdp
      exact absurd isUdp (by decide)
  next notTcp =>
    split
    next isUdp =>
      cases parseUdp segment with
      | error reject => simp
      | ok parsed =>
        obtain ⟨other, rest⟩ := parsed
        simp only [Except.ok.injEq, Decoded.udp.injEq, Prod.mk.injEq]
        constructor
        · rintro ⟨rfl, rfl, rfl⟩
          exact ⟨isUdp, rfl, rfl, rfl⟩
        · rintro ⟨-, rfl, rfl, rfl⟩
          exact ⟨rfl, rfl, rfl⟩
    next notUdp => simp [notUdp]

theorem designate_eq (parsed : parseIp packet = .ok ip) (read : ipLayout packet = some layout)
    (starts : layout.start = ip.hdrLen) :
    designate packet =
      if layout.offset = 0 then
        (decodeSegment ip ((packet.drop ip.hdrLen).take (layout.stop - layout.start))).toOption
      else none := by
  unfold designate designated
  rw [parsed, read]
  simp only [Except.toOption, Option.bind_eq_bind, Option.bind_some]
  split
  · rw [Option.bind_some, List.drop_take, starts]
  · rfl

end

/-- The engine's reading of a packet is that of its IP header exactly if the packet is whole. -/
theorem designate_iff {packet : List UInt8} {decoded : Decoded} (same : decode packet = .ok decoded) :
    designate packet = some decoded ↔ ∃ layout, ipLayout packet = some layout ∧ decoded.Whole packet layout := by
  rw [decode_eq] at same
  cases parsed : parseIp packet with
  | error reject =>
    rw [parsed] at same
    cases same
  | ok ip =>
    obtain ⟨inside, layout, read, starts⟩ := parseIp_layout parsed
    rw [parsed] at same
    replace same : decodeSegment ip (packet.drop ip.hdrLen) = .ok decoded := same
    have toOption : ∀ {result : Except Reject Decoded}, result.toOption = some decoded ↔ result = .ok decoded := by
      intro result
      cases result <;> simp [Except.toOption]
    have only : (∃ other, ipLayout packet = some other ∧ decoded.Whole packet other) ↔
        decoded.Whole packet layout := by simp [read]
    rw [designate_eq parsed read starts, only]
    by_cases first : layout.offset = 0
    · -- both readings decode the segment; they differ in where they let it end
      rw [if_pos first, toOption]
      cases decoded with
      | tcp flow hdr payload =>
        obtain ⟨proto, ports, taken⟩ := decodeSegment_tcp_iff.mp same
        rw [decodeSegment_tcp_iff, parseTcp_take_iff _ taken, List.length_drop]
        unfold Decoded.Whole
        obtain ⟨-, whole, room, -⟩ := parseTcp_ok_iff.mp taken
        rw [List.length_drop] at room
        constructor
        · rintro ⟨-, -, fits⟩
          exact ⟨first, by omega⟩
        · rintro ⟨-, fits⟩
          exact ⟨proto, ports, by omega⟩
      | udp flow hdr payload =>
        obtain ⟨proto, ports, taken⟩ := decodeSegment_udp_iff.mp same
        rw [decodeSegment_udp_iff, parseUdp_take_iff _ taken]
        unfold Decoded.Whole
        obtain ⟨-, whole, -, -⟩ := parseUdp_ok_iff.mp taken
        constructor
        · rintro ⟨-, -, fits⟩
          exact ⟨first, by omega⟩
        · rintro ⟨-, fits⟩
          exact ⟨proto, ports, by omega⟩
    · rw [if_neg first]
      constructor
      · intro read
        cases read
      · intro whole
        cases decoded <;> exact absurd whole.1 first

/-! ### What a step does with packets -/

def Gathered (packets : List Decoded) (data : List UInt8) : Prop :=
  ∃ (protocol : Protocol) (flow : Flow) (parts : List (List UInt8)),
    parts.Sublist ((packets.filter fun decoded =>
      decide (decoded.protocol = protocol ∧ decoded.flow = flow)).map Decoded.payload) ∧
    data = parts.flatten

def Effect.Comes (packets : List Decoded) : Effect → Prop
  | .send _ data _ | .hold _ data => Gathered packets data
  | .socket _ protocol => ∃ decoded ∈ packets, decoded.protocol = protocol
  | .connect _ peer port _ => ∃ decoded ∈ packets, decoded.flow.dst = peer ∧ decoded.flow.dstPort = port
  | _ => True

def decodings (inputs : List Input) : List Decoded := inputs.filterMap Input.decoded?

def Input.designated? : Input → Option Decoded
  | .tunReadable queued _ => designate (queued.take maxPacketSize)
  | .socketReady _ _ _ | .cleanup _ | .setRates _ _ => none

def designations (inputs : List Input) : List Decoded := inputs.filterMap Input.designated?

/-- A packet that the engine takes is neither a later fragment nor taken beyond its datagram. -/
def Input.Whole : Input → Prop
  | .tunReadable queued _ =>
    ∀ decoded ∈ (decode (queued.take maxPacketSize)).toOption,
      ∀ layout ∈ ipLayout (queued.take maxPacketSize), decoded.Whole (queued.take maxPacketSize) layout
  | .socketReady _ _ _ | .cleanup _ | .setRates _ _ => True

instance : (input : Input) → Decidable input.Whole
  | .tunReadable _ _ => inferInstanceAs (Decidable (∀ _ ∈ _, _))
  | .socketReady _ _ _ | .cleanup _ | .setRates _ _ => inferInstanceAs (Decidable True)

section
variable {packets more : List Decoded} {inputs : List Input} {input : Input}

theorem decodings_append (further : List Input) :
    decodings (inputs ++ further) = decodings inputs ++ decodings further := List.filterMap_append ..

theorem Gathered.mono {data : List UInt8} (gathered : Gathered packets data) (among : packets.Sublist more) :
    Gathered more data := by
  obtain ⟨protocol, flow, parts, chosen, same⟩ := gathered
  exact ⟨protocol, flow, parts, chosen.trans ((among.filter _).map _), same⟩

theorem Effect.Comes.mono {effect : Effect} (comes : effect.Comes packets) (among : packets.Sublist more) :
    effect.Comes more := by
  cases effect with
  | send fd data result => exact Gathered.mono comes among
  | hold fd data => exact Gathered.mono comes among
  | socket fd protocol =>
    obtain ⟨decoded, member, same⟩ := comes
    exact ⟨decoded, among.subset member, same⟩
  | connect fd peer port result =>
    obtain ⟨decoded, member, same⟩ := comes
    exact ⟨decoded, among.subset member, same⟩
  | _ => trivial

theorem Input.Whole.designated {decoded : Decoded} (whole : input.Whole)
    (same : input.decoded? = some decoded) : input.designated? = some decoded := by
  cases input with
  | tunReadable queued replies =>
    simp only [Input.decoded?] at same
    cases read : decode (queued.take maxPacketSize) with
    | error reject =>
      rw [read] at same
      cases same
    | ok other =>
      rw [read] at same
      obtain rfl : other = decoded := Option.some.inj same
      have agrees := designate_iff read
      have parsed := read
      rw [decode_eq] at parsed
      cases ipRead : parseIp (queued.take maxPacketSize) with
      | error reject =>
        rw [ipRead] at parsed
        cases parsed
      | ok ip =>
        obtain ⟨-, layout, placed, -⟩ := parseIp_layout ipRead
        refine agrees.mpr ⟨layout, placed, whole other ?_ layout placed⟩
        rw [read]
        rfl
  | socketReady fd events replies => cases same
  | cleanup now => cases same
  | setRates dlBps ulBps => cases same

theorem decodings_sublist (whole : ∀ given ∈ inputs, given.Whole) :
    (decodings inputs).Sublist (designations inputs) := by
  induction inputs with
  | nil => exact List.Sublist.refl _
  | cons input rest ih =>
    rw [List.forall_mem_cons] at whole
    have tail := ih whole.2
    unfold decodings designations at *
    cases same : input.decoded? with
    | none =>
      rw [List.filterMap_cons_none same]
      cases other : input.designated? with
      | none => rwa [List.filterMap_cons_none other]
      | some decoded =>
        rw [List.filterMap_cons_some other]
        exact tail.cons _
    | some decoded =>
      rw [List.filterMap_cons_some same, List.filterMap_cons_some (whole.1.designated same)]
      exact tail.cons_cons _

end

def Brings (packets : List Decoded) (protocol : Protocol) (flow : Flow) : Prop :=
  ∃ decoded ∈ packets, decoded.protocol = protocol ∧ decoded.flow = flow

structure Engine.Founded (packets : List Decoded) (engine : Engine) : Prop where
  tcp : ∀ session, engine.tcpTable.Linked session → Brings packets .tcp session.flow
  udp : ∀ session, engine.udpTable.Linked session → Brings packets .udp session.flow

theorem Brings.mono {packets more : List Decoded} {protocol : Protocol} {flow : Flow}
    (brings : Brings packets protocol flow) (among : packets.Sublist more) : Brings more protocol flow := by
  obtain ⟨decoded, member, same⟩ := brings
  exact ⟨decoded, among.subset member, same⟩

theorem Engine.Founded.mono {engine : Engine} {packets more : List Decoded} (founded : engine.Founded packets)
    (among : packets.Sublist more) : engine.Founded more where
  tcp := fun session linked => (founded.tcp session linked).mono among
  udp := fun session linked => (founded.udp session linked).mono among

theorem decodings_later (past : List Input) (input : Input) :
    (decodings past).Sublist (decodings (past ++ [input])) := by
  rw [decodings_append]
  exact List.sublist_append_left ..

theorem decodings_arrived {queued : List UInt8} {replies : TunReplies} {decoded : Decoded}
    (same : decode (queued.take maxPacketSize) = .ok decoded) (past : List Input) :
    decoded ∈ decodings (past ++ [.tunReadable queued replies]) := by
  rw [decodings_append]
  simp [decodings, Input.decoded?, same, Except.toOption]

namespace Engine

structure Fed (past : List Input) (engine : Engine) : Prop where
  standing : engine.Standing
  sourced : ∀ session, engine.tcpTable.Linked session → session.Sourced past
  founded : engine.Founded (decodings past)

theorem fed_start (tunFd : Nat) (mtu ulStart dlStart : Int) : Fed [] (start tunFd mtu ulStart dlStart) where
  standing := standing_start tunFd mtu ulStart dlStart
  sourced := fun session ⟨_, member⟩ => by cases member
  founded := {
    tcp := fun session ⟨_, member⟩ => by cases member
    udp := fun session ⟨_, member⟩ => by cases member }

theorem Founded.next {past : List Input} {engine : Engine} (founded : engine.Founded (decodings past))
    (tables : engine.Tables) (input : Input) : (engine.next input).Founded (decodings (past ++ [input])) where
  tcp := by
    refine (step_spec engine input).tcp_sessions tables founded.tcp
      (fun _ brings => brings.mono (decodings_later past input)) ?_ ?_
    · rintro queued replies flow hdr payload rfl decoded fd
      exact ⟨_, decodings_arrived decoded past, rfl, rfl⟩
    · intro session event linked reaches stays brings
      have same := session.handle_identity engine.mtu event
      simp only [TcpSession.identity, Prod.mk.injEq] at same
      rw [same.2.1]
      exact brings.mono (decodings_later past input)
  udp := by
    refine (step_spec engine input).udp_flows tables
      (fun session linked => (founded.udp session linked).mono (decodings_later past input)) ?_
    rintro queued replies flow hdr payload rfl decoded
    exact ⟨_, decodings_arrived decoded past, rfl, rfl⟩

theorem Fed.next {past : List Input} {engine : Engine} (fed : Fed past engine) (input : Input) :
    Fed (past ++ [input]) (engine.next input) where
  standing := fed.standing.next input
  sourced := by
    refine (step_spec engine input).tcp_sessions fed.standing.tables fed.sourced
      (fun _ sourced => sourced.later input) ?_ ?_
    · intro queued replies flow hdr payload same decoded fd
      exact ⟨⟨rfl, rfl⟩, fromFlow_nil⟩
    · intro session event linked reaches stays sourced
      exact sourced.handle (fed.standing.live session linked) _ reaches stays
  founded := fed.founded.next fed.standing.tables input

theorem fed_run (tunFd : Nat) (mtu ulStart dlStart : Int) (inputs : List Input) :
    Fed inputs (inputs.foldl next (start tunFd mtu ulStart dlStart)) := by
  have all : Admits next (fun _ _ => True) (start tunFd mtu ulStart dlStart) inputs :=
    admits_of_forall fun _ _ _ => trivial
  exact all.history_invariant Fed (fun _ _ input fed _ => fed.next input)
    (fed_start tunFd mtu ulStart dlStart)

end Engine

/-! ### Where the effects of a step come from -/

def Effect.Plain : Effect → Prop
  | .send _ _ _ | .hold _ _ | .socket _ _ | .connect _ _ _ _ => False
  | _ => True

theorem Effect.Plain.comes {effect : Effect} (plain : effect.Plain) (packets : List Decoded) :
    effect.Comes packets := by
  cases effect <;> trivial

theorem Effect.Idle.plain {effect : Effect} (idle : effect.Idle) : effect.Plain := by
  cases effect <;> trivial

theorem SessionEvent.call_plain (event : SessionEvent) (fd : Nat) : ∀ effect ∈ event.call fd, effect.Plain :=
  event.forall_call (fun _ _ => trivial) fd

theorem Handled.closing_plain (handled : Handled) : ∀ effect ∈ handled.closing, effect.Plain :=
  handled.forall_closing (fun _ => trivial) fun _ => trivial

theorem TunReplies.opening_comes (replies : TunReplies) {packets : List Decoded} {decoded : Decoded}
    (arrived : decoded ∈ packets) (interest : EpollEvents) :
    ∀ effect ∈ replies.opening decoded.protocol decoded.flow interest, effect.Comes packets :=
  replies.forall_opening (fun _ => trivial) (fun _ => ⟨decoded, arrived, rfl⟩) (fun _ => ⟨decoded, arrived, rfl, rfl⟩)
    fun _ => trivial

theorem TcpSession.handle_holds {session : TcpSession} (live : session.Live) (mtu : Int)
    (event : SessionEvent) {fd : Nat} {data : List UInt8}
    (held : .hold fd data ∈ (session.handle mtu event).effects) :
    ∃ hdr replies, event = .segment hdr data replies := by
  cases event with
  | segment hdr payload replies =>
    obtain rfl : data = payload := segmentArrives_hands payload live mtu replies hdr _ held
    exact ⟨hdr, replies, rfl⟩
  | writable soError result =>
    simp only [handle] at held
    split at held
    · rcases session.connectCompletes_cases mtu soError result with
        ⟨-, -, out⟩ | ⟨-, out⟩ | ⟨-, out⟩ <;> rw [out] at held <;> simp at held
    · cases held
  | received data time => simp [handle, received] at held
  | remoteClosed => simp [handle, remoteClosed] at held
  | recvFailed => simp [handle, recvFailed] at held

theorem Engine.Fed.comes {past : List Input} {engine : Engine} (fed : engine.Fed past) (input : Input) :
    ∀ effect ∈ (engine.step input).2, effect.Comes (decodings (past ++ [input])) := by
  intro effect member
  have spec := step_spec engine input
  generalize (engine.step input).2 = effects at *
  generalize engine.next input = next at *
  -- the payload that a packet has just brought
  have brought : ∀ {queued replies} {decoded : Decoded}, input = .tunReadable queued replies →
      decode (queued.take maxPacketSize) = .ok decoded →
      Gathered (decodings (past ++ [input])) decoded.payload := by
    rintro queued replies decoded rfl same
    exact ⟨decoded.protocol, decoded.flow, fromFlow_arrived same replies⟩
  have plain : ∀ {effects : List Effect}, (∀ effect ∈ effects, effect.Plain) → effect ∈ effects →
      effect.Comes (decodings (past ++ [input])) := fun all member => (all effect member).comes _
  cases spec with
  | @handled _ session event pause linked reaches pauses tcp udp addr lines =>
    have live := fed.standing.live session linked
    rw [lines] at member
    rcases List.mem_append.mp member with member | member
    · rcases List.mem_append.mp member with member | member
      · exact plain (event.call_plain _) member
      · exact plain (fun effect member => (pauses effect member).plain) member
    · rcases List.mem_append.mp member with member | member
      · cases effect with
        | send fd data result =>
          rcases TcpSession.handle_sends live engine.mtu event member with rfl | ⟨hdr, replies, rfl⟩
          · exact ⟨.tcp, session.flow, ((fed.sourced session linked).later input).pending⟩
          · cases reaches with
            | segment decoded known => exact brought rfl decoded
        | hold fd data =>
          obtain ⟨hdr, replies, rfl⟩ := TcpSession.handle_holds live engine.mtu event member
          cases reaches with
          | segment decoded known => exact brought rfl decoded
        | socket fd protocol => exact (session.handle_on engine.mtu event _ member).elim
        | connect fd peer port result => exact (session.handle_on engine.mtu event _ member).elim
        | _ => trivial
      · exact plain (Handled.closing_plain _) member
  | @opened queued replies flow hdr payload pause decoded opens pauses tcp udp addr lines =>
    rw [lines] at member
    rcases List.mem_append.mp member with member | member
    · exact plain (fun effect member => (pauses effect member).plain) member
    · rw [openTcp_effects] at member
      rcases List.mem_append.mp member with member | member
      · cases found : engine.tcpFind flow with
        | some old =>
          simp only [found, Option.elim, List.mem_cons, List.not_mem_nil, or_false] at member
          rcases member with rfl | rfl <;> trivial
        | none => simp [found] at member
      · exact replies.opening_comes (decodings_arrived decoded past) _ effect member
  | @relayed queued replies session hdr payload pause decoded linked pauses tcp udp addr lines =>
    rw [lines] at member
    rcases List.mem_append.mp member with member | member
    · exact plain (fun effect member => (pauses effect member).plain) member
    · obtain rfl := List.mem_singleton.mp member
      exact brought rfl decoded
  | @associated queued replies flow hdr payload fd pause decoded unknown opens pauses tcp udp addr lines =>
    rw [lines] at member
    rcases List.mem_append.mp member with member | member
    · rcases List.mem_append.mp member with member | member
      · exact plain (fun effect member => (pauses effect member).plain) member
      · exact replies.opening_comes (decodings_arrived decoded past) _ effect member
    · obtain rfl := List.mem_singleton.mp member
      exact brought rfl decoded
  | @refused queued replies flow hdr payload pause decoded opens pauses tcp udp addr lines =>
    rw [lines] at member
    rcases List.mem_append.mp member with member | member
    · exact plain (fun effect member => (pauses effect member).plain) member
    · exact replies.opening_comes (decodings_arrived decoded past) _ effect member
  | delivered data pause linked pauses tcp udp addr lines =>
    rw [lines] at member
    rcases List.mem_append.mp member with member | member
    · rcases List.mem_cons.mp member with rfl | member
      · trivial
      · exact plain (fun effect member => (pauses effect member).plain) member
    · obtain rfl := List.mem_singleton.mp member
      trivial
  | @swept now tcp udp addr lines =>
    rw [lines] at member
    simp only [cleanup, List.mem_append, List.mem_flatMap, List.mem_cons, List.not_mem_nil, or_false] at member
    rcases member with ⟨session, -, rfl | rfl⟩ | ⟨session, -, rfl | rfl⟩ <;> trivial
  | idle tcp udp addr quiet ignored =>
    rcases quiet effect member with idle | ⟨session, -, rfl⟩
    · exact idle.plain.comes _
    · trivial

/-! ### Only what the IP header designates is relayed -/

/-- The bytes that a step hands to a socket or keeps for one, the sockets it opens and
the sessions there are after it come from transport headers and payloads that IP
headers designate. -/
def RelaysDesignated (start : Engine) (past : List Input) (input : Input) : Prop :=
  let engine := past.foldl Engine.next start
  (∀ effect ∈ (engine.step input).2, effect.Comes (designations (past ++ [input]))) ∧
    (engine.next input).Founded (designations (past ++ [input]))

/-- In every run in which the packets that the engine takes are whole, only what IP
headers designate is relayed. -/
theorem whole_packets_relayed (tunFd : Nat) (mtu ulStart dlStart : Int) (past : List Input) (input : Input)
    (whole : ∀ given ∈ past ++ [input], given.Whole) :
    RelaysDesignated (Engine.start tunFd mtu ulStart dlStart) past input := by
  have fed := Engine.fed_run tunFd mtu ulStart dlStart past
  have among := decodings_sublist whole
  refine ⟨fun effect member => (fed.comes input effect member).mono among, ?_⟩
  exact (fed.founded.next fed.standing.tables input).mono among

theorem whole_packets_relayed_sample :
    RelaysDesignated (Engine.start 3 1500 0 0)
      [.tunReadable sampleSyn (.smooth 7 0), .socketReady 7 ⟨false, true⟩ (.smooth [])]
      (.tunReadable System.sampleData (.smooth 8 0)) :=
  whole_packets_relayed 3 1500 0 0
    [.tunReadable sampleSyn (.smooth 7 0), .socketReady 7 ⟨false, true⟩ (.smooth [])]
    (.tunReadable System.sampleData (.smooth 8 0)) (by decide +kernel)

/-- The second fragment of a datagram: what lies behind its IP header are bytes of the
datagram's payload, which look like a UDP header here. -/
def sampleFragment : List UInt8 :=
  Packet.bytes
    { ip := .v4
        { verIhl := 0x45, tos := 0, totalLen := htons 31, ident := 7, flagsFrag := htons 185, ttl := 64
          protocol := 17, hdrCsum := 0, srcAddr := 0x0200000A, dstAddr := 0x01010101 }
      transport := .udp { srcPort := htons 40000, dstPort := htons 53, length := htons 11, csum := 0 }
      payload := [1, 2, 3] }

/-- It has no transport header, and yet a socket is opened for the ports read from it. -/
theorem later_fragment_opens_session :
    ¬∀ (tunFd : Nat) (mtu ulStart dlStart : Int) (past : List Input) (input : Input),
      RelaysDesignated (Engine.start tunFd mtu ulStart dlStart) past input := by
  intro relays
  have none : designations [.tunReadable sampleFragment (.smooth 7 0)] = [] := by decide +kernel
  obtain ⟨decoded, member, -⟩ :=
    (relays 3 1500 0 0 [] (.tunReadable sampleFragment (.smooth 7 0))).1 (.socket 7 .udp) (by decide +kernel)
  rw [List.nil_append, none] at member
  cases member

/-- A byte behind the total length of a TCP packet is handed on as well. -/
example : .send 7 [1, 2, 3, 9] (.accepted maxPacketSize) ∈
    (([.tunReadable sampleSyn (.smooth 7 0), .socketReady 7 ⟨false, true⟩ (.smooth [])].foldl
      Engine.next (Engine.start 3 1500 0 0)).step (.tunReadable (System.sampleData ++ [9]) (.smooth 8 0))).2 := by
  decide +kernel

end ThrottleVpn.Tun2Socks
