import ThrottleVpn.Foundation.Tiling
import ThrottleVpn.Tun2Socks.State

/-! Packets written back to the device.

The IPv4 and the IPv6 writer are the same loop over two packet builders. Results
of the `write` calls are ignored by the source, so a writer returns the packets it
passes to `write` whether or not they get through.
-/

set_option autoImplicit false

namespace ThrottleVpn.Tun2Socks

open Foundation

def TcpSession.header (session : TcpSession) (flags : UInt8) : TcpHdr where
  srcPort := session.flow.dstPort
  dstPort := session.flow.srcPort
  seq := htonl session.ourSeq
  ack := htonl session.clientSeq
  offRsvd := 0x50
  flags := flags
  window := htons 65535
  csum := 0
  urgPtr := 0

def TcpSession.packetV4 (session : TcpSession) (flags : UInt8) (chunk : List UInt8) : Packet :=
  let src := session.flow.dst.word0
  let dst := session.flow.src.word0
  let ip : Ipv4Hdr :=
    { verIhl := 0x45, tos := 0, totalLen := htons (UInt16.ofNat (20 + 20 + chunk.length))
      ident := htons session.ourSeq.toUInt16, flagsFrag := htons 0x4000, ttl := 64, protocol := 6
      hdrCsum := 0, srcAddr := src, dstAddr := dst }
  let tcp := session.header flags
  { ip := .v4 { ip with hdrCsum := checksumCompute ip.bytes }
    transport := .tcp { tcp with csum := tcpUdpCsumV4 src dst 6 (tcp.bytes ++ chunk) }
    payload := chunk }

def TcpSession.packetV6 (session : TcpSession) (flags : UInt8) (chunk : List UInt8) : Packet :=
  let src := session.flow.dst
  let dst := session.flow.src
  let tcp := session.header flags
  { ip := .v6
      { verTcFlow := htonl 0x60000000, payloadLen := htons (UInt16.ofNat (20 + chunk.length))
        nextHdr := 6, hopLimit := 64, srcAddr := src, dstAddr := dst }
    transport := .tcp { tcp with csum := tcpUdpCsumV6 src dst 6 (tcp.bytes ++ chunk) }
    payload := chunk }

def segmentSize (mtu : Int) (headers fallback : Nat) : Nat :=
  if mtu - headers ≤ 0 then fallback else (mtu - headers).toNat

def advanceSeq (seq : UInt32) (first last : Bool) (flags : UInt8) (chunkLen : Nat) : UInt32 :=
  let seq := if first && hasFlag flags tfSyn then seq + 1 else seq
  let seq := seq + UInt32.ofNat chunkLen
  if last && hasFlag flags tfFin then seq + 1 else seq

/-- The do-while loop of both writers. Every pass but the last moves the offset,
so `payload.length + 1` passes are enough; see `segmentLoop_sends`. -/
def segmentLoop (headers mss : Nat) (build : TcpSession → UInt8 → List UInt8 → Packet)
    (flags : UInt8) (payload : List UInt8) : Nat → Nat → TcpSession → TcpSession × List Packet
  | 0, _, session => (session, [])
  | fuel + 1, offset, session =>
    let chunk := (payload.drop offset).take mss
    if maxPacketSize < headers + chunk.length then (session, [])
    else
      let more := offset + chunk.length < payload.length
      let chunkFlags := if more then flags &&& ~~~(tfPsh ||| tfFin) else flags
      let seq := advanceSeq session.ourSeq (offset == 0) (offset + chunk.length == payload.length)
        chunkFlags chunk.length
      let packet := build session chunkFlags chunk
      if more then
        let rest := segmentLoop headers mss build flags payload fuel (offset + chunk.length)
          { session with ourSeq := seq }
        (rest.1, packet :: rest.2)
      else ({ session with ourSeq := seq }, [packet])

def writeTcpV4 (mtu : Int) (session : TcpSession) (flags : UInt8) (payload : List UInt8) :
    TcpSession × List Packet :=
  segmentLoop 40 (segmentSize mtu 40 1460) TcpSession.packetV4 flags payload (payload.length + 1) 0
    session

def writeTcpV6 (mtu : Int) (session : TcpSession) (flags : UInt8) (payload : List UInt8) :
    TcpSession × List Packet :=
  segmentLoop 60 (segmentSize mtu 60 1440) TcpSession.packetV6 flags payload (payload.length + 1) 0
    session

def writeTcp (mtu : Int) (session : TcpSession) (flags : UInt8) (payload : List UInt8) :
    TcpSession × List Packet :=
  match session.flow.src with
  | .v4 _ => writeTcpV4 mtu session flags payload
  | .v6 _ => writeTcpV6 mtu session flags payload

def UdpSession.header (session : UdpSession) (payload : List UInt8) : UdpHdr where
  srcPort := session.flow.dstPort
  dstPort := session.flow.srcPort
  length := htons (UInt16.ofNat (8 + payload.length))
  csum := 0

/-- A UDP checksum of zero means none, so zero is sent as all ones. -/
def udpCsum (csum : UInt16) : UInt16 := if csum = 0 then 0xFFFF else csum

def writeUdpV4 (session : UdpSession) (payload : List UInt8) : List Packet :=
  if maxPacketSize < 20 + 8 + payload.length then []
  else
    let src := session.flow.dst.word0
    let dst := session.flow.src.word0
    let ip : Ipv4Hdr :=
      { verIhl := 0x45, tos := 0, totalLen := htons (UInt16.ofNat (20 + 8 + payload.length))
        ident := 0, flagsFrag := htons 0x4000, ttl := 64, protocol := 17, hdrCsum := 0
        srcAddr := src, dstAddr := dst }
    let udp := session.header payload
    [{ ip := .v4 { ip with hdrCsum := checksumCompute ip.bytes }
       transport := .udp { udp with csum := udpCsum (tcpUdpCsumV4 src dst 17 (udp.bytes ++ payload)) }
       payload := payload }]

def writeUdpV6 (session : UdpSession) (payload : List UInt8) : List Packet :=
  if maxPacketSize < 40 + 8 + payload.length then []
  else
    let src := session.flow.dst
    let dst := session.flow.src
    let udp := session.header payload
    [{ ip := .v6
         { verTcFlow := htonl 0x60000000, payloadLen := htons (UInt16.ofNat (8 + payload.length))
           nextHdr := 17, hopLimit := 64, srcAddr := src, dstAddr := dst }
       transport := .udp { udp with csum := udpCsum (tcpUdpCsumV6 src dst 17 (udp.bytes ++ payload)) }
       payload := payload }]

def writeUdp (session : UdpSession) (payload : List UInt8) : List Packet :=
  match session.flow.src with
  | .v4 _ => writeUdpV4 session payload
  | .v6 _ => writeUdpV6 session payload

def Flow.udpHeaders (flow : Flow) : Nat :=
  match flow.src with
  | .v4 _ => 28
  | .v6 _ => 48

/-- `write_udp` either refuses a payload that does not fit the buffer or writes
one packet with the whole payload. -/
theorem writeUdp_cases (session : UdpSession) (payload : List UInt8) :
    if maxPacketSize < session.flow.udpHeaders + payload.length then writeUdp session payload = []
    else ∃ ip hdr, writeUdp session payload = [⟨ip, .udp hdr, payload⟩] := by
  unfold Flow.udpHeaders writeUdp
  cases session.flow.src with
  | v4 addr =>
    dsimp only
    unfold writeUdpV4
    split
    · rfl
    · exact ⟨_, _, rfl⟩
  | v6 addr =>
    dsimp only
    unfold writeUdpV6
    split
    · rfl
    · exact ⟨_, _, rfl⟩

/-! ### What a written packet says -/

def Packet.seq (packet : Packet) : UInt32 :=
  match packet.transport with
  | .tcp hdr => ntohl hdr.seq
  | .udp _ => 0

def Packet.ack (packet : Packet) : UInt32 :=
  match packet.transport with
  | .tcp hdr => ntohl hdr.ack
  | .udp _ => 0

def Packet.tcpFlags (packet : Packet) : UInt8 :=
  match packet.transport with
  | .tcp hdr => hdr.flags
  | .udp _ => 0

/-- What the segmentation loop relies on in a packet builder. -/
structure Builds (headers : Nat) (build : TcpSession → UInt8 → List UInt8 → Packet) : Prop where
  seq : ∀ session flags chunk, (build session flags chunk).seq = session.ourSeq
  ack : ∀ session flags chunk, (build session flags chunk).ack = session.clientSeq
  tcpFlags : ∀ session flags chunk, (build session flags chunk).tcpFlags = flags
  payload : ∀ session flags chunk, (build session flags chunk).payload = chunk
  size : ∀ session flags chunk, (build session flags chunk).bytes.length = headers + chunk.length

theorem builds_packetV4 : Builds 40 TcpSession.packetV4 where
  seq session _ _ := ntohl_htonl session.ourSeq
  ack session _ _ := ntohl_htonl session.clientSeq
  tcpFlags _ _ _ := rfl
  payload _ _ _ := rfl
  size _ _ chunk := by
    simp only [Packet.bytes, TcpSession.packetV4, IpHdr.bytes, TransportHdr.bytes, List.length_append,
      length_ipv4, length_tcp]

theorem builds_packetV6 : Builds 60 TcpSession.packetV6 where
  seq session _ _ := ntohl_htonl session.ourSeq
  ack session _ _ := ntohl_htonl session.clientSeq
  tcpFlags _ _ _ := rfl
  payload _ _ _ := rfl
  size _ _ chunk := by
    simp only [Packet.bytes, TcpSession.packetV6, IpHdr.bytes, TransportHdr.bytes, List.length_append,
      length_ipv6, length_tcp]

theorem hasFlag_clear (flags mask keep : UInt8) (kept : ~~~mask &&& keep = keep) :
    hasFlag (flags &&& ~~~mask) keep = hasFlag flags keep := by
  unfold hasFlag
  rw [UInt8.and_assoc, kept]

theorem hasFlag_cleared (flags mask cleared : UInt8) (gone : ~~~mask &&& cleared = 0) :
    hasFlag (flags &&& ~~~mask) cleared = false := by
  unfold hasFlag
  rw [UInt8.and_assoc, gone]
  simp

def advance32 (start : UInt32) (count : Nat) : UInt32 := start + UInt32.ofNat count

theorem advance32_zero (start : UInt32) : advance32 start 0 = start := by simp [advance32]

theorem advance32_add (start : UInt32) (m n : Nat) :
    advance32 (advance32 start m) n = advance32 start (m + n) := by
  simp only [advance32, UInt32.ofNat_add, UInt32.add_assoc]

theorem advanceSeq_advance32 (start : UInt32) (flags : UInt8) (m n : Nat) :
    advanceSeq (advance32 start m) false true flags n = advanceSeq start false true flags (m + n) := by
  simp only [advanceSeq, Bool.false_and, Bool.true_and, Bool.false_eq_true, if_false]
  rw [← advance32, advance32_add, advance32]

def pieces (packets : List Packet) : List (UInt32 × List UInt8) :=
  packets.map fun packet => (packet.seq, packet.payload)

section
variable {headers : Nat} (mss : Nat) {build : TcpSession → UInt8 → List UInt8 → Packet}

/-- One segment of a write: the session at some `our_seq`, the flags with or without
PSH and FIN, and a chunk that fits the packet buffer. -/
structure Segment (headers : Nat) (build : TcpSession → UInt8 → List UInt8 → Packet) (flags : UInt8)
    (session : TcpSession) (packet : Packet) : Prop where
  built : ∃ seq chunkFlags chunk, packet = build { session with ourSeq := seq } chunkFlags chunk ∧
    (chunkFlags = flags ∨ chunkFlags = flags &&& ~~~(tfPsh ||| tfFin)) ∧
    headers + chunk.length ≤ maxPacketSize

theorem segmentLoop_frame (flags : UInt8) (payload : List UInt8) (fuel offset : Nat)
    (session : TcpSession) :
    (∃ seq, (segmentLoop headers mss build flags payload fuel offset session).1 =
      { session with ourSeq := seq }) ∧
    ∀ packet ∈ (segmentLoop headers mss build flags payload fuel offset session).2,
      Segment headers build flags session packet := by
  induction fuel generalizing offset session with
  | zero => exact ⟨⟨session.ourSeq, rfl⟩, by simp [segmentLoop]⟩
  | succ fuel ih =>
    simp only [segmentLoop]
    by_cases large : maxPacketSize < headers + ((payload.drop offset).take mss).length
    · simp only [if_pos large]
      exact ⟨⟨session.ourSeq, rfl⟩, by simp⟩
    · simp only [if_neg large]
      by_cases more : offset + ((payload.drop offset).take mss).length < payload.length
      · simp only [if_pos more]
        obtain ⟨⟨seq, same⟩, segments⟩ := ih (offset + ((payload.drop offset).take mss).length)
          { session with
            ourSeq := advanceSeq session.ourSeq (offset == 0)
              (offset + ((payload.drop offset).take mss).length == payload.length)
              (flags &&& ~~~(tfPsh ||| tfFin)) ((payload.drop offset).take mss).length }
        refine ⟨⟨seq, same⟩, fun packet member => ?_⟩
        rcases List.mem_cons.mp member with rfl | member
        · exact ⟨session.ourSeq, _, _, rfl, .inr rfl, Nat.not_lt.mp large⟩
        · exact ⟨(segments packet member).built⟩
      · simp only [if_neg more]
        refine ⟨⟨_, rfl⟩, fun packet member => ?_⟩
        obtain rfl := List.mem_singleton.mp member
        exact ⟨session.ourSeq, _, _, rfl, .inl rfl, Nat.not_lt.mp large⟩

variable (builds : Builds headers build)
include builds

theorem Segment.fields {flags : UInt8} {session : TcpSession} {packet : Packet}
    (segment : Segment headers build flags session packet) :
    packet.ack = session.clientSeq ∧ hasFlag packet.tcpFlags tfSyn = hasFlag flags tfSyn ∧
      (hasFlag flags tfFin = false → hasFlag packet.tcpFlags tfFin = false) := by
  obtain ⟨seq, chunkFlags, chunk, rfl, cases, -⟩ := segment.built
  rw [builds.ack, builds.tcpFlags]
  rcases cases with rfl | rfl
  · exact ⟨rfl, rfl, id⟩
  · exact ⟨rfl, hasFlag_clear flags (tfPsh ||| tfFin) tfSyn (by decide),
      fun _ => hasFlag_cleared flags (tfPsh ||| tfFin) tfFin (by decide)⟩

/-- From any offset, the remaining bytes are sent in full: the segments tile them
from `our_seq` on (a SYN would take the first number), none is larger than the
headers and the segment size, and PSH and FIN are left to the last one. -/
theorem segmentLoop_sends (flags : UInt8) (payload : List UInt8) (noSyn : hasFlag flags tfSyn = false)
    (mssPos : 0 < mss) (fits : headers + mss ≤ maxPacketSize) (fuel offset : Nat)
    (session : TcpSession) (inside : offset ≤ payload.length) (enough : payload.length - offset < fuel) :
    let sent := segmentLoop headers mss build flags payload fuel offset session
    sent.1.ourSeq = advanceSeq session.ourSeq false true flags (payload.length - offset) ∧
    Tiles advance32 session.ourSeq (pieces sent.2) (payload.drop offset) ∧
    (∀ packet ∈ sent.2, packet.bytes.length ≤ headers + mss) ∧
    ∀ packet ∈ sent.2.dropLast,
      hasFlag packet.tcpFlags tfPsh = false ∧ hasFlag packet.tcpFlags tfFin = false := by
  induction fuel generalizing offset session with
  | zero => omega
  | succ fuel ih =>
    have chunkLen : ((payload.drop offset).take mss).length = min mss (payload.length - offset) := by
      simp
    have noBreak : ¬ maxPacketSize < headers + ((payload.drop offset).take mss).length := by omega
    have synKept := hasFlag_clear flags (tfPsh ||| tfFin) tfSyn (by decide)
    unfold segmentLoop
    simp only [if_neg noBreak]
    by_cases more : offset + ((payload.drop offset).take mss).length < payload.length
    · -- a full segment without PSH and FIN, then the rest
      simp only [if_pos more]
      have notLast : (offset + ((payload.drop offset).take mss).length == payload.length) = false := by
        simpa using Nat.ne_of_lt more
      have seqEq : advanceSeq session.ourSeq (offset == 0) false (flags &&& ~~~(tfPsh ||| tfFin))
          ((payload.drop offset).take mss).length =
          advance32 session.ourSeq ((payload.drop offset).take mss).length := by
        simp [advanceSeq, advance32, synKept, noSyn]
      rw [notLast, seqEq]
      obtain ⟨seqs, tiled, sizes, quiet⟩ := ih (offset + ((payload.drop offset).take mss).length)
        { session with
          ourSeq := advance32 session.ourSeq ((payload.drop offset).take mss).length }
        (by omega) (by omega)
      refine ⟨?_, ?_, ?_, ?_⟩
      · have rest : payload.length - offset = ((payload.drop offset).take mss).length +
            (payload.length - (offset + ((payload.drop offset).take mss).length)) := by omega
        rw [seqs, rest, advanceSeq_advance32]
      · simp only [pieces, List.map_cons, Tiles, builds.seq, builds.payload]
        refine ⟨trivial, List.take_prefix _ _, ?_⟩
        rw [List.drop_drop]
        exact tiled
      · intro packet member
        rcases List.mem_cons.mp member with rfl | member
        · rw [builds.size]
          omega
        · exact sizes packet member
      · intro packet member
        have nonempty : (segmentLoop headers mss build flags payload fuel
            (offset + ((payload.drop offset).take mss).length)
            { session with
              ourSeq := advance32 session.ourSeq ((payload.drop offset).take mss).length }).2 ≠ [] := by
          intro empty
          rw [empty] at tiled
          have := congrArg List.length (show payload.drop _ = [] from tiled)
          simp only [List.length_drop, List.length_nil] at this
          omega
        rw [List.dropLast_cons_of_ne_nil nonempty] at member
        rcases List.mem_cons.mp member with rfl | member
        · rw [builds.tcpFlags]
          exact ⟨hasFlag_cleared _ _ _ (by decide), hasFlag_cleared _ _ _ (by decide)⟩
        · exact quiet packet member
    · -- the last segment keeps the flags
      simp only [if_neg more]
      have isLast : (offset + ((payload.drop offset).take mss).length == payload.length) = true := by
        simp only [beq_iff_eq]
        omega
      have all : (payload.drop offset).take mss = payload.drop offset := by
        apply List.take_of_length_le
        rw [List.length_drop]
        omega
      rw [isLast]
      refine ⟨?_, ?_, ?_, by simp⟩
      · simp [advanceSeq, noSyn, all]
      · simp only [pieces, List.map_cons, List.map_nil, Tiles, builds.seq, builds.payload, all]
        exact ⟨trivial, List.prefix_rfl, List.drop_length⟩
      · intro packet member
        obtain rfl := List.mem_singleton.mp member
        rw [builds.size]
        omega

omit builds in
theorem segmentLoop_nil (flags : UInt8) (small : headers ≤ maxPacketSize) (fuel : Nat)
    (session : TcpSession) :
    segmentLoop headers mss build flags [] (fuel + 1) 0 session =
      ({ session with ourSeq := advanceSeq session.ourSeq true true flags 0 },
        [build session flags []]) := by
  simp [segmentLoop, Nat.not_lt.mpr small]

end

def Flow.headers (flow : Flow) : Nat :=
  match flow.src with
  | .v4 _ => 40
  | .v6 _ => 60

def Flow.mss (flow : Flow) (mtu : Int) : Nat :=
  match flow.src with
  | .v4 _ => segmentSize mtu 40 1460
  | .v6 _ => segmentSize mtu 60 1440

theorem segmentSize_pos (mtu : Int) (headers : Nat) {fallback : Nat} (pos : 0 < fallback) :
    0 < segmentSize mtu headers fallback := by
  unfold segmentSize
  split <;> omega

theorem Flow.mss_pos (flow : Flow) (mtu : Int) : 0 < flow.mss mtu := by
  unfold Flow.mss
  split
  · exact segmentSize_pos mtu 40 (by decide)
  · exact segmentSize_pos mtu 60 (by decide)

theorem Flow.headers_le (flow : Flow) : flow.headers ≤ maxPacketSize := by
  unfold Flow.headers
  split <;> decide

/-- The MTU leaves room for payload and fits the packet buffer. -/
def Flow.MtuFits (flow : Flow) (mtu : Int) : Prop := (flow.headers : Int) < mtu ∧ mtu ≤ 65535

instance (flow : Flow) (mtu : Int) : Decidable (flow.MtuFits mtu) :=
  inferInstanceAs (Decidable (_ ∧ _))

theorem writeTcp_cases (mtu : Int) (session : TcpSession) (flags : UInt8) (payload : List UInt8) :
    ∃ fallback build, Builds session.flow.headers build ∧
      writeTcp mtu session flags payload =
        segmentLoop session.flow.headers (segmentSize mtu session.flow.headers fallback) build flags
          payload (payload.length + 1) 0 session := by
  cases version : session.flow.src with
  | v4 addr =>
    refine ⟨1460, TcpSession.packetV4, ?_, ?_⟩ <;> simp only [Flow.headers, writeTcp, version]
    · exact builds_packetV4
    · rfl
  | v6 addr =>
    refine ⟨1440, TcpSession.packetV6, ?_, ?_⟩ <;> simp only [Flow.headers, writeTcp, version]
    · exact builds_packetV6
    · rfl

section
variable (mtu : Int) (session : TcpSession) (flags : UInt8)

theorem writeTcp_session (payload : List UInt8) :
    ∃ seq, (writeTcp mtu session flags payload).1 = { session with ourSeq := seq } := by
  obtain ⟨fallback, build, builds, same⟩ := writeTcp_cases mtu session flags payload
  rw [same]
  exact (segmentLoop_frame _ flags payload _ _ session).1

section
variable (payload : List UInt8)

@[simp] theorem writeTcp_addr : (writeTcp mtu session flags payload).1.addr = session.addr := by
  obtain ⟨seq, same⟩ := writeTcp_session mtu session flags payload
  rw [same]

@[simp] theorem writeTcp_flow : (writeTcp mtu session flags payload).1.flow = session.flow := by
  obtain ⟨seq, same⟩ := writeTcp_session mtu session flags payload
  rw [same]

@[simp] theorem writeTcp_sockFd : (writeTcp mtu session flags payload).1.sockFd = session.sockFd := by
  obtain ⟨seq, same⟩ := writeTcp_session mtu session flags payload
  rw [same]

@[simp] theorem writeTcp_state : (writeTcp mtu session flags payload).1.state = session.state := by
  obtain ⟨seq, same⟩ := writeTcp_session mtu session flags payload
  rw [same]

@[simp] theorem writeTcp_clientSeq :
    (writeTcp mtu session flags payload).1.clientSeq = session.clientSeq := by
  obtain ⟨seq, same⟩ := writeTcp_session mtu session flags payload
  rw [same]

@[simp] theorem writeTcp_pendingData :
    (writeTcp mtu session flags payload).1.pendingData = session.pendingData := by
  obtain ⟨seq, same⟩ := writeTcp_session mtu session flags payload
  rw [same]

@[simp] theorem writeTcp_pendingLen :
    (writeTcp mtu session flags payload).1.pendingLen = session.pendingLen := by
  obtain ⟨seq, same⟩ := writeTcp_session mtu session flags payload
  rw [same]

@[simp] theorem writeTcp_pendingCap :
    (writeTcp mtu session flags payload).1.pendingCap = session.pendingCap := by
  obtain ⟨seq, same⟩ := writeTcp_session mtu session flags payload
  rw [same]

end

theorem writeTcp_packets (payload : List UInt8) :
    ∀ packet ∈ (writeTcp mtu session flags payload).2, packet.ack = session.clientSeq ∧
      hasFlag packet.tcpFlags tfSyn = hasFlag flags tfSyn ∧
      (hasFlag flags tfFin = false → hasFlag packet.tcpFlags tfFin = false) := by
  obtain ⟨fallback, build, builds, same⟩ := writeTcp_cases mtu session flags payload
  rw [same]
  exact fun packet member => ((segmentLoop_frame _ flags payload _ _ session).2 packet member).fields builds

theorem writeTcp_nil :
    (writeTcp mtu session flags []).1 =
      { session with ourSeq := advanceSeq session.ourSeq true true flags 0 } ∧
    ∃ packet, (writeTcp mtu session flags []).2 = [packet] ∧ packet.seq = session.ourSeq ∧
      packet.ack = session.clientSeq ∧ packet.tcpFlags = flags ∧ packet.payload = [] ∧
      packet.bytes.length = session.flow.headers := by
  obtain ⟨fallback, build, builds, same⟩ := writeTcp_cases mtu session flags []
  rw [same, segmentLoop_nil _ flags session.flow.headers_le]
  exact ⟨rfl, _, rfl, builds.seq _ _ _, builds.ack _ _ _, builds.tcpFlags _ _ _, builds.payload _ _ _,
    builds.size _ _ _⟩

variable {mtu session flags}

theorem writeTcp_sends (room : session.flow.MtuFits mtu) (noSyn : hasFlag flags tfSyn = false)
    (payload : List UInt8) :
    let sent := writeTcp mtu session flags payload
    sent.1 = { session with
      ourSeq := advanceSeq session.ourSeq false true flags payload.length } ∧
    Tiles advance32 session.ourSeq (pieces sent.2) payload ∧
    (∀ packet ∈ sent.2, (packet.bytes.length : Int) ≤ mtu) ∧
    ∀ packet ∈ sent.2.dropLast,
      hasFlag packet.tcpFlags tfPsh = false ∧ hasFlag packet.tcpFlags tfFin = false := by
  obtain ⟨fallback, build, builds, same⟩ := writeTcp_cases mtu session flags payload
  obtain ⟨above, below⟩ := room
  have sizeEq : segmentSize mtu session.flow.headers fallback =
      (mtu - session.flow.headers).toNat := if_neg (by omega)
  obtain ⟨⟨seq, kept⟩, -⟩ := @segmentLoop_frame session.flow.headers
    (segmentSize mtu session.flow.headers fallback) build flags payload (payload.length + 1) 0 session
  obtain ⟨seqs, tiled, sizes, quiet⟩ := segmentLoop_sends (segmentSize mtu session.flow.headers fallback)
    builds flags payload noSyn (by omega)
    (by unfold maxPacketSize; omega) (payload.length + 1) 0 session (by omega) (by omega)
  rw [← same] at kept seqs tiled sizes quiet
  refine ⟨?_, tiled, fun packet member => ?_, quiet⟩
  · rw [kept] at seqs ⊢
    exact congrArg (fun seq => { session with ourSeq := seq }) seqs
  · have := sizes packet member
    omega

end

end ThrottleVpn.Tun2Socks
