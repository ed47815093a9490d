import ThrottleVpn.Tun2Socks.Parsing
import ThrottleVpn.Tun2Socks.Relay
import Mathlib.Tactic.IntervalCases

/-! The engine's own parser on the packets the engine writes.

Each load of the parser reads back the field that the writer stored at that
offset, so a written packet decodes to the flow of its session reversed, and to
the header values and the chunk of payload it was built from.
-/

set_option autoImplicit false

namespace ThrottleVpn.Tun2Socks

open Foundation

/-! ### Loads of stored fields -/

theorem load16_at (before : List UInt8) (x : UInt16) (after : List UInt8) :
    load16 (before ++ (le16 x ++ after)) before.length = some x := by
  have bound := x.toNat_lt
  have low : (before ++ (le16 x ++ after))[before.length]? = some (UInt8.ofNat x.toNat) := by
    simp [le16]
  have high : (before ++ (le16 x ++ after))[before.length + 1]? = some (UInt8.ofNat (x.toNat / 256)) := by
    simp [le16]
  simp only [load16, low, high, Option.bind_eq_bind, Option.bind_some, Option.pure_def, Option.some.injEq]
  apply UInt16.toNat_inj.mp
  rw [UInt16.toNat_ofNat', UInt8.toNat_ofNat', UInt8.toNat_ofNat']
  omega

theorem le32_halves (x : UInt32) :
    le32 x = le16 (UInt16.ofNat x.toNat) ++ le16 (UInt16.ofNat (x.toNat / 65536)) := by
  simp only [le32, le16, List.cons_append, List.nil_append, List.cons.injEq, and_true]
  refine ⟨?_, ?_, ?_, ?_⟩ <;>
    · apply UInt8.toNat_inj.mp
      simp only [UInt8.toNat_ofNat', UInt16.toNat_ofNat']
      omega

theorem load32_at (before : List UInt8) (x : UInt32) (after : List UInt8) :
    load32 (before ++ (le32 x ++ after)) before.length = some x := by
  have bound := x.toNat_lt
  have low := load16_at before (UInt16.ofNat x.toNat) (le16 (UInt16.ofNat (x.toNat / 65536)) ++ after)
  have high := load16_at (before ++ le16 (UInt16.ofNat x.toNat)) (UInt16.ofNat (x.toNat / 65536)) after
  rw [List.append_assoc, List.length_append, length_le16] at high
  simp only [load32, le32_halves, List.append_assoc, low, high, Option.bind_eq_bind, Option.bind_some,
    Option.pure_def, Option.some.injEq]
  apply UInt32.toNat_inj.mp
  rw [UInt32.toNat_ofNat', UInt16.toNat_ofNat', UInt16.toNat_ofNat']
  omega

theorem le32_bytes (a b c d : UInt8) :
    le32 (UInt32.ofNat (a.toNat + 256 * b.toNat + 65536 * c.toNat + 16777216 * d.toNat)) =
      [a, b, c, d] := by
  have boundA := a.toNat_lt
  have boundB := b.toNat_lt
  have boundC := c.toNat_lt
  have boundD := d.toNat_lt
  simp only [le32, List.cons.injEq, and_true]
  refine ⟨?_, ?_, ?_, ?_⟩ <;>
    · apply UInt8.toNat_inj.mp
      simp only [UInt8.toNat_ofNat', UInt32.toNat_ofNat']
      omega

theorem octets_v6 (addr : Vector UInt8 16) : (IpAddr.v6 addr).octets = addr.toList := by
  simp only [IpAddr.octets, IpAddr.word, le32_bytes]
  apply List.ext_getElem
  · simp
  · intro index bound _
    simp only [List.cons_append, List.nil_append, List.length_cons, List.length_nil] at bound
    rw [Vector.getElem_toList]
    interval_cases index <;> rfl

theorem load128_at (before : List UInt8) (addr : Vector UInt8 16) (after : List UInt8) :
    load128 (before ++ ((IpAddr.v6 addr).octets ++ after)) before.length = some addr := by
  have room : before.length + 16 ≤ (before ++ ((IpAddr.v6 addr).octets ++ after)).length := by
    rw [List.length_append, List.length_append, length_octets]
    omega
  unfold load128
  rw [if_pos room, octets_v6]
  apply congrArg some
  apply Vector.ext
  intro index bound
  rw [Vector.getElem_ofFn, List.getD_eq_getElem?_getD, List.getElem?_append_right (by omega),
    Nat.add_sub_cancel_left, List.getElem?_append_left (by simpa using bound)]
  simp [bound]

theorem TcpHdr.load_bytes (hdr : TcpHdr) (rest : List UInt8) : TcpHdr.load (hdr.bytes ++ rest) = some hdr := by
  have srcPort : load16 (hdr.bytes ++ rest) 0 = some hdr.srcPort := load16_at [] hdr.srcPort _
  have dstPort : load16 (hdr.bytes ++ rest) 2 = some hdr.dstPort :=
    load16_at (le16 hdr.srcPort) hdr.dstPort _
  have seq : load32 (hdr.bytes ++ rest) 4 = some hdr.seq :=
    load32_at (le16 hdr.srcPort ++ le16 hdr.dstPort) hdr.seq _
  have ack : load32 (hdr.bytes ++ rest) 8 = some hdr.ack :=
    load32_at (le16 hdr.srcPort ++ le16 hdr.dstPort ++ le32 hdr.seq) hdr.ack _
  have offRsvd : (hdr.bytes ++ rest)[12]? = some hdr.offRsvd := rfl
  have flags : (hdr.bytes ++ rest)[13]? = some hdr.flags := rfl
  have window : load16 (hdr.bytes ++ rest) 14 = some hdr.window :=
    load16_at (hdr.bytes.take 14) hdr.window _
  have csum : load16 (hdr.bytes ++ rest) 16 = some hdr.csum :=
    load16_at (hdr.bytes.take 16) hdr.csum _
  have urgPtr : load16 (hdr.bytes ++ rest) 18 = some hdr.urgPtr :=
    load16_at (hdr.bytes.take 18) hdr.urgPtr _
  simp only [TcpHdr.load, srcPort, dstPort, seq, ack, offRsvd, flags, window, csum, urgPtr,
    Option.bind_eq_bind, Option.bind_some, Option.pure_def]

theorem UdpHdr.load_bytes (hdr : UdpHdr) (rest : List UInt8) : UdpHdr.load (hdr.bytes ++ rest) = some hdr := by
  have srcPort : load16 (hdr.bytes ++ rest) 0 = some hdr.srcPort := load16_at [] hdr.srcPort _
  have dstPort : load16 (hdr.bytes ++ rest) 2 = some hdr.dstPort :=
    load16_at (le16 hdr.srcPort) hdr.dstPort _
  have length : load16 (hdr.bytes ++ rest) 4 = some hdr.length :=
    load16_at (hdr.bytes.take 4) hdr.length _
  have csum : load16 (hdr.bytes ++ rest) 6 = some hdr.csum :=
    load16_at (hdr.bytes.take 6) hdr.csum _
  simp only [UdpHdr.load, srcPort, dstPort, length, csum, Option.bind_eq_bind, Option.bind_some,
    Option.pure_def]

/-! ### The three parsers on stored headers -/

theorem parseIp_v4 (hdr : Ipv4Hdr) (rest : List UInt8) (plain : hdr.verIhl = 0x45) :
    parseIp (hdr.bytes ++ rest) = .ok ⟨.v4 hdr.srcAddr, .v4 hdr.dstAddr, hdr.protocol, 20⟩ := by
  have long : (hdr.bytes ++ rest).length = 20 + rest.length := by simp
  have first : (hdr.bytes ++ rest)[0]? = some 0x45 := congrArg some plain
  have src : load32 (hdr.bytes ++ rest) 12 = some hdr.srcAddr :=
    load32_at (hdr.bytes.take 12) hdr.srcAddr _
  have dst : load32 (hdr.bytes ++ rest) 16 = some hdr.dstAddr :=
    load32_at (hdr.bytes.take 16) hdr.dstAddr _
  have proto : (hdr.bytes ++ rest)[9]? = some hdr.protocol := rfl
  have notEmpty : ¬ 20 + rest.length = 0 := by omega
  have version : (0x45 : UInt8).toNat / 16 = 4 ∧ 20 ≤ 20 + rest.length := ⟨by decide, by omega⟩
  have inside : ¬ ((0x45 : UInt8).toNat % 16 * 4 < 20 ∨
      20 + rest.length < (0x45 : UInt8).toNat % 16 * 4) := by
    simp
  unfold parseIp
  simp only [first, src, dst, proto, long, access, if_neg notEmpty, bind, Except.bind, pure,
    Except.pure, if_pos version, if_neg inside]
  rfl

theorem parseIp_v6 (hdr : Ipv6Hdr) (rest : List UInt8) (plain : hdr.verTcFlow = htonl 0x60000000)
    {src dst : Vector UInt8 16} (srcV6 : hdr.srcAddr = .v6 src) (dstV6 : hdr.dstAddr = .v6 dst) :
    parseIp (hdr.bytes ++ rest) = .ok ⟨.v6 src, .v6 dst, hdr.nextHdr, 40⟩ := by
  have long : (hdr.bytes ++ rest).length = 40 + rest.length := by simp
  have first : (hdr.bytes ++ rest)[0]? = some 0x60 := by
    simp [Ipv6Hdr.bytes, plain, le32]
    decide
  have srcAddr : load128 (hdr.bytes ++ rest) 8 = some src := by
    simp only [Ipv6Hdr.bytes, srcV6, List.append_assoc]
    exact load128_at (le32 hdr.verTcFlow ++ le16 hdr.payloadLen ++ [hdr.nextHdr, hdr.hopLimit]) src _
  have dstAddr : load128 (hdr.bytes ++ rest) 24 = some dst := by
    simp only [Ipv6Hdr.bytes, srcV6, dstV6, List.append_assoc]
    exact load128_at (le32 hdr.verTcFlow ++ le16 hdr.payloadLen ++ [hdr.nextHdr, hdr.hopLimit] ++
      (IpAddr.v6 src).octets) dst _
  have proto : (hdr.bytes ++ rest)[6]? = some hdr.nextHdr := rfl
  have notEmpty : ¬ 40 + rest.length = 0 := by omega
  have notFour : ¬ ((0x60 : UInt8).toNat / 16 = 4 ∧ 20 ≤ 40 + rest.length) := by simp
  have version : (0x60 : UInt8).toNat / 16 = 6 ∧ 40 ≤ 40 + rest.length := ⟨by decide, by omega⟩
  unfold parseIp
  simp only [first, srcAddr, dstAddr, proto, long, access, if_neg notEmpty, bind, Except.bind, pure,
    Except.pure, if_neg notFour, if_pos version]

theorem parseTcp_bytes (hdr : TcpHdr) (payload : List UInt8) (plain : hdr.offRsvd = 0x50) :
    parseTcp (hdr.bytes ++ payload) = .ok (hdr, payload) := by
  have long : (hdr.bytes ++ payload).length = 20 + payload.length := by simp
  have notShort : ¬ 20 + payload.length < 20 := by omega
  have inside : ¬ ((0x50 : UInt8).toNat / 16 * 4 < 20 ∨
      20 + payload.length < (0x50 : UInt8).toNat / 16 * 4) := by simp
  unfold parseTcp
  simp only [TcpHdr.load_bytes, long, access, if_neg notShort, plain, bind, Except.bind, pure,
    Except.pure, if_neg inside]
  rfl

theorem parseUdp_bytes (hdr : UdpHdr) (payload : List UInt8)
    (whole : (ntohs hdr.length).toNat = 8 + payload.length) :
    parseUdp (hdr.bytes ++ payload) = .ok (hdr, payload) := by
  have long : (hdr.bytes ++ payload).length = 8 + payload.length := by simp
  have notShort : ¬ 8 + payload.length < 8 := by omega
  have payLen : ((8 + payload.length : Nat) : Int) - 8 = payload.length := by omega
  have inside : ¬ ((payload.length : Int) < 0 ∨ (payload.length : Int) < payload.length) := by omega
  have taken : ((hdr.bytes ++ payload).drop 8).take payload.length = payload :=
    List.take_of_length_le le_rfl
  unfold parseUdp
  simp only [UdpHdr.load_bytes, long, access, if_neg notShort, whole, payLen, bind, Except.bind, pure,
    Except.pure, if_neg inside, Int.toNat_natCast, taken]

def IpHdr.Plain : IpHdr → Prop
  | .v4 hdr => hdr.verIhl = 0x45
  | .v6 hdr => hdr.verTcFlow = htonl 0x60000000 ∧
      (∃ src, hdr.srcAddr = .v6 src) ∧ ∃ dst, hdr.dstAddr = .v6 dst

def IpHdr.taken : IpHdr → IpPacket
  | .v4 hdr => ⟨.v4 hdr.srcAddr, .v4 hdr.dstAddr, hdr.protocol, 20⟩
  | .v6 hdr => ⟨hdr.srcAddr, hdr.dstAddr, hdr.nextHdr, 40⟩

theorem parseIp_bytes {ip : IpHdr} (plain : ip.Plain) (rest : List UInt8) :
    parseIp (ip.bytes ++ rest) = .ok ip.taken := by
  cases ip with
  | v4 hdr => exact parseIp_v4 hdr rest plain
  | v6 hdr =>
    obtain ⟨version, ⟨src, srcV6⟩, dst, dstV6⟩ := plain
    have parsed := parseIp_v6 hdr rest version srcV6 dstV6
    rw [← srcV6, ← dstV6] at parsed
    exact parsed

theorem IpHdr.drop_bytes (ip : IpHdr) (rest : List UInt8) :
    (ip.bytes ++ rest).drop ip.taken.hdrLen = rest := by
  cases ip <;> rfl

/-- What the engine takes from a packet it reads: the flow, the transport header
and the payload behind it. -/
inductive Decoded where
  | tcp (flow : Flow) (hdr : TcpHdr) (payload : List UInt8)
  | udp (flow : Flow) (hdr : UdpHdr) (payload : List UInt8)
  deriving DecidableEq, Repr

namespace Decoded

def protocol : Decoded → Protocol
  | tcp _ _ _ => .tcp
  | udp _ _ _ => .udp

def flow : Decoded → Flow
  | tcp flow _ _ | udp flow _ _ => flow

def payload : Decoded → List UInt8
  | tcp _ _ payload | udp _ _ payload => payload

end Decoded

/-- The dispatch of `engine_loop` followed by the checks of the handler it calls. -/
def decode (packet : List UInt8) : Except Reject Decoded := do
  let ip ← parseIp packet
  let segment := packet.drop ip.hdrLen
  if ip.proto = 6 then
    let (hdr, payload) ← parseTcp segment
    return .tcp ⟨ip.src, hdr.srcPort, ip.dst, hdr.dstPort⟩ hdr payload
  else if ip.proto = 17 then
    let (hdr, payload) ← parseUdp segment
    return .udp ⟨ip.src, hdr.srcPort, ip.dst, hdr.dstPort⟩ hdr payload
  else throw .drop

theorem decode_tcp {ip : IpHdr} {hdr : TcpHdr} {payload : List UInt8} (plain : ip.Plain)
    (proto : ip.taken.proto = 6) (offset : hdr.offRsvd = 0x50) :
    decode (Packet.bytes ⟨ip, .tcp hdr, payload⟩) =
      .ok (.tcp ⟨ip.taken.src, hdr.srcPort, ip.taken.dst, hdr.dstPort⟩ hdr payload) := by
  unfold decode Packet.bytes
  rw [List.append_assoc, parseIp_bytes plain]
  simp only [bind, Except.bind, if_pos proto, IpHdr.drop_bytes, TransportHdr.bytes,
    parseTcp_bytes hdr payload offset]
  rfl

theorem decode_udp {ip : IpHdr} {hdr : UdpHdr} {payload : List UInt8} (plain : ip.Plain)
    (proto : ip.taken.proto = 17) (whole : (ntohs hdr.length).toNat = 8 + payload.length) :
    decode (Packet.bytes ⟨ip, .udp hdr, payload⟩) =
      .ok (.udp ⟨ip.taken.src, hdr.srcPort, ip.taken.dst, hdr.dstPort⟩ hdr payload) := by
  have notTcp : ¬ ip.taken.proto = 6 := by
    rw [proto]
    decide
  unfold decode Packet.bytes
  rw [List.append_assoc, parseIp_bytes plain]
  simp only [bind, Except.bind, if_neg notTcp, if_pos proto, IpHdr.drop_bytes, TransportHdr.bytes,
    parseUdp_bytes hdr payload whole]
  rfl

/-! ### Written packets -/

def Flow.reversed (flow : Flow) : Flow := ⟨flow.dst, flow.dstPort, flow.src, flow.srcPort⟩

/-- Both addresses come from one IP header. -/
def Flow.OneVersion (flow : Flow) : Prop :=
  (∃ src dst, flow.src = .v4 src ∧ flow.dst = .v4 dst) ∨
    ∃ src dst, flow.src = .v6 src ∧ flow.dst = .v6 dst

def IpHdr.packetLength : IpHdr → Nat
  | .v4 hdr => (ntohs hdr.totalLen).toNat
  | .v6 hdr => 40 + (ntohs hdr.payloadLen).toNat

/-- What a receiver reads out of a TCP segment. -/
structure Carries (packet : Packet) (flow : Flow) (seq ack : UInt32) (flags : UInt8)
    (chunk : List UInt8) : Prop where
  decoded : ∃ hdr, decode packet.bytes = .ok (.tcp flow hdr chunk) ∧
    ntohl hdr.seq = seq ∧ ntohl hdr.ack = ack ∧ hdr.flags = flags
  length : packet.ip.packetLength = packet.bytes.length

theorem Packet.carries {ip : IpHdr} {hdr : TcpHdr} {chunk : List UInt8} (plain : ip.Plain)
    (proto : ip.taken.proto = 6) (offset : hdr.offRsvd = 0x50)
    (length : ip.packetLength = ip.taken.hdrLen + 20 + chunk.length) :
    Carries ⟨ip, .tcp hdr, chunk⟩ ⟨ip.taken.src, hdr.srcPort, ip.taken.dst, hdr.dstPort⟩
      (ntohl hdr.seq) (ntohl hdr.ack) hdr.flags chunk where
  decoded := ⟨hdr, decode_tcp plain proto offset, rfl, rfl, rfl⟩
  length := by
    rw [length]
    simp only [Packet.bytes, TransportHdr.bytes, List.length_append, length_tcp, Nat.add_right_cancel_iff]
    cases ip <;> rfl

theorem packetV4_carries {session : TcpSession} {src dst : UInt32} (srcV4 : session.flow.src = .v4 src)
    (dstV4 : session.flow.dst = .v4 dst) (flags : UInt8) (chunk : List UInt8)
    (fits : 40 + chunk.length ≤ maxPacketSize) :
    Carries (session.packetV4 flags chunk) session.flow.reversed session.ourSeq session.clientSeq flags
      chunk := by
  have length : (session.packetV4 flags chunk).ip.packetLength = 20 + 20 + chunk.length := by
    unfold maxPacketSize at fits
    simp only [TcpSession.packetV4, IpHdr.packetLength, ntohs_htons, UInt16.toNat_ofNat']
    omega
  have flow : (⟨.v4 session.flow.dst.word0, session.flow.dstPort, .v4 session.flow.src.word0,
      session.flow.srcPort⟩ : Flow) = session.flow.reversed := by
    simp only [Flow.reversed, srcV4, dstV4]
    rfl
  have carried : Carries (session.packetV4 flags chunk)
      ⟨.v4 session.flow.dst.word0, session.flow.dstPort, .v4 session.flow.src.word0,
        session.flow.srcPort⟩
      (ntohl (session.header flags).seq) (ntohl (session.header flags).ack) flags chunk :=
    Packet.carries rfl rfl rfl length
  rwa [flow, TcpSession.header, ntohl_htonl, ntohl_htonl] at carried

theorem packetV6_carries {session : TcpSession} {src dst : Vector UInt8 16}
    (srcV6 : session.flow.src = .v6 src) (dstV6 : session.flow.dst = .v6 dst) (flags : UInt8)
    (chunk : List UInt8) (fits : 60 + chunk.length ≤ maxPacketSize) :
    Carries (session.packetV6 flags chunk) session.flow.reversed session.ourSeq session.clientSeq flags
      chunk := by
  have length : (session.packetV6 flags chunk).ip.packetLength = 40 + 20 + chunk.length := by
    unfold maxPacketSize at fits
    simp only [TcpSession.packetV6, IpHdr.packetLength, ntohs_htons, UInt16.toNat_ofNat']
    omega
  have carried : Carries (session.packetV6 flags chunk) session.flow.reversed
      (ntohl (session.header flags).seq) (ntohl (session.header flags).ack) flags chunk :=
    Packet.carries ⟨rfl, ⟨dst, dstV6⟩, src, srcV6⟩ rfl rfl length
  rwa [TcpSession.header, ntohl_htonl, ntohl_htonl] at carried

/-! ### The passes of the segmentation loop -/

def chunkAt (mss : Nat) (payload : List UInt8) (index : Nat) : List UInt8 :=
  (payload.drop (mss * index)).take mss

/-- `chunk_flags` in that pass. -/
def flagsAt (mss : Nat) (flags : UInt8) (payload : List UInt8) (index : Nat) : UInt8 :=
  if mss * index + (chunkAt mss payload index).length < payload.length then flags &&& ~~~(tfPsh ||| tfFin)
  else flags

def seqAt (mss : Nat) (start : UInt32) (flags : UInt8) (index : Nat) : UInt32 :=
  advance32 start (mss * index + if 0 < index ∧ hasFlag flags tfSyn then 1 else 0)

theorem advanceSeq_more (seq : UInt32) (first : Bool) (flags : UInt8) (count : Nat) :
    advanceSeq seq first false flags count =
      advance32 seq (count + if first ∧ hasFlag flags tfSyn then 1 else 0) := by
  unfold advanceSeq advance32
  cases first <;> cases hasFlag flags tfSyn <;>
    simp [UInt32.ofNat_add, UInt32.add_assoc, UInt32.add_comm]

section
variable {headers mss : Nat} {build : TcpSession → UInt8 → List UInt8 → Packet}

theorem segmentLoop_pass (mssPos : 0 < mss) (flags : UInt8) (payload : List UInt8) (fuel start : Nat)
    (session : TcpSession) (index : Nat) (packet : Packet)
    (sent : (segmentLoop headers mss build flags payload fuel (mss * start) session).2[index]? =
      some packet) :
    packet = build
        { session with
          ourSeq := advance32 session.ourSeq
            (mss * index + if start = 0 ∧ 0 < index ∧ hasFlag flags tfSyn then 1 else 0) }
        (flagsAt mss flags payload (start + index)) (chunkAt mss payload (start + index)) ∧
      headers + (chunkAt mss payload (start + index)).length ≤ maxPacketSize := by
  induction fuel generalizing start session index with
  | zero => simp [segmentLoop] at sent
  | succ fuel ih =>
    simp only [segmentLoop] at sent
    by_cases large : maxPacketSize < headers + ((payload.drop (mss * start)).take mss).length
    · simp only [if_pos large, List.getElem?_nil, reduceCtorEq] at sent
    · simp only [if_neg large] at sent
      have here : advance32 session.ourSeq
          (mss * 0 + if start = 0 ∧ 0 < 0 ∧ hasFlag flags tfSyn then 1 else 0) = session.ourSeq := by
        simp [advance32_zero]
      by_cases more : mss * start + ((payload.drop (mss * start)).take mss).length < payload.length
      · simp only [if_pos more] at sent
        cases index with
        | zero =>
          rw [List.getElem?_cons_zero, Option.some.injEq] at sent
          rw [here, Nat.add_zero, ← sent]
          exact ⟨congrArg (fun flags => build session flags _) (if_pos more).symm, Nat.not_lt.mp large⟩
        | succ index =>
          -- this pass fills its segment, and the next ones count from `start + 1`
          have full : ((payload.drop (mss * start)).take mss).length = mss := by
            rw [List.length_take, List.length_drop] at more ⊢
            omega
          have notLast : (mss * start + mss == payload.length) = false := by
            rw [full] at more
            simpa using Nat.ne_of_lt more
          have synKept := hasFlag_clear flags (tfPsh ||| tfFin) tfSyn (by decide)
          have seqNext : advanceSeq session.ourSeq (mss * start == 0) false
              (flags &&& ~~~(tfPsh ||| tfFin)) mss =
              advance32 session.ourSeq (mss + if start = 0 ∧ hasFlag flags tfSyn then 1 else 0) := by
            have first : (mss * start == 0) = decide (start = 0) := by
              rw [Bool.eq_iff_iff, beq_iff_eq, decide_eq_true_iff, Nat.mul_eq_zero]
              omega
            simp only [advanceSeq_more, synKept, first, decide_eq_true_iff]
          rw [List.getElem?_cons_succ, full, notLast, seqNext, ← Nat.mul_succ] at sent
          obtain ⟨same, fits⟩ := ih (start + 1) _ index sent
          rw [Nat.add_right_comm] at same fits
          have seqs : advance32
              (advance32 session.ourSeq (mss + if start = 0 ∧ hasFlag flags tfSyn then 1 else 0))
              (mss * index + if start + 1 = 0 ∧ 0 < index ∧ hasFlag flags tfSyn then 1 else 0) =
              advance32 session.ourSeq
                (mss * (index + 1) + if start = 0 ∧ 0 < index + 1 ∧ hasFlag flags tfSyn then 1 else 0) := by
            have later : ¬ (start + 1 = 0 ∧ 0 < index ∧ hasFlag flags tfSyn = true) :=
              fun opening => Nat.succ_ne_zero start opening.1
            rw [advance32_add, if_neg later, Nat.mul_succ]
            simp only [Nat.succ_pos, true_and]
            apply congrArg
            omega
          refine ⟨?_, fits⟩
          rw [same]
          exact congrArg (fun seq => build { session with ourSeq := seq } _ _) seqs
      · simp only [if_neg more] at sent
        cases index with
        | zero =>
          rw [List.getElem?_cons_zero, Option.some.injEq] at sent
          rw [here, Nat.add_zero, ← sent]
          exact ⟨congrArg (fun flags => build session flags _) (if_neg more).symm, Nat.not_lt.mp large⟩
        | succ index => simp at sent

theorem segmentLoop_sent (mssPos : 0 < mss) {flags : UInt8} {payload : List UInt8} {fuel : Nat}
    {session : TcpSession} {index : Nat} {packet : Packet}
    (sent : (segmentLoop headers mss build flags payload fuel 0 session).2[index]? = some packet) :
    packet = build { session with ourSeq := seqAt mss session.ourSeq flags index }
        (flagsAt mss flags payload index) (chunkAt mss payload index) ∧
      headers + (chunkAt mss payload index).length ≤ maxPacketSize := by
  have pass := segmentLoop_pass mssPos flags payload fuel 0 session index packet sent
  have seq : advance32 session.ourSeq
      (mss * index + if 0 = 0 ∧ 0 < index ∧ hasFlag flags tfSyn then 1 else 0) =
      seqAt mss session.ourSeq flags index := by
    simp [seqAt]
  rwa [Nat.zero_add, seq] at pass

end

theorem writeTcp_pass {mtu : Int} {session : TcpSession} {flags : UInt8} {payload : List UInt8}
    {index : Nat} {packet : Packet} (uniform : session.flow.OneVersion)
    (sent : (writeTcp mtu session flags payload).2[index]? = some packet) :
    let mss := session.flow.mss mtu
    Carries packet session.flow.reversed (seqAt mss session.ourSeq flags index) session.clientSeq
      (flagsAt mss flags payload index) (chunkAt mss payload index) := by
  rcases uniform with ⟨src, dst, srcV4, dstV4⟩ | ⟨src, dst, srcV6, dstV6⟩
  · simp only [writeTcp, srcV4, writeTcpV4] at sent
    obtain ⟨rfl, fits⟩ := segmentLoop_sent (segmentSize_pos mtu 40 (by decide)) sent
    simp only [Flow.mss, srcV4]
    generalize seqAt (segmentSize mtu 40 1460) session.ourSeq flags index = seq
    exact @packetV4_carries { session with ourSeq := seq } src dst srcV4 dstV4 _ _ fits
  · simp only [writeTcp, srcV6, writeTcpV6] at sent
    obtain ⟨rfl, fits⟩ := segmentLoop_sent (segmentSize_pos mtu 60 (by decide)) sent
    simp only [Flow.mss, srcV6]
    generalize seqAt (segmentSize mtu 60 1440) session.ourSeq flags index = seq
    exact @packetV6_carries { session with ourSeq := seq } src dst srcV6 dstV6 _ _ fits

structure CarriesDatagram (packet : Packet) (flow : Flow) (payload : List UInt8) : Prop where
  decoded : ∃ hdr, decode packet.bytes = .ok (.udp flow hdr payload) ∧
    (ntohs hdr.length).toNat = 8 + payload.length
  length : packet.ip.packetLength = packet.bytes.length

theorem Packet.carriesDatagram {ip : IpHdr} {hdr : UdpHdr} {payload : List UInt8} (plain : ip.Plain)
    (proto : ip.taken.proto = 17) (whole : (ntohs hdr.length).toNat = 8 + payload.length)
    (length : ip.packetLength = ip.taken.hdrLen + 8 + payload.length) :
    CarriesDatagram ⟨ip, .udp hdr, payload⟩ ⟨ip.taken.src, hdr.srcPort, ip.taken.dst, hdr.dstPort⟩
      payload where
  decoded := ⟨hdr, decode_udp plain proto whole, whole⟩
  length := by
    rw [length]
    simp only [Packet.bytes, TransportHdr.bytes, List.length_append, length_udp, Nat.add_right_cancel_iff]
    cases ip <;> rfl

theorem writeUdp_carries {session : UdpSession} {payload : List UInt8} {packet : Packet}
    (uniform : session.flow.OneVersion) (sent : packet ∈ writeUdp session payload) :
    CarriesDatagram packet session.flow.reversed payload := by
  rcases uniform with ⟨src, dst, srcV4, dstV4⟩ | ⟨src, dst, srcV6, dstV6⟩
  · simp only [writeUdp, srcV4, writeUdpV4] at sent
    split at sent
    · cases sent
    next fits =>
      obtain rfl := List.mem_singleton.mp sent
      unfold maxPacketSize at fits
      have flow : (⟨.v4 session.flow.dst.word0, session.flow.dstPort, .v4 (IpAddr.v4 src).word0,
          session.flow.srcPort⟩ : Flow) = session.flow.reversed := by
        simp only [Flow.reversed, srcV4, dstV4]
        rfl
      rw [← flow]
      apply Packet.carriesDatagram (by rfl) (by rfl)
      · simp only [UdpSession.header, ntohs_htons, UInt16.toNat_ofNat']
        omega
      · simp only [IpHdr.packetLength, IpHdr.taken, ntohs_htons, UInt16.toNat_ofNat']
        omega
  · simp only [writeUdp, srcV6, writeUdpV6] at sent
    split at sent
    · cases sent
    next fits =>
      obtain rfl := List.mem_singleton.mp sent
      unfold maxPacketSize at fits
      have flow : (⟨session.flow.dst, session.flow.dstPort, .v6 src, session.flow.srcPort⟩ : Flow) =
          session.flow.reversed := by
        simp only [Flow.reversed, srcV6]
      rw [← flow]
      apply Packet.carriesDatagram (by exact ⟨rfl, ⟨dst, dstV6⟩, src, rfl⟩) (by rfl)
      · simp only [UdpSession.header, ntohs_htons, UInt16.toNat_ofNat']
        omega
      · simp only [IpHdr.packetLength, IpHdr.taken, ntohs_htons, UInt16.toNat_ofNat']
        omega

theorem parseIp_oneVersion {packet : List UInt8} {ip : IpPacket} (parsed : parseIp packet = .ok ip)
    (srcPort dstPort : UInt16) : Flow.OneVersion ⟨ip.src, srcPort, ip.dst, dstPort⟩ := by
  unfold parseIp at parsed
  simp only [bind, Except.bind, pure, Except.pure, access, throw, throwThe, MonadExceptOf.throw] at parsed
  revert parsed
  split
  · exact nofun
  · cases packet[0]? with
    | none => exact nofun
    | some first =>
      dsimp only
      split
      · split
        · exact nofun
        · cases load32 packet 12 <;> cases load32 packet 16 <;> cases packet[9]? <;> intro parsed <;>
            cases parsed
          exact .inl ⟨_, _, rfl, rfl⟩
      · split
        · cases load128 packet 8 <;> cases load128 packet 24 <;> cases packet[6]? <;> intro parsed <;>
            cases parsed
          exact .inr ⟨_, _, rfl, rfl⟩
        · exact nofun

theorem decode_oneVersion {packet : List UInt8} {decoded : Decoded} (same : decode packet = .ok decoded) :
    decoded.flow.OneVersion := by
  unfold decode at same
  simp only [bind, Except.bind, pure, Except.pure, throw, throwThe, MonadExceptOf.throw] at same
  cases parsed : parseIp packet with
  | error reject => simp [parsed] at same
  | ok ip =>
    simp only [parsed] at same
    split at same
    · cases transport : parseTcp (packet.drop ip.hdrLen) with
      | error reject => simp [transport] at same
      | ok taken =>
        simp only [transport, Except.ok.injEq] at same
        subst same
        exact parseIp_oneVersion parsed ..
    · split at same
      · cases transport : parseUdp (packet.drop ip.hdrLen) with
        | error reject => simp [transport] at same
        | ok taken =>
          simp only [transport, Except.ok.injEq] at same
          subst same
          exact parseIp_oneVersion parsed ..
      · cases same

/-- Every packet that reaches `write` decodes to what it was built from, with true
length fields: the reversed flow, the numbers and flags of its pass and the chunk
of payload, or the whole datagram. -/
theorem written_packets_decode (mtu : Int) :
    (∀ (session : TcpSession) (flags : UInt8) (payload : List UInt8) (index : Nat) (packet : Packet),
      session.flow.OneVersion → (writeTcp mtu session flags payload).2[index]? = some packet →
      Carries packet session.flow.reversed (seqAt (session.flow.mss mtu) session.ourSeq flags index)
        session.clientSeq (flagsAt (session.flow.mss mtu) flags payload index)
        (chunkAt (session.flow.mss mtu) payload index)) ∧
    ∀ (session : UdpSession) (payload : List UInt8) (packet : Packet), session.flow.OneVersion →
      packet ∈ writeUdp session payload → CarriesDatagram packet session.flow.reversed payload :=
  ⟨fun _ _ _ _ _ uniform sent => writeTcp_pass uniform sent,
    fun _ _ _ uniform sent => writeUdp_carries uniform sent⟩

theorem written_packets_decode_sample :
    (∃ packet, (writeTcp 1500 sampleSession (tfPsh ||| tfAck) [1, 2, 3]).2[0]? = some packet ∧
      Carries packet sampleFlow.reversed (seqAt 1460 sampleSession.ourSeq (tfPsh ||| tfAck) 0) 1001
        (tfPsh ||| tfAck) [1, 2, 3]) ∧
      (∃ packet, (writeTcp 1500 (.fresh 0 sampleFlow6 1000 7 0 0) (tfPsh ||| tfAck) [1, 2, 3]).2[0]? = some packet ∧
        Carries packet sampleFlow6.reversed
          (seqAt 1440 (TcpSession.fresh 0 sampleFlow6 1000 7 0 0).ourSeq (tfPsh ||| tfAck) 0) 1001
          (tfPsh ||| tfAck) [1, 2, 3]) ∧
      (∃ packet ∈ writeUdp ⟨0, sampleFlow, 7, 0⟩ [1, 2, 3],
        CarriesDatagram packet sampleFlow.reversed [1, 2, 3]) ∧
      ∃ packet ∈ writeUdp ⟨0, sampleFlow6, 7, 0⟩ [1, 2, 3],
        CarriesDatagram packet sampleFlow6.reversed [1, 2, 3] := by
  have uniform : sampleFlow.OneVersion := .inl ⟨_, _, rfl, rfl⟩
  have uniform6 : sampleFlow6.OneVersion := .inr ⟨_, _, rfl, rfl⟩
  refine ⟨⟨_, rfl, ?_⟩, ⟨_, rfl, ?_⟩, ⟨_, List.mem_singleton.mpr rfl, ?_⟩, _, List.mem_singleton.mpr rfl, ?_⟩
  · exact (written_packets_decode 1500).1 sampleSession (tfPsh ||| tfAck) [1, 2, 3] 0 _ uniform rfl
  · exact (written_packets_decode 1500).1 (.fresh 0 sampleFlow6 1000 7 0 0) (tfPsh ||| tfAck) [1, 2, 3] 0 _
      uniform6 rfl
  · exact (written_packets_decode 1500).2 ⟨0, sampleFlow, 7, 0⟩ [1, 2, 3] _ uniform (List.mem_singleton.mpr rfl)
  · exact (written_packets_decode 1500).2 ⟨0, sampleFlow6, 7, 0⟩ [1, 2, 3] _ uniform6
      (List.mem_singleton.mpr rfl)

end ThrottleVpn.Tun2Socks
