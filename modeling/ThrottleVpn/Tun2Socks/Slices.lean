import ThrottleVpn.Tun2Socks.Sockets

/-! Header accesses and payloads stay inside the packet that was read.

Four lengths come from the packet or its sender: the number of bytes read, the IHL,
the TCP data offset and the UDP length. Whatever they are, no check lets an access
or a payload pass that leaves the packet.
-/

set_option autoImplicit false

namespace ThrottleVpn.Tun2Socks

open Foundation

/-! ### Loads inside the buffer -/

section
variable {bytes : List UInt8} {offset : Nat}

theorem load16_inside (inside : offset + 2 ≤ bytes.length) : ∃ value, load16 bytes offset = some value := by
  unfold load16
  rw [List.getElem?_eq_getElem (by omega), List.getElem?_eq_getElem (by omega)]
  exact ⟨_, rfl⟩

theorem load32_inside (inside : offset + 4 ≤ bytes.length) : ∃ value, load32 bytes offset = some value := by
  obtain ⟨low, loaded⟩ := @load16_inside bytes offset (by omega)
  obtain ⟨high, loaded'⟩ := @load16_inside bytes (offset + 2) (by omega)
  unfold load32
  rw [loaded, loaded']
  exact ⟨_, rfl⟩

theorem load128_inside (inside : offset + 16 ≤ bytes.length) : ∃ value, load128 bytes offset = some value :=
  ⟨_, if_pos inside⟩

theorem byte_inside (inside : offset < bytes.length) : ∃ value, bytes[offset]? = some value :=
  ⟨_, List.getElem?_eq_getElem inside⟩

end

theorem TcpHdr.load_inside {segment : List UInt8} (inside : 20 ≤ segment.length) :
    ∃ hdr, TcpHdr.load segment = some hdr := by
  obtain ⟨srcPort, loaded⟩ := @load16_inside segment 0 (by omega)
  obtain ⟨dstPort, loaded2⟩ := @load16_inside segment 2 (by omega)
  obtain ⟨seq, loaded4⟩ := @load32_inside segment 4 (by omega)
  obtain ⟨ack, loaded8⟩ := @load32_inside segment 8 (by omega)
  obtain ⟨offset, loaded12⟩ := @byte_inside segment 12 (by omega)
  obtain ⟨flags, loaded13⟩ := @byte_inside segment 13 (by omega)
  obtain ⟨window, loaded14⟩ := @load16_inside segment 14 (by omega)
  obtain ⟨csum, loaded16⟩ := @load16_inside segment 16 (by omega)
  obtain ⟨urgPtr, loaded18⟩ := @load16_inside segment 18 (by omega)
  unfold TcpHdr.load
  rw [loaded, loaded2, loaded4, loaded8, loaded12, loaded13, loaded14, loaded16, loaded18]
  exact ⟨_, rfl⟩

theorem UdpHdr.load_inside {segment : List UInt8} (inside : 8 ≤ segment.length) :
    ∃ hdr, UdpHdr.load segment = some hdr := by
  obtain ⟨srcPort, loaded⟩ := @load16_inside segment 0 (by omega)
  obtain ⟨dstPort, loaded2⟩ := @load16_inside segment 2 (by omega)
  obtain ⟨length, loaded4⟩ := @load16_inside segment 4 (by omega)
  obtain ⟨csum, loaded6⟩ := @load16_inside segment 6 (by omega)
  unfold UdpHdr.load
  rw [loaded, loaded2, loaded4, loaded6]
  exact ⟨_, rfl⟩

/-! ### What the checks leave -/

def TcpHdr.hdrLen (hdr : TcpHdr) : Nat := hdr.offRsvd.toNat / 16 * 4

theorem parseIp_cases (packet : List UInt8) :
    parseIp packet = .error .drop ∨
      ∃ ip, parseIp packet = .ok ip ∧ 20 ≤ ip.hdrLen ∧ ip.hdrLen ≤ packet.length := by
  unfold parseIp
  simp only [bind, Except.bind, pure, Except.pure, throw, throwThe, MonadExceptOf.throw]
  by_cases empty : packet.length = 0
  · exact .inl (by rw [if_pos empty])
  · obtain ⟨first, loaded⟩ := @byte_inside packet 0 (by omega)
    simp only [if_neg empty, loaded, access]
    split
    next v4 =>
      obtain ⟨src, srcLoaded⟩ := @load32_inside packet 12 (by omega)
      obtain ⟨dst, dstLoaded⟩ := @load32_inside packet 16 (by omega)
      obtain ⟨proto, protoLoaded⟩ := @byte_inside packet 9 (by omega)
      split
      · exact .inl rfl
      next lengths =>
        right
        simp only [srcLoaded, dstLoaded, protoLoaded]
        exact ⟨_, rfl, by simp only; omega, by simp only; omega⟩
    next =>
      split
      next v6 =>
        obtain ⟨src, srcLoaded⟩ := @load128_inside packet 8 (by omega)
        obtain ⟨dst, dstLoaded⟩ := @load128_inside packet 24 (by omega)
        obtain ⟨proto, protoLoaded⟩ := @byte_inside packet 6 (by omega)
        right
        simp only [srcLoaded, dstLoaded, protoLoaded]
        exact ⟨_, rfl, by simp only; omega, v6.2⟩
      · exact .inl rfl

theorem parseTcp_cases (segment : List UInt8) :
    parseTcp segment = .error .drop ∨ ∃ hdr, TcpHdr.load segment = some hdr ∧ 20 ≤ hdr.hdrLen ∧
      hdr.hdrLen ≤ segment.length ∧ parseTcp segment = .ok (hdr, segment.drop hdr.hdrLen) := by
  unfold parseTcp
  simp only [bind, Except.bind, pure, Except.pure, throw, throwThe, MonadExceptOf.throw]
  by_cases short : segment.length < 20
  · exact .inl (by rw [if_pos short])
  · obtain ⟨hdr, loaded⟩ := @TcpHdr.load_inside segment (by omega)
    simp only [if_neg short, loaded, access]
    split
    · exact .inl rfl
    next lengths =>
      unfold TcpHdr.hdrLen
      exact .inr ⟨hdr, rfl, by omega, by omega, rfl⟩

theorem parseUdp_cases (segment : List UInt8) :
    parseUdp segment = .error .drop ∨ ∃ hdr, UdpHdr.load segment = some hdr ∧
      8 ≤ (ntohs hdr.length).toNat ∧ (ntohs hdr.length).toNat ≤ segment.length ∧
      parseUdp segment = .ok (hdr, (segment.drop 8).take ((ntohs hdr.length).toNat - 8)) := by
  unfold parseUdp
  simp only [bind, Except.bind, pure, Except.pure, throw, throwThe, MonadExceptOf.throw]
  by_cases short : segment.length < 8
  · exact .inl (by rw [if_pos short])
  · obtain ⟨hdr, loaded⟩ := @UdpHdr.load_inside segment (by omega)
    simp only [if_neg short, loaded, access]
    split
    · exact .inl rfl
    next lengths =>
      refine .inr ⟨hdr, rfl, by omega, by omega, ?_⟩
      rw [show (((ntohs hdr.length).toNat : Int) - 8).toNat = (ntohs hdr.length).toNat - 8 by omega]

/-- Some bytes of a packet, by their offset and the signed length of the source. -/
structure SliceOf (packet : List UInt8) (start : Nat) (length : Int) (data : List UInt8) : Prop where
  nonneg : 0 ≤ length
  inside : start + length ≤ packet.length
  same : data = (packet.drop start).take length.toNat

namespace Decoded

def payStart (ip : IpPacket) : Decoded → Nat
  | tcp _ hdr _ => ip.hdrLen + hdr.hdrLen
  | udp _ _ _ => ip.hdrLen + 8

def payLen (packet : List UInt8) (ip : IpPacket) : Decoded → Int
  | tcp _ hdr _ => packet.length - ip.hdrLen - hdr.hdrLen
  | udp _ hdr _ => (ntohs hdr.length).toNat - 8

end Decoded

/-- A packet is dropped by a check, or its headers and its payload lie inside it. -/
theorem decode_cases (packet : List UInt8) :
    decode packet = .error .drop ∨ ∃ ip decoded, parseIp packet = .ok ip ∧ decode packet = .ok decoded ∧
      SliceOf packet (decoded.payStart ip) (decoded.payLen packet ip) decoded.payload := by
  unfold decode
  simp only [bind, Except.bind, pure, Except.pure, throw, throwThe, MonadExceptOf.throw]
  rcases parseIp_cases packet with dropped | ⟨ip, parsed, -, ipInside⟩
  · exact .inl (by rw [dropped])
  · rw [parsed]
    dsimp only
    have rest : (packet.drop ip.hdrLen).length = packet.length - ip.hdrLen := List.length_drop
    split
    · rcases parseTcp_cases (packet.drop ip.hdrLen) with dropped | ⟨hdr, loaded, -, inside, same⟩
      · exact .inl (by rw [dropped])
      · right
        rw [same]
        refine ⟨ip, _, rfl, rfl, ?_, ?_, ?_⟩
        · simp only [Decoded.payLen]
          omega
        · simp only [Decoded.payLen, Decoded.payStart]
          omega
        · simp only [Decoded.payLen, Decoded.payStart, Decoded.payload]
          rw [List.drop_drop, List.take_of_length_le]
          rw [List.length_drop]
          omega
    · split
      · rcases parseUdp_cases (packet.drop ip.hdrLen) with dropped | ⟨hdr, loaded, whole, inside, same⟩
        · exact .inl (by rw [dropped])
        · right
          rw [same]
          refine ⟨ip, _, rfl, rfl, ?_, ?_, ?_⟩
          · simp only [Decoded.payLen]
            omega
          · simp only [Decoded.payLen, Decoded.payStart]
            omega
          · simp only [Decoded.payLen, Decoded.payStart, Decoded.payload]
            rw [List.drop_drop, show (((ntohs hdr.length).toNat : Int) - 8).toNat =
              (ntohs hdr.length).toNat - 8 by omega]
      · exact .inl rfl

/-! ### What a step makes of a packet -/

def Effect.Hands (payload : List UInt8) : Effect → Prop
  | .outOfBounds => False
  | .send _ data _ | .hold _ data => data = payload
  | _ => True

section
variable (payload : List UInt8)

theorem Engine.chargeUpload_hands (engine : Engine) (delay count : Nat) :
    ∀ effect ∈ (engine.chargeUpload delay count).2, effect.Hands payload := by
  intro effect member
  simp only [chargeUpload] at member
  split at member
  · obtain rfl := List.mem_singleton.mp member
    trivial
  · cases member

theorem TunReplies.opening_hands (replies : TunReplies) (protocol : Protocol) (flow : Flow)
    (interest : EpollEvents) : ∀ effect ∈ replies.opening protocol flow interest, effect.Hands payload :=
  replies.forall_opening (fun _ => trivial) (fun _ => trivial) (fun _ => trivial) fun _ => trivial

theorem Engine.openTcp_hands (engine : Engine) (replies : TunReplies) (flow : Flow) (isn : UInt32) :
    ∀ effect ∈ (engine.openTcp replies flow isn).2, effect.Hands payload := by
  intro effect member
  rw [openTcp_effects] at member
  rcases List.mem_append.mp member with member | member
  · cases found : engine.tcpFind flow with
    | some old =>
      simp only [found, Option.elim, List.mem_cons, List.not_mem_nil, or_false] at member
      rcases member with rfl | rfl <;> trivial
    | none => simp [found] at member
  · exact replies.opening_hands payload _ _ _ effect member

theorem Handled.closing_hands (handled : Handled) : ∀ effect ∈ handled.closing, effect.Hands payload :=
  handled.forall_closing (fun _ => trivial) fun _ => trivial

theorem TcpSession.segmentArrives_hands {session : TcpSession} (live : session.Live) (mtu : Int)
    (replies : TunReplies) (hdr : TcpHdr) :
    ∀ effect ∈ (session.segmentArrives mtu replies hdr payload).effects, effect.Hands payload := by
  have here : ({ session with lastActive := replies.time } : TcpSession).Live := live
  have data : ∀ effect ∈
      (dataArrives { session with lastActive := replies.time } mtu replies hdr payload).effects,
      effect.Hands payload := by
    intro effect member
    rcases dataArrives_cases here mtu replies hdr payload with
      ⟨-, out⟩ | ⟨-, -, out⟩ | ⟨-, -, -, out⟩ | ⟨-, -, -, out⟩
    · simp [out] at member
    · obtain ⟨-, -, none | hold⟩ := bufferPending_frame
        { session with
          lastActive := replies.time
          clientSeq := ntohl hdr.seq + UInt32.ofNat payload.length } replies.realloc payload
      · simp [out, none] at member
      · rw [out, hold] at member
        obtain rfl := List.mem_singleton.mp member
        rfl
    · simp only [out, List.mem_cons, List.not_mem_nil, or_false] at member
      rcases member with rfl | rfl <;> trivial
    · simp only [out, List.mem_cons, List.not_mem_nil, or_false] at member
      rcases member with rfl | rfl <;> trivial
  intro effect member
  rcases @segmentArrives_cases session mtu replies hdr payload with
    ⟨-, out⟩ | ⟨-, -, out⟩ | ⟨-, -, -, out⟩
  · simp [out] at member
  · rw [out] at member
    exact data effect member
  · rw [out] at member
    rcases List.mem_append.mp member with member | member
    · exact data effect member
    · simp only [finArrives, List.mem_cons, List.not_mem_nil, or_false] at member
      rcases member with rfl | rfl | rfl <;> trivial

end

theorem Engine.Standing.tun_hands {engine : Engine} (standing : engine.Standing) {replies : TunReplies}
    {queued : List UInt8} {decoded : Decoded}
    (same : decode (queued.take maxPacketSize) = .ok decoded) :
    ∀ effect ∈ (engine.handleTunReadable replies queued).2, effect.Hands decoded.payload := by
  intro effect member
  rw [handleTunReadable_eq, same] at member
  have charge := engine.chargeUpload_hands decoded.payload replies.delay (queued.take maxPacketSize).length
  have table := engine.chargeUpload_tcpTable replies.delay (queued.take maxPacketSize).length
  generalize engine.chargeUpload replies.delay (queued.take maxPacketSize).length = out at *
  obtain ⟨charged, pause⟩ := out
  cases decoded with
  | tcp flow hdr payload =>
    dsimp only at member
    split at member
    · rcases List.mem_append.mp member with member | member
      · exact charge effect member
      · exact charged.openTcp_hands payload replies flow _ effect member
    · split at member
      next session found =>
        have live := standing.live session (table ▸ (tcpFind_linked found).1)
        rcases List.mem_append.mp member with member | member
        · exact charge effect member
        · rw [settle_effects] at member
          rcases List.mem_append.mp member with member | member
          · exact TcpSession.segmentArrives_hands payload live _ _ _ effect member
          · exact Handled.closing_hands payload _ effect member
      next => exact charge effect member
  | udp flow hdr payload =>
    have opening : ∀ effect ∈ (charged.udpSession replies flow).2.1, effect.Hands payload := by
      unfold udpSession
      split
      · exact nofun
      · rw [udpCreate_spec]
        cases replies.opens <;> exact replies.opening_hands payload _ _ _
    dsimp only at member
    split at member
    next created =>
      rw [created] at opening
      rcases List.mem_append.mp member with member | member
      · rcases List.mem_append.mp member with member | member
        · exact charge effect member
        · exact opening effect member
      · obtain rfl := List.mem_singleton.mp member
        rfl
    next created =>
      rw [created] at opening
      rcases List.mem_append.mp member with member | member
      · exact charge effect member
      · exact opening effect member

/-- An effect of a packet: no access leaves it, and a payload that is sent or kept is
the slice that the source computes, which lies inside. -/
def Effect.Inside (packet : List UInt8) : Effect → Prop
  | .outOfBounds => False
  | .send _ data _ | .hold _ data => ∃ ip decoded, parseIp packet = .ok ip ∧
      decode packet = .ok decoded ∧ SliceOf packet (decoded.payStart ip) (decoded.payLen packet ip) data
  | _ => True

/-- Whatever bytes are read from the device, in whatever state the engine has come to:
no header access and no payload leaves the packet. -/
theorem accesses_inside_packet (tunFd : Nat) (mtu ulStart dlStart : Int) (inputs : List Input)
    (queued : List UInt8) (replies : TunReplies) :
    let engine := inputs.foldl Engine.next (Engine.start tunFd mtu ulStart dlStart)
    ∀ effect ∈ (engine.step (.tunReadable queued replies)).2, effect.Inside (queued.take maxPacketSize) := by
  intro engine effect member
  have standing : engine.Standing := run_invariant Engine.Standing
    (fun _ input standing => standing.next input) (Engine.standing_start tunFd mtu ulStart dlStart) inputs
  change effect ∈ (engine.handleTunReadable replies queued).2 at member
  rcases decode_cases (queued.take maxPacketSize) with dropped | ⟨ip, decoded, parsed, same, slice⟩
  · rw [Engine.handleTunReadable_eq, dropped] at member
    cases member
  · have hands := standing.tun_hands same effect member
    cases effect with
    | outOfBounds => exact hands
    | send fd data result =>
      obtain rfl : data = decoded.payload := hands
      exact ⟨ip, decoded, parsed, same, slice⟩
    | hold fd data =>
      obtain rfl : data = decoded.payload := hands
      exact ⟨ip, decoded, parsed, same, slice⟩
    | _ => trivial

end ThrottleVpn.Tun2Socks
