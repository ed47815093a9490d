import ThrottleVpn.Tun2Socks.Relay

/-! The two TCP writers against each other.

With an MTU that leaves both the same segment size the loops cut the payload at
the same places, and the segments differ only in what the IP version decides: the
IP header and the checksum over its addresses.
-/

set_option autoImplicit false

namespace ThrottleVpn.Tun2Socks

/-- The TCP header of a packet but for the checksum, and the payload. -/
def Packet.content (packet : Packet) : Option TcpHdr × List UInt8 :=
  (match packet.transport with
    | .tcp hdr => some { hdr with csum := 0 }
    | .udp _ => none,
   packet.payload)

theorem content_packetV4 (session : TcpSession) (flags : UInt8) (chunk : List UInt8) :
    (session.packetV4 flags chunk).content = (some (session.header flags), chunk) := rfl

theorem content_packetV6 (session : TcpSession) (flags : UInt8) (chunk : List UInt8) :
    (session.packetV6 flags chunk).content = (some (session.header flags), chunk) := rfl

/-- Two loops over builders of the same content stay in step while no chunk is
too large for either buffer. -/
theorem segmentLoop_in_step {headers headers' mss : Nat}
    {build build' : TcpSession → UInt8 → List UInt8 → Packet}
    (same : ∀ session flags chunk, (build session flags chunk).content = (build' session flags chunk).content)
    (fits : headers + mss ≤ maxPacketSize) (fits' : headers' + mss ≤ maxPacketSize)
    (flags : UInt8) (payload : List UInt8) (fuel offset : Nat) (session : TcpSession) :
    let sent := segmentLoop headers mss build flags payload fuel offset session
    let sent' := segmentLoop headers' mss build' flags payload fuel offset session
    sent.1 = sent'.1 ∧ sent.2.map Packet.content = sent'.2.map Packet.content := by
  induction fuel generalizing offset session with
  | zero => exact ⟨rfl, rfl⟩
  | succ fuel ih =>
    have chunkLen : ((payload.drop offset).take mss).length ≤ mss := List.length_take_le ..
    have noBreak : ¬maxPacketSize < headers + ((payload.drop offset).take mss).length := by omega
    have noBreak' : ¬maxPacketSize < headers' + ((payload.drop offset).take mss).length := by omega
    simp only [segmentLoop, if_neg noBreak, if_neg noBreak']
    split
    · obtain ⟨sessions, contents⟩ := ih (offset + ((payload.drop offset).take mss).length)
        { session with
          ourSeq := advanceSeq session.ourSeq (offset == 0)
            (offset + ((payload.drop offset).take mss).length == payload.length)
            (flags &&& ~~~(tfPsh ||| tfFin)) ((payload.drop offset).take mss).length }
      exact ⟨sessions, by rw [List.map_cons, List.map_cons, same, contents]⟩
    · exact ⟨rfl, by rw [List.map_singleton, List.map_singleton, same]⟩

/-- IPv6 with 20 bytes more of MTU writes the segments of IPv4. -/
theorem writers_agree (session : TcpSession) (flags : UInt8) (payload : List UInt8) (mtu : Int)
    (room : 40 < mtu) (below : mtu + 20 ≤ 65535) :
    let sent := writeTcpV4 mtu session flags payload
    let sent' := writeTcpV6 (mtu + 20) session flags payload
    sent.1.ourSeq = sent'.1.ourSeq ∧ sent.2.length = sent'.2.length ∧
      sent.2.map Packet.content = sent'.2.map Packet.content ∧
      ∀ content ∈ sent.2.map Packet.content, content.1.isSome := by
  have size : segmentSize mtu 40 1460 = (mtu - 40).toNat := if_neg (by omega)
  have size' : segmentSize (mtu + 20) 60 1440 = (mtu - 40).toNat := by
    unfold segmentSize
    rw [if_neg (by omega)]
    omega
  have fits : 40 + (mtu - 40).toNat ≤ maxPacketSize := by
    unfold maxPacketSize
    omega
  have fits' : 60 + (mtu - 40).toNat ≤ maxPacketSize := by
    unfold maxPacketSize
    omega
  have same : ∀ session flags chunk,
      (TcpSession.packetV4 session flags chunk).content = (TcpSession.packetV6 session flags chunk).content :=
    fun session flags chunk =>
      (content_packetV4 session flags chunk).trans (content_packetV6 session flags chunk).symm
  obtain ⟨sessions, contents⟩ :=
    segmentLoop_in_step same fits fits' flags payload (payload.length + 1) 0 session
  intro sent sent'
  have sentEq : sent = segmentLoop 40 (mtu - 40).toNat TcpSession.packetV4 flags payload
      (payload.length + 1) 0 session := by rw [← size]; rfl
  have sentEq' : sent' = segmentLoop 60 (mtu - 40).toNat TcpSession.packetV6 flags payload
      (payload.length + 1) 0 session := by rw [← size']; rfl
  rw [← sentEq, ← sentEq'] at sessions contents
  refine ⟨congrArg TcpSession.ourSeq sessions, ?_, contents, ?_⟩
  · simpa only [List.length_map] using congrArg List.length contents
  · intro content member
    obtain ⟨packet, sentPacket, rfl⟩ := List.mem_map.mp member
    obtain ⟨seq, chunkFlags, chunk, rfl, -⟩ :=
      ((segmentLoop_frame _ flags payload _ _ session).2 packet sentPacket).built
    rfl

theorem writers_agree_two :
    let sent := writeTcpV4 42 sampleSession (tfPsh ||| tfAck) [1, 2, 3]
    let sent' := writeTcpV6 62 sampleSession (tfPsh ||| tfAck) [1, 2, 3]
    sent.1.ourSeq = sent'.1.ourSeq ∧ sent.2.length = sent'.2.length ∧
      sent.2.map Packet.content = sent'.2.map Packet.content ∧
      ∀ content ∈ sent.2.map Packet.content, content.1.isSome :=
  writers_agree sampleSession (tfPsh ||| tfAck) [1, 2, 3] 42 (by decide) (by decide)

end ThrottleVpn.Tun2Socks
