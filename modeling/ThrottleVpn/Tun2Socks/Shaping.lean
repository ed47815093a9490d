import ThrottleVpn.Limiter.Pacing
import ThrottleVpn.Tun2Socks.Tables

/-! The two caps over runs of the engine.

A step touches a bucket in one of two ways: it refills it to size a read, or it
charges a packet and sleeps. What the step does to the session tables is
irrelevant here, so the first part forgets it.
-/

set_option autoImplicit false

namespace ThrottleVpn.Tun2Socks

open Foundation Limiter

namespace Engine

def meters (engine : Engine) : RateLimiter × RateLimiter × Int :=
  (engine.ulLimiter, engine.dlLimiter, engine.clock)

theorem settle_meters (engine : Engine) (handled : Handled) :
    (engine.settle handled).1.meters = engine.meters := by
  unfold settle
  split <;> rfl

theorem openTcp_meters (engine : Engine) (replies : TunReplies) (flow : Flow) (isn : UInt32) :
    (engine.openTcp replies flow isn).1.meters = engine.meters := by
  rw [openTcp_spec]
  cases replies.opens <;> rfl

theorem udpSession_meters (engine : Engine) (replies : TunReplies) (flow : Flow) :
    (engine.udpSession replies flow).1.meters = engine.meters := by
  unfold udpSession udpCreate
  dsimp only
  split
  · rfl
  · split
    · split <;> rfl
    · rfl

def charges (queued : List UInt8) : Bool :=
  let packet := queued.take maxPacketSize
  match parseIp packet with
  | .error _ => false
  | .ok ip =>
    let segment := packet.drop ip.hdrLen
    if ip.proto = 6 then (parseTcp segment).isOk
    else if ip.proto = 17 then (parseUdp segment).isOk
    else false

theorem handleTcpTun_meters (engine : Engine) (replies : TunReplies) (src dst : IpAddr)
    (segment : List UInt8) (pktLen : Nat) :
    (engine.handleTcpTun replies src dst segment pktLen).1.meters =
      if (parseTcp segment).isOk then (engine.chargeUpload replies.delay pktLen).1.meters
      else engine.meters := by
  unfold handleTcpTun
  cases parseTcp segment with
  | error reject => rfl
  | ok parsed =>
    rw [if_pos (show (Except.ok parsed : Except Reject _).isOk = true from rfl)]
    dsimp only
    split
    · exact openTcp_meters ..
    · split
      · exact settle_meters ..
      · rfl

theorem handleUdpTun_meters (engine : Engine) (replies : TunReplies) (src dst : IpAddr)
    (segment : List UInt8) (pktLen : Nat) :
    (engine.handleUdpTun replies src dst segment pktLen).1.meters =
      if (parseUdp segment).isOk then (engine.chargeUpload replies.delay pktLen).1.meters
      else engine.meters := by
  unfold handleUdpTun
  cases parseUdp segment with
  | error reject => rfl
  | ok parsed =>
    have kept := udpSession_meters (engine.chargeUpload replies.delay pktLen).1 replies
      ⟨src, parsed.1.srcPort, dst, parsed.1.dstPort⟩
    rw [if_pos (show (Except.ok parsed : Except Reject _).isOk = true from rfl)]
    dsimp only
    split
    next same =>
      rw [same] at kept
      exact kept
    next same =>
      rw [same] at kept
      exact kept

theorem handleTunReadable_meters (engine : Engine) (replies : TunReplies) (queued : List UInt8) :
    (engine.handleTunReadable replies queued).1.meters =
      if charges queued then
        (engine.chargeUpload replies.delay (queued.take maxPacketSize).length).1.meters
      else engine.meters := by
  unfold handleTunReadable charges
  dsimp only
  obtain ⟨parsed, same⟩ : ∃ parsed, parseIp (queued.take maxPacketSize) = parsed := ⟨_, rfl⟩
  simp only [same]
  cases parsed with
  | error reject => rfl
  | ok ip =>
    dsimp only
    by_cases tcp : ip.proto = 6
    · simp only [if_pos tcp]
      exact handleTcpTun_meters ..
    · simp only [if_neg tcp]
      by_cases udp : ip.proto = 17
      · simp only [if_pos udp]
        exact handleUdpTun_meters ..
      · simp only [if_neg udp]
        rfl

def reads (engine : Engine) (fd : Nat) (events : EpollEvents) : Bool :=
  match engine.tcpFindByFd fd with
  | some session => !(decide (session.state = .synSent) && events.output) && events.input
  | none => (engine.udpFindByFd fd).isSome && events.input

/-- The outcomes of a sized read: nothing received, or at most that many bytes charged. -/
def ReadMeters (engine : Engine) (replies : SocketReplies) (meters : RateLimiter × RateLimiter × Int) :
    Prop :=
  meters = (engine.readSize replies.availableDelay).1.meters ∨
  ∃ queued : List UInt8, replies.recv = .bytes queued ∧ queued ≠ [] ∧
    let count := (queued.take (engine.readSize replies.availableDelay).2).length
    1 ≤ count ∧ count ≤ (engine.readSize replies.availableDelay).2 ∧
      meters = ((engine.readSize replies.availableDelay).1.chargeDownload replies.consumeDelay count).1.meters

theorem count_of_nonempty {queued : List UInt8} {size : Nat} (some : queued.take size ≠ []) :
    queued ≠ [] ∧ 1 ≤ (queued.take size).length ∧ (queued.take size).length ≤ size := by
  refine ⟨fun empty => some (by rw [empty, List.take_nil]), List.length_pos_iff.mpr some, ?_⟩
  rw [List.length_take]
  omega

theorem readTcp_meters (engine : Engine) (session : TcpSession) (replies : SocketReplies) :
    engine.ReadMeters replies (engine.readTcp session replies).1.meters := by
  unfold readTcp ReadMeters
  dsimp only
  cases replies.recv with
  | bytes queued =>
    dsimp only
    split
    · exact .inl (settle_meters ..)
    next some =>
      obtain ⟨nonempty, pos, le⟩ := count_of_nonempty some
      exact .inr ⟨queued, rfl, nonempty, pos, le, settle_meters ..⟩
  | wouldBlock => exact .inl rfl
  | failed => exact .inl (settle_meters ..)

theorem readUdp_meters (engine : Engine) (session : UdpSession) (replies : SocketReplies) :
    engine.ReadMeters replies (engine.readUdp session replies).1.meters := by
  unfold readUdp ReadMeters
  dsimp only
  cases replies.recv with
  | bytes queued =>
    dsimp only
    split
    · exact .inl rfl
    next some =>
      obtain ⟨nonempty, pos, le⟩ := count_of_nonempty some
      exact .inr ⟨queued, rfl, nonempty, pos, le, rfl⟩
  | wouldBlock => exact .inl rfl
  | failed => exact .inl rfl

/-- A socket event is a sized read or leaves the limiters alone. -/
theorem handleSocketEvent_meters (engine : Engine) (fd : Nat) (events : EpollEvents)
    (replies : SocketReplies) :
    engine.reads fd events = true ∧
        engine.ReadMeters replies (engine.handleSocketEvent fd events replies).1.meters ∨
      (engine.handleSocketEvent fd events replies).1.meters = engine.meters := by
  unfold handleSocketEvent reads
  cases engine.tcpFindByFd fd with
  | some session =>
    dsimp only
    by_cases completes : session.state = .synSent ∧ events.output = true
    · rw [if_pos completes]
      exact .inr (settle_meters ..)
    · rw [if_neg completes]
      by_cases readable : events.input = true
      · rw [if_pos readable]
        exact .inl ⟨by simpa [readable, ← imp_iff_not_or] using completes, readTcp_meters ..⟩
      · rw [if_neg readable]
        exact .inr rfl
  | none =>
    cases engine.udpFindByFd fd with
    | some session =>
      dsimp only
      by_cases readable : events.input = true
      · rw [if_pos readable]
        exact .inl ⟨by simp [readable], readUdp_meters ..⟩
      · rw [if_neg readable]
        exact .inr rfl
    | none => exact .inr rfl

end Engine

end ThrottleVpn.Tun2Socks
