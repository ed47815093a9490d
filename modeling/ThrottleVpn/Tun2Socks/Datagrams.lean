import ThrottleVpn.Tun2Socks.Tables

/-! Downloaded datagrams.

The UDP branch of `handle_socket_event` sizes its read by the tokens in the
bucket, as the TCP branch does. A stream can be read in any portions; a datagram
that does not fit the read loses its tail.
-/

set_option autoImplicit false

namespace ThrottleVpn.Tun2Socks

open Foundation Limiter

def written (effects : List Effect) : List Packet :=
  effects.flatMap fun
    | .tunWrite packets => packets
    | _ => []

/-- Nothing is written, or one UDP packet with the whole datagram. -/
def DeliversWhole (datagram : List UInt8) (effects : List Effect) : Prop :=
  written effects = [] ∨ ∃ ip hdr, written effects = [⟨ip, .udp hdr, datagram⟩]

theorem written_quiet {effects : List Effect} (quiet : ∀ effect ∈ effects, effect.Quiet) :
    written effects = [] := by
  refine List.flatMap_eq_nil_iff.mpr fun effect member => ?_
  cases effect <;> first | rfl | exact (quiet _ member).elim

namespace Engine

def tokensAtRead (engine : Engine) (replies : SocketReplies) : Int :=
  (engine.dlLimiter.available wrap (engine.clock + replies.availableDelay)).2

/-- When a datagram of a session survives: nothing is read, no cap is set, there
are tokens for all of it or for more than `write_udp` accepts, or the bucket is
empty and it fits the 1500 bytes read then. -/
def ReadsWhole (engine : Engine) (session : UdpSession) (events : EpollEvents)
    (replies : SocketReplies) (datagram : List UInt8) : Prop :=
  events.input = false ∨ engine.dlLimiter.ratePerSec ≤ 0 ∨
  (min datagram.length (maxPacketSize - session.flow.udpHeaders + 1) : Nat) ≤
    engine.tokensAtRead replies ∨
  engine.tokensAtRead replies ≤ 0 ∧ datagram.length ≤ 1500

theorem delivers_read_iff (session : UdpSession) (datagram : List UInt8) {size : Nat} (sizePos : 0 < size) :
    (datagram.take size = [] ∨ writeUdp session (datagram.take size) = [] ∨
      ∃ ip hdr, writeUdp session (datagram.take size) = [⟨ip, .udp hdr, datagram⟩]) ↔
    min datagram.length (maxPacketSize - session.flow.udpHeaders + 1) ≤ size := by
  have outcome := writeUdp_cases session (datagram.take size)
  have headers : session.flow.udpHeaders ≤ maxPacketSize := by
    unfold Flow.udpHeaders
    split <;> decide
  have length : (datagram.take size).length = min size datagram.length := List.length_take
  have whole : datagram.take size = datagram ↔ datagram.length ≤ size :=
    ⟨fun same => by rw [same] at length; omega, List.take_of_length_le⟩
  split at outcome
  next refused =>
    rw [outcome]
    refine iff_of_true (.inr (.inl rfl)) ?_
    omega
  next accepted =>
    obtain ⟨ip, hdr, same⟩ := outcome
    rw [same]
    constructor
    · rintro (empty | none | ⟨_, _, delivered⟩)
      · rw [empty] at length
        simp only [List.length_nil] at length
        omega
      · cases none
      · simp only [List.cons.injEq, Packet.mk.injEq, and_true] at delivered
        have := whole.mp delivered.2.2
        omega
    · intro fits
      right
      right
      refine ⟨ip, hdr, ?_⟩
      rw [whole.mpr (by omega)]

theorem readUdp_delivers_iff (engine : Engine) (session : UdpSession) {replies : SocketReplies}
    {datagram : List UInt8} (queued : replies.recv = .bytes datagram)
    (sizePos : 0 < (engine.readSize replies.availableDelay).2) :
    DeliversWhole datagram (engine.readUdp session replies).2 ↔
      min datagram.length (maxPacketSize - session.flow.udpHeaders + 1) ≤
        (engine.readSize replies.availableDelay).2 := by
  rw [← delivers_read_iff session datagram sizePos]
  unfold readUdp DeliversWhole
  rw [queued]
  dsimp only
  split
  next empty => exact iff_of_true (.inl rfl) (.inl empty)
  next some =>
    have pause := written_quiet fun effect member => (chargeDownload_idle
      (engine.readSize replies.availableDelay).1 replies.consumeDelay
      (datagram.take (engine.readSize replies.availableDelay).2).length effect member).quiet
    have packets : written (.recv session.sockFd (datagram.take (engine.readSize replies.availableDelay).2) ::
        ((engine.readSize replies.availableDelay).1.chargeDownload replies.consumeDelay
          (datagram.take (engine.readSize replies.availableDelay).2).length).2 ++
        [.tunWrite (writeUdp session (datagram.take (engine.readSize replies.availableDelay).2))]) =
        writeUdp session (datagram.take (engine.readSize replies.availableDelay).2) := by
      unfold written at pause ⊢
      rw [List.flatMap_append, List.flatMap_cons, pause]
      simp
    rw [packets, or_iff_right some]

/-- A datagram is delivered whole, or not at all, exactly when the bucket allows it. -/
theorem datagram_whole_iff_reads_whole {engine : Engine} {fd : Nat} {session : UdpSession}
    (noTcp : engine.tcpFindByFd fd = none) (found : engine.udpFindByFd fd = some session)
    (events : EpollEvents) {replies : SocketReplies} {datagram : List UInt8}
    (queued : replies.recv = .bytes datagram) :
    DeliversWhole datagram (engine.handleSocketEvent fd events replies).2 ↔
      engine.ReadsWhole session events replies datagram := by
  have headers : session.flow.udpHeaders = 28 ∨ session.flow.udpHeaders = 48 := by
    unfold Flow.udpHeaders
    split
    · exact .inl rfl
    · exact .inr rfl
  unfold handleSocketEvent ReadsWhole
  rw [noTcp, found]
  dsimp only
  by_cases readable : events.input = true
  · rw [if_pos readable,
      readUdp_delivers_iff engine session queued (readSize_pos engine replies.availableDelay)]
    rw [or_iff_right (by simp [readable])]
    unfold readSize tokensAtRead maxPacketSize
    dsimp only
    by_cases capped : 0 < engine.dlLimiter.ratePerSec
    · rw [if_pos capped]
      generalize (engine.dlLimiter.available wrap (engine.clock + replies.availableDelay)).2 = avail
      dsimp only
      split
      · omega
      · split <;> omega
    · rw [if_neg capped]
      dsimp only
      omega
  · have idle : events.input = false := by simpa using readable
    rw [if_neg readable]
    exact iff_of_true (.inl rfl) (.inl idle)

end Engine

/-- Whatever the limiter's state, no truncated datagram is written to the device. -/
def DatagramIntegrity : Prop :=
  ∀ (tunFd : Nat) (mtu ulStart dlStart : Int) (inputs : List Input) (fd : Nat) (events : EpollEvents)
    (replies : SocketReplies) (session : UdpSession) (datagram : List UInt8),
    let engine := inputs.foldl Engine.next (Engine.start tunFd mtu ulStart dlStart)
    engine.tcpFindByFd fd = none → engine.udpFindByFd fd = some session →
    replies.recv = .bytes datagram →
    DeliversWhole datagram (engine.handleSocketEvent fd events replies).2

def sampleDatagram : List UInt8 :=
  Packet.bytes
    { ip := .v4
        { verIhl := 0x45, tos := 0, totalLen := htons 28, ident := 0, flagsFrag := 0, ttl := 64
          protocol := 17, hdrCsum := 0, srcAddr := 0x0200000A, dstAddr := 0x01010101 }
      transport := .udp { srcPort := htons 40000, dstPort := htons 443, length := htons 8, csum := 0 }
      payload := [] }

def sampleCapped : List Input :=
  [.setRates 125000 125000, .tunReadable sampleDatagram (.smooth 7 0)]

/-- A datagram of 2501 bytes arrives as 2500. -/
theorem datagram_truncated : ¬DatagramIntegrity := by
  intro integrity
  let session : UdpSession := ⟨0, ⟨.v4 0x0200000A, htons 40000, .v4 0x01010101, htons 443⟩, 7, 0⟩
  have delivered := integrity 3 1500 0 0 sampleCapped 7 ⟨true, false⟩ (.smooth (List.replicate 2501 0))
    session (List.replicate 2501 0) (by decide +kernel) (by decide +kernel) rfl
  have short : (written ((sampleCapped.foldl Engine.next (Engine.start 3 1500 0 0)).handleSocketEvent 7
      ⟨true, false⟩ (.smooth (List.replicate 2501 0))).2).map (fun packet => packet.payload.length) =
        [2500] := by decide +kernel
  rcases delivered with none | ⟨ip, hdr, whole⟩
  · rw [none] at short
    cases short
  · rw [whole, List.map_cons, List.length_replicate, List.cons.injEq] at short
    omega

theorem datagram_whole_sample :
    DeliversWhole (List.replicate 2500 0)
      ((sampleCapped.foldl Engine.next (Engine.start 3 1500 0 0)).handleSocketEvent 7 ⟨true, false⟩
        (.smooth (List.replicate 2500 0))).2 := by
  have found : (sampleCapped.foldl Engine.next (Engine.start 3 1500 0 0)).udpFindByFd 7 =
      some ⟨0, ⟨.v4 0x0200000A, htons 40000, .v4 0x01010101, htons 443⟩, 7, 0⟩ := by decide +kernel
  exact (Engine.datagram_whole_iff_reads_whole (by decide +kernel) found ⟨true, false⟩ rfl).mpr
    (.inr (.inr (.inl (by decide +kernel))))

end ThrottleVpn.Tun2Socks
