import ThrottleVpn.Tun2Socks.State

/-! Parsing of packets read from the TUN device.

The checks of `engine_loop`, `handle_tcp_tun` and `handle_udp_tun`, in their
order, before a handler does anything else. Every load from the packet is
explicit, and one past its end is a rejection of its own kind.
-/

set_option autoImplicit false

namespace ThrottleVpn.Tun2Socks

/-- Why a packet is not handled: a check of the source refused it, or a header
access left the packet. -/
inductive Reject where
  | drop
  | outOfBounds
  deriving DecidableEq, Repr

def Reject.effects : Reject → List Effect
  | .drop => []
  | .outOfBounds => [.outOfBounds]

def access {α : Type} (loaded : Option α) : Except Reject α :=
  match loaded with
  | some value => .ok value
  | none => .error .outOfBounds

structure IpPacket where
  src : IpAddr
  dst : IpAddr
  proto : UInt8
  hdrLen : Nat
  deriving DecidableEq, Repr

def parseIp (packet : List UInt8) : Except Reject IpPacket := do
  if packet.length = 0 then throw .drop
  let first ← access packet[0]?
  let version := first.toNat / 16
  if version = 4 ∧ 20 ≤ packet.length then
    let hdrLen := first.toNat % 16 * 4
    if hdrLen < 20 ∨ packet.length < hdrLen then throw .drop
    return {
      src := .v4 (← access (load32 packet 12))
      dst := .v4 (← access (load32 packet 16))
      proto := ← access packet[9]?
      hdrLen := hdrLen }
  else if version = 6 ∧ 40 ≤ packet.length then
    return {
      src := .v6 (← access (load128 packet 8))
      dst := .v6 (← access (load128 packet 24))
      proto := ← access packet[6]?
      hdrLen := 40 }
  else throw .drop

def parseTcp (segment : List UInt8) : Except Reject (TcpHdr × List UInt8) := do
  if segment.length < 20 then throw .drop
  let hdr ← access (TcpHdr.load segment)
  let hdrLen := hdr.offRsvd.toNat / 16 * 4
  if hdrLen < 20 ∨ segment.length < hdrLen then throw .drop
  return (hdr, segment.drop hdrLen)

def parseUdp (segment : List UInt8) : Except Reject (UdpHdr × List UInt8) := do
  if segment.length < 8 then throw .drop
  let hdr ← access (UdpHdr.load segment)
  let payLen : Int := (ntohs hdr.length).toNat - 8
  if payLen < 0 ∨ (segment.length : Int) - 8 < payLen then throw .drop
  return (hdr, (segment.drop 8).take payLen.toNat)

end ThrottleVpn.Tun2Socks
