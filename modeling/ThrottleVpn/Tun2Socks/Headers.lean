import Mathlib.Data.List.Basic
import Mathlib.Tactic.NormNum

/-! Packed packet headers and the Internet checksum.

A header record holds its fields as they lie in memory on the little-endian
hosts the engine is built for, so `htons` and `ntohl` reverse bytes and the
layout writes the low byte first. Ports and addresses are never converted: the
engine compares and swaps them as stored.
-/

set_option autoImplicit false

namespace ThrottleVpn.Tun2Socks

def le16 (x : UInt16) : List UInt8 := [UInt8.ofNat x.toNat, UInt8.ofNat (x.toNat / 256)]

def le32 (x : UInt32) : List UInt8 :=
  [UInt8.ofNat x.toNat, UInt8.ofNat (x.toNat / 256), UInt8.ofNat (x.toNat / 65536),
    UInt8.ofNat (x.toNat / 16777216)]

/-- A 16-bit load; `none` is an access past the end of the buffer. -/
def load16 (bytes : List UInt8) (offset : Nat) : Option UInt16 := do
  let low ← bytes[offset]?
  let high ← bytes[offset + 1]?
  return UInt16.ofNat (low.toNat + 256 * high.toNat)

def load32 (bytes : List UInt8) (offset : Nat) : Option UInt32 := do
  let low ← load16 bytes offset
  let high ← load16 bytes (offset + 2)
  return UInt32.ofNat (low.toNat + 65536 * high.toNat)

def load128 (bytes : List UInt8) (offset : Nat) : Option (Vector UInt8 16) :=
  if offset + 16 ≤ bytes.length then some (Vector.ofFn fun i => bytes.getD (offset + i) 0) else none

def htons (x : UInt16) : UInt16 := UInt16.ofNat (x.toNat % 256 * 256 + x.toNat / 256)

def ntohs (x : UInt16) : UInt16 := htons x

def htonl (x : UInt32) : UInt32 :=
  UInt32.ofNat (x.toNat % 256 * 16777216 + x.toNat / 256 % 256 * 65536 +
    x.toNat / 65536 % 256 * 256 + x.toNat / 16777216)

def ntohl (x : UInt32) : UInt32 := htonl x

theorem htonl_digits {x : UInt32} {a b c d : Nat} (ha : a < 256) (hb : b < 256) (hc : c < 256)
    (hd : d < 256) (same : x.toNat = a + 256 * b + 65536 * c + 16777216 * d) :
    (htonl x).toNat = d + 256 * c + 65536 * b + 16777216 * a := by
  have first : x.toNat % 256 = a := by omega
  have second : x.toNat / 256 % 256 = b := by omega
  have third : x.toNat / 65536 % 256 = c := by omega
  have fourth : x.toNat / 16777216 = d := by omega
  unfold htonl
  rw [UInt32.toNat_ofNat', first, second, third, fourth]
  omega

@[simp] theorem ntohl_htonl (x : UInt32) : ntohl (htonl x) = x := by
  have bound := x.toNat_lt
  have digits : x.toNat = x.toNat % 256 + 256 * (x.toNat / 256 % 256) +
      65536 * (x.toNat / 65536 % 256) + 16777216 * (x.toNat / 16777216) := by omega
  have once := htonl_digits (by omega) (by omega) (by omega) (by omega) digits
  have twice := htonl_digits (x := htonl x) (by omega) (by omega) (by omega) (by omega) once
  apply UInt32.toNat_inj.mp
  unfold ntohl
  rw [twice, ← digits]

@[simp] theorem ntohs_htons (x : UInt16) : ntohs (htons x) = x := by
  have bound := x.toNat_lt
  have once : (htons x).toNat = x.toNat % 256 * 256 + x.toNat / 256 := by
    rw [htons, UInt16.toNat_ofNat']
    omega
  have low : (x.toNat % 256 * 256 + x.toNat / 256) % 256 = x.toNat / 256 := by omega
  have high : (x.toNat % 256 * 256 + x.toNat / 256) / 256 = x.toNat % 256 := by omega
  have twice : (ntohs (htons x)).toNat = x.toNat / 256 * 256 + x.toNat % 256 := by
    simp only [ntohs, htons, UInt16.toNat_ofNat'] at once ⊢
    simp only [once, low, high]
    exact Nat.mod_eq_of_lt (by omega)
  apply UInt16.toNat_inj.mp
  rw [twice]
  omega

/-- `ip_addr_t`: the version tag decides which member of the union is in use. -/
inductive IpAddr where
  | v4 (addr : UInt32)
  | v6 (addr : Vector UInt8 16)
  deriving DecidableEq, Repr

def IpAddr.word (ip : IpAddr) (index : Fin 4) : UInt32 :=
  match ip with
  | .v4 addr => if index = 0 then addr else 0
  | .v6 addr => UInt32.ofNat (addr[4 * index.val].toNat + 256 * addr[4 * index.val + 1].toNat +
      65536 * addr[4 * index.val + 2].toNat + 16777216 * addr[4 * index.val + 3].toNat)

def IpAddr.word0 (ip : IpAddr) : UInt32 := ip.word 0

def IpAddr.word3 (ip : IpAddr) : UInt32 := ip.word 3

def IpAddr.octets (ip : IpAddr) : List UInt8 :=
  le32 (ip.word 0) ++ le32 (ip.word 1) ++ le32 (ip.word 2) ++ le32 (ip.word 3)

structure Ipv4Hdr where
  verIhl : UInt8
  tos : UInt8
  totalLen : UInt16
  ident : UInt16
  flagsFrag : UInt16
  ttl : UInt8
  protocol : UInt8
  hdrCsum : UInt16
  srcAddr : UInt32
  dstAddr : UInt32
  deriving DecidableEq, Repr

def Ipv4Hdr.bytes (hdr : Ipv4Hdr) : List UInt8 :=
  [hdr.verIhl, hdr.tos] ++ le16 hdr.totalLen ++ le16 hdr.ident ++ le16 hdr.flagsFrag ++
    [hdr.ttl, hdr.protocol] ++ le16 hdr.hdrCsum ++ le32 hdr.srcAddr ++ le32 hdr.dstAddr

structure Ipv6Hdr where
  verTcFlow : UInt32
  payloadLen : UInt16
  nextHdr : UInt8
  hopLimit : UInt8
  srcAddr : IpAddr
  dstAddr : IpAddr
  deriving DecidableEq, Repr

def Ipv6Hdr.bytes (hdr : Ipv6Hdr) : List UInt8 :=
  le32 hdr.verTcFlow ++ le16 hdr.payloadLen ++ [hdr.nextHdr, hdr.hopLimit] ++
    hdr.srcAddr.octets ++ hdr.dstAddr.octets

structure TcpHdr where
  srcPort : UInt16
  dstPort : UInt16
  seq : UInt32
  ack : UInt32
  offRsvd : UInt8
  flags : UInt8
  window : UInt16
  csum : UInt16
  urgPtr : UInt16
  deriving DecidableEq, Repr

def TcpHdr.bytes (hdr : TcpHdr) : List UInt8 :=
  le16 hdr.srcPort ++ le16 hdr.dstPort ++ le32 hdr.seq ++ le32 hdr.ack ++
    [hdr.offRsvd, hdr.flags] ++ le16 hdr.window ++ le16 hdr.csum ++ le16 hdr.urgPtr

def TcpHdr.load (segment : List UInt8) : Option TcpHdr := do
  return {
    srcPort := ← load16 segment 0
    dstPort := ← load16 segment 2
    seq := ← load32 segment 4
    ack := ← load32 segment 8
    offRsvd := ← segment[12]?
    flags := ← segment[13]?
    window := ← load16 segment 14
    csum := ← load16 segment 16
    urgPtr := ← load16 segment 18 }

structure UdpHdr where
  srcPort : UInt16
  dstPort : UInt16
  length : UInt16
  csum : UInt16
  deriving DecidableEq, Repr

def UdpHdr.bytes (hdr : UdpHdr) : List UInt8 :=
  le16 hdr.srcPort ++ le16 hdr.dstPort ++ le16 hdr.length ++ le16 hdr.csum

def UdpHdr.load (segment : List UInt8) : Option UdpHdr := do
  return {
    srcPort := ← load16 segment 0
    dstPort := ← load16 segment 2
    length := ← load16 segment 4
    csum := ← load16 segment 6 }

/-! ### Flag masks -/

def tfFin : UInt8 := 0x01
def tfSyn : UInt8 := 0x02
def tfRst : UInt8 := 0x04
def tfPsh : UInt8 := 0x08
def tfAck : UInt8 := 0x10

def hasFlag (flags mask : UInt8) : Bool := flags &&& mask != 0

/-! ### Checksums -/

/-- Add the 16-bit words in network order; an odd last byte is padded on the right. -/
def sumWords (sum : UInt32) : List UInt8 → UInt32
  | high :: low :: rest => sumWords (sum + (high.toUInt32 <<< 8) + low.toUInt32) rest
  | [last] => sum + (last.toUInt32 <<< 8)
  | [] => sum

/-- `while (sum >> 16)`: two rounds leave nothing to carry in 32 bits. -/
def foldCarries (sum : UInt32) : UInt32 :=
  let once := if sum >>> 16 = 0 then sum else (sum &&& (0xFFFF : UInt32)) + (sum >>> 16)
  if once >>> 16 = 0 then once else (once &&& (0xFFFF : UInt32)) + (once >>> 16)

theorem high_half_zero_iff (x : UInt32) : x >>> 16 = 0 ↔ x.toNat < 65536 := by
  rw [← UInt32.toNat_inj]
  simp [Nat.shiftRight_eq_div_pow]

theorem toNat_carried (x : UInt32) :
    ((x &&& (0xFFFF : UInt32)) + (x >>> 16)).toNat = x.toNat % 65536 + x.toNat / 65536 := by
  have lt := x.toNat_lt
  have low : x.toNat &&& 65535 = x.toNat % 65536 := Nat.and_two_pow_sub_one_eq_mod x.toNat 16
  have high : x.toNat >>> 16 = x.toNat / 65536 := Nat.shiftRight_eq_div_pow x.toNat 16
  rw [UInt32.toNat_add, UInt32.toNat_and, UInt32.toNat_shiftRight]
  change ((x.toNat &&& 65535) + x.toNat >>> 16) % 2 ^ 32 = _
  rw [low, high]
  omega

def checksumField (sum : UInt32) : UInt16 := htons (~~~(foldCarries sum)).toUInt16

def checksumCompute (data : List UInt8) : UInt16 := checksumField (sumWords 0 data)

def tcpUdpCsumV4 (src dst : UInt32) (proto : UInt8) (segment : List UInt8) : UInt16 :=
  let low16 : UInt32 := 0xFFFF
  let sum := (ntohl src >>> 16) &&& low16
  let sum := sum + (ntohl src &&& low16)
  let sum := sum + ((ntohl dst >>> 16) &&& low16)
  let sum := sum + (ntohl dst &&& low16)
  let sum := sum + proto.toUInt32
  let sum := sum + (UInt16.ofNat segment.length).toUInt32
  checksumField (sumWords sum segment)

def tcpUdpCsumV6 (src dst : IpAddr) (proto : UInt8) (segment : List UInt8) : UInt16 :=
  let sum := sumWords (sumWords 0 src.octets) dst.octets
  let sum := sum + (UInt16.ofNat segment.length).toUInt32
  let sum := sum + proto.toUInt32
  checksumField (sumWords sum segment)

/-! ### Packets written to the TUN -/

inductive IpHdr where
  | v4 (hdr : Ipv4Hdr)
  | v6 (hdr : Ipv6Hdr)
  deriving DecidableEq, Repr

def IpHdr.bytes : IpHdr → List UInt8
  | .v4 hdr => hdr.bytes
  | .v6 hdr => hdr.bytes

inductive TransportHdr where
  | tcp (hdr : TcpHdr)
  | udp (hdr : UdpHdr)
  deriving DecidableEq, Repr

def TransportHdr.bytes : TransportHdr → List UInt8
  | .tcp hdr => hdr.bytes
  | .udp hdr => hdr.bytes

structure Packet where
  ip : IpHdr
  transport : TransportHdr
  payload : List UInt8
  deriving DecidableEq, Repr

def Packet.bytes (packet : Packet) : List UInt8 :=
  packet.ip.bytes ++ packet.transport.bytes ++ packet.payload

@[simp] theorem length_le16 (x : UInt16) : (le16 x).length = 2 := rfl

@[simp] theorem length_le32 (x : UInt32) : (le32 x).length = 4 := rfl

@[simp] theorem length_octets (ip : IpAddr) : ip.octets.length = 16 := rfl

@[simp] theorem length_ipv4 (hdr : Ipv4Hdr) : hdr.bytes.length = 20 := rfl

@[simp] theorem length_ipv6 (hdr : Ipv6Hdr) : hdr.bytes.length = 40 := rfl

@[simp] theorem length_tcp (hdr : TcpHdr) : hdr.bytes.length = 20 := rfl

@[simp] theorem length_udp (hdr : UdpHdr) : hdr.bytes.length = 8 := rfl

end ThrottleVpn.Tun2Socks
