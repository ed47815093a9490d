import ThrottleVpn.Foundation.OnesComplement
import ThrottleVpn.Tun2Socks.Relay

/-! Checksums of the packets the engine writes, as a receiver verifies them.

The engine sums in 32-bit accumulators and folds at the end. No accumulator
overflows, so the folded value is the one's-complement sum of the words, and
the stored complement completes it to all ones.
-/

set_option autoImplicit false

namespace ThrottleVpn.Tun2Socks

open Foundation

/-! ### The accumulators -/

theorem toNat_shiftLeft8 (byte : UInt8) : (byte.toUInt32 <<< 8).toNat = 256 * byte.toNat := by
  have bound := byte.toNat_lt
  rw [UInt32.toNat_shiftLeft]
  change byte.toNat <<< 8 % 2 ^ 32 = _
  rw [Nat.shiftLeft_eq]
  omega

theorem toNat_sum {x y : UInt32} {m n : Nat} (left : x.toNat = m) (right : y.toNat = n)
    (fits : m + n < 2 ^ 32) : (x + y).toNat = m + n := by
  rw [UInt32.toNat_add, left, right]
  exact Nat.mod_eq_of_lt fits

theorem sumWords_toNat (sum : UInt32) (data : List UInt8)
    (fits : sum.toNat + (networkWords data).sum < 2 ^ 32) :
    (sumWords sum data).toNat = sum.toNat + (networkWords data).sum := by
  induction data using networkWords.induct generalizing sum with
  | case1 high low rest ih =>
    simp only [networkWords, List.sum_cons] at fits ⊢
    have added : (sum + (high.toUInt32 <<< 8) + low.toUInt32).toNat =
        sum.toNat + (256 * high.toNat + low.toNat) := by
      rw [UInt32.toNat_add, UInt32.toNat_add, toNat_shiftLeft8]
      change ((sum.toNat + 256 * high.toNat) % 2 ^ 32 + low.toNat) % 2 ^ 32 = _
      omega
    rw [sumWords, ih _ (by omega), added]
    omega
  | case2 last =>
    simp only [networkWords, List.sum_cons, List.sum_nil] at fits ⊢
    rw [sumWords, UInt32.toNat_add, toNat_shiftLeft8]
    omega
  | case3 => rfl

theorem foldCarries_toNat (sum : UInt32) : (foldCarries sum).toNat = folded sum.toNat := by
  have bound := sum.toNat_lt
  unfold foldCarries
  simp only [high_half_zero_iff]
  by_cases small : sum.toNat < 65536
  · simp only [if_pos small]
    exact (folded_of_lt small).symm
  · simp only [if_neg small]
    split
    next once =>
      rw [← folded_of_lt once, toNat_carried, folded_round]
    next twice =>
      have last : ((sum &&& (0xFFFF : UInt32)) + (sum >>> 16)).toNat % 65536 +
          ((sum &&& (0xFFFF : UInt32)) + (sum >>> 16)).toNat / 65536 < 65536 := by
        rw [toNat_carried]
        omega
      rw [toNat_carried, ← folded_of_lt last, folded_round, toNat_carried, folded_round]

theorem checksumField_word (sum : UInt32) :
    (htons (checksumField sum)).toNat = 65535 - folded sum.toNat := by
  have small := folded_le sum.toNat
  unfold checksumField
  change (ntohs (htons _)).toNat = _
  rw [ntohs_htons, UInt32.toNat_toUInt16, UInt32.toNat_not, foldCarries_toNat]
  change (4294967296 - 1 - folded sum.toNat) % 65536 = _
  omega

/-! ### Words of stored fields -/

theorem networkWords_le16 (x : UInt16) : networkWords (le16 x) = [(htons x).toNat] := by
  have bound := x.toNat_lt
  have high : x.toNat / 256 % 2 ^ 8 = x.toNat / 256 := Nat.mod_eq_of_lt (by omega)
  have whole : (x.toNat % 256 * 256 + x.toNat / 256) % 2 ^ 16 = x.toNat % 256 * 256 + x.toNat / 256 :=
    Nat.mod_eq_of_lt (by omega)
  simp only [le16, networkWords, htons, UInt8.toNat_ofNat', UInt16.toNat_ofNat', List.cons.injEq, and_true,
    high, whole]
  omega

theorem networkWords_le32 (x : UInt32) :
    networkWords (le32 x) = [(ntohl x).toNat / 65536, (ntohl x).toNat % 65536] := by
  have bound := x.toNat_lt
  have swapped : (ntohl x).toNat = x.toNat / 16777216 + 256 * (x.toNat / 65536 % 256) +
      65536 * (x.toNat / 256 % 256) + 16777216 * (x.toNat % 256) :=
    htonl_digits (by omega) (by omega) (by omega) (by omega) (by omega)
  have top : x.toNat / 16777216 % 2 ^ 8 = x.toNat / 16777216 := Nat.mod_eq_of_lt (by omega)
  rw [swapped]
  simp only [le32, networkWords, UInt8.toNat_ofNat', List.cons.injEq, and_true, top]
  omega

theorem sum_le32 (x : UInt32) :
    (networkWords (le32 x)).sum = (ntohl x).toNat / 65536 + (ntohl x).toNat % 65536 := by
  rw [networkWords_le32, List.sum_cons, List.sum_cons, List.sum_nil, Nat.add_zero]

theorem sum_field {before after : List UInt8} (even : before.length % 2 = 0) (field : UInt16) :
    (networkWords (before ++ (le16 field ++ after))).sum =
      (networkWords (before ++ (le16 0 ++ after))).sum + (htons field).toNat := by
  have zero : (htons 0).toNat = 0 := by decide
  rw [networkWords_append even, networkWords_append even, networkWords_append (by simp),
    networkWords_append (by simp)]
  simp only [networkWords_le16, List.sum_append, List.sum_cons, List.sum_nil, zero]
  omega

theorem verifies_of_stored {before after : List UInt8} (even : before.length % 2 = 0) {sum : UInt32}
    (exact : sum.toNat = (networkWords (before ++ (le16 0 ++ after))).sum) :
    onesSum (networkWords (before ++ (le16 (checksumField sum) ++ after))) = 0xFFFF := by
  rw [onesSum_eq_folded (networkWords_lt _), sum_field even, checksumField_word, ← exact]
  exact folded_complement sum.toNat

theorem verifies_of_udpCsum {before after : List UInt8} (even : before.length % 2 = 0) {sum : UInt32}
    (exact : sum.toNat = (networkWords (before ++ (le16 0 ++ after))).sum) :
    onesSum (networkWords (before ++ (le16 (udpCsum (checksumField sum)) ++ after))) = 0xFFFF := by
  unfold udpCsum
  split
  next zero =>
    have word := checksumField_word sum
    rw [zero] at word
    have ones : (htons 0xFFFF).toNat = 65535 := by decide
    rw [onesSum_eq_folded (networkWords_lt _), sum_field even, ones, ← exact]
    exact folded_all_ones word.symm
  next => exact verifies_of_stored even exact

/-! ### Pseudo-headers -/

def pseudoV4 (src dst : UInt32) (proto : UInt8) (length : Nat) : List UInt8 :=
  le32 src ++ (le32 dst ++ [0, proto, UInt8.ofNat (length / 256), UInt8.ofNat length])

def pseudoV6 (src dst : IpAddr) (proto : UInt8) (length : Nat) : List UInt8 :=
  src.octets ++ (dst.octets ++
    [UInt8.ofNat (length / 16777216), UInt8.ofNat (length / 65536), UInt8.ofNat (length / 256),
      UInt8.ofNat length, 0, 0, 0, proto])

def accumulateV4 (src dst : UInt32) (proto : UInt8) (segment : List UInt8) : UInt32 :=
  let low16 : UInt32 := 0xFFFF
  let sum := (ntohl src >>> 16) &&& low16
  let sum := sum + (ntohl src &&& low16)
  let sum := sum + ((ntohl dst >>> 16) &&& low16)
  let sum := sum + (ntohl dst &&& low16)
  let sum := sum + proto.toUInt32
  let sum := sum + (UInt16.ofNat segment.length).toUInt32
  sumWords sum segment

def accumulateV6 (src dst : IpAddr) (proto : UInt8) (segment : List UInt8) : UInt32 :=
  let sum := sumWords (sumWords 0 src.octets) dst.octets
  let sum := sum + (UInt16.ofNat segment.length).toUInt32
  let sum := sum + proto.toUInt32
  sumWords sum segment

theorem toNat_high (x : UInt32) : ((x >>> 16) &&& (0xFFFF : UInt32)).toNat = x.toNat / 65536 := by
  have bound := x.toNat_lt
  rw [UInt32.toNat_and, UInt32.toNat_shiftRight]
  change (x.toNat >>> 16) &&& 65535 = _
  rw [Nat.shiftRight_eq_div_pow, Nat.and_two_pow_sub_one_eq_mod _ 16]
  omega

theorem toNat_low (x : UInt32) : (x &&& (0xFFFF : UInt32)).toNat = x.toNat % 65536 := by
  rw [UInt32.toNat_and]
  exact Nat.and_two_pow_sub_one_eq_mod x.toNat 16

/-- For every segment of up to 65535 bytes the accumulator holds the exact sum of
the pseudo-header and the segment. -/
theorem accumulateV4_exact (src dst : UInt32) (proto : UInt8) {segment : List UInt8}
    (small : segment.length ≤ maxPacketSize) :
    (accumulateV4 src dst proto segment).toNat =
      (networkWords (pseudoV4 src dst proto segment.length ++ segment)).sum := by
  have srcLt := (ntohl src).toNat_lt
  have dstLt := (ntohl dst).toNat_lt
  have protoLt := proto.toNat_lt
  have bound := sum_networkWords_le segment
  unfold maxPacketSize at small
  have exact : (networkWords (pseudoV4 src dst proto segment.length ++ segment)).sum =
      (ntohl src).toNat / 65536 + (ntohl src).toNat % 65536 + (ntohl dst).toNat / 65536 +
        (ntohl dst).toNat % 65536 + proto.toNat + segment.length + (networkWords segment).sum := by
    have even : (pseudoV4 src dst proto segment.length).length % 2 = 0 := by simp [pseudoV4]
    have four : ∀ address : UInt32, (le32 address).length % 2 = 0 := fun _ => by simp
    have tail : (networkWords [0, proto, UInt8.ofNat (segment.length / 256),
        UInt8.ofNat segment.length]).sum = proto.toNat + segment.length := by
      simp only [networkWords, List.sum_cons, List.sum_nil, UInt8.toNat_ofNat', UInt8.toNat_zero]
      omega
    rw [networkWords_append even, pseudoV4, networkWords_append (four src), networkWords_append (four dst),
      List.sum_append, List.sum_append, List.sum_append, sum_le32, sum_le32, tail]
    omega
  have length : (UInt16.ofNat segment.length).toUInt32.toNat = segment.length := by
    rw [UInt16.toNat_toUInt32, UInt16.toNat_ofNat']
    omega
  -- the pseudo-header alone stays below 2^20
  have header : ((((((ntohl src >>> 16) &&& (0xFFFF : UInt32)) + (ntohl src &&& (0xFFFF : UInt32)) +
      ((ntohl dst >>> 16) &&& (0xFFFF : UInt32))) + (ntohl dst &&& (0xFFFF : UInt32))) +
      proto.toUInt32) + (UInt16.ofNat segment.length).toUInt32).toNat =
      (ntohl src).toNat / 65536 + (ntohl src).toNat % 65536 + (ntohl dst).toNat / 65536 +
        (ntohl dst).toNat % 65536 + proto.toNat + segment.length := by
    apply toNat_sum _ length (by omega)
    apply toNat_sum _ (UInt8.toNat_toUInt32 proto) (by omega)
    apply toNat_sum _ (toNat_low _) (by omega)
    apply toNat_sum _ (toNat_high _) (by omega)
    exact toNat_sum (toNat_high _) (toNat_low _) (by omega)
  unfold accumulateV4
  dsimp only
  rw [exact, sumWords_toNat _ _ (by omega), header]

theorem octets_words_le (ip : IpAddr) : (networkWords ip.octets).sum ≤ 8 * 65535 :=
  (sum_networkWords_le ip.octets).trans (by rw [length_octets])

theorem accumulateV6_exact (src dst : IpAddr) (proto : UInt8) {segment : List UInt8}
    (small : segment.length ≤ maxPacketSize) :
    (accumulateV6 src dst proto segment).toNat =
      (networkWords (pseudoV6 src dst proto segment.length ++ segment)).sum := by
  have srcLe := octets_words_le src
  have dstLe := octets_words_le dst
  have protoLt := proto.toNat_lt
  have bound := sum_networkWords_le segment
  unfold maxPacketSize at small
  have exact : (networkWords (pseudoV6 src dst proto segment.length ++ segment)).sum =
      (networkWords src.octets).sum + (networkWords dst.octets).sum + segment.length + proto.toNat +
        (networkWords segment).sum := by
    have even : (pseudoV6 src dst proto segment.length).length % 2 = 0 := by simp [pseudoV6]
    have sixteen : ∀ ip : IpAddr, ip.octets.length % 2 = 0 := fun _ => by simp
    have tail : (networkWords [UInt8.ofNat (segment.length / 16777216),
        UInt8.ofNat (segment.length / 65536), UInt8.ofNat (segment.length / 256),
        UInt8.ofNat segment.length, 0, 0, 0, proto]).sum = segment.length + proto.toNat := by
      simp only [networkWords, List.sum_cons, List.sum_nil, UInt8.toNat_ofNat', UInt8.toNat_zero]
      omega
    rw [networkWords_append even, pseudoV6, networkWords_append (sixteen src),
      networkWords_append (sixteen dst), List.sum_append, List.sum_append, List.sum_append, tail]
    omega
  have length : (UInt16.ofNat segment.length).toUInt32.toNat = segment.length := by
    rw [UInt16.toNat_toUInt32, UInt16.toNat_ofNat']
    omega
  have srcSum := sumWords_toNat 0 src.octets (by rw [UInt32.toNat_zero]; omega)
  have bothSum := sumWords_toNat (sumWords 0 src.octets) dst.octets (by rw [srcSum, UInt32.toNat_zero]; omega)
  rw [srcSum, UInt32.toNat_zero, Nat.zero_add] at bothSum
  have header : ((sumWords (sumWords 0 src.octets) dst.octets + (UInt16.ofNat segment.length).toUInt32) +
      proto.toUInt32).toNat =
      (networkWords src.octets).sum + (networkWords dst.octets).sum + segment.length + proto.toNat := by
    apply toNat_sum _ (UInt8.toNat_toUInt32 proto) (by omega)
    exact toNat_sum bothSum length (by omega)
  unfold accumulateV6
  dsimp only
  rw [exact, sumWords_toNat _ _ (by omega), header]

/-! ### Written packets -/

def Packet.segment (packet : Packet) : List UInt8 := packet.transport.bytes ++ packet.payload

def Packet.pseudoHeader (packet : Packet) : List UInt8 :=
  match packet.ip with
  | .v4 hdr => pseudoV4 hdr.srcAddr hdr.dstAddr hdr.protocol packet.segment.length
  | .v6 hdr => pseudoV6 hdr.srcAddr hdr.dstAddr hdr.nextHdr packet.segment.length

def Packet.blank (packet : Packet) : Packet where
  ip := match packet.ip with
    | .v4 hdr => .v4 { hdr with hdrCsum := 0 }
    | .v6 hdr => .v6 hdr
  transport := match packet.transport with
    | .tcp hdr => .tcp { hdr with csum := 0 }
    | .udp hdr => .udp { hdr with csum := 0 }
  payload := packet.payload

/-- The transport accumulator of the writer. -/
def Packet.accumulator (packet : Packet) : UInt32 :=
  match packet.ip with
  | .v4 hdr => accumulateV4 hdr.srcAddr hdr.dstAddr hdr.protocol packet.blank.segment
  | .v6 hdr => accumulateV6 hdr.srcAddr hdr.dstAddr hdr.nextHdr packet.blank.segment

/-- The checksums as the writers compute and store them. -/
structure Summed (packet : Packet) : Prop where
  header : ∀ hdr, packet.ip = .v4 hdr →
    hdr.hdrCsum = checksumField (sumWords 0 { hdr with hdrCsum := 0 }.bytes)
  tcp : ∀ hdr, packet.transport = .tcp hdr → hdr.csum = checksumField packet.accumulator
  udp : ∀ hdr, packet.transport = .udp hdr → hdr.csum = udpCsum (checksumField packet.accumulator)
  size : packet.segment.length ≤ maxPacketSize

/-- What a receiver checks, and that the 32-bit accumulators held the exact sums. -/
structure Verifies (packet : Packet) : Prop where
  header : ∀ hdr, packet.ip = .v4 hdr → onesSum (networkWords hdr.bytes) = 0xFFFF
  transport : onesSum (networkWords (packet.pseudoHeader ++ packet.segment)) = 0xFFFF
  udpNonzero : ∀ hdr, packet.transport = .udp hdr → hdr.csum ≠ 0
  headerExact : ∀ hdr, packet.ip = .v4 hdr → (sumWords 0 { hdr with hdrCsum := 0 }.bytes).toNat =
    (networkWords { hdr with hdrCsum := 0 }.bytes).sum
  transportExact : packet.accumulator.toNat =
    (networkWords (packet.pseudoHeader ++ packet.blank.segment)).sum

theorem udpCsum_ne_zero (csum : UInt16) : udpCsum csum ≠ 0 := by
  unfold udpCsum
  split
  · decide
  · assumption

theorem blank_length (packet : Packet) : packet.blank.segment.length = packet.segment.length := by
  unfold Packet.segment Packet.blank
  cases packet.transport <;> simp [TransportHdr.bytes]

theorem accumulator_exact {packet : Packet} (size : packet.segment.length ≤ maxPacketSize) :
    packet.accumulator.toNat = (networkWords (packet.pseudoHeader ++ packet.blank.segment)).sum := by
  have same := blank_length packet
  unfold Packet.accumulator Packet.pseudoHeader
  rw [← same] at size ⊢
  cases packet.ip with
  | v4 hdr => exact accumulateV4_exact _ _ _ size
  | v6 hdr => exact accumulateV6_exact _ _ _ size

theorem pseudoHeader_even (packet : Packet) : packet.pseudoHeader.length % 2 = 0 := by
  unfold Packet.pseudoHeader
  cases packet.ip <;> simp [pseudoV4, pseudoV6]

theorem headerSum_exact (hdr : Ipv4Hdr) :
    (sumWords 0 hdr.bytes).toNat = (networkWords hdr.bytes).sum := by
  have bound := sum_networkWords_le hdr.bytes
  rw [length_ipv4] at bound
  have exact := sumWords_toNat 0 hdr.bytes (by rw [UInt32.toNat_zero]; omega)
  rwa [UInt32.toNat_zero, Nat.zero_add] at exact

theorem segment_split {packet : Packet} :
    (∀ hdr, packet.transport = .tcp hdr → ∃ before after, before.length % 2 = 0 ∧
      packet.pseudoHeader ++ packet.segment = before ++ (le16 hdr.csum ++ after) ∧
      packet.pseudoHeader ++ packet.blank.segment = before ++ (le16 0 ++ after)) ∧
    ∀ hdr, packet.transport = .udp hdr → ∃ before after, before.length % 2 = 0 ∧
      packet.pseudoHeader ++ packet.segment = before ++ (le16 hdr.csum ++ after) ∧
      packet.pseudoHeader ++ packet.blank.segment = before ++ (le16 0 ++ after) := by
  have even := pseudoHeader_even packet
  generalize packet.pseudoHeader = pseudo at even
  constructor
  · intro hdr same
    refine ⟨pseudo ++ hdr.bytes.take 16, hdr.bytes.drop 18 ++ packet.payload, ?_, ?_, ?_⟩
    · rw [List.length_append, List.length_take, length_tcp]
      omega
    · unfold Packet.segment
      rw [same, List.append_assoc]
      rfl
    · unfold Packet.segment Packet.blank
      rw [same, List.append_assoc]
      rfl
  · intro hdr same
    refine ⟨pseudo ++ hdr.bytes.take 6, packet.payload, ?_, ?_, ?_⟩
    · rw [List.length_append, List.length_take, length_udp]
      omega
    · unfold Packet.segment
      rw [same, List.append_assoc]
      rfl
    · unfold Packet.segment Packet.blank
      rw [same, List.append_assoc]
      rfl

/-- Checksums computed the writers' way verify at the receiver. -/
theorem Summed.verifies {packet : Packet} (summed : Summed packet) : Verifies packet where
  header hdr same := by
    have stored : hdr.bytes = hdr.bytes.take 10 ++ (le16 hdr.hdrCsum ++ hdr.bytes.drop 12) := rfl
    have blank : { hdr with hdrCsum := 0 }.bytes =
        hdr.bytes.take 10 ++ (le16 0 ++ hdr.bytes.drop 12) := rfl
    rw [stored, summed.header hdr same]
    exact verifies_of_stored (by simp) ((headerSum_exact _).trans (by rw [blank]))
  transport := by
    have exact := accumulator_exact summed.size
    cases same : packet.transport with
    | tcp hdr =>
      obtain ⟨before, after, even, stored, blank⟩ := segment_split.1 hdr same
      rw [stored, summed.tcp hdr same]
      exact verifies_of_stored even (exact.trans (by rw [blank]))
    | udp hdr =>
      obtain ⟨before, after, even, stored, blank⟩ := segment_split.2 hdr same
      rw [stored, summed.udp hdr same]
      exact verifies_of_udpCsum even (exact.trans (by rw [blank]))
  udpNonzero hdr same := by
    rw [summed.udp hdr same]
    exact udpCsum_ne_zero _
  headerExact hdr _ := headerSum_exact { hdr with hdrCsum := 0 }
  transportExact := accumulator_exact summed.size

theorem packetV4_summed (session : TcpSession) (flags : UInt8) {chunk : List UInt8}
    (fits : 40 + chunk.length ≤ maxPacketSize) : Summed (session.packetV4 flags chunk) where
  header hdr same := by
    cases same
    rfl
  tcp hdr same := by
    cases same
    rfl
  udp hdr same := by cases same
  size := by
    simp only [Packet.segment, TcpSession.packetV4, TransportHdr.bytes, List.length_append, length_tcp]
    omega

theorem packetV6_summed (session : TcpSession) (flags : UInt8) {chunk : List UInt8}
    (fits : 60 + chunk.length ≤ maxPacketSize) : Summed (session.packetV6 flags chunk) where
  header hdr same := by cases same
  tcp hdr same := by
    cases same
    rfl
  udp hdr same := by cases same
  size := by
    simp only [Packet.segment, TcpSession.packetV6, TransportHdr.bytes, List.length_append, length_tcp]
    omega

theorem writeTcp_summed (mtu : Int) (session : TcpSession) (flags : UInt8) (payload : List UInt8) :
    ∀ packet ∈ (writeTcp mtu session flags payload).2, Summed packet := by
  intro packet sent
  cases version : session.flow.src with
  | v4 addr =>
    simp only [writeTcp, version] at sent
    obtain ⟨seq, chunkFlags, chunk, rfl, -, fits⟩ :=
      ((segmentLoop_frame _ flags payload _ 0 session).2 packet sent).built
    exact packetV4_summed _ _ fits
  | v6 addr =>
    simp only [writeTcp, version] at sent
    obtain ⟨seq, chunkFlags, chunk, rfl, -, fits⟩ :=
      ((segmentLoop_frame _ flags payload _ 0 session).2 packet sent).built
    exact packetV6_summed _ _ fits

theorem writeUdp_summed (session : UdpSession) (payload : List UInt8) :
    ∀ packet ∈ writeUdp session payload, Summed packet := by
  intro packet sent
  cases version : session.flow.src with
  | v4 addr =>
    simp only [writeUdp, version, writeUdpV4] at sent
    split at sent
    · cases sent
    next fits =>
      obtain rfl := List.mem_singleton.mp sent
      refine ⟨fun hdr same => ?_, fun hdr same => ?_, fun hdr same => ?_, ?_⟩
      · cases same
        rfl
      · cases same
      · cases same
        rfl
      · simp only [Packet.segment, TransportHdr.bytes, List.length_append, length_udp]
        omega
  | v6 addr =>
    simp only [writeUdp, version, writeUdpV6] at sent
    split at sent
    · cases sent
    next fits =>
      obtain rfl := List.mem_singleton.mp sent
      refine ⟨fun hdr same => ?_, fun hdr same => ?_, fun hdr same => ?_, ?_⟩
      · cases same
      · cases same
      · cases same
        rfl
      · simp only [Packet.segment, TransportHdr.bytes, List.length_append, length_udp]
        omega

/-- Every packet the four writers write passes the receiver's verification, and
no 32-bit accumulator overflows on the way. -/
theorem written_packets_verify (mtu : Int) :
    (∀ (session : TcpSession) (flags : UInt8) (payload : List UInt8),
      ∀ packet ∈ (writeTcp mtu session flags payload).2, Verifies packet) ∧
    ∀ (session : UdpSession) (payload : List UInt8), ∀ packet ∈ writeUdp session payload,
      Verifies packet :=
  ⟨fun session flags payload packet sent => (writeTcp_summed mtu session flags payload packet sent).verifies,
    fun session payload packet sent => (writeUdp_summed session payload packet sent).verifies⟩

theorem written_packets_verify_sample :
    (∃ packet ∈ (writeTcp 1500 sampleSession (tfPsh ||| tfAck) [1, 2, 3]).2, Verifies packet) ∧
      (∃ packet ∈ (writeTcp 1500 (.fresh 0 sampleFlow6 1000 7 0 0) (tfPsh ||| tfAck) [1, 2, 3]).2,
        Verifies packet) ∧
      (∃ packet ∈ writeUdp ⟨0, sampleFlow, 7, 0⟩ [1, 2, 3], Verifies packet) ∧
      ∃ packet ∈ writeUdp ⟨0, sampleFlow6, 7, 0⟩ [1, 2, 3], Verifies packet := by
  have whole {α : Type} (packet : α) : packet ∈ [packet] := List.mem_singleton_self packet
  refine ⟨⟨_, whole _, ?_⟩, ⟨_, whole _, ?_⟩, ⟨_, whole _, ?_⟩, _, whole _, ?_⟩
  · exact (written_packets_verify 1500).1 sampleSession (tfPsh ||| tfAck) [1, 2, 3] _ (whole _)
  · exact (written_packets_verify 1500).1 (.fresh 0 sampleFlow6 1000 7 0 0) (tfPsh ||| tfAck) [1, 2, 3] _ (whole _)
  · exact (written_packets_verify 1500).2 ⟨0, sampleFlow, 7, 0⟩ [1, 2, 3] _ (whole _)
  · exact (written_packets_verify 1500).2 ⟨0, sampleFlow6, 7, 0⟩ [1, 2, 3] _ (whole _)

end ThrottleVpn.Tun2Socks
