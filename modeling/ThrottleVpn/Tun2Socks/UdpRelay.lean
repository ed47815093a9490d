import ThrottleVpn.Tun2Socks.Datagrams
import ThrottleVpn.Tun2Socks.Metering
import ThrottleVpn.Tun2Socks.PollSet

/-! UDP through the engine, as the two ends of a flow see it.

Each datagram of a client is handed once and whole to a socket that is connected to
where it goes, and each non-empty datagram that `recv` returns on such a socket is
written to the device once and whole, in the order in which they came.
-/

set_option autoImplicit false

namespace ThrottleVpn.Tun2Socks

open Foundation

section
variable (serves : Nat → Prop) [DecidablePred serves] (flow : Flow)

def sent (effects : List Effect) : List (List UInt8) :=
  effects.flatMap fun
    | .send fd data _ => if serves fd then [data] else []
    | _ => []

/-- The datagrams that some sockets bring. An empty one is none: the source takes it for
the end of a stream and drops it. -/
def brought (effects : List Effect) : List (List UInt8) :=
  effects.flatMap fun
    | .recv fd data => if serves fd ∧ data ≠ [] then [data] else []
    | _ => []

def Packet.datagram (packet : Packet) : List (List UInt8) :=
  match decode packet.bytes with
  | .ok (.udp target _ payload) => if target = flow.reversed then [payload] else []
  | _ => []

def told (effects : List Effect) : List (List UInt8) :=
  effects.flatMap fun
    | .tunWrite packets => packets.flatMap (Packet.datagram flow)
    | _ => []

theorem sent_append (first second : List Effect) :
    sent serves (first ++ second) = sent serves first ++ sent serves second := List.flatMap_append

theorem brought_append (first second : List Effect) :
    brought serves (first ++ second) = brought serves first ++ brought serves second := List.flatMap_append

theorem told_append (first second : List Effect) :
    told flow (first ++ second) = told flow first ++ told flow second := List.flatMap_append

variable {serves flow}

theorem sent_quiet {effects : List Effect} (quiet : ∀ effect ∈ effects, effect.Quiet) :
    sent serves effects = [] := by
  refine List.flatMap_eq_nil_iff.mpr fun effect member => ?_
  cases effect <;> first | rfl | exact (quiet _ member).elim

theorem told_quiet {effects : List Effect} (quiet : ∀ effect ∈ effects, effect.Quiet) :
    told flow effects = [] := by
  refine List.flatMap_eq_nil_iff.mpr fun effect member => ?_
  cases effect <;> first | rfl | exact (quiet _ member).elim

theorem brought_bare {effects : List Effect} (bare : ∀ effect ∈ effects, effect.Bare) :
    brought serves effects = [] := by
  refine List.flatMap_eq_nil_iff.mpr fun effect member => ?_
  cases effect with
  | recv fd data =>
    have empty : data = [] := List.eq_nil_of_length_eq_zero (bare _ member).1
    simp [empty]
  | _ => rfl

theorem sent_on {effects : List Effect} {fd : Nat} (on : ∀ effect ∈ effects, effect.On fd) (other : ¬serves fd) :
    sent serves effects = [] := by
  refine List.flatMap_eq_nil_iff.mpr fun effect member => ?_
  cases effect with
  | send used data result =>
    obtain rfl : used = fd := on _ member
    exact if_neg other
  | _ => rfl

theorem brought_on {effects : List Effect} {fd : Nat} (on : ∀ effect ∈ effects, effect.On fd)
    (other : ¬serves fd) :
    brought serves effects = [] := by
  refine List.flatMap_eq_nil_iff.mpr fun effect member => ?_
  cases effect with
  | recv used data =>
    obtain rfl : used = fd := on _ member
    exact if_neg fun both => other both.1
  | _ => rfl

end

theorem payloads_flatten (protocol : Protocol) (flow : Flow) (inputs : List Input) :
    (inputs.map fun input => payloads protocol flow [input]).flatten = payloads protocol flow inputs := by
  induction inputs with
  | nil => rfl
  | cons input rest ih =>
    rw [List.map_cons, List.flatten_cons, ih, ← payloads_append]
    rfl

theorem payloads_other {protocol : Protocol} {flow : Flow} {queued : List UInt8} {replies : TunReplies}
    {decoded : Decoded} (same : decode (queued.take maxPacketSize) = .ok decoded)
    (other : ¬(decoded.protocol = protocol ∧ decoded.flow = flow)) :
    payloads protocol flow [.tunReadable queued replies] = [] := by
  simp [payloads, Input.decoded?, same, Except.toOption, other]

theorem Reaches.payloads_udp {session : TcpSession} {input : Input} {event : SessionEvent}
    (reaches : Reaches session input event) (flow : Flow) : payloads .udp flow [input] = [] := by
  cases reaches with
  | segment decoded known => exact payloads_other decoded fun both => nomatch both.1
  | writable | received | remoteClosed | recvFailed => rfl

namespace Sessions
variable {mtu : Int} {sessions next : Sessions} {input : Input} {effects : List Effect} {kernel later : Kernel}
  {flow : Flow} {serves : Nat → Prop} [DecidablePred serves]

/-- What comes from the client of a flow is handed to the socket of the flow. -/
theorem Move.sent_udp (move : Move mtu sessions (input, effects) next) (apart : sessions.Apart kernel)
    (apart' : next.Apart later)
    (own : ∀ fd, serves fd ↔ ∃ session, next.udp flow = some session ∧ session.sockFd = fd)
    (forwarded : ∀ queued replies hdr payload, input = .tunReadable queued replies →
      decode (queued.take maxPacketSize) = .ok (.udp flow hdr payload) →
        ∃ fd result, .send fd payload result ∈ effects) :
    sent serves effects = payloads .udp flow [input] := by
  generalize same : (input, effects) = label at move
  cases move with
  | @handled input' session event pause known reaches pauses =>
    obtain ⟨rfl, rfl⟩ := Prod.mk.inj same
    -- the socket of a TCP session is not the socket of a UDP flow
    have other : ¬serves session.sockFd := by
      rw [own]
      rintro ⟨rival, there, fd⟩
      exact apart.disjoint _ _ _ _ known there fd.symm
    rw [reaches.payloads_udp, sent_append, sent_append, sent_append, sent_quiet (event.call_quiet session.sockFd),
      sent_quiet fun effect member => (pauses effect member).quiet,
      sent_on (session.handle_on mtu event) other, sent_quiet (session.handle mtu event).closing_quiet]
    rfl
  | @opened queued replies target hdr payload pause decoded opens pauses =>
    obtain ⟨rfl, rfl⟩ := Prod.mk.inj same
    rw [payloads_other decoded fun both => (by cases both.1), sent_append, sent_append,
      sent_quiet fun effect member => (pauses effect member).quiet, closing_eq, sent_quiet (closings_quiet _),
      sent_quiet (replies.opening_quiet _ _ _)]
    rfl
  | @relayed queued replies session hdr payload pause decoded known pauses =>
    obtain ⟨rfl, rfl⟩ := Prod.mk.inj same
    rw [sent_append, sent_quiet fun effect member => (pauses effect member).quiet]
    by_cases here : session.flow = flow
    · subst here
      -- the datagram was sent by this flow, and its socket takes it
      have mine : serves session.sockFd := (own _).mpr ⟨_, Function.update_self .., rfl⟩
      have arrived : payloads .udp session.flow [.tunReadable queued replies] = [payload] :=
        payloads_arrived decoded
      rw [arrived]
      simp [sent, mine]
    · have other : ¬serves session.sockFd := by
        rw [own]
        rintro ⟨rival, there, fd⟩
        exact here (apart'.udpOnce _ _ _ _ (Function.update_self ..) there fd.symm)
      rw [payloads_other decoded fun both => here both.2]
      simp [sent, other]
  | @associated queued replies target hdr payload fd pause decoded unknown opens pauses =>
    obtain ⟨rfl, rfl⟩ := Prod.mk.inj same
    rw [sent_append, sent_append, sent_quiet fun effect member => (pauses effect member).quiet,
      sent_quiet (replies.opening_quiet _ _ _)]
    by_cases here : target = flow
    · subst here
      -- the socket that is created is the socket of the flow from now on
      have mine : serves fd := (own _).mpr ⟨_, Function.update_self .., rfl⟩
      have arrived : payloads .udp target [.tunReadable queued replies] = [payload] := payloads_arrived decoded
      rw [arrived]
      simp [sent, mine]
    · have other : ¬serves fd := by
        rw [own]
        rintro ⟨rival, there, same⟩
        exact here (apart'.udpOnce _ _ _ _ (Function.update_self ..) there same.symm)
      rw [payloads_other decoded fun both => here both.2]
      simp [sent, other]
  | @refused queued replies target hdr payload pause decoded opens pauses =>
    obtain ⟨rfl, rfl⟩ := Prod.mk.inj same
    have quiet : ∀ effect ∈ pause ++ replies.opening .udp target ⟨true, false⟩, effect.Quiet :=
      List.forall_mem_append.mpr ⟨fun effect member => (pauses effect member).quiet, replies.opening_quiet _ _ _⟩
    by_cases here : target = flow
    · subst here
      -- a refused socket would lose the datagram, which `forwarded` excludes
      obtain ⟨fd, result, member⟩ := forwarded _ _ _ _ rfl decoded
      exact (quiet _ member).elim
    · rw [payloads_other decoded fun both => here both.2, sent_quiet quiet]
  | @delivered events replies session data pause known pauses =>
    obtain ⟨rfl, rfl⟩ := Prod.mk.inj same
    rw [List.cons_append, ← List.singleton_append, sent_append, sent_append,
      sent_quiet fun effect member => (pauses effect member).quiet]
    rfl
  | swept =>
    obtain ⟨rfl, rfl⟩ := Prod.mk.inj same
    rw [sent_quiet (closings_quiet _)]
    rfl
  | idle quiet ignored =>
    obtain ⟨rfl, rfl⟩ := Prod.mk.inj same
    have mute := forall_idle quiet (fun _ idle => idle.quiet) fun _ => trivial
    rw [sent_quiet mute]
    cases ignored with
    | dropped rejected => simp [payloads, Input.decoded?, rejected, Except.toOption]
    | stray decoded known unknown => rw [payloads_other decoded fun both => (by cases both.1)]
    | unattached | starved | silent | setRates => rfl

/-- What the socket of a flow brings is told to the client of the flow. -/
theorem Move.told_udp (move : Move mtu sessions (input, effects) next) (sound : sessions.Sound)
    (apart : sessions.Apart kernel)
    (own : ∀ fd, serves fd ↔ ∃ session, sessions.udp flow = some session ∧ session.sockFd = fd)
    (fits : ∀ target session events replies data, sessions.udp target = some session →
      input = .socketReady session.sockFd events replies → .recv session.sockFd data ∈ effects →
      session.flow.udpHeaders + data.length ≤ maxPacketSize) :
    told flow effects = brought serves effects := by
  generalize same : (input, effects) = label at move
  cases move with
  | @handled input' session event pause known reaches pauses =>
    obtain ⟨rfl, rfl⟩ := Prod.mk.inj same
    have other : ¬serves session.sockFd := by
      rw [own]
      rintro ⟨rival, there, fd⟩
      exact apart.disjoint _ _ _ _ known there fd.symm
    -- segments are no datagrams, whatever they carry
    have segments : told flow (session.handle mtu event).effects = [] := by
      refine List.flatMap_eq_nil_iff.mpr fun effect member => ?_
      cases effect with
      | tunWrite packets =>
        obtain ⟨sender, flags, payload, sends, rfl, -⟩ :=
          TcpSession.handle_writes (sound.live _ _ known) mtu event member
        refine List.flatMap_eq_nil_iff.mpr fun packet inside => ?_
        obtain ⟨index, place⟩ := List.mem_iff_getElem?.mp inside
        obtain ⟨⟨hdr, decoded, -⟩, -⟩ := writeTcp_pass (by rw [sends]; exact sound.uniform _ _ known) place
        unfold Packet.datagram
        rw [decoded]
      | _ => rfl
    rw [told_append, told_append, told_append, told_quiet (event.call_quiet session.sockFd),
      told_quiet fun effect member => (pauses effect member).quiet, segments,
      told_quiet (session.handle mtu event).closing_quiet, brought_append, brought_append, brought_append,
      brought_on (event.call_on session.sockFd) other,
      brought_bare fun effect member => (pauses effect member).bare,
      brought_on (session.handle_on mtu event) other, brought_bare (session.handle mtu event).closing_bare]
  | @opened queued replies target hdr payload pause decoded opens pauses =>
    obtain ⟨rfl, rfl⟩ := Prod.mk.inj same
    rw [closing_eq, told_quiet, brought_bare]
    · exact List.forall_mem_append.mpr ⟨fun effect member => (pauses effect member).bare,
        List.forall_mem_append.mpr ⟨Engine.closings_bare _, replies.opening_bare _ _ _⟩⟩
    · exact List.forall_mem_append.mpr ⟨fun effect member => (pauses effect member).quiet,
        List.forall_mem_append.mpr ⟨closings_quiet _, replies.opening_quiet _ _ _⟩⟩
  | @relayed queued replies session hdr payload pause decoded known pauses =>
    obtain ⟨rfl, rfl⟩ := Prod.mk.inj same
    rw [told_append, brought_append, told_quiet fun effect member => (pauses effect member).quiet,
      brought_bare fun effect member => (pauses effect member).bare]
    rfl
  | @associated queued replies target hdr payload fd pause decoded unknown opens pauses =>
    obtain ⟨rfl, rfl⟩ := Prod.mk.inj same
    rw [told_append, told_append, brought_append, brought_append,
      told_quiet fun effect member => (pauses effect member).quiet, told_quiet (replies.opening_quiet _ _ _),
      brought_bare fun effect member => (pauses effect member).bare, brought_bare (replies.opening_bare _ _ _)]
    rfl
  | @refused queued replies target hdr payload pause decoded opens pauses =>
    obtain ⟨rfl, rfl⟩ := Prod.mk.inj same
    rw [told_quiet, brought_bare]
    · exact List.forall_mem_append.mpr ⟨fun effect member => (pauses effect member).bare,
        replies.opening_bare _ _ _⟩
    · exact List.forall_mem_append.mpr ⟨fun effect member => (pauses effect member).quiet,
        replies.opening_quiet _ _ _⟩
  | @delivered events replies session data pause known pauses nonempty received =>
    obtain ⟨rfl, rfl⟩ := Prod.mk.inj same
    have room := fits _ session events replies data known rfl List.mem_cons_self
    have written := writeUdp_cases session data
    rw [if_neg (by omega)] at written
    obtain ⟨ip, hdr, packet⟩ := written
    have member : (⟨ip, .udp hdr, data⟩ : Packet) ∈ writeUdp session data := by
      rw [packet]
      exact List.mem_singleton_self _
    obtain ⟨hdr', decoded, -⟩ := (writeUdp_carries (sound.udpUniform _ _ known) member).decoded
    -- the packet goes back along the flow, so its 4-tuple tells whose it is
    have mine : serves session.sockFd ↔ session.flow.reversed = flow.reversed := by
      rw [own]
      constructor
      · rintro ⟨rival, there, fd⟩
        rw [apart.udpOnce _ _ _ _ there known fd]
      · intro same
        have here : session.flow = flow := by
          rw [← session.flow.reversed_reversed, same, flow.reversed_reversed]
        exact ⟨session, here ▸ known, rfl⟩
    rw [List.cons_append, ← List.singleton_append, told_append, told_append, brought_append, brought_append,
      told_quiet fun effect member => (pauses effect member).quiet,
      brought_bare fun effect member => (pauses effect member).bare, packet]
    simp only [told, brought, Packet.datagram, decoded, mine, nonempty, List.flatMap_cons, List.flatMap_nil,
      List.append_nil, List.nil_append, ne_eq, not_false_eq_true, and_true]
  | swept =>
    obtain ⟨rfl, rfl⟩ := Prod.mk.inj same
    rw [told_quiet (closings_quiet _), brought_bare (Engine.closings_bare _)]
  | idle quiet =>
    obtain ⟨rfl, rfl⟩ := Prod.mk.inj same
    have mute := forall_idle quiet (fun _ idle => idle.quiet) fun _ => trivial
    have bare := forall_idle quiet (fun _ idle => idle.bare) fun _ => ⟨rfl, rfl⟩
    rw [told_quiet mute, brought_bare bare]

end Sessions

namespace Engine

/-- A datagram of the flow finds a socket, or gets one. -/
def Associates (engine : Engine) (flow : Flow) : Input → Prop
  | .tunReadable queued replies => (Input.tunReadable queued replies).flow? = some flow →
    engine.udpFind flow = none → replies.opens.isSome
  | _ => True

instance (engine : Engine) (flow : Flow) : (input : Input) → Decidable (engine.Associates flow input)
  | .tunReadable _ _ => inferInstanceAs (Decidable (_ → _ → _))
  | .socketReady _ _ _ | .cleanup _ | .setRates _ _ => inferInstanceAs (Decidable True)

theorem Associates.forwarded {engine : Engine} {flow : Flow} {queued : List UInt8} {replies : TunReplies}
    {hdr : UdpHdr} {payload : List UInt8} (associates : engine.Associates flow (.tunReadable queued replies))
    (decoded : decode (queued.take maxPacketSize) = .ok (.udp flow hdr payload)) :
    ∃ fd result, .send fd payload result ∈ (engine.step (.tunReadable queued replies)).2 := by
  have known := associates (by simp [Input.flow?, Input.decoded?, decoded, Except.toOption, Decoded.flow])
  show ∃ fd result, .send fd payload result ∈ (engine.handleTunReadable replies queued).2
  rw [handleTunReadable_eq, decoded]
  dsimp only
  have same : (engine.chargeUpload replies.delay (queued.take maxPacketSize).length).1.udpFind flow =
      engine.udpFind flow := by
    unfold udpFind
    rw [chargeUpload_udpTable]
  generalize engine.chargeUpload replies.delay (queued.take maxPacketSize).length = charged at *
  unfold udpSession
  rw [same]
  cases found : engine.udpFind flow with
  | some session => exact ⟨session.sockFd, replies.send, by simp⟩
  | none =>
    obtain ⟨fd, opens⟩ := Option.isSome_iff_exists.mp (known found)
    dsimp only
    rw [udpCreate_spec, opens]
    exact ⟨fd, replies.send, by simp⟩

theorem readUdp_downloads (engine : Engine) (session : UdpSession) (replies : SocketReplies) :
    ∀ effect ∈ (engine.readUdp session replies).2, effect.downloaded ≤ replies.recv.queued.length := by
  unfold readUdp
  generalize engine.readSize replies.availableDelay = read
  obtain ⟨read, size⟩ := read
  cases replies.recv with
  | wouldBlock | failed => simp
  | bytes queued =>
    dsimp only
    split
    · simp [Effect.downloaded]
    · have pauses := chargeDownload_idle read replies.consumeDelay (queued.take size).length
      simp only [List.cons_append, List.forall_mem_cons, List.forall_mem_append, List.not_mem_nil, false_imp_iff,
        implies_true, and_true]
      refine ⟨?_, fun effect member => ?_, Nat.zero_le _⟩
      · simp [Effect.downloaded, RecvResult.queued]
      · rw [(pauses effect member).bare.1]
        exact Nat.zero_le _

end Engine

namespace System
variable {system : System} (owns : system.Owns) {input : Input} {flow : Flow}
include owns

theorem Owns.datagram_fits (fits : system.engine.DatagramsFit input) {target : Flow} {session : UdpSession}
    {events : EpollEvents} {replies : SocketReplies} {data : List UInt8}
    (known : system.engine.sessions.udp target = some session)
    (ready : input = .socketReady session.sockFd events replies)
    (read : .recv session.sockFd data ∈ system.effects input) :
    session.flow.udpHeaders + data.length ≤ maxPacketSize := by
  subst ready
  obtain ⟨linked, rfl⟩ := owns.tables.udpFind_eq_some_iff.mp known
  have room := fits session (Buckets.mem_records.mpr linked) rfl
  -- TCP sessions are looked up first, and none has this descriptor
  have noTcp : system.engine.tcpFindByFd session.sockFd = none := by
    rw [Engine.tcpFindByFd, Buckets.search_none_iff]
    intro other linked'
    simpa using owns.fd_disjoint linked' linked
  have short : data.length ≤ replies.recv.queued.length := by
    have member :
        .recv session.sockFd data ∈ (system.engine.handleSocketEvent session.sockFd events replies).2 := read
    unfold Engine.handleSocketEvent at member
    rw [noTcp] at member
    cases found : system.engine.udpFindByFd session.sockFd with
    | none => simp [found] at member
    | some other =>
      simp only [found] at member
      split at member
      · exact system.engine.readUdp_downloads other replies _ member
      · cases member
  omega

end System

/-! ### Runs -/

/-- The descriptor is that of a UDP socket of the flow, connected to where the flow goes. -/
def Kernel.Serves (kernel : Kernel) (flow : Flow) (fd : Nat) : Prop :=
  ∃ socket ∈ kernel fd, socket.protocol = .udp ∧ socket.flow = some flow ∧
    socket.peer = some (flow.dst, flow.dstPort)

instance (kernel : Kernel) (flow : Flow) : DecidablePred (kernel.Serves flow) := fun fd =>
  inferInstanceAs (Decidable (∃ socket ∈ kernel fd, _))

namespace System

theorem Owns.serves_iff {system : System} (owns : system.Owns) (flow : Flow) (fd : Nat) :
    system.kernel.Serves flow fd ↔
      ∃ session, system.engine.sessions.udp flow = some session ∧ session.sockFd = fd := by
  constructor
  · rintro ⟨socket, found, udp, target, -⟩
    have isOpen : (system.kernel fd).isSome := by simp [Option.mem_def.mp found]
    obtain ⟨holder, holds, rfl⟩ := owns.paired.owned fd isOpen
    obtain ⟨phase, -, held⟩ := owns.paired.held holder holds
    obtain rfl := Option.some.inj (held.symm.trans found)
    rcases holds with ⟨session, linked, rfl⟩ | ⟨session, linked, rfl⟩
    · cases udp
    · obtain rfl : session.flow = flow := Option.some.inj target
      exact ⟨session, owns.tables.udpFind_linked linked, rfl⟩
  · rintro ⟨session, known, rfl⟩
    obtain ⟨linked, rfl⟩ := owns.tables.udpFind_eq_some_iff.mp known
    obtain ⟨phase, -, held⟩ := owns.paired.held _ (.inr ⟨session, linked, rfl⟩)
    exact ⟨_, held, rfl, rfl, rfl⟩

/-- What a step hands to the socket of a flow; a datagram is the last thing it hands over. -/
def sends (flow : Flow) (system : System) (input : Input) : List (List UInt8) :=
  sent ((system.next input).kernel.Serves flow) (system.effects input)

def gets (flow : Flow) (system : System) (input : Input) : List (List UInt8) :=
  brought (system.kernel.Serves flow) (system.effects input)

/-- New descriptors are free, the flow can have a socket, and what the network brings
fits an IP packet. -/
def Relays (flow : Flow) (system : System) (input : Input) : Prop :=
  system.Fresh input ∧ system.engine.Associates flow input ∧ system.engine.DatagramsFit input

instance (flow : Flow) (system : System) (input : Input) : Decidable (system.Relays flow input) :=
  inferInstanceAs (Decidable (_ ∧ _ ∧ _))

theorem Owns.sends_eq {system : System} (owns : system.Owns) {flow : Flow} {input : Input}
    (relays : system.Relays flow input) : system.sends flow input = payloads .udp flow [input] := by
  have after := owns.next relays.1
  apply (owns.tables.move input).sent_udp owns.apart after.apart (after.serves_iff flow)
  rintro queued replies hdr payload rfl decoded
  exact relays.2.1.forwarded decoded

theorem Owns.told_eq {system : System} (owns : system.Owns) {flow : Flow} {input : Input}
    (relays : system.Relays flow input) : told flow (system.effects input) = system.gets flow input := by
  apply (owns.tables.move input).told_udp owns.standing.sound owns.apart (owns.serves_iff flow)
  intro target session events replies data known ready read
  exact owns.datagram_fits relays.2.2 known ready read

/-- For every flow: the sockets of the flow are handed the datagrams of its client, and
the client is told the datagrams that these sockets bring and that are not empty, each of
them as `recv` returned it, once and in the order in which they came. -/
theorem udp_relayed (tunFd : Nat) (mtu ulStart dlStart : Int) (inputs : List Input) (flow : Flow)
    (relays : Admits next (Relays flow) (start tunFd mtu ulStart dlStart) inputs) :
    let system := start tunFd mtu ulStart dlStart
    (trace next (sends flow) system inputs).flatten = payloads .udp flow inputs ∧
      (trace next (fun system input => told flow (system.effects input)) system inputs).flatten =
        (trace next (gets flow) system inputs).flatten := by
  intro system
  have kept : ∀ (system : System) (input : Input), system.Owns → system.Relays flow input →
      (system.next input).Owns :=
    fun _ _ owns relays => owns.next relays.1
  have began := owns_start tunFd mtu ulStart dlStart
  have up : trace next (sends flow) system inputs = inputs.map fun input => payloads .udp flow [input] := by
    rw [← @trace_const _ _ _ next]
    exact relays.trace_congr Owns kept (fun _ _ owns relays => owns.sends_eq relays) began
  have down := relays.trace_congr Owns kept (fun _ _ owns relays => owns.told_eq relays) began
  exact ⟨by rw [up, payloads_flatten], congrArg List.flatten down⟩

theorem udp_relayed_sample :
    let inputs : List Input := [.tunReadable sampleDatagram (.smooth 7 0),
      .tunReadable sampleDatagram (.smooth 8 0),
      .socketReady 7 ⟨true, false⟩ (.smooth []),
      .socketReady 7 ⟨true, false⟩ (.smooth [1, 2, 3])]
    let system := start 3 1500 0 0
    (trace next (sends sampleFlow) system inputs).flatten = payloads .udp sampleFlow inputs ∧
      (trace next (fun system input => told sampleFlow (system.effects input)) system inputs).flatten =
        (trace next (gets sampleFlow) system inputs).flatten :=
  udp_relayed 3 1500 0 0 _ sampleFlow (by decide +kernel)

end System

end ThrottleVpn.Tun2Socks
