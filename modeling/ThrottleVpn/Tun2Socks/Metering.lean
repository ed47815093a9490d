import Mathlib.Algebra.BigOperators.Group.List.Basic
import ThrottleVpn.Tun2Socks.Sessions

/-! What the byte counters of the engine count.

`ul_bytes` counts the IP packets that are accepted from the device, headers included;
`dl_bytes` counts payload. Nothing is lost between a socket and the device: every byte
that is received is written in a segment or a datagram.
-/

set_option autoImplicit false

namespace ThrottleVpn.Tun2Socks

open Foundation

def Input.uploaded (input : Input) : Nat :=
  match input with
  | .tunReadable queued _ => if input.decoded?.isSome then (queued.take maxPacketSize).length else 0
  | .socketReady _ _ _ | .cleanup _ | .setRates _ _ => 0

def Effect.downloaded : Effect → Nat
  | .recv _ data => data.length
  | _ => 0

def Effect.delivered : Effect → Nat
  | .tunWrite packets => (packets.map fun packet => packet.payload.length).sum
  | _ => 0

def downloaded (effects : List Effect) : Nat := (effects.map Effect.downloaded).sum

def delivered (effects : List Effect) : Nat := (effects.map Effect.delivered).sum

@[simp] theorem delivered_nil : delivered [] = 0 := rfl

@[simp] theorem downloaded_append (first second : List Effect) :
    downloaded (first ++ second) = downloaded first + downloaded second := by simp [downloaded]

@[simp] theorem delivered_append (first second : List Effect) :
    delivered (first ++ second) = delivered first + delivered second := by simp [delivered]

theorem downloaded_cons (effect : Effect) (rest : List Effect) :
    downloaded (effect :: rest) = effect.downloaded + downloaded rest := by simp [downloaded]

theorem delivered_cons (effect : Effect) (rest : List Effect) :
    delivered (effect :: rest) = effect.delivered + delivered rest := by simp [delivered]

def Effect.Bare (effect : Effect) : Prop := effect.downloaded = 0 ∧ effect.delivered = 0

theorem Effect.Idle.bare {effect : Effect} (idle : effect.Idle) : effect.Bare := by
  cases effect <;> first | exact ⟨rfl, rfl⟩ | exact idle.elim

theorem downloaded_bare {effects : List Effect} (bare : ∀ effect ∈ effects, effect.Bare) :
    downloaded effects = 0 := by
  apply List.sum_eq_zero
  intro count member
  obtain ⟨effect, inside, rfl⟩ := List.mem_map.mp member
  exact (bare effect inside).1

theorem delivered_bare {effects : List Effect} (bare : ∀ effect ∈ effects, effect.Bare) :
    delivered effects = 0 := by
  apply List.sum_eq_zero
  intro count member
  obtain ⟨effect, inside, rfl⟩ := List.mem_map.mp member
  exact (bare effect inside).2

section
variable {pause : List Effect} (pauses : ∀ effect ∈ pause, effect.Bare) (fd : Nat) (data : List UInt8)
  (packets : List Packet)
include pauses

theorem downloaded_read : downloaded (.recv fd data :: pause ++ [.tunWrite packets]) = data.length := by
  rw [List.cons_append, downloaded_cons, downloaded_append, downloaded_bare pauses]
  rfl

theorem delivered_read :
    delivered (.recv fd data :: pause ++ [.tunWrite packets]) = (Effect.tunWrite packets).delivered := by
  rw [List.cons_append, delivered_cons, delivered_append, delivered_bare pauses]
  simp [delivered, Effect.delivered]

end

/-! ### Handlers -/

theorem control_bare (mtu : Int) (session : TcpSession) (flags : UInt8) :
    (Effect.tunWrite (writeTcp mtu session flags []).2).Bare := by
  obtain ⟨-, packet, same, -, -, -, empty, -⟩ := writeTcp_nil mtu session flags
  rw [same]
  exact ⟨rfl, by simp [Effect.delivered, empty]⟩

theorem data_delivered {mtu : Int} {session : TcpSession} (room : session.flow.MtuFits mtu)
    (payload : List UInt8) :
    (Effect.tunWrite (writeTcp mtu session (tfPsh ||| tfAck) payload).2).delivered = payload.length := by
  have noSyn : hasFlag (tfPsh ||| tfAck) tfSyn = false := by decide
  obtain ⟨-, tiles, -⟩ := writeTcp_sends room noSyn payload
  have sizes := tiles.sum_length
  rwa [pieces, List.map_map] at sizes

namespace TcpSession
variable (session : TcpSession) (mtu : Int)

theorem bufferPending_bare (reallocated : Option UInt8) (payload : List UInt8) :
    ∀ effect ∈ (session.bufferPending reallocated payload).effects, effect.Bare := by
  obtain ⟨-, -, none | hold⟩ := session.bufferPending_frame reallocated payload
  · rw [none]
    simp
  · rw [hold]
    rintro effect member
    obtain rfl := List.mem_singleton.mp member
    exact ⟨rfl, rfl⟩

theorem dataArrives_bare (replies : TunReplies) (hdr : TcpHdr) (payload : List UInt8) :
    ∀ effect ∈ (session.dataArrives mtu replies hdr payload).effects, effect.Bare := by
  unfold dataArrives
  split
  · simp
  · cases session.state with
    | synSent => exact bufferPending_bare _ _ _
    | established =>
      cases replies.send <;> simp only [List.forall_mem_cons, List.not_mem_nil, false_imp_iff, implies_true,
        and_true]
      all_goals exact ⟨⟨rfl, rfl⟩, control_bare ..⟩
    | finWait | closed => simp

theorem handle_bare (event : SessionEvent) (control : ∀ data time, event ≠ .received data time) :
    ∀ effect ∈ (session.handle mtu event).effects, effect.Bare := by
  intro effect member
  cases event with
  | segment hdr payload replies =>
    have data := dataArrives_bare { session with lastActive := replies.time } mtu replies hdr payload
    rcases @segmentArrives_cases session mtu replies hdr payload with ⟨-, out⟩ | ⟨-, -, out⟩ | ⟨-, -, -, out⟩
    · simp only [handle, out, List.not_mem_nil] at member
    · simp only [handle, out] at member
      exact data effect member
    · simp only [handle, out] at member
      rcases List.mem_append.mp member with member | member
      · exact data effect member
      · simp only [finArrives, List.mem_cons, List.not_mem_nil, or_false] at member
        rcases member with rfl | rfl | rfl
        · exact control_bare ..
        · exact control_bare ..
        · exact ⟨rfl, rfl⟩
  | writable soError result =>
    simp only [handle] at member
    split at member
    · rcases session.connectCompletes_cases mtu soError result with ⟨-, -, out⟩ | ⟨-, out⟩ | ⟨-, out⟩
      · simp only [out, List.mem_cons, List.not_mem_nil, or_false] at member
        rcases member with rfl | rfl
        · exact control_bare ..
        · exact ⟨rfl, rfl⟩
      · simp only [out, List.mem_cons, List.not_mem_nil, or_false] at member
        rcases member with rfl | rfl | rfl | rfl | rfl
        · exact control_bare ..
        · exact ⟨rfl, rfl⟩
        · exact control_bare ..
        · exact ⟨rfl, rfl⟩
        · exact ⟨rfl, rfl⟩
      · simp only [out, List.mem_singleton] at member
        subst member
        exact control_bare ..
    · cases member
  | received data time => exact absurd rfl (control data time)
  | remoteClosed =>
    obtain rfl := List.mem_singleton.mp member
    exact control_bare ..
  | recvFailed =>
    obtain rfl := List.mem_singleton.mp member
    exact control_bare ..

end TcpSession

theorem Handled.closing_bare (handled : Handled) : ∀ effect ∈ handled.closing, effect.Bare :=
  handled.forall_closing (fun _ => ⟨rfl, rfl⟩) fun _ => ⟨rfl, rfl⟩

theorem TunReplies.opening_bare (replies : TunReplies) (protocol : Protocol) (flow : Flow)
    (interest : EpollEvents) :
    ∀ effect ∈ replies.opening protocol flow interest, effect.Bare :=
  replies.forall_opening (fun _ => ⟨rfl, rfl⟩) (fun _ => ⟨rfl, rfl⟩) (fun _ => ⟨rfl, rfl⟩) fun _ => ⟨rfl, rfl⟩

/-! ### Counters -/

/-- The counters hold what was carried so far, in 64 bits. -/
structure Engine.Metered (engine : Engine) (up down : Nat) : Prop where
  ul : engine.ulBytes = wrap up
  dl : engine.dlBytes = wrap down

namespace Engine.Metered
variable {engine : Engine} {up down : Nat} (metered : engine.Metered up down)
include metered

theorem chargeUpload (delay count : Nat) : (engine.chargeUpload delay count).1.Metered (up + count) down where
  ul := by
    show wrap (engine.ulBytes + count) = _
    rw [metered.ul, wrap_wrap_add, Nat.cast_add]
  dl := metered.dl

theorem chargeDownload (delay count : Nat) : (engine.chargeDownload delay count).1.Metered up (down + count) where
  ul := metered.ul
  dl := by
    show wrap (engine.dlBytes + count) = _
    rw [metered.dl, wrap_wrap_add, Nat.cast_add]

theorem readSize (delay : Nat) : (engine.readSize delay).1.Metered up down := by
  unfold Engine.readSize
  split
  · exact ⟨metered.ul, metered.dl⟩
  · exact metered

theorem settle (handled : Handled) : (engine.settle handled).1.Metered up down := by
  unfold Engine.settle
  split <;> exact ⟨metered.ul, metered.dl⟩

theorem openTcp (replies : TunReplies) (flow : Flow) (isn : UInt32) :
    (engine.openTcp replies flow isn).1.Metered up down := by
  rw [openTcp_spec]
  cases replies.opens <;> exact ⟨metered.ul, metered.dl⟩

theorem udpSession (replies : TunReplies) (flow : Flow) : (engine.udpSession replies flow).1.Metered up down := by
  unfold Engine.udpSession
  cases engine.udpFind flow with
  | some session => exact metered
  | none =>
    rw [udpCreate_spec]
    cases replies.opens <;> exact ⟨metered.ul, metered.dl⟩

end Engine.Metered

def RecvResult.queued : RecvResult → List UInt8
  | .bytes queued => queued
  | .wouldBlock | .failed => []

namespace Engine

/-- No datagram is larger than an IP packet of its flow can carry. -/
def DatagramsFit (engine : Engine) : Input → Prop
  | .socketReady fd _ replies => ∀ session ∈ engine.udpTable.records, session.sockFd = fd →
    session.flow.udpHeaders + replies.recv.queued.length ≤ maxPacketSize
  | _ => True

instance (engine : Engine) : (input : Input) → Decidable (engine.DatagramsFit input)
  | .socketReady _ _ _ => inferInstanceAs (Decidable (∀ session ∈ _, _ → _))
  | .tunReadable _ _ | .cleanup _ | .setRates _ _ => inferInstanceAs (Decidable True)

theorem uploaded_dropped {queued : List UInt8} {replies : TunReplies} {reject : Reject}
    (dropped : decode (queued.take maxPacketSize) = .error reject) :
    (Input.tunReadable queued replies).uploaded = 0 := by
  simp [Input.uploaded, Input.decoded?, dropped, Except.toOption]

theorem uploaded_accepted {queued : List UInt8} {replies : TunReplies} {decoded : Decoded}
    (accepted : decode (queued.take maxPacketSize) = .ok decoded) :
    (Input.tunReadable queued replies).uploaded = (queued.take maxPacketSize).length := by
  simp [Input.uploaded, Input.decoded?, accepted, Except.toOption]

theorem handleTunReadable_bare (engine : Engine) (queued : List UInt8) (replies : TunReplies) :
    ∀ effect ∈ (engine.handleTunReadable replies queued).2, effect.Bare := by
  have pauses : ∀ effect ∈ (engine.chargeUpload replies.delay (queued.take maxPacketSize).length).2, effect.Bare :=
    fun effect member => (chargeUpload_idle _ _ _ effect member).bare
  rw [handleTunReadable_eq]
  cases decode (queued.take maxPacketSize) with
  | error reject =>
    intro effect member
    cases reject with
    | drop => cases member
    | outOfBounds =>
      obtain rfl := List.mem_singleton.mp member
      exact ⟨rfl, rfl⟩
  | ok packet =>
    generalize engine.chargeUpload replies.delay (queued.take maxPacketSize).length = paid at *
    obtain ⟨paid, pause⟩ := paid
    cases packet with
    | tcp flow hdr payload =>
      dsimp only
      split
      · refine List.forall_mem_append.mpr ⟨pauses, ?_⟩
        rw [openTcp_effects]
        refine List.forall_mem_append.mpr ⟨?_, replies.opening_bare _ _ _⟩
        cases paid.tcpFind flow with
        | none => simp
        | some old =>
          simp only [Option.elim, List.forall_mem_cons, List.not_mem_nil, false_imp_iff, implies_true, and_true]
          exact ⟨⟨rfl, rfl⟩, rfl, rfl⟩
      · cases paid.tcpFind flow with
        | none => exact pauses
        | some session =>
          refine List.forall_mem_append.mpr ⟨pauses, ?_⟩
          rw [settle_effects]
          exact List.forall_mem_append.mpr
            ⟨session.handle_bare paid.mtu (.segment hdr payload replies) (by simp), Handled.closing_bare _⟩
    | udp flow hdr payload =>
      dsimp only
      have opening : ∀ effect ∈ (paid.udpSession replies flow).2.1, effect.Bare := by
        unfold Engine.udpSession
        cases paid.udpFind flow with
        | some session => simp
        | none =>
          dsimp only
          rw [udpCreate_spec]
          cases replies.opens <;> exact replies.opening_bare _ _ _
      generalize paid.udpSession replies flow = answer at *
      obtain ⟨next, opened, session⟩ := answer
      cases session with
      | none => exact List.forall_mem_append.mpr ⟨pauses, opening⟩
      | some session =>
        refine List.forall_mem_append.mpr ⟨List.forall_mem_append.mpr ⟨pauses, opening⟩, ?_⟩
        intro effect member
        obtain rfl := List.mem_singleton.mp member
        exact ⟨rfl, rfl⟩

theorem Metered.tunReadable {engine : Engine} {up down : Nat} (metered : engine.Metered up down)
    (queued : List UInt8) (replies : TunReplies) :
    (engine.handleTunReadable replies queued).1.Metered
      (up + (Input.tunReadable queued replies).uploaded) down := by
  have charged := metered.chargeUpload replies.delay (queued.take maxPacketSize).length
  rw [handleTunReadable_eq]
  cases decoded : decode (queued.take maxPacketSize) with
  | error reject =>
    rw [uploaded_dropped decoded]
    exact metered
  | ok packet =>
    rw [uploaded_accepted decoded]
    generalize engine.chargeUpload replies.delay (queued.take maxPacketSize).length = paid at *
    obtain ⟨paid, pause⟩ := paid
    cases packet with
    | tcp flow hdr payload =>
      dsimp only
      split
      · exact charged.openTcp ..
      · cases paid.tcpFind flow with
        | none => exact charged
        | some session => exact charged.settle _
    | udp flow hdr payload =>
      have found := charged.udpSession replies flow
      dsimp only
      generalize paid.udpSession replies flow = answer at *
      obtain ⟨next, opened, session⟩ := answer
      cases session with
      | none => exact found
      | some session => exact ⟨found.ul, found.dl⟩

/-- A step counts what it receives, and writes all of it to the device if there is room. -/
structure Meters (next : Engine) (effects : List Effect) (up down : Nat) (room : Prop) : Prop where
  counters : next.Metered up (down + downloaded effects)
  written : room → delivered effects = downloaded effects

theorem Meters.imp {next : Engine} {effects : List Effect} {up down : Nat} {room other : Prop}
    (meters : Meters next effects up down room) (enough : other → room) : Meters next effects up down other where
  counters := meters.counters
  written := fun fits => meters.written (enough fits)

theorem Metered.bare {next : Engine} {effects : List Effect} {up down : Nat} {room : Prop}
    (metered : next.Metered up down) (bare : ∀ effect ∈ effects, effect.Bare) :
    Meters next effects up down room where
  counters := by rwa [downloaded_bare bare]
  written := fun _ => by rw [delivered_bare bare, downloaded_bare bare]

theorem chargeDownload_bare (engine : Engine) (delay count : Nat) :
    ∀ effect ∈ (engine.chargeDownload delay count).2, effect.Bare :=
  fun effect member => (chargeDownload_idle engine delay count effect member).bare

theorem settle_bare (engine : Engine) (session : TcpSession) (event : SessionEvent)
    (control : ∀ data time, event ≠ .received data time) :
    ∀ effect ∈ (engine.settle (session.handle engine.mtu event)).2, effect.Bare := by
  rw [settle_effects]
  exact List.forall_mem_append.mpr ⟨session.handle_bare engine.mtu event control, Handled.closing_bare _⟩

theorem Metered.readTcp {engine : Engine} {up down : Nat} (metered : engine.Metered up down) (session : TcpSession)
    (replies : SocketReplies) :
    Meters (engine.readTcp session replies).1 (engine.readTcp session replies).2 up down
      (session.flow.MtuFits engine.mtu) := by
  have refilled := metered.readSize replies.availableDelay
  have mtu := readSize_mtu engine replies.availableDelay
  unfold Engine.readTcp
  generalize engine.readSize replies.availableDelay = read at *
  obtain ⟨read, size⟩ := read
  have empty : (Effect.recv session.sockFd []).Bare := ⟨rfl, rfl⟩
  cases replies.recv with
  | wouldBlock => exact refilled.bare (by simp)
  | failed => exact (refilled.settle _).bare (read.settle_bare session .recvFailed (by simp))
  | bytes queued =>
    dsimp only
    split
    · exact (refilled.settle _).bare
        (List.forall_mem_cons.mpr ⟨empty, read.settle_bare session .remoteClosed (by simp)⟩)
    -- the count is taken before the bytes are written, and from the same read
    · have charged := refilled.chargeDownload replies.consumeDelay (queued.take size).length
      have pauses := read.chargeDownload_bare replies.consumeDelay (queued.take size).length
      have same := chargeDownload_mtu read replies.consumeDelay (queued.take size).length
      generalize read.chargeDownload replies.consumeDelay (queued.take size).length = paid at *
      obtain ⟨paid, pause⟩ := paid
      dsimp only at *
      have effects : (paid.settle (session.received paid.mtu replies.time (queued.take size))).2 =
          [.tunWrite (writeTcp paid.mtu { session with lastActive := replies.time } (tfPsh ||| tfAck)
            (queued.take size)).2] := by
        rw [settle_effects]
        rfl
      constructor
      · rw [effects, downloaded_read pauses]
        exact charged.settle _
      · intro room
        have data := @data_delivered paid.mtu { session with lastActive := replies.time } (by rwa [same, mtu])
          (queued.take size)
        rw [effects, downloaded_read pauses, delivered_read pauses, data]

theorem Metered.readUdp {engine : Engine} {up down : Nat} (metered : engine.Metered up down) (session : UdpSession)
    (replies : SocketReplies) :
    Meters (engine.readUdp session replies).1 (engine.readUdp session replies).2 up down
      (session.flow.udpHeaders + replies.recv.queued.length ≤ maxPacketSize) := by
  have refilled := metered.readSize replies.availableDelay
  unfold Engine.readUdp
  generalize engine.readSize replies.availableDelay = read at *
  obtain ⟨read, size⟩ := read
  have empty : (Effect.recv session.sockFd []).Bare := ⟨rfl, rfl⟩
  cases answer : replies.recv with
  | wouldBlock | failed => exact refilled.bare (by simp)
  | bytes queued =>
    dsimp only
    split
    · exact refilled.bare (List.forall_mem_cons.mpr ⟨empty, by simp⟩)
    · have charged := refilled.chargeDownload replies.consumeDelay (queued.take size).length
      have pauses := read.chargeDownload_bare replies.consumeDelay (queued.take size).length
      generalize read.chargeDownload replies.consumeDelay (queued.take size).length = paid at *
      obtain ⟨paid, pause⟩ := paid
      constructor
      · rw [downloaded_read pauses]
        exact ⟨charged.ul, charged.dl⟩
      -- a datagram that does not fit is counted and not written
      · intro fits
        have written := writeUdp_cases session (queued.take size)
        have short : ¬maxPacketSize < session.flow.udpHeaders + (queued.take size).length := by
          simp only [RecvResult.queued] at fits
          rw [List.length_take]
          omega
        rw [if_neg short] at written
        obtain ⟨ip, hdr, packet⟩ := written
        rw [downloaded_read pauses, delivered_read pauses, packet]
        simp [Effect.delivered]

theorem closings_bare (fds : List Nat) : ∀ effect ∈ closings fds, effect.Bare := by
  intro effect member
  simp only [closings, List.mem_flatMap, List.mem_cons, List.not_mem_nil, or_false] at member
  obtain ⟨fd, -, rfl | rfl⟩ := member <;> exact ⟨rfl, rfl⟩

def Roomy (mtu : Int) : Prop := 60 < mtu ∧ mtu ≤ 65535

theorem Roomy.fits {mtu : Int} (roomy : Roomy mtu) (flow : Flow) : flow.MtuFits mtu := by
  refine ⟨?_, roomy.2⟩
  have := roomy.1
  unfold Flow.headers
  split <;> omega

theorem Metered.socketReady {engine : Engine} {up down : Nat} (metered : engine.Metered up down) (fd : Nat)
    (events : EpollEvents) (replies : SocketReplies) :
    Meters (engine.handleSocketEvent fd events replies).1
      (engine.handleSocketEvent fd events replies).2 up down
      (Roomy engine.mtu ∧ engine.DatagramsFit (.socketReady fd events replies)) := by
  unfold handleSocketEvent
  cases engine.tcpFindByFd fd with
  | some session =>
    dsimp only
    split
    next completes =>
      have handled : session.handle engine.mtu (.writable replies.soError replies.send) =
          session.connectCompletes engine.mtu replies.soError replies.send := if_pos completes.1
      rw [← handled]
      exact (metered.settle _).bare (engine.settle_bare session (.writable ..) (by simp))
    next =>
      split
      · exact (metered.readTcp session replies).imp fun room => room.1.fits session.flow
      · exact metered.bare (by simp)
  | none =>
    cases found : engine.udpFindByFd fd with
    | some session =>
      dsimp only
      split
      -- only the datagrams of this session have to fit
      · obtain ⟨linked, hit⟩ := Buckets.search_some found
        refine (metered.readUdp session replies).imp fun room => ?_
        exact room.2 session (Buckets.mem_records.mpr linked) (beq_iff_eq.mp hit)
      · exact metered.bare (by simp)
    | none => exact metered.bare (by simp)

/-- A step counts the packet that comes and the payload that is received. -/
theorem Metered.step {engine : Engine} {up down : Nat} (metered : engine.Metered up down) (input : Input) :
    Meters (engine.next input) (engine.step input).2 (up + input.uploaded) down
      (Roomy engine.mtu ∧ engine.DatagramsFit input) := by
  cases input with
  | tunReadable queued replies =>
    exact (metered.tunReadable queued replies).bare (engine.handleTunReadable_bare queued replies)
  | cleanup now =>
    have swept : (engine.next (.cleanup now)).Metered up down := ⟨metered.ul, metered.dl⟩
    refine swept.bare ?_
    show ∀ effect ∈ (engine.cleanup now).2, effect.Bare
    rw [cleanup_effects]
    exact closings_bare _
  | setRates dlBps ulBps =>
    have same : (engine.next (.setRates dlBps ulBps)).Metered up down := ⟨metered.ul, metered.dl⟩
    exact same.bare (by simp [Engine.step])
  | socketReady fd events replies =>
    have counted : (Input.socketReady fd events replies).uploaded = 0 := rfl
    have out := metered.socketReady fd events replies
    rw [counted, Nat.add_zero, next_socketReady]
    exact out

def calls (engine : Engine) (inputs : List Input) : List Effect :=
  (trace next (fun engine input => (engine.step input).2) engine inputs).flatten

def uploads (inputs : List Input) : Nat := (inputs.map Input.uploaded).sum

theorem calls_append (engine : Engine) (first second : List Input) :
    engine.calls (first ++ second) = engine.calls first ++ (first.foldl next engine).calls second := by
  unfold calls
  rw [trace_append, List.flatten_append]

theorem uploads_append (first second : List Input) :
    uploads (first ++ second) = uploads first + uploads second := by
  simp [uploads]

theorem Metered.run {engine : Engine} {up down : Nat} (metered : engine.Metered up down) (inputs : List Input) :
    Meters (inputs.foldl next engine) (engine.calls inputs) (up + uploads inputs) down
      (Roomy engine.mtu ∧ Admits next DatagramsFit engine inputs) := by
  induction inputs generalizing engine up down with
  | nil => exact metered.bare (by simp [calls, trace])
  | cons input rest ih =>
    obtain ⟨counters, written⟩ := metered.step input
    obtain ⟨later, sent⟩ := ih counters
    rw [next_mtu] at sent
    have lines : engine.calls (input :: rest) = (engine.step input).2 ++ (engine.next input).calls rest := rfl
    have carried : uploads (input :: rest) = input.uploaded + uploads rest := rfl
    rw [lines, carried]
    constructor
    · rw [downloaded_append, ← Nat.add_assoc, ← Nat.add_assoc]
      exact later
    · rintro ⟨roomy, fits⟩
      rw [delivered_append, downloaded_append, written ⟨roomy, fits.1⟩, sent ⟨roomy, fits.2⟩]

theorem meters_run (tunFd : Nat) (mtu ulStart dlStart : Int) (inputs : List Input) :
    Meters (inputs.foldl next (start tunFd mtu ulStart dlStart)) ((start tunFd mtu ulStart dlStart).calls inputs)
      (uploads inputs) 0 (Roomy mtu ∧ Admits next DatagramsFit (start tunFd mtu ulStart dlStart) inputs) := by
  have zero : (start tunFd mtu ulStart dlStart).Metered 0 0 := ⟨rfl, rfl⟩
  have run := zero.run inputs
  rwa [Nat.zero_add] at run

theorem Meters.dlBytes {next : Engine} {effects : List Effect} {up : Nat} {room : Prop}
    (meters : Meters next effects up 0 room) : next.dlBytes = wrap (downloaded effects) := by
  rw [meters.counters.dl, Nat.zero_add]

/-- In every run the upload counter holds the lengths of the accepted packets, and the
download counter the payload that was received, which is the payload passed to `write`
for the device. -/
theorem counters_meter_traffic (tunFd : Nat) (mtu ulStart dlStart : Int) (inputs : List Input) (roomy : Roomy mtu)
    (fits : Admits next DatagramsFit (start tunFd mtu ulStart dlStart) inputs) :
    let engine := inputs.foldl next (start tunFd mtu ulStart dlStart)
    let calls := (start tunFd mtu ulStart dlStart).calls inputs
    engine.ulBytes = wrap (uploads inputs) ∧ engine.dlBytes = wrap (delivered calls) ∧
      delivered calls = downloaded calls := by
  have run := meters_run tunFd mtu ulStart dlStart inputs
  have written := run.written ⟨roomy, fits⟩
  refine ⟨run.counters.ul, ?_, written⟩
  rw [written]
  exact run.dlBytes

theorem counters_meter_traffic_sample :
    let inputs : List Input := [.tunReadable sampleSyn (.smooth 7 0), .socketReady 7 ⟨false, true⟩ (.smooth []),
      .socketReady 7 ⟨true, false⟩ (.smooth [1, 2, 3, 4])]
    let engine := inputs.foldl next (start 3 1500 0 0)
    let calls := (start 3 1500 0 0).calls inputs
    engine.ulBytes = wrap (uploads inputs) ∧ engine.dlBytes = wrap (delivered calls) ∧
      delivered calls = downloaded calls :=
  counters_meter_traffic 3 1500 0 0 _ (by unfold Roomy; decide) (by decide +kernel)

end Engine

end ThrottleVpn.Tun2Socks
