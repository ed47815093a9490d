import ThrottleVpn.Tun2Socks.Streams
import ThrottleVpn.Tun2Socks.Tables

/-! The engine together with the sockets the kernel holds for it.

The kernel may hand out any descriptor that is not open, also one closed earlier
in the same step. Every session owns the socket behind its descriptor, and every
open socket has its session.
-/

set_option autoImplicit false

namespace ThrottleVpn.Tun2Socks

open Foundation

/-- How far the `connect` of a socket has come. `refused` is a call that failed at
once, `failed` one that failed later. -/
inductive Phase where
  | unconnected
  | connecting
  | connected
  | refused
  | failed
  deriving DecidableEq, Repr

def ConnectResult.phase : ConnectResult → Phase
  | .connected => .connected
  | .inProgress => .connecting
  | .failed => .refused

theorem ConnectResult.phase_ne (result : ConnectResult) : result.phase ≠ .unconnected := by
  cases result <;> exact nofun

/-- An open socket: for the packet of which flow and for the record at which address
it was created, and what `connect` was called with. -/
structure Socket where
  protocol : Protocol
  flow : Option Flow
  owner : Nat
  peer : Option (IpAddr × UInt16)
  phase : Phase
  deriving DecidableEq, Repr

abbrev Kernel := Nat → Option Socket

namespace Kernel

/-- What a call does to the sockets. `flow` and `owner` describe what the engine is
creating a socket for, if it does. -/
def apply (flow : Option Flow) (owner : Nat) (kernel : Kernel) : Effect → Kernel
  | .socket fd protocol => Function.update kernel fd (some ⟨protocol, flow, owner, none, .unconnected⟩)
  | .connect fd peer port result =>
    Function.update kernel fd
      ((kernel fd).map fun socket => { socket with peer := some (peer, port), phase := result.phase })
  | .close fd => Function.update kernel fd none
  | _ => kernel

def run (flow : Option Flow) (owner : Nat) (kernel : Kernel) (effects : List Effect) : Kernel :=
  effects.foldl (apply flow owner) kernel

def Fresh (kernel : Kernel) : Effect → Prop
  | .socket fd _ => kernel fd = none
  | _ => True

instance (kernel : Kernel) : (effect : Effect) → Decidable (kernel.Fresh effect)
  | .socket fd _ => inferInstanceAs (Decidable (kernel fd = none))
  | .tunWrite _ | .connect _ _ _ _ | .epollAdd _ _ | .epollMod _ _ | .epollDel _ | .send _ _ _
  | .recv _ _ | .shutdown _ | .close _ | .hold _ _ | .release _ | .sleep _ | .outOfBounds =>
    inferInstanceAs (Decidable True)

def Valid (kernel : Kernel) : Effect → Prop
  | .connect fd _ _ _ | .epollAdd fd _ | .epollMod fd _ | .epollDel fd | .send fd _ _ | .recv fd _
  | .shutdown fd | .close fd => (kernel fd).isSome
  | .tunWrite _ | .socket _ _ | .hold _ _ | .release _ | .sleep _ | .outOfBounds => True

def without (kernel : Kernel) (fds : List Nat) : Kernel := fun fd => if fd ∈ fds then none else kernel fd

end Kernel

def Input.decoded? : Input → Option Decoded
  | .tunReadable queued _ => (decode (queued.take maxPacketSize)).toOption
  | .socketReady _ _ _ | .cleanup _ | .setRates _ _ => none

def Input.flow? (input : Input) : Option Flow := input.decoded?.map Decoded.flow

structure System where
  engine : Engine
  kernel : Kernel

namespace System

def start (tunFd : Nat) (mtu ulStart dlStart : Int) : System :=
  ⟨.start tunFd mtu ulStart dlStart, fun _ => none⟩

def effects (system : System) (input : Input) : List Effect := (system.engine.step input).2

def after (system : System) (input : Input) (effects : List Effect) : Kernel :=
  system.kernel.run input.flow? system.engine.nextAddr effects

def next (system : System) (input : Input) : System :=
  ⟨system.engine.next input, system.after input (system.effects input)⟩

/-- The kernel's promise over one step of the engine. -/
def Fresh (system : System) (input : Input) : Prop :=
  Admits (Kernel.apply input.flow? system.engine.nextAddr) Kernel.Fresh system.kernel
    (system.effects input)

instance (system : System) (input : Input) : Decidable (system.Fresh input) :=
  inferInstanceAs (Decidable (Admits ..))

def Valid (system : System) (input : Input) : Prop :=
  Admits (Kernel.apply input.flow? system.engine.nextAddr) Kernel.Valid system.kernel
    (system.effects input)

theorem next_engine (system : System) (inputs : List Input) :
    (inputs.foldl next system).engine = inputs.foldl Engine.next system.engine := by
  induction inputs generalizing system with
  | nil => rfl
  | cons input rest ih => exact ih (system.next input)

end System

/-! ### Calls on one descriptor -/

/-- Nothing is created or closed, and only one descriptor is used. -/
def Effect.On (fd : Nat) : Effect → Prop
  | .socket _ _ | .connect _ _ _ _ | .close _ => False
  | .epollAdd used _ | .epollMod used _ | .epollDel used | .send used _ _ | .recv used _
  | .shutdown used | .hold used _ | .release used => used = fd
  | .tunWrite _ | .sleep _ | .outOfBounds => True

theorem Effect.Idle.on {effect : Effect} (idle : effect.Idle) (fd : Nat) : effect.On fd := by
  cases effect <;> trivial

def closings (fds : List Nat) : List Effect := fds.flatMap fun fd => [.epollDel fd, .close fd]

theorem Engine.cleanup_effects (engine : Engine) (now : Int) :
    (engine.cleanup now).2 = closings
      ((engine.tcpTable.records.filter (tcpExpired now)).map TcpSession.sockFd ++
        (engine.udpTable.records.filter (udpExpired now)).map UdpSession.sockFd) := by
  simp only [cleanup, closings, List.flatMap_append, List.flatMap_map]

namespace Kernel
variable (flow : Option Flow) (owner : Nat)

theorem run_append (kernel : Kernel) (first second : List Effect) :
    kernel.run flow owner (first ++ second) = (kernel.run flow owner first).run flow owner second :=
  List.foldl_append

theorem apply_on {fd : Nat} {effect : Effect} (on : effect.On fd) (kernel : Kernel) :
    kernel.apply flow owner effect = kernel := by
  cases effect <;> first | rfl | exact on.elim

theorem run_on {effects : List Effect} (on : ∀ effect ∈ effects, ∃ fd, effect.On fd)
    (kernel : Kernel) : kernel.run flow owner effects = kernel := by
  induction effects with
  | nil => rfl
  | cons effect rest ih =>
    rw [List.forall_mem_cons] at on
    obtain ⟨⟨fd, here⟩, later⟩ := on
    rw [run, List.foldl_cons, apply_on flow owner here]
    exact ih later

theorem valid_of_on {fd : Nat} {effect : Effect} (on : effect.On fd) {kernel : Kernel}
    (isOpen : (kernel fd).isSome) : kernel.Valid effect := by
  cases effect <;> first | trivial | exact on.elim | (obtain rfl := on; exact isOpen)

theorem valid_of_idle {effect : Effect} (idle : effect.Idle) (kernel : Kernel) : kernel.Valid effect := by
  cases effect <;> trivial

theorem admits_on {promise : Kernel → Effect → Prop} {effects : List Effect} {kernel : Kernel}
    (on : ∀ effect ∈ effects, (∃ fd, effect.On fd) ∧ promise kernel effect) :
    Admits (apply flow owner) promise kernel effects := by
  induction effects with
  | nil => trivial
  | cons effect rest ih =>
    rw [List.forall_mem_cons] at on
    obtain ⟨⟨⟨fd, here⟩, holds⟩, later⟩ := on
    refine ⟨holds, ?_⟩
    rw [apply_on flow owner here]
    exact ih later

theorem without_cons (kernel : Kernel) (fd : Nat) (fds : List Nat) :
    without (Function.update kernel fd none) fds = kernel.without (fd :: fds) := by
  funext other
  unfold without
  by_cases here : other = fd
  · subst here
    simp
  · simp [here]

theorem run_closings (kernel : Kernel) (fds : List Nat) :
    kernel.run flow owner (closings fds) = kernel.without fds := by
  induction fds generalizing kernel with
  | nil =>
    funext fd
    exact (if_neg List.not_mem_nil).symm
  | cons fd rest ih =>
    rw [← without_cons, ← ih]
    rfl

theorem valid_closings {fds : List Nat} (distinct : fds.Nodup) {kernel : Kernel}
    (opened : ∀ fd ∈ fds, (kernel fd).isSome) : Admits (apply flow owner) Valid kernel (closings fds) := by
  induction fds generalizing kernel with
  | nil => trivial
  | cons fd rest ih =>
    -- the descriptors still to be closed are others, so they stay open
    rw [List.nodup_cons] at distinct
    rw [List.forall_mem_cons] at opened
    refine ⟨opened.1, opened.1, ih distinct.2 fun other member => ?_⟩
    have different : other ≠ fd := fun same => distinct.1 (same ▸ member)
    simp only [apply, Function.update_of_ne different]
    exact opened.2 other member

theorem run_opening_some {replies : TunReplies} {fd : Nat} (opens : replies.opens = some fd)
    (protocol : Protocol) (target : Flow) (interest : EpollEvents) (kernel : Kernel) :
    kernel.run flow owner (replies.opening protocol target interest) =
      Function.update kernel fd
        (some ⟨protocol, flow, owner, some (target.dst, target.dstPort), replies.connect.phase⟩) := by
  rw [TunReplies.opening_some opens]
  simp only [run, apply, List.foldl_cons, List.foldl_nil, Function.update_self, Option.map_some,
    Function.update_idem]

theorem run_opening_none {replies : TunReplies} (opens : replies.opens = none) (protocol : Protocol)
    (target : Flow) (interest : EpollEvents) {kernel : Kernel}
    (fresh : Admits (apply flow owner) Fresh kernel (replies.opening protocol target interest)) :
    kernel.run flow owner (replies.opening protocol target interest) = kernel := by
  rcases TunReplies.opening_none opens protocol target interest with none | ⟨fd, refused⟩
  · rw [none]
    rfl
  · rw [refused] at fresh ⊢
    simp only [run, apply, List.foldl_cons, List.foldl_nil, Function.update_idem]
    exact Function.update_eq_self_iff.mpr fresh.1.symm

theorem valid_opening (replies : TunReplies) (protocol : Protocol) (target : Flow)
    (interest : EpollEvents) (kernel : Kernel) :
    Admits (apply flow owner) Valid kernel (replies.opening protocol target interest) := by
  cases opens : replies.opens with
  | some fd =>
    rw [TunReplies.opening_some opens]
    simp [Admits, Valid, apply]
  | none =>
    rcases TunReplies.opening_none opens protocol target interest with none | ⟨fd, refused⟩
    · rw [none]
      trivial
    · rw [refused]
      simp [Admits, Valid, apply]

def Adds (flow : Option Flow) (owner : Nat) (effects : List Effect) : Prop :=
  ∀ (kernel : Kernel) (fd : Nat) (socket : Socket), kernel.run flow owner effects fd = some socket →
    kernel fd = some socket ∨ socket.owner = owner

theorem adds_append {first second : List Effect} (left : Adds flow owner first)
    (right : Adds flow owner second) : Adds flow owner (first ++ second) := by
  intro kernel fd socket here
  rw [run_append] at here
  rcases right _ fd socket here with middle | new
  · exact left kernel fd socket middle
  · exact .inr new

theorem adds_on {effects : List Effect} (on : ∀ effect ∈ effects, ∃ fd, effect.On fd) :
    Adds flow owner effects := by
  intro kernel fd socket here
  rw [run_on flow owner on] at here
  exact .inl here

theorem adds_closings (fds : List Nat) : Adds flow owner (closings fds) := by
  intro kernel fd socket here
  rw [run_closings] at here
  unfold without at here
  split at here
  · cases here
  · exact .inl here

theorem adds_opening (replies : TunReplies) (protocol : Protocol) (target : Flow)
    (interest : EpollEvents) : Adds flow owner (replies.opening protocol target interest) := by
  intro kernel fd socket here
  cases opens : replies.opens with
  | some opened =>
    rw [run_opening_some _ _ opens] at here
    by_cases same : fd = opened
    · subst same
      rw [Function.update_self, Option.some.injEq] at here
      exact .inr (here ▸ rfl)
    · rw [Function.update_of_ne same] at here
      exact .inl here
  | none =>
    rcases TunReplies.opening_none opens protocol target interest with none | ⟨refused, lines⟩
    · rw [none] at here
      exact .inl here
    · rw [lines] at here
      simp only [run, apply, List.foldl_cons, List.foldl_nil, Function.update_idem] at here
      by_cases same : fd = refused
      · subst same
        rw [Function.update_self] at here
        cases here
      · rw [Function.update_of_ne same] at here
        exact .inl here

end Kernel

/-! ### What a handler does with the socket of its session -/

theorem SessionEvent.call_on (event : SessionEvent) (fd : Nat) : ∀ effect ∈ event.call fd, effect.On fd := by
  intro effect member
  cases event with
  | segment hdr payload replies => cases member
  | writable soError result => cases member
  | received data time =>
    obtain rfl := List.mem_singleton.mp member
    rfl
  | remoteClosed =>
    obtain rfl := List.mem_singleton.mp member
    rfl
  | recvFailed => cases member

namespace TcpSession
variable (session : TcpSession) (mtu : Int)

theorem dataArrives_on (replies : TunReplies) (hdr : TcpHdr) (payload : List UInt8) :
    ∀ effect ∈ (session.dataArrives mtu replies hdr payload).effects, effect.On session.sockFd := by
  intro effect member
  unfold dataArrives at member
  split at member
  · cases member
  · dsimp only at member
    split at member
    · obtain ⟨-, -, kept⟩ := bufferPending_frame
        { session with clientSeq := ntohl hdr.seq + UInt32.ofNat payload.length } replies.realloc payload
      rcases kept with none | hold
      · rw [none] at member
        cases member
      · rw [hold] at member
        obtain rfl := List.mem_singleton.mp member
        rfl
    · split at member <;>
        · simp only [List.mem_cons, List.not_mem_nil, or_false] at member
          rcases member with rfl | rfl <;> trivial
    · cases member
    · cases member

/-- A handler creates and closes nothing, and uses no socket but its own. -/
theorem handle_on (event : SessionEvent) :
    ∀ effect ∈ (session.handle mtu event).effects, effect.On session.sockFd := by
  intro effect member
  cases event with
  | segment hdr payload replies =>
    have data := dataArrives_on { session with lastActive := replies.time } mtu replies hdr payload
    have same := dataArrives_identity { session with lastActive := replies.time } mtu replies hdr payload
    simp only [identity, Prod.mk.injEq] at same
    rcases @segmentArrives_cases session mtu replies hdr payload with
      ⟨-, out⟩ | ⟨-, -, out⟩ | ⟨-, -, -, out⟩
    · simp only [handle, out, List.not_mem_nil] at member
    · simp only [handle, out] at member
      exact data effect member
    · simp only [handle, out] at member
      rcases List.mem_append.mp member with member | member
      · exact data effect member
      · simp only [finArrives, List.mem_cons, List.not_mem_nil, or_false] at member
        rcases member with rfl | rfl | rfl
        · trivial
        · trivial
        · exact same.2.2
  | writable soError result =>
    simp only [handle] at member
    split at member
    · rcases session.connectCompletes_cases mtu soError result with
        ⟨-, -, out⟩ | ⟨-, out⟩ | ⟨-, out⟩
      · simp only [out, List.mem_cons, List.not_mem_nil, or_false] at member
        rcases member with rfl | rfl <;> trivial
      · simp only [out, List.mem_cons, List.not_mem_nil, or_false] at member
        rcases member with rfl | rfl | rfl | rfl | rfl <;> trivial
      · simp only [out, List.mem_singleton] at member
        subst member
        trivial
    · cases member
  | received data time =>
    obtain rfl := List.mem_singleton.mp member
    trivial
  | remoteClosed =>
    obtain rfl := List.mem_singleton.mp member
    trivial
  | recvFailed =>
    obtain rfl := List.mem_singleton.mp member
    trivial

variable {session}

theorem dataArrives_live (live : session.Live) (replies : TunReplies) (hdr : TcpHdr)
    (payload : List UInt8) (stays : (session.dataArrives mtu replies hdr payload).removed = false) :
    (session.dataArrives mtu replies hdr payload).session.Live := by
  rcases dataArrives_cases live mtu replies hdr payload with
    ⟨-, out⟩ | ⟨-, connecting, out⟩ | ⟨-, connected, -, out⟩ | ⟨-, -, -, out⟩
  · rw [out]
    exact live
  · obtain ⟨-, ⟨block, len, cap, kept⟩, -⟩ := bufferPending_frame
      { session with clientSeq := ntohl hdr.seq + UInt32.ofNat payload.length } replies.realloc payload
    rw [out, kept]
    exact .inl connecting
  · rw [out]
    exact .inr (by simpa using connected)
  · simp [out] at stays

theorem handle_live (live : session.Live) (event : SessionEvent)
    (stays : (session.handle mtu event).removed = false) : (session.handle mtu event).session.Live := by
  cases event with
  | segment hdr payload replies =>
    have here : ({ session with lastActive := replies.time } : TcpSession).Live := live
    simp only [handle] at stays ⊢
    rcases @segmentArrives_cases session mtu replies hdr payload with
      ⟨-, out⟩ | ⟨-, -, out⟩ | ⟨-, -, -, out⟩
    · simp [out] at stays
    · rw [out] at stays ⊢
      exact dataArrives_live mtu here replies hdr payload stays
    · simp [out, finArrives] at stays
  | writable soError result =>
    simp only [handle] at stays ⊢
    split
    next connecting =>
      rw [if_pos connecting] at stays
      rcases session.connectCompletes_cases mtu soError result with
        ⟨-, -, out⟩ | ⟨-, out⟩ | ⟨-, out⟩
      · rw [out]
        exact .inr rfl
      · rw [out]
        exact .inr (by simp)
      · simp [out] at stays
    next => exact live
  | received data time => simpa [handle, received, Live] using live
  | remoteClosed => cases stays
  | recvFailed => cases stays

end TcpSession

namespace Engine

/-- What is true of the sessions in every state the engine reaches. -/
structure Standing (engine : Engine) : Prop where
  tables : engine.Tables
  live : ∀ session, engine.tcpTable.Linked session → session.Live
  uniform : ∀ session, engine.tcpTable.Linked session → session.flow.OneVersion
  udpUniform : ∀ session, engine.udpTable.Linked session → session.flow.OneVersion

theorem standing_start (tunFd : Nat) (mtu ulStart dlStart : Int) :
    Standing (start tunFd mtu ulStart dlStart) where
  tables := tables_start tunFd mtu ulStart dlStart
  live := fun session ⟨_, member⟩ => by cases member
  uniform := fun session ⟨_, member⟩ => by cases member
  udpUniform := fun session ⟨_, member⟩ => by cases member

theorem Standing.next {engine : Engine} (standing : Standing engine) (input : Input) :
    Standing (engine.next input) where
  tables := standing.tables.next input
  live := by
    apply (step_spec engine input).tcp_sessions standing.tables standing.live (fun _ => id)
    · intro queued replies flow hdr payload same decoded fd
      exact .inl rfl
    · intro session event linked reaches stays live
      exact TcpSession.handle_live engine.mtu live event stays
  uniform := by
    apply (step_spec engine input).tcp_sessions standing.tables standing.uniform (fun _ => id)
    · intro queued replies flow hdr payload same decoded fd
      exact decode_oneVersion decoded
    · intro session event linked reaches stays uniform
      have same := session.handle_identity engine.mtu event
      simp only [TcpSession.identity, Prod.mk.injEq] at same
      rw [same.2.1]
      exact uniform
  udpUniform := by
    apply (step_spec engine input).udp_flows standing.tables standing.udpUniform
    intro queued replies flow hdr payload same decoded
    exact decode_oneVersion decoded

end Engine

/-! ### Sessions and sockets in pairs -/

structure Holder where
  protocol : Protocol
  addr : Nat
  flow : Flow
  fd : Nat
  deriving DecidableEq, Repr

def TcpSession.holder (session : TcpSession) : Holder :=
  ⟨.tcp, session.addr, session.flow, session.sockFd⟩

def UdpSession.holder (session : UdpSession) : Holder :=
  ⟨.udp, session.addr, session.flow, session.sockFd⟩

def Holder.socket (holder : Holder) (phase : Phase) : Socket :=
  ⟨holder.protocol, some holder.flow, holder.addr, some (holder.flow.dst, holder.flow.dstPort), phase⟩

def Engine.Holds (engine : Engine) (holder : Holder) : Prop :=
  (∃ session, engine.tcpTable.Linked session ∧ session.holder = holder) ∨
    ∃ session, engine.udpTable.Linked session ∧ session.holder = holder

/-- Each holder has its own socket open, and no other socket is open. -/
structure Paired (holds : Holder → Prop) (kernel : Kernel) : Prop where
  held : ∀ holder, holds holder → ∃ phase, phase ≠ .unconnected ∧
    kernel holder.fd = some (holder.socket phase)
  owned : ∀ fd, (kernel fd).isSome → ∃ holder, holds holder ∧ holder.fd = fd

namespace Paired
variable {holds : Holder → Prop} {kernel : Kernel} (paired : Paired holds kernel)
include paired

theorem isOpen {holder : Holder} (member : holds holder) : (kernel holder.fd).isSome := by
  obtain ⟨phase, -, socket⟩ := paired.held holder member
  rw [socket]
  rfl

theorem unique {first second : Holder} (left : holds first) (right : holds second)
    (same : first.fd = second.fd) : first = second := by
  obtain ⟨phase, -, socket⟩ := paired.held first left
  obtain ⟨phase', -, socket'⟩ := paired.held second right
  rw [same, socket', Option.some.injEq] at socket
  simp only [Holder.socket, Socket.mk.injEq, Option.some.injEq] at socket
  obtain ⟨protocol, flow, addr, -, -⟩ := socket
  obtain ⟨firstProtocol, firstAddr, firstFlow, firstFd⟩ := first
  obtain ⟨secondProtocol, secondAddr, secondFlow, secondFd⟩ := second
  dsimp only at same protocol flow addr
  subst same protocol flow addr
  rfl

theorem close {kept : Holder → Prop} {closed : List Nat}
    (keeps : ∀ holder, kept holder ↔ holds holder ∧ holder.fd ∉ closed) :
    Paired kept (kernel.without closed) where
  held := by
    intro holder member
    obtain ⟨before, stays⟩ := (keeps holder).mp member
    obtain ⟨phase, dialled, socket⟩ := paired.held holder before
    exact ⟨phase, dialled, (if_neg stays).trans socket⟩
  owned := by
    intro fd isOpen
    unfold Kernel.without at isOpen
    split at isOpen
    · cases isOpen
    next stays =>
      obtain ⟨holder, before, rfl⟩ := paired.owned fd isOpen
      exact ⟨holder, (keeps holder).mpr ⟨before, stays⟩, rfl⟩

omit paired in
theorem congr (paired : Paired holds kernel) {same : Holder → Prop}
    (iff : ∀ holder, same holder ↔ holds holder) : Paired same kernel where
  held := fun holder member => paired.held holder ((iff holder).mp member)
  owned := by
    intro fd isOpen
    obtain ⟨holder, before, rfl⟩ := paired.owned fd isOpen
    exact ⟨holder, (iff holder).mpr before, rfl⟩

theorem opened {grown : Holder → Prop} {holder : Holder} (free : kernel holder.fd = none) {phase : Phase}
    (dialled : phase ≠ .unconnected) (grows : ∀ other, grown other ↔ other = holder ∨ holds other) :
    Paired grown (Function.update kernel holder.fd (some (holder.socket phase))) where
  held := by
    intro other member
    rcases (grows other).mp member with rfl | before
    · exact ⟨phase, dialled, Function.update_self ..⟩
    · have different : other.fd ≠ holder.fd := by
        intro same
        have isOpen := paired.isOpen before
        rw [same, free] at isOpen
        cases isOpen
      rw [Function.update_of_ne different]
      exact paired.held other before
  owned := by
    intro fd isOpen
    by_cases here : fd = holder.fd
    · exact ⟨holder, (grows holder).mpr (.inl rfl), here.symm⟩
    · rw [Function.update_of_ne here] at isOpen
      obtain ⟨other, before, same⟩ := paired.owned fd isOpen
      exact ⟨other, (grows other).mpr (.inr before), same⟩

theorem opening {grown : Holder → Prop} {replies : TunReplies} {target : Flow} {owner : Nat}
    {protocol : Protocol} {interest : EpollEvents}
    (fresh : Admits (Kernel.apply (some target) owner) Kernel.Fresh kernel
      (replies.opening protocol target interest))
    (grows : ∀ fd, replies.opens = some fd → ∀ other,
      grown other ↔ other = ⟨protocol, owner, target, fd⟩ ∨ holds other)
    (stays : replies.opens = none → ∀ other, grown other ↔ holds other) :
    Paired grown (kernel.run (some target) owner (replies.opening protocol target interest)) := by
  cases opens : replies.opens with
  | some fd =>
    rw [Kernel.run_opening_some _ _ opens]
    rw [TunReplies.opening_some opens] at fresh
    exact @opened _ _ paired _ ⟨protocol, owner, target, fd⟩ fresh.1 _ replies.connect.phase_ne (grows fd opens)
  | none =>
    rw [Kernel.run_opening_none _ _ opens _ _ _ fresh]
    exact paired.congr (stays opens)

end Paired

namespace System

/-- The sessions are in order, and paired with the sockets. -/
structure Owns (system : System) : Prop where
  standing : system.engine.Standing
  paired : Paired system.engine.Holds system.kernel

theorem owns_start (tunFd : Nat) (mtu ulStart dlStart : Int) :
    (start tunFd mtu ulStart dlStart).Owns where
  standing := Engine.standing_start tunFd mtu ulStart dlStart
  paired := {
    held := by
      rintro holder (⟨session, ⟨index, member⟩, -⟩ | ⟨session, ⟨index, member⟩, -⟩) <;> cases member
    owned := by
      intro fd isOpen
      cases isOpen }

namespace Owns
variable {system : System} (owns : system.Owns)
include owns

theorem tables : system.engine.Tables := owns.standing.tables

theorem live (session : TcpSession) (linked : system.engine.tcpTable.Linked session) : session.Live :=
  owns.standing.live session linked

theorem tcp_isOpen {session : TcpSession} (linked : system.engine.tcpTable.Linked session) :
    (system.kernel session.sockFd).isSome := owns.paired.isOpen (.inl ⟨session, linked, rfl⟩)

theorem udp_isOpen {session : UdpSession} (linked : system.engine.udpTable.Linked session) :
    (system.kernel session.sockFd).isSome := owns.paired.isOpen (.inr ⟨session, linked, rfl⟩)

theorem tcp_fd_unique {first second : TcpSession} (left : system.engine.tcpTable.Linked first)
    (right : system.engine.tcpTable.Linked second) (same : first.sockFd = second.sockFd) :
    first = second := by
  have holders := owns.paired.unique (.inl ⟨first, left, rfl⟩) (.inl ⟨second, right, rfl⟩) same
  exact owns.tables.tcp.addrs first second left right (congrArg Holder.addr holders)

theorem udp_fd_unique {first second : UdpSession} (left : system.engine.udpTable.Linked first)
    (right : system.engine.udpTable.Linked second) (same : first.sockFd = second.sockFd) :
    first = second := by
  have holders := owns.paired.unique (.inr ⟨first, left, rfl⟩) (.inr ⟨second, right, rfl⟩) same
  exact owns.tables.udp.addrs first second left right (congrArg Holder.addr holders)

theorem fd_disjoint {first : TcpSession} {second : UdpSession}
    (left : system.engine.tcpTable.Linked first) (right : system.engine.udpTable.Linked second) :
    first.sockFd ≠ second.sockFd := by
  intro same
  have holders := owns.paired.unique (.inl ⟨first, left, rfl⟩) (.inr ⟨second, right, rfl⟩) same
  cases congrArg Holder.protocol holders

/-- Sessions are unlinked together with the descriptors that are closed. -/
theorem keeps {next : Engine} {tcpKeep : TcpSession → Prop} {udpKeep : UdpSession → Prop}
    {closed : List Nat}
    (tcp : ∀ session, next.tcpTable.Linked session ↔
      system.engine.tcpTable.Linked session ∧ tcpKeep session)
    (udp : ∀ session, next.udpTable.Linked session ↔
      system.engine.udpTable.Linked session ∧ udpKeep session)
    (closes : ∀ fd, fd ∈ closed ↔
      (∃ session, system.engine.tcpTable.Linked session ∧ ¬tcpKeep session ∧ session.sockFd = fd) ∨
        ∃ session, system.engine.udpTable.Linked session ∧ ¬udpKeep session ∧ session.sockFd = fd)
    (holder : Holder) :
    next.Holds holder ↔ system.engine.Holds holder ∧ holder.fd ∉ closed := by
  rw [closes]
  constructor
  · rintro (⟨session, linked, rfl⟩ | ⟨session, linked, rfl⟩)
    · obtain ⟨before, stays⟩ := (tcp session).mp linked
      refine ⟨.inl ⟨session, before, rfl⟩, ?_⟩
      rintro (⟨other, here, goes, same⟩ | ⟨other, here, -, same⟩)
      · exact goes (owns.tcp_fd_unique here before same ▸ stays)
      · exact owns.fd_disjoint before here same.symm
    · obtain ⟨before, stays⟩ := (udp session).mp linked
      refine ⟨.inr ⟨session, before, rfl⟩, ?_⟩
      rintro (⟨other, here, -, same⟩ | ⟨other, here, goes, same⟩)
      · exact owns.fd_disjoint here before same
      · exact goes (owns.udp_fd_unique here before same ▸ stays)
  · rintro ⟨⟨session, before, rfl⟩ | ⟨session, before, rfl⟩, stays⟩
    · refine .inl ⟨session, (tcp session).mpr ⟨before, ?_⟩, rfl⟩
      by_contra goes
      exact stays (.inl ⟨session, before, goes, rfl⟩)
    · refine .inr ⟨session, (udp session).mpr ⟨before, ?_⟩, rfl⟩
      by_contra goes
      exact stays (.inr ⟨session, before, goes, rfl⟩)

end Owns

/-! ### One step -/

section
variable {system : System} {next : Engine} (flow : Option Flow) (owner : Nat)

theorem run_after {before after : List Effect}
    (on : ∀ effect ∈ before, (∃ fd, effect.On fd) ∧ system.kernel.Valid effect) :
    system.kernel.run flow owner (before ++ after) = system.kernel.run flow owner after := by
  rw [Kernel.run_append, Kernel.run_on flow owner fun effect member => (on effect member).1]

theorem admits_after {promise : Kernel → Effect → Prop} {before after : List Effect}
    (on : ∀ effect ∈ before, (∃ fd, effect.On fd) ∧ system.kernel.Valid effect) :
    Admits (Kernel.apply flow owner) promise system.kernel (before ++ after) ↔
      Admits (Kernel.apply flow owner) promise system.kernel before ∧
        Admits (Kernel.apply flow owner) promise system.kernel after := by
  have kept := Kernel.run_on flow owner (fun effect member => (on effect member).1) system.kernel
  unfold Kernel.run at kept
  rw [admits_append, kept]

theorem idle_steady {pause : List Effect} (pauses : ∀ effect ∈ pause, effect.Idle) (kernel : Kernel) :
    ∀ effect ∈ pause, (∃ fd, effect.On fd) ∧ kernel.Valid effect :=
  fun effect member => ⟨⟨0, (pauses effect member).on 0⟩, Kernel.valid_of_idle (pauses effect member) kernel⟩

namespace Owns
variable (owns : system.Owns)
include owns

theorem steady {effects : List Effect}
    (same : ∀ holder, next.Holds holder ↔ system.engine.Holds holder)
    (on : ∀ effect ∈ effects, (∃ fd, effect.On fd) ∧ system.kernel.Valid effect) :
    Paired next.Holds (system.kernel.run flow owner effects) ∧
      Admits (Kernel.apply flow owner) Kernel.Valid system.kernel effects := by
  constructor
  · rw [Kernel.run_on flow owner fun effect member => (on effect member).1]
    exact owns.paired.congr same
  · exact Kernel.admits_on flow owner on

theorem touched {session : UdpSession} {time : Int} (linked : system.engine.udpTable.Linked session)
    (tcp : next.tcpTable = system.engine.tcpTable)
    (udp : next.udpTable = system.engine.udpTable.store UdpSession.addr { session with lastActive := time }) :
    ∀ holder, next.Holds holder ↔ system.engine.Holds holder := by
  intro holder
  unfold Engine.Holds
  rw [tcp, udp]
  apply or_congr_right
  exact owns.tables.udp.shows_store _ linked (by rfl) (by rfl) _

theorem handled {session : TcpSession} {event : SessionEvent} {pause : List Effect}
    (linked : system.engine.tcpTable.Linked session) (pauses : ∀ effect ∈ pause, effect.Idle)
    (tcp : next.tcpTable =
      (system.engine.settle (session.handle system.engine.mtu event)).1.tcpTable)
    (udp : next.udpTable = system.engine.udpTable) :
    let handled := session.handle system.engine.mtu event
    let effects := event.call session.sockFd ++ pause ++ (handled.effects ++ handled.closing)
    Paired next.Holds (system.kernel.run flow owner effects) ∧
      Admits (Kernel.apply flow owner) Kernel.Valid system.kernel effects := by
  intro handled effects
  have isOpen := owns.tcp_isOpen linked
  have same := session.handle_identity system.engine.mtu event
  simp only [TcpSession.identity, Prod.mk.injEq] at same
  -- all calls but those of a removal are on the session's own socket
  have on : ∀ effect ∈ event.call session.sockFd ++ pause ++ handled.effects,
      (∃ fd, effect.On fd) ∧ system.kernel.Valid effect := by
    intro effect member
    rcases List.mem_append.mp member with member | member
    · rcases List.mem_append.mp member with member | member
      · have here := event.call_on session.sockFd effect member
        exact ⟨⟨_, here⟩, Kernel.valid_of_on here isOpen⟩
      · exact idle_steady pauses system.kernel effect member
    · have here := session.handle_on system.engine.mtu event effect member
      exact ⟨⟨_, here⟩, Kernel.valid_of_on here isOpen⟩
  have lines : effects = event.call session.sockFd ++ pause ++ handled.effects ++ handled.closing := by
    simp only [effects, List.append_assoc]
  rw [Engine.settle_tcpTable] at tcp
  rw [lines]
  cases removed : handled.removed with
  | true =>
    have closes : handled.closing = closings [session.sockFd] := by
      unfold Handled.closing
      rw [if_pos removed, same.2.2]
      rfl
    rw [if_pos removed] at tcp
    rw [closes]
    constructor
    · -- the session and its socket go together
      rw [run_after flow owner on, Kernel.run_closings]
      apply owns.paired.close
      apply owns.keeps (fun other => ?_) (fun other => ?_) (fun fd => ?_)
      · exact fun other => other ≠ session
      · exact fun _ => True
      · rw [tcp]
        exact owns.tables.tcp.linked_unlink linked
      · rw [udp, and_true]
      · rw [List.mem_singleton]
        constructor
        · rintro rfl
          exact .inl ⟨session, linked, by simp, rfl⟩
        · rintro (⟨other, -, gone, rfl⟩ | ⟨other, -, gone, -⟩)
          · rw [not_not.mp gone]
          · exact (gone trivial).elim
    · rw [admits_after flow owner on]
      refine ⟨Kernel.admits_on flow owner on, ?_⟩
      exact Kernel.valid_closings flow owner (List.nodup_singleton _) (by simpa using isOpen)
  | false =>
    have closes : handled.closing = [] := by
      unfold Handled.closing
      rw [removed]
      rfl
    rw [if_neg (Bool.eq_false_iff.mp removed)] at tcp
    rw [closes, List.append_nil]
    -- the session is stored back under the address and the descriptor it had
    apply owns.steady flow owner (fun holder => ?_) on
    unfold Engine.Holds
    rw [tcp, udp]
    apply or_congr_left
    apply owns.tables.tcp.shows_store _ linked same.1
    simp only [TcpSession.holder, same]

theorem opened {replies : TunReplies} {target : Flow} {isn : UInt32} {pause : List Effect}
    (pauses : ∀ effect ∈ pause, effect.Idle)
    (tcp : next.tcpTable = (system.engine.openTcp replies target isn).1.tcpTable)
    (udp : next.udpTable = system.engine.udpTable)
    (fresh : Admits (Kernel.apply (some target) system.engine.nextAddr) Kernel.Fresh system.kernel
      (pause ++ (system.engine.openTcp replies target isn).2)) :
    let effects := pause ++ (system.engine.openTcp replies target isn).2
    Paired next.Holds (system.kernel.run (some target) system.engine.nextAddr effects) ∧
      Admits (Kernel.apply (some target) system.engine.nextAddr) Kernel.Valid system.kernel effects := by
  intro effects
  have on := idle_steady pauses system.kernel
  obtain ⟨-, cleared⟩ := Engine.withoutFlow_chained owns.tables target
  -- the replaced session's descriptor, if there is one
  let closed := (system.engine.tcpFind target).elim [] fun old => [old.sockFd]
  have closes : (system.engine.openTcp replies target isn).2 =
      closings closed ++ replies.opening .tcp target ⟨true, true⟩ := by
    rw [Engine.openTcp_effects]
    cases found : system.engine.tcpFind target <;> simp [closed, found, closings]
  have whose : ∀ fd, fd ∈ closed ↔ ∃ session, system.engine.tcpTable.Linked session ∧
      ¬session.flow ≠ target ∧ session.sockFd = fd := by
    intro fd
    simp only [not_not]
    cases found : system.engine.tcpFind target with
    | some old =>
      obtain ⟨linked, flow⟩ := Engine.tcpFind_linked found
      simp only [closed, found, Option.elim, List.mem_singleton]
      constructor
      · rintro rfl
        exact ⟨old, linked, flow, rfl⟩
      · rintro ⟨session, here, same, rfl⟩
        rw [owns.tables.tcp.key_unique here linked (same.trans flow.symm)]
    | none =>
      have absent := owns.tables.tcp.find_eq_none_iff.mp found
      simp only [closed, found, Option.elim, List.not_mem_nil, false_iff]
      rintro ⟨session, here, same, -⟩
      exact absent session here same
  have remains : Paired
      (Engine.Holds { system.engine with tcpTable := system.engine.withoutFlow target })
      (system.kernel.without closed) := by
    apply owns.paired.close
    apply owns.keeps (fun other => ?_) (fun other => ?_) (fun fd => ?_)
    · exact fun other => other.flow ≠ target
    · exact fun _ => True
    · exact cleared other
    · rw [and_true]
    · rw [whose]
      simp
  have lines : effects = pause ++ (closings closed ++ replies.opening .tcp target ⟨true, true⟩) := by
    rw [← closes]
  have ran := Kernel.run_closings (some target) system.engine.nextAddr system.kernel closed
  unfold Kernel.run at ran
  rw [closes, admits_after _ _ on, admits_append, ran] at fresh
  obtain ⟨-, -, fresh⟩ := fresh
  rw [lines]
  constructor
  · rw [run_after _ _ on, Kernel.run_append, Kernel.run_closings]
    apply remains.opening fresh
    · intro fd opens other
      unfold Engine.Holds
      rw [tcp, udp, Engine.openTcp_spec, opens]
      simp only [Buckets.linked_push]
      constructor
      · rintro (⟨session, rfl | linked, rfl⟩ | udp)
        · exact .inl rfl
        · exact .inr (.inl ⟨session, linked, rfl⟩)
        · exact .inr (.inr udp)
      · rintro (rfl | ⟨session, linked, rfl⟩ | udp)
        · exact .inl ⟨_, .inl rfl, rfl⟩
        · exact .inl ⟨session, .inr linked, rfl⟩
        · exact .inr udp
    · intro opens other
      unfold Engine.Holds
      rw [tcp, udp, Engine.openTcp_spec, opens]
  · rw [admits_after _ _ on, admits_append]
    refine ⟨Kernel.admits_on _ _ on, ?_, ?_⟩
    · apply Kernel.valid_closings
      · cases found : system.engine.tcpFind target <;> simp [closed, found]
      · intro fd member
        obtain ⟨session, linked, -, rfl⟩ := (whose fd).mp member
        exact owns.tcp_isOpen linked
    · exact Kernel.valid_opening ..

theorem associated {replies : TunReplies} {target : Flow} {fd : Nat} {payload : List UInt8}
    {pause : List Effect} (unknown : system.engine.udpFind target = none)
    (opens : replies.opens = some fd) (pauses : ∀ effect ∈ pause, effect.Idle)
    (tcp : next.tcpTable = system.engine.tcpTable)
    (udp : next.udpTable =
      (system.engine.udpTable.push (sessionHash target)
        ⟨system.engine.nextAddr, target, fd, replies.time⟩).store UdpSession.addr
          ⟨system.engine.nextAddr, target, fd, replies.time⟩)
    (fresh : Admits (Kernel.apply (some target) system.engine.nextAddr) Kernel.Fresh system.kernel
      (pause ++ replies.opening .udp target ⟨true, false⟩ ++ [.send fd payload replies.send])) :
    let effects := pause ++ replies.opening .udp target ⟨true, false⟩ ++ [.send fd payload replies.send]
    Paired next.Holds (system.kernel.run (some target) system.engine.nextAddr effects) ∧
      Admits (Kernel.apply (some target) system.engine.nextAddr) Kernel.Valid system.kernel effects := by
  intro effects
  have on := idle_steady pauses system.kernel
  have grown := owns.tables.udp.push ⟨system.engine.nextAddr, target, fd, replies.time⟩
    (owns.tables.udp.find_eq_none_iff.mp unknown) rfl
  rw [List.append_assoc, admits_after _ _ on, admits_append] at fresh
  obtain ⟨-, fresh, -⟩ := fresh
  have lines : effects = pause ++ (replies.opening .udp target ⟨true, false⟩ ++
      [.send fd payload replies.send]) := List.append_assoc ..
  have ran := Kernel.run_opening_some (some target) system.engine.nextAddr opens .udp target ⟨true, false⟩
    system.kernel
  rw [lines]
  constructor
  · have sent : ∀ kernel : Kernel, kernel.run (some target) system.engine.nextAddr
        [.send fd payload replies.send] = kernel := fun _ => rfl
    rw [run_after _ _ on, Kernel.run_append, sent]
    -- the new session is stored once more, with the time of the datagram
    apply owns.paired.opening fresh
    · intro fd' opens' other
      obtain rfl : fd = fd' := Option.some.inj (opens.symm.trans opens')
      unfold Engine.Holds
      rw [tcp, udp, grown.shows_store _ (Buckets.linked_push.mpr (.inl rfl)) rfl rfl]
      simp only [Buckets.linked_push]
      constructor
      · rintro (tcp | ⟨session, rfl | linked, rfl⟩)
        · exact .inr (.inl tcp)
        · exact .inl rfl
        · exact .inr (.inr ⟨session, linked, rfl⟩)
      · rintro (rfl | tcp | ⟨session, linked, rfl⟩)
        · exact .inr ⟨_, .inl rfl, rfl⟩
        · exact .inl tcp
        · exact .inr ⟨session, .inr linked, rfl⟩
    · intro refused
      rw [opens] at refused
      cases refused
  · rw [admits_after _ _ on, admits_append]
    refine ⟨Kernel.admits_on _ _ on, Kernel.valid_opening .., ?_, trivial⟩
    unfold Kernel.run at ran
    rw [ran]
    simp [Kernel.Valid]

theorem swept {now : Int}
    (tcp : next.tcpTable = system.engine.tcpTable.sweep fun session => !Engine.tcpExpired now session)
    (udp : next.udpTable = system.engine.udpTable.sweep fun session => !Engine.udpExpired now session) :
    Paired next.Holds (system.kernel.run flow owner (system.engine.cleanup now).2) ∧
      Admits (Kernel.apply flow owner) Kernel.Valid system.kernel (system.engine.cleanup now).2 := by
  let tcpClosed := (system.engine.tcpTable.records.filter (Engine.tcpExpired now)).map TcpSession.sockFd
  let udpClosed := (system.engine.udpTable.records.filter (Engine.udpExpired now)).map UdpSession.sockFd
  have tcpMember : ∀ fd, fd ∈ tcpClosed ↔ ∃ session, system.engine.tcpTable.Linked session ∧
      Engine.tcpExpired now session = true ∧ session.sockFd = fd := by
    intro fd
    simp only [tcpClosed, List.mem_map, List.mem_filter, Buckets.mem_records, and_assoc]
  have udpMember : ∀ fd, fd ∈ udpClosed ↔ ∃ session, system.engine.udpTable.Linked session ∧
      Engine.udpExpired now session = true ∧ session.sockFd = fd := by
    intro fd
    simp only [udpClosed, List.mem_map, List.mem_filter, Buckets.mem_records, and_assoc]
  have lines : (system.engine.cleanup now).2 = closings (tcpClosed ++ udpClosed) :=
    Engine.cleanup_effects system.engine now
  -- no descriptor is closed twice: sessions of either kind have different ones
  have distinct : (tcpClosed ++ udpClosed).Nodup := by
    rw [List.nodup_append]
    refine ⟨?_, ?_, ?_⟩
    · apply List.Nodup.map_on _ (owns.tables.tcp.records_nodup.filter _)
      intro first left second right same
      rw [List.mem_filter, Buckets.mem_records] at left right
      exact owns.tcp_fd_unique left.1 right.1 same
    · apply List.Nodup.map_on _ (owns.tables.udp.records_nodup.filter _)
      intro first left second right same
      rw [List.mem_filter, Buckets.mem_records] at left right
      exact owns.udp_fd_unique left.1 right.1 same
    · intro fd left other right same
      obtain ⟨first, linked, -, rfl⟩ := (tcpMember fd).mp left
      obtain ⟨second, linked', -, rfl⟩ := (udpMember other).mp right
      exact owns.fd_disjoint linked linked' same
  rw [lines]
  clear_value tcpClosed udpClosed
  constructor
  · rw [Kernel.run_closings]
    apply owns.paired.close
    apply owns.keeps (fun other => ?_) (fun other => ?_) (fun fd => ?_)
    · exact fun session => (!Engine.tcpExpired now session) = true
    · exact fun session => (!Engine.udpExpired now session) = true
    · simp only [tcp, Buckets.linked_sweep]
    · simp only [udp, Buckets.linked_sweep]
    · simp only [List.mem_append, tcpMember, udpMember, Bool.not_eq_true', Bool.not_eq_false]
  · apply Kernel.valid_closings flow owner distinct
    intro fd member
    rcases List.mem_append.mp member with member | member
    · obtain ⟨session, linked, -, rfl⟩ := (tcpMember fd).mp member
      exact owns.tcp_isOpen linked
    · obtain ⟨session, linked, -, rfl⟩ := (udpMember fd).mp member
      exact owns.udp_isOpen linked

end Owns

end

namespace Owns
variable {system : System} (owns : system.Owns)
include owns

/-- A step keeps sessions and sockets in pairs, and uses and closes open sockets only. -/
theorem step {input : Input} (fresh : system.Fresh input) :
    Paired (system.next input).engine.Holds (system.next input).kernel ∧ system.Valid input := by
  have spec := Engine.step_spec system.engine input
  unfold Fresh effects at fresh
  simp only [Valid, System.next, after, effects]
  generalize system.engine.next input = next at *
  generalize (system.engine.step input).2 = effects at *
  cases spec with
  | handled pause linked reaches pauses tcp udp addr lines =>
    rw [lines]
    exact owns.handled _ _ linked pauses tcp udp
  | opened pause decoded opens pauses tcp udp addr lines =>
    simp only [Input.flow?, Input.decoded?, decoded, Except.toOption, Option.map_some] at fresh ⊢
    rw [lines] at fresh ⊢
    exact owns.opened pauses tcp udp fresh
  | relayed pause decoded linked pauses tcp udp addr lines =>
    rw [lines]
    apply owns.steady _ _ (owns.touched linked tcp udp)
    intro effect member
    rcases List.mem_append.mp member with member | member
    · exact idle_steady pauses _ effect member
    · obtain rfl := List.mem_singleton.mp member
      exact ⟨⟨_, rfl⟩, owns.udp_isOpen linked⟩
  | associated pause decoded unknown opens pauses tcp udp addr lines =>
    simp only [Input.flow?, Input.decoded?, decoded, Except.toOption, Option.map_some] at fresh ⊢
    rw [lines] at fresh ⊢
    exact owns.associated unknown opens pauses tcp udp fresh
  | refused pause decoded opens pauses tcp udp addr lines =>
    have on := idle_steady pauses system.kernel
    simp only [Input.flow?, Input.decoded?, decoded, Except.toOption, Option.map_some] at fresh ⊢
    rw [lines] at fresh ⊢
    rw [admits_after _ _ on] at fresh ⊢
    rw [run_after _ _ on, Kernel.run_opening_none _ _ opens _ _ _ fresh.2]
    refine ⟨owns.paired.congr fun holder => ?_, Kernel.admits_on _ _ on, Kernel.valid_opening ..⟩
    unfold Engine.Holds
    rw [tcp, udp]
  | delivered data pause linked pauses tcp udp addr lines =>
    rw [lines]
    apply owns.steady _ _ (owns.touched linked tcp udp)
    intro effect member
    rcases List.mem_cons.mp member with rfl | member
    · exact ⟨⟨_, rfl⟩, owns.udp_isOpen linked⟩
    · rcases List.mem_append.mp member with member | member
      · exact idle_steady pauses _ effect member
      · obtain rfl := List.mem_singleton.mp member
        exact ⟨⟨0, trivial⟩, trivial⟩
  | swept tcp udp addr lines =>
    rw [lines]
    exact owns.swept _ _ tcp udp
  | idle tcp udp addr quiet ignored =>
    apply owns.steady _ _ (fun holder => ?_) (fun effect member => ?_)
    · unfold Engine.Holds
      rw [tcp, udp]
    · rcases quiet effect member with idle | ⟨session, linked, rfl⟩
      · exact ⟨⟨0, idle.on 0⟩, Kernel.valid_of_idle idle _⟩
      · exact ⟨⟨_, rfl⟩, owns.udp_isOpen linked⟩

omit owns in
theorem next_adds (input : Input) :
    Kernel.Adds input.flow? system.engine.nextAddr (system.effects input) := by
  have spec := Engine.step_spec system.engine input
  unfold effects
  generalize (system.engine.step input).2 = effects at *
  generalize system.engine.next input = next at *
  have paused : ∀ {pause : List Effect}, (∀ effect ∈ pause, effect.Idle) →
      Kernel.Adds input.flow? system.engine.nextAddr pause :=
    fun pauses => Kernel.adds_on _ _ fun effect member => ⟨0, (pauses effect member).on 0⟩
  have closes : ∀ handled : Handled, Kernel.Adds input.flow? system.engine.nextAddr handled.closing := by
    intro handled
    unfold Handled.closing
    split
    · exact Kernel.adds_closings _ _ [handled.session.sockFd]
    · exact Kernel.adds_closings _ _ []
  cases spec with
  | @handled _ session event pause linked reaches pauses tcp udp addr lines =>
    rw [lines]
    apply Kernel.adds_append
    · apply Kernel.adds_append
      · exact Kernel.adds_on _ _ fun effect member => ⟨_, event.call_on session.sockFd effect member⟩
      · exact paused pauses
    · apply Kernel.adds_append
      · exact Kernel.adds_on _ _ fun effect member =>
          ⟨_, session.handle_on system.engine.mtu event effect member⟩
      · exact closes _
  | @opened queued replies flow hdr payload pause decoded opens pauses tcp udp addr lines =>
    rw [lines, Engine.openTcp_effects]
    apply Kernel.adds_append _ _ (paused pauses)
    apply Kernel.adds_append _ _ _ (Kernel.adds_opening _ _ _ _ _ _)
    cases system.engine.tcpFind flow with
    | some old => exact Kernel.adds_closings _ _ [old.sockFd]
    | none => exact Kernel.adds_closings _ _ []
  | relayed pause decoded linked pauses tcp udp addr lines =>
    rw [lines]
    apply Kernel.adds_append _ _ (paused pauses)
    exact fun kernel fd socket here => .inl here
  | associated pause decoded unknown opens pauses tcp udp addr lines =>
    rw [lines]
    apply Kernel.adds_append
    · exact Kernel.adds_append _ _ (paused pauses) (Kernel.adds_opening _ _ _ _ _ _)
    · exact fun kernel fd socket here => .inl here
  | refused pause decoded opens pauses tcp udp addr lines =>
    rw [lines]
    exact Kernel.adds_append _ _ (paused pauses) (Kernel.adds_opening _ _ _ _ _ _)
  | @delivered events replies session data pause linked pauses tcp udp addr lines =>
    rw [lines]
    apply Kernel.adds_append
    · apply Kernel.adds_on
      intro effect member
      rcases List.mem_cons.mp member with rfl | member
      · exact ⟨_, rfl⟩
      · exact ⟨0, (pauses effect member).on 0⟩
    · exact fun kernel fd socket here => .inl here
  | @swept now tcp udp addr lines =>
    rw [lines, Engine.cleanup_effects]
    exact Kernel.adds_closings _ _ _
  | idle tcp udp addr quiet ignored =>
    apply Kernel.adds_on
    exact forall_idle quiet (fun _ idle => ⟨0, idle.on 0⟩) fun fd => ⟨fd, rfl⟩

theorem next {input : Input} (fresh : system.Fresh input) : (system.next input).Owns where
  standing := owns.standing.next input
  paired := (owns.step fresh).1

end Owns

theorem owns_run {tunFd : Nat} {mtu ulStart dlStart : Int} {inputs : List Input}
    (fresh : Admits next Fresh (start tunFd mtu ulStart dlStart) inputs) :
    (inputs.foldl next (start tunFd mtu ulStart dlStart)).Owns :=
  fresh.invariant Owns (fun _ _ owns fresh => owns.next fresh) (owns_start tunFd mtu ulStart dlStart)

/-- What the two tables and the open sockets are to each other between two steps. -/
structure Consistent (system : System) : Prop where
  tcpFlows : (system.engine.tcpTable.records.map TcpSession.flow).Nodup
  udpFlows : (system.engine.udpTable.records.map UdpSession.flow).Nodup
  tcpPlaced : ∀ index, ∀ session ∈ system.engine.tcpTable index, sessionHash session.flow = index
  udpPlaced : ∀ index, ∀ session ∈ system.engine.udpTable index, sessionHash session.flow = index
  tcpFound : ∀ flow session, system.engine.tcpFind flow = some session ↔
    session ∈ system.engine.tcpTable.records ∧ session.flow = flow
  udpFound : ∀ flow session, system.engine.udpFind flow = some session ↔
    session ∈ system.engine.udpTable.records ∧ session.flow = flow
  tcpStates : ∀ session ∈ system.engine.tcpTable.records,
    session.state = .synSent ∨ session.state = .established
  descriptors : (system.engine.tcpTable.records.map TcpSession.sockFd ++
    system.engine.udpTable.records.map UdpSession.sockFd).Nodup
  sockets : ∀ fd, (system.kernel fd).isSome ↔ fd ∈ system.engine.tcpTable.records.map TcpSession.sockFd ++
    system.engine.udpTable.records.map UdpSession.sockFd

theorem Owns.consistent {system : System} (owns : system.Owns) : system.Consistent where
  tcpFlows := owns.tables.tcp.keys_nodup
  udpFlows := owns.tables.udp.keys_nodup
  tcpPlaced := owns.tables.tcp.placed
  udpPlaced := owns.tables.udp.placed
  tcpFound := by
    intro flow session
    rw [Buckets.mem_records]
    exact owns.tables.tcp.find_eq_some_iff
  udpFound := by
    intro flow session
    rw [Buckets.mem_records]
    exact owns.tables.udp.find_eq_some_iff
  tcpStates := fun session member => owns.live session (Buckets.mem_records.mp member)
  descriptors := by
    rw [List.nodup_append]
    refine ⟨?_, ?_, ?_⟩
    · apply List.Nodup.map_on _ owns.tables.tcp.records_nodup
      intro first left second right same
      exact owns.tcp_fd_unique (Buckets.mem_records.mp left) (Buckets.mem_records.mp right) same
    · apply List.Nodup.map_on _ owns.tables.udp.records_nodup
      intro first left second right same
      exact owns.udp_fd_unique (Buckets.mem_records.mp left) (Buckets.mem_records.mp right) same
    · intro fd left other right same
      obtain ⟨first, linked, rfl⟩ := List.mem_map.mp left
      obtain ⟨second, linked', rfl⟩ := List.mem_map.mp right
      exact owns.fd_disjoint (Buckets.mem_records.mp linked) (Buckets.mem_records.mp linked') same
  sockets := by
    intro fd
    rw [List.mem_append, List.mem_map, List.mem_map]
    constructor
    · intro isOpen
      obtain ⟨holder, ⟨session, linked, rfl⟩ | ⟨session, linked, rfl⟩, rfl⟩ := owns.paired.owned fd isOpen
      · exact .inl ⟨session, Buckets.mem_records.mpr linked, rfl⟩
      · exact .inr ⟨session, Buckets.mem_records.mpr linked, rfl⟩
    · rintro (⟨session, member, rfl⟩ | ⟨session, member, rfl⟩)
      · exact owns.tcp_isOpen (Buckets.mem_records.mp member)
      · exact owns.udp_isOpen (Buckets.mem_records.mp member)

/-- Whatever arrives and whatever the kernel answers, as long as `socket()` returns a
descriptor that is not open: both tables are sets of sessions found by their flow,
the TCP sessions are connecting or connected, each session has a descriptor of its
own, these are the open sockets, and no call is made on one that is not open. -/
theorem tables_match_sockets (tunFd : Nat) (mtu ulStart dlStart : Int) (inputs : List Input)
    (fresh : Admits next Fresh (start tunFd mtu ulStart dlStart) inputs) :
    (inputs.foldl next (start tunFd mtu ulStart dlStart)).Consistent ∧
      ∀ past input future, inputs = past ++ input :: future →
        (past.foldl next (start tunFd mtu ulStart dlStart)).Valid input := by
  refine ⟨(owns_run fresh).consistent, ?_⟩
  rintro past input future rfl
  rw [admits_append] at fresh
  exact ((owns_run fresh.1).step fresh.2.1).2

theorem tables_match_sockets_reused :
    let inputs : List Input := List.replicate 2 (.tunReadable sampleSyn (.smooth 7 0))
    (inputs.foldl next (start 3 1500 0 0)).Consistent ∧
      ∀ past input future, inputs = past ++ input :: future → (past.foldl next (start 3 1500 0 0)).Valid input :=
  tables_match_sockets 3 1500 0 0 _ (by decide +kernel)

end System

end ThrottleVpn.Tun2Socks
