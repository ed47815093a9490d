import ThrottleVpn.Tun2Socks.Isolation

/-! `engine_loop` over the batches that `epoll_wait` returns.

An entry of a batch names a descriptor and describes the socket that held it when
the batch was collected. By the time the entry is served, an earlier entry of the
batch may have closed that socket and opened another one with the same number.
-/

set_option autoImplicit false

namespace ThrottleVpn.Tun2Socks

open Foundation

inductive Ready where
  | tun
  | socket (fd : Nat) (events : EpollEvents)
  deriving DecidableEq, Repr

/-- An entry that is still to be served. `holder` is the record whose socket held the
descriptor when the batch was collected; the engine does not know it. -/
inductive Entry where
  | tun
  | socket (fd : Nat) (events : EpollEvents) (holder : Option Nat)
  deriving DecidableEq, Repr

structure EventLoop where
  system : System
  batch : List Entry

/-- What happens next: the loop waits for a batch, serves its next entry or does its
housekeeping; a `connect` under way ends; the service changes the rates. -/
inductive Happening where
  | wait (ready : List Ready)
  | serveTun (queued : List UInt8) (replies : TunReplies)
  | serveSocket (replies : SocketReplies)
  | housekeeping (now : Int)
  | setRates (dlBps ulBps : Int)
  | completes (fd : Nat) (success : Bool)
  deriving DecidableEq, Repr

def Kernel.complete (kernel : Kernel) (fd : Nat) (success : Bool) : Kernel :=
  Function.update kernel fd
    ((kernel fd).map fun socket => { socket with phase := if success then .connected else .failed })

/-- What a socket may answer to `getsockopt(SO_ERROR)`. A `connect` that failed at once
told its caller and need not leave an error behind. -/
def Socket.Reports (socket : Socket) (soError : Int) : Prop :=
  match socket.phase with
  | .connecting => soError = 0
  | .failed => soError ≠ 0
  | .unconnected | .connected | .refused => True

instance (socket : Socket) (soError : Int) : Decidable (socket.Reports soError) := by
  unfold Socket.Reports
  cases socket.phase <;> infer_instance

namespace EventLoop

def start (tunFd : Nat) (mtu ulStart dlStart : Int) : EventLoop :=
  ⟨.start tunFd mtu ulStart dlStart, []⟩

def input? (loop : EventLoop) : Happening → Option Input
  | .serveTun queued replies =>
    match loop.batch with
    | .tun :: _ => some (.tunReadable queued replies)
    | _ => none
  | .serveSocket replies =>
    match loop.batch with
    | .socket fd events _ :: _ => some (.socketReady fd events replies)
    | _ => none
  | .housekeeping now => some (.cleanup now)
  | .setRates dlBps ulBps => some (.setRates dlBps ulBps)
  | .wait _ | .completes _ _ => none

def next (loop : EventLoop) (happening : Happening) : EventLoop :=
  match happening with
  | .wait ready =>
    { loop with
      batch := ready.map fun
        | .tun => .tun
        | .socket fd events => .socket fd events ((loop.system.kernel fd).map Socket.owner) }
  | .completes fd success =>
    { loop with system := { loop.system with kernel := loop.system.kernel.complete fd success } }
  | .serveTun _ _ | .serveSocket _ =>
    match loop.input? happening with
    | some input => ⟨loop.system.next input, loop.batch.tail⟩
    | none => loop
  | .housekeeping now => { loop with system := loop.system.next (.cleanup now) }
  | .setRates dlBps ulBps => { loop with system := loop.system.next (.setRates dlBps ulBps) }

def Reported (kernel : Kernel) : Ready → Prop
  | .tun => True
  | .socket fd events => ∀ socket ∈ kernel fd, events.output = true → socket.phase ≠ .connecting

instance (kernel : Kernel) : (ready : Ready) → Decidable (Reported kernel ready)
  | .tun => isTrue trivial
  | .socket fd events =>
    inferInstanceAs (Decidable (∀ socket ∈ kernel fd, events.output = true → socket.phase ≠ .connecting))

/-- Batches of up to 128 entries are served one by one, with the housekeeping between
two batches; answers about a socket are truthful. -/
def InTurn (loop : EventLoop) : Happening → Prop
  | .wait ready => loop.batch = [] ∧ ready.length ≤ 128 ∧ ∀ entry ∈ ready, Reported loop.system.kernel entry
  | .serveTun _ _ => loop.batch.head? = some .tun
  | .serveSocket replies =>
    match loop.batch with
    | .socket fd _ _ :: _ => ∀ socket ∈ loop.system.kernel fd, socket.Reports replies.soError
    | _ => False
  | .housekeeping _ => loop.batch = []
  | .setRates _ _ => True
  | .completes fd _ => ∃ socket ∈ loop.system.kernel fd, socket.phase = .connecting

def Allowed (loop : EventLoop) (happening : Happening) : Prop :=
  (∀ input ∈ loop.input? happening, loop.system.Fresh input) ∧ loop.InTurn happening

/-- The SYN-ACKs of a step and the sessions it takes to `TCP_ESTABLISHED` have their
own socket connected. -/
def Honest (loop : EventLoop) (happening : Happening) : Prop :=
  ∀ input, loop.input? happening = some input →
    let engine := loop.system.engine
    (∀ packets packet flow hdr payload, .tunWrite packets ∈ loop.system.effects input →
      packet ∈ packets → decode packet.bytes = .ok (.tcp flow hdr payload) → hasFlag hdr.flags tfSyn = true →
      ∃ session socket, engine.tcpTable.Linked session ∧ session.flow = flow.reversed ∧
        loop.system.kernel session.sockFd = some socket ∧ socket.owner = session.addr ∧
        socket.phase = .connected) ∧
    ∀ session after, engine.tcpTable.Linked session → session.state = .synSent →
      (engine.next input).tcpTable.Linked after → after.addr = session.addr → after.state = .established →
      ∃ socket, loop.system.kernel session.sockFd = some socket ∧ socket.owner = session.addr ∧
        socket.phase = .connected

/-- An EPOLLOUT that is taken for the end of a connect comes from the socket that still
holds the descriptor, and that socket's `connect` did not fail at once. -/
def Current (loop : EventLoop) : Happening → Prop
  | .serveSocket replies =>
    match loop.batch with
    | .socket fd events holder :: _ => events.output = true → replies.soError = 0 →
      ∀ session ∈ loop.system.engine.tcpFindByFd fd, session.state = .synSent →
        ∀ socket ∈ loop.system.kernel fd, holder = some socket.owner ∧ socket.phase ≠ .refused
    | _ => True
  | _ => True

instance (loop : EventLoop) (happening : Happening) : Decidable (loop.InTurn happening) := by
  unfold InTurn
  cases happening with
  | serveSocket replies => cases loop.batch with
    | nil => infer_instance
    | cons entry rest => cases entry <;> infer_instance
  | wait ready => infer_instance
  | serveTun queued replies => infer_instance
  | housekeeping now => infer_instance
  | setRates dlBps ulBps => infer_instance
  | completes fd success => infer_instance

instance (loop : EventLoop) (happening : Happening) : Decidable (loop.Allowed happening) :=
  inferInstanceAs (Decidable (_ ∧ _))

instance (loop : EventLoop) (happening : Happening) : Decidable (loop.Current happening) := by
  unfold Current
  cases happening with
  | serveSocket replies => cases loop.batch with
    | nil => infer_instance
    | cons entry rest => cases entry <;> infer_instance
  | wait ready => infer_instance
  | serveTun queued replies => infer_instance
  | housekeeping now => infer_instance
  | setRates dlBps ulBps => infer_instance
  | completes fd success => infer_instance

end EventLoop

/-! ### What it takes to report a session connected -/

def Engine.Completes (engine : Engine) (input : Input) (session : TcpSession) : Prop :=
  engine.tcpTable.Linked session ∧ session.state = .synSent ∧
    ∃ events replies, input = .socketReady session.sockFd events replies ∧ events.output = true ∧
      replies.soError = 0

theorem Engine.completes_of_writable {engine : Engine} {input : Input} {session : TcpSession}
    {result : SendResult} (linked : engine.tcpTable.Linked session) (connecting : session.state = .synSent)
    (reaches : Reaches session input (.writable 0 result)) : engine.Completes input session := by
  generalize same : SessionEvent.writable 0 result = event at reaches
  cases reaches with
  | @writable events replies _ output =>
    simp only [SessionEvent.writable.injEq] at same
    exact ⟨linked, connecting, events, replies, rfl, output, same.1.symm⟩
  | segment decoded known => cases same
  | received count answer some => cases same
  | remoteClosed => cases same
  | recvFailed => cases same

theorem hasFlag_flagsAt (mss : Nat) (flags : UInt8) (payload : List UInt8) (index : Nat) :
    hasFlag (flagsAt mss flags payload index) tfSyn = hasFlag flags tfSyn := by
  unfold flagsAt
  split
  · exact hasFlag_clear flags (tfPsh ||| tfFin) tfSyn (by decide)
  · rfl

theorem Engine.syn_completes {engine : Engine} (standing : engine.Standing) {input : Input}
    {packets : List Packet} {packet : Packet} {flow : Flow} {hdr : TcpHdr} {payload : List UInt8}
    (written : .tunWrite packets ∈ (engine.step input).2) (member : packet ∈ packets)
    (decoded : decode packet.bytes = .ok (.tcp flow hdr payload)) (syn : hasFlag hdr.flags tfSyn = true) :
    ∃ session, engine.Completes input session ∧ session.flow = flow.reversed := by
  rcases (step_spec engine input).written written with
    ⟨session, event, pause, linked, reaches, here, -⟩ | ⟨session, data, pause, linked, rfl, -⟩
  · obtain ⟨sender, flags, sent, same, rfl, -, connects⟩ :=
      TcpSession.handle_writes (standing.live session linked) engine.mtu event here
    obtain ⟨index, sentAt⟩ := List.mem_iff_getElem?.mp member
    obtain ⟨⟨hdr', decoded', -, -, set⟩, -⟩ :=
      writeTcp_pass (by rw [same]; exact standing.uniform session linked) sentAt
    rw [decoded', Except.ok.injEq, Decoded.tcp.injEq] at decoded
    obtain ⟨rfl, rfl, -⟩ := decoded
    rw [set, hasFlag_flagsAt] at syn
    obtain ⟨connecting, result, rfl⟩ := connects syn
    exact ⟨session, completes_of_writable linked connecting reaches, same.symm⟩
  · obtain ⟨⟨hdr', decoded', -⟩, -⟩ := writeUdp_carries (standing.udpUniform session linked) member
    rw [decoded'] at decoded
    cases decoded

theorem TcpSession.handle_establishes {session : TcpSession} (connecting : session.state = .synSent)
    (mtu : Int) (event : SessionEvent) (stays : (session.handle mtu event).removed = false)
    (connected : (session.handle mtu event).session.state = .established) :
    ∃ result, event = .writable 0 result := by
  cases event with
  | segment hdr payload replies =>
    have here : ({ session with lastActive := replies.time } : TcpSession).Live := .inl connecting
    simp only [handle] at stays connected
    rcases @segmentArrives_cases session mtu replies hdr payload with
      ⟨-, out⟩ | ⟨-, -, out⟩ | ⟨-, -, -, out⟩
    · simp [out] at stays
    · rw [out] at connected
      rcases dataArrives_cases here mtu replies hdr payload with
        ⟨-, data⟩ | ⟨-, -, data⟩ | ⟨-, already, -⟩ | ⟨-, already, -⟩
      · rw [data] at connected
        exact absurd (connecting.symm.trans connected) (by decide)
      · -- buffering leaves the state alone
        obtain ⟨-, ⟨block, len, cap, kept⟩, -⟩ := bufferPending_frame
          { session with
            lastActive := replies.time
            clientSeq := ntohl hdr.seq + UInt32.ofNat payload.length } replies.realloc payload
        rw [data, kept] at connected
        exact absurd (connecting.symm.trans connected) (by decide)
      · exact absurd (connecting.symm.trans already) (by decide)
      · exact absurd (connecting.symm.trans already) (by decide)
    · simp [out, finArrives] at stays
  | writable soError result =>
    simp only [handle, if_pos connecting] at stays
    rcases session.connectCompletes_cases mtu soError result with
      ⟨rfl, -, -⟩ | ⟨rfl, -⟩ | ⟨-, out⟩
    · exact ⟨result, rfl⟩
    · exact ⟨result, rfl⟩
    · simp [out] at stays
  | received data time =>
    simp only [handle, received, writeTcp_state] at connected
    exact absurd (connecting.symm.trans connected) (by decide)
  | remoteClosed => cases stays
  | recvFailed => cases stays

theorem Engine.established_from {engine : Engine} (standing : engine.Standing) (input : Input) :
    ∀ after, (engine.next input).tcpTable.Linked after → after.state = .established →
      ∃ before, before.addr = after.addr ∧ engine.tcpTable.Linked before ∧
        (before.state = .established ∨ engine.Completes input before) := by
  refine (step_spec engine input).tcp_sessions standing.tables (fun _ linked => linked) ?_ ?_ ?_
  · exact fun before linked already => ⟨before, rfl, linked, .inl already⟩
  · intro queued replies flow hdr payload _ _ fd state
    cases state
  · intro before event _ reaches stays here state
    have identity := before.handle_identity engine.mtu event
    simp only [TcpSession.identity, Prod.mk.injEq] at identity
    refine ⟨before, identity.1.symm, here, ?_⟩
    rcases standing.live before here with synSent | already
    · obtain ⟨result, rfl⟩ := TcpSession.handle_establishes synSent engine.mtu event stays state
      exact .inr (completes_of_writable here synSent reaches)
    · exact .inl already

theorem Engine.established_completes {engine : Engine} (standing : engine.Standing) {input : Input}
    {session after : TcpSession} (linked : engine.tcpTable.Linked session)
    (connecting : session.state = .synSent) (remains : (engine.next input).tcpTable.Linked after)
    (same : after.addr = session.addr) (connected : after.state = .established) :
    engine.Completes input session := by
  obtain ⟨before, addr, here, past⟩ := established_from standing input after remains connected
  obtain rfl := standing.tables.tcp.addrs before session here linked (addr.trans same)
  exact past.resolve_left fun already => absurd (connecting.symm.trans already) (by decide)

/-! ### Batches and the sockets they speak of -/

theorem System.Owns.owner_lt {system : System} (owns : system.Owns) {fd : Nat} {socket : Socket}
    (here : system.kernel fd = some socket) : socket.owner < system.engine.nextAddr := by
  obtain ⟨holder, holds, rfl⟩ := owns.paired.owned fd (by rw [here]; rfl)
  obtain ⟨phase, -, own⟩ := owns.paired.held holder holds
  rw [own, Option.some.injEq] at here
  subst here
  rcases holds with ⟨session, linked, rfl⟩ | ⟨session, linked, rfl⟩
  · exact owns.tables.tcp.allocated session linked
  · exact owns.tables.udp.allocated session linked

theorem System.Owns.tcpFindByFd_eq {system : System} (owns : system.Owns) {session : TcpSession}
    (linked : system.engine.tcpTable.Linked session) :
    system.engine.tcpFindByFd session.sockFd = some session := by
  cases found : system.engine.tcpFindByFd session.sockFd with
  | some other =>
    obtain ⟨here, same⟩ := Buckets.search_some found
    rw [owns.tcp_fd_unique here linked (beq_iff_eq.mp same)]
  | none => simpa using Buckets.search_none_iff.mp found session linked

theorem Kernel.complete_some {kernel : Kernel} {fd other : Nat} {success : Bool} {socket : Socket}
    (here : kernel.complete fd success other = some socket) :
    ∃ before, kernel other = some before ∧ socket.owner = before.owner ∧
      (socket = before ∨ socket.phase = .connected ∨ socket.phase = .failed) := by
  unfold complete at here
  by_cases same : other = fd
  · subst same
    rw [Function.update_self] at here
    obtain ⟨before, there, rfl⟩ := Option.map_eq_some_iff.mp here
    refine ⟨before, there, rfl, .inr ?_⟩
    cases success
    · exact .inr rfl
    · exact .inl rfl
  · rw [Function.update_of_ne same] at here
    exact ⟨socket, here, rfl, .inl rfl⟩

theorem Paired.complete {holds : Holder → Prop} {kernel : Kernel} (paired : Paired holds kernel)
    (fd : Nat) (success : Bool) : Paired holds (kernel.complete fd success) where
  held := by
    intro holder member
    obtain ⟨phase, dialled, socket⟩ := paired.held holder member
    unfold Kernel.complete
    by_cases same : holder.fd = fd
    · subst same
      rw [Function.update_self, socket]
      refine ⟨_, ?_, rfl⟩
      cases success <;> exact nofun
    · rw [Function.update_of_ne same]
      exact ⟨phase, dialled, socket⟩
  owned := by
    intro other isOpen
    obtain ⟨socket, here⟩ := Option.isSome_iff_exists.mp isOpen
    obtain ⟨before, there, -⟩ := Kernel.complete_some here
    exact paired.owned other (by rw [there]; rfl)

namespace EventLoop

theorem next_of_input {loop : EventLoop} {happening : Happening} {input : Input}
    (served : loop.input? happening = some input) :
    ∃ batch, (∀ entry ∈ batch, entry ∈ loop.batch) ∧ loop.next happening = ⟨loop.system.next input, batch⟩ := by
  cases happening with
  | wait ready => cases served
  | completes fd success => cases served
  | serveTun queued replies =>
    refine ⟨loop.batch.tail, fun _ member => List.mem_of_mem_tail member, ?_⟩
    unfold next
    rw [served]
  | serveSocket replies =>
    refine ⟨loop.batch.tail, fun _ member => List.mem_of_mem_tail member, ?_⟩
    unfold next
    rw [served]
  | housekeeping now =>
    rw [input?, Option.some.injEq] at served
    subst served
    exact ⟨loop.batch, fun _ member => member, rfl⟩
  | setRates dlBps ulBps =>
    rw [input?, Option.some.injEq] at served
    subst served
    exact ⟨loop.batch, fun _ member => member, rfl⟩

theorem input?_socketReady {loop : EventLoop} {happening : Happening} {fd : Nat} {events : EpollEvents}
    {replies : SocketReplies} (served : loop.input? happening = some (.socketReady fd events replies)) :
    happening = .serveSocket replies ∧ ∃ holder rest, loop.batch = .socket fd events holder :: rest := by
  unfold input? at served
  split at served
  · split at served <;> cases served
  · split at served
    next given fd' events' holder rest batch =>
      simp only [Option.some.injEq, Input.socketReady.injEq] at served
      obtain ⟨rfl, rfl, rfl⟩ := served
      exact ⟨rfl, holder, rest, batch⟩
    next => cases served
  · cases served
  · cases served
  · cases served
  · cases served

structure Orderly (loop : EventLoop) : Prop where
  owns : loop.system.Owns
  issued : ∀ fd events owner, .socket fd events (some owner) ∈ loop.batch →
    owner < loop.system.engine.nextAddr
  settled : ∀ fd events, events.output = true → ∀ socket,
    .socket fd events (some socket.owner) ∈ loop.batch → loop.system.kernel fd = some socket →
      socket.phase ≠ .connecting

theorem orderly_start (tunFd : Nat) (mtu ulStart dlStart : Int) :
    (start tunFd mtu ulStart dlStart).Orderly where
  owns := System.owns_start tunFd mtu ulStart dlStart
  issued := fun _ _ _ member => by cases member
  settled := fun _ _ _ _ member => by cases member

namespace Orderly
variable {loop : EventLoop} (orderly : loop.Orderly)
include orderly

theorem stepped {input : Input} (fresh : loop.system.Fresh input) {batch : List Entry}
    (left : ∀ entry ∈ batch, entry ∈ loop.batch) : (EventLoop.mk (loop.system.next input) batch).Orderly where
  owns := orderly.owns.next fresh
  issued := by
    intro fd events owner member
    have step := (Engine.step_spec loop.system.engine input).tcpStep
    exact (orderly.issued fd events owner (left _ member)).trans_le step.nextAddr_le
  settled := by
    intro fd events output socket member here
    rcases System.Owns.next_adds input loop.system.kernel fd socket here with before | new
    · exact orderly.settled fd events output socket (left _ member) before
    · -- the socket opened in this step belongs to a record no entry knows
      have issued := orderly.issued fd events socket.owner (left _ member)
      omega

theorem waited {ready : List Ready} (reported : ∀ entry ∈ ready, Reported loop.system.kernel entry) :
    (loop.next (.wait ready)).Orderly where
  owns := orderly.owns
  issued := by
    intro fd events owner member
    obtain ⟨entry, -, same⟩ := List.mem_map.mp member
    cases entry with
    | tun => cases same
    | socket fd events =>
      simp only [Entry.socket.injEq] at same
      obtain ⟨rfl, rfl, same⟩ := same
      obtain ⟨socket, here, rfl⟩ := Option.map_eq_some_iff.mp same
      exact orderly.owns.owner_lt here
  settled := by
    intro fd events output socket member here
    obtain ⟨entry, listed, same⟩ := List.mem_map.mp member
    cases entry with
    | tun => cases same
    | socket fd events =>
      simp only [Entry.socket.injEq] at same
      obtain ⟨rfl, rfl, -⟩ := same
      exact reported _ listed socket here output

theorem completed {fd : Nat} {success : Bool} : (loop.next (.completes fd success)).Orderly where
  owns := {
    standing := orderly.owns.standing
    paired := orderly.owns.paired.complete fd success }
  issued := orderly.issued
  settled := by
    intro other events output socket member here
    obtain ⟨before, there, owner, same⟩ := Kernel.complete_some here
    rcases same with rfl | done | done
    · exact orderly.settled other events output socket member there
    · rw [done]
      exact nofun
    · rw [done]
      exact nofun

theorem next {happening : Happening} (allowed : loop.Allowed happening) : (loop.next happening).Orderly := by
  obtain ⟨fresh, turn⟩ := allowed
  cases served : loop.input? happening with
  | some input =>
    obtain ⟨batch, left, after⟩ := next_of_input served
    rw [after]
    exact orderly.stepped (fresh input served) left
  | none =>
    cases happening with
    | wait ready => exact orderly.waited turn.2.2
    | completes fd success => exact orderly.completed
    | serveTun queued replies =>
      unfold EventLoop.next
      rw [served]
      exact orderly
    | serveSocket replies =>
      unfold EventLoop.next
      rw [served]
      exact orderly
    | housekeeping now => cases served
    | setRates dlBps ulBps => cases served

theorem connected {happening : Happening} (allowed : loop.Allowed happening) (current : loop.Current happening)
    {input : Input} (served : loop.input? happening = some input) {session : TcpSession}
    (completes : loop.system.engine.Completes input session) :
    ∃ socket, loop.system.kernel session.sockFd = some socket ∧ socket.owner = session.addr ∧
      socket.phase = .connected := by
  obtain ⟨linked, connecting, events, replies, rfl, output, noError⟩ := completes
  obtain ⟨phase, dialled, own⟩ := orderly.owns.paired.held session.holder (.inl ⟨session, linked, rfl⟩)
  refine ⟨_, own, rfl, ?_⟩
  obtain ⟨rfl, holder, rest, batch⟩ := input?_socketReady served
  have found := orderly.owns.tcpFindByFd_eq linked
  have answers := allowed.2
  simp only [InTurn, Current, batch] at answers current
  obtain ⟨rfl, dialledWell⟩ := current output noError session found connecting _ own
  have done := orderly.settled _ _ output _ (by rw [batch]; exact List.mem_cons_self) own
  have report := answers _ own
  simp only [Holder.socket, Socket.Reports] at *
  cases phase with
  | unconnected => exact absurd rfl dialled
  | connecting => exact absurd rfl done
  | connected => rfl
  | refused => exact absurd rfl dialledWell
  | failed => exact absurd noError report

theorem honest {happening : Happening} (allowed : loop.Allowed happening) (current : loop.Current happening) :
    loop.Honest happening := by
  intro input served
  have standing := orderly.owns.standing
  refine ⟨?_, ?_⟩
  · intro packets packet flow hdr payload written member decoded syn
    obtain ⟨session, completes, same⟩ := Engine.syn_completes standing written member decoded syn
    obtain ⟨socket, connected⟩ := orderly.connected allowed current served completes
    exact ⟨session, socket, completes.1, same, connected⟩
  · intro session after linked connecting remains same established
    apply orderly.connected allowed current served
    exact Engine.established_completes standing linked connecting remains same established

end Orderly

/-- As long as every EPOLLOUT taken for the end of a connect is current, a session is
reported connected, to the client and in its state, only when its own socket is. -/
theorem connected_before_reported (tunFd : Nat) (mtu ulStart dlStart : Int) (happenings : List Happening)
    (allowed : Admits next Allowed (start tunFd mtu ulStart dlStart) happenings)
    (current : Admits next Current (start tunFd mtu ulStart dlStart) happenings) :
    Admits next Honest (start tunFd mtu ulStart dlStart) happenings := by
  have orderly := orderly_start tunFd mtu ulStart dlStart
  generalize start tunFd mtu ulStart dlStart = loop at *
  induction happenings generalizing loop with
  | nil => trivial
  | cons happening rest ih =>
    exact ⟨orderly.honest allowed.1 current.1, ih (loop.next happening) allowed.2 current.2 (orderly.next allowed.1)⟩

theorem connected_before_reported_sample :
    Admits next Honest (start 3 1500 0 0)
      [.wait [.tun], .serveTun sampleSyn (.smooth 7 0), .completes 7 true, .wait [.socket 7 ⟨false, true⟩],
        .serveSocket (.smooth [])] :=
  connected_before_reported 3 1500 0 0 _ (by decide +kernel) (by decide +kernel)

def repeatedSyn : List Happening :=
  [.wait [.tun], .serveTun sampleSyn (.smooth 7 0), .completes 7 true,
    .wait [.tun, .socket 7 ⟨false, true⟩], .serveTun sampleSyn (.smooth 7 0)]

/-- The new socket has the number of the closed one, and is taken for connected. -/
theorem stale_epollout_reports_connected :
    Admits next Allowed (start 3 1500 0 0) (repeatedSyn ++ [.serveSocket (.smooth [])]) ∧
      ¬Admits next Honest (start 3 1500 0 0) (repeatedSyn ++ [.serveSocket (.smooth [])]) := by
  refine ⟨by decide +kernel, fun honest => ?_⟩
  rw [admits_append] at honest
  obtain ⟨-, established⟩ := honest.2.1 (.socketReady 7 ⟨false, true⟩ (.smooth [])) (by decide +kernel)
  have found : (repeatedSyn.foldl next (start 3 1500 0 0)).system.engine.tcpFind sampleFlow =
      some (.fresh 1 sampleFlow 1000 7 0 0) := by decide +kernel
  have reported : (((repeatedSyn.foldl next (start 3 1500 0 0)).system.engine.next
      (.socketReady 7 ⟨false, true⟩ (.smooth []))).tcpFind sampleFlow).map
        (fun session => (session.addr, session.state)) = some (1, .established) := by decide +kernel
  have connecting : ((repeatedSyn.foldl next (start 3 1500 0 0)).system.kernel 7).map Socket.phase =
      some .connecting := by decide +kernel
  generalize (repeatedSyn.foldl next (start 3 1500 0 0)).system = system at *
  obtain ⟨after, remains, same⟩ := Option.map_eq_some_iff.mp reported
  obtain ⟨addr, state⟩ := Prod.mk.inj same
  obtain ⟨socket, here, -, connected⟩ := established _ after (Engine.tcpFind_linked found).1 rfl
    (Engine.tcpFind_linked remains).1 addr state
  rw [show system.kernel 7 = some socket from here, Option.map_some, connected] at connecting
  cases connecting

end EventLoop

end ThrottleVpn.Tun2Socks
