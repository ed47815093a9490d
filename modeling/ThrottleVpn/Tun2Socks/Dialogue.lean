import ThrottleVpn.Tun2Socks.Isolation
import ThrottleVpn.Tun2Socks.Sessions

/-! What a client hears of one connection.

The segments written for a flow are the words of a small automaton: one SYN-ACK when
the connect is over, acknowledgements and data, and at most one FIN or RST, after which
nothing follows before the client's next SYN. A connect that fails is answered with a
RST alone, and a FIN that arrives before the connect is over with an ACK and a FIN: then
there was no SYN-ACK.
-/

set_option autoImplicit false

namespace ThrottleVpn.Tun2Socks

open Foundation

inductive Signal where
  | synAck
  | ack
  | data
  | fin
  | rst
  deriving DecidableEq, Repr

def signalOf (flags : UInt8) (payload : List UInt8) : Signal :=
  if hasFlag flags tfRst then .rst
  else if hasFlag flags tfSyn then .synAck
  else if hasFlag flags tfFin then .fin
  else if payload = [] then .ack
  else .data

def Packet.signals (flow : Flow) (packet : Packet) : List Signal :=
  match decode packet.bytes with
  | .ok (.tcp sender hdr payload) => if sender = flow.reversed then [signalOf hdr.flags payload] else []
  | .ok (.udp _ _ _) | .error _ => []

def Effect.signals (flow : Flow) : Effect → List Signal
  | .tunWrite packets => packets.flatMap (Packet.signals flow)
  | _ => []

def signals (flow : Flow) (effects : List Effect) : List Signal := effects.flatMap (Effect.signals flow)

section
variable (flow : Flow)

theorem signals_append (first second : List Effect) :
    signals flow (first ++ second) = signals flow first ++ signals flow second := List.flatMap_append

theorem signals_cons (effect : Effect) (rest : List Effect) :
    signals flow (effect :: rest) = effect.signals flow ++ signals flow rest := List.flatMap_cons

@[simp] theorem signals_nil : signals flow [] = [] := rfl

theorem signals_eq_nil {effects : List Effect}
    (mute : ∀ packets, .tunWrite packets ∈ effects → ∀ packet ∈ packets, packet.signals flow = []) :
    signals flow effects = [] := by
  rw [signals, List.flatMap_eq_nil_iff]
  intro effect member
  cases effect with
  | tunWrite packets => exact List.flatMap_eq_nil_iff.mpr (mute packets member)
  | _ => rfl

theorem signals_quiet {effects : List Effect} (quiet : ∀ effect ∈ effects, effect.Quiet) :
    signals flow effects = [] :=
  signals_eq_nil flow fun packets member => (quiet (.tunWrite packets) member).elim

end

theorem closings_quiet (fds : List Nat) : ∀ effect ∈ closings fds, effect.Quiet := by
  intro effect member
  simp only [closings, List.mem_flatMap, List.mem_cons, List.not_mem_nil, or_false] at member
  obtain ⟨fd, -, rfl | rfl⟩ := member <;> trivial

/-! ### What the writers tell -/

section
variable {mtu : Int} {session : TcpSession} {flags : UInt8} {payload : List UInt8}

theorem Packet.signals_other {flow other : Flow} {packet : Packet} {hdr : TcpHdr}
    (decoded : decode packet.bytes = .ok (.tcp flow.reversed hdr payload)) (different : flow ≠ other) :
    packet.signals other = [] := by
  unfold Packet.signals
  rw [decoded]
  refine if_neg fun same => different ?_
  rw [← flow.reversed_reversed, same, other.reversed_reversed]

theorem writeTcp_signals_other (uniform : session.flow.OneVersion) {other : Flow}
    (different : session.flow ≠ other) :
    (Effect.tunWrite (writeTcp mtu session flags payload).2).signals other = [] := by
  unfold Effect.signals
  rw [List.flatMap_eq_nil_iff]
  intro packet member
  obtain ⟨index, sent⟩ := List.mem_iff_getElem?.mp member
  obtain ⟨⟨hdr, decoded, -⟩, -⟩ := writeTcp_pass uniform sent
  exact Packet.signals_other decoded different

theorem writeTcp_signals_nil {flow : Flow} (same : session.flow = flow) (uniform : flow.OneVersion) :
    (Effect.tunWrite (writeTcp mtu session flags []).2).signals flow = [signalOf flags []] := by
  subst same
  obtain ⟨-, packet, written, -⟩ := writeTcp_nil mtu session flags
  have sent : (writeTcp mtu session flags []).2[0]? = some packet := by rw [written]; rfl
  obtain ⟨⟨hdr, decoded, -, -, set⟩, -⟩ := writeTcp_pass uniform sent
  have chunk : chunkAt (session.flow.mss mtu) [] 0 = [] := by simp [chunkAt]
  have given : flagsAt (session.flow.mss mtu) flags [] 0 = flags := by simp [flagsAt]
  rw [chunk] at decoded
  rw [given] at set
  rw [Effect.signals, written, List.flatMap_singleton]
  unfold Packet.signals
  rw [decoded]
  dsimp only
  rw [if_pos rfl, set]

theorem segmentLoop_inside {headers mss : Nat} {build : TcpSession → UInt8 → List UInt8 → Packet}
    (fuel start : Nat) (session : TcpSession) (index : Nat) (packet : Packet)
    (inside : mss * start < payload.length)
    (sent : (segmentLoop headers mss build flags payload fuel (mss * start) session).2[index]? = some packet) :
    mss * (start + index) < payload.length := by
  induction fuel generalizing start session index with
  | zero => simp [segmentLoop] at sent
  | succ fuel ih =>
    cases index with
    | zero => exact inside
    | succ index =>
      simp only [segmentLoop] at sent
      split at sent
      · simp at sent
      · split at sent
        next more =>
          have full : ((payload.drop (mss * start)).take mss).length = mss := by
            rw [List.length_take, List.length_drop] at more ⊢
            omega
          rw [full] at more
          rw [List.getElem?_cons_succ, full, ← Nat.mul_succ] at sent
          have later := ih (start + 1) _ index (by rwa [Nat.mul_succ]) sent
          rwa [Nat.add_right_comm] at later
        next => simp at sent

theorem writeTcp_inside {index : Nat} {packet : Packet} (nonempty : payload ≠ [])
    (sent : (writeTcp mtu session flags payload).2[index]? = some packet) :
    session.flow.mss mtu * index < payload.length := by
  have pos := List.length_pos_iff.mpr nonempty
  cases version : session.flow.src with
  | v4 addr =>
    simp only [writeTcp, version, writeTcpV4] at sent
    simp only [Flow.mss, version]
    simpa using segmentLoop_inside _ 0 session index packet (by simpa using pos) sent
  | v6 addr =>
    simp only [writeTcp, version, writeTcpV6] at sent
    simp only [Flow.mss, version]
    simpa using segmentLoop_inside _ 0 session index packet (by simpa using pos) sent

theorem writeTcp_signals_data {flow : Flow} (same : session.flow = flow) (uniform : flow.OneVersion)
    (nonempty : payload ≠ []) :
    ∃ count, (Effect.tunWrite (writeTcp mtu session (tfPsh ||| tfAck) payload).2).signals flow =
      List.replicate count .data := by
  subst same
  refine ⟨_, List.eq_replicate_length.mpr fun signal told => ?_⟩
  obtain ⟨packet, member, told⟩ := List.mem_flatMap.mp told
  obtain ⟨index, sent⟩ := List.mem_iff_getElem?.mp member
  obtain ⟨⟨hdr, decoded, -, -, set⟩, -⟩ := writeTcp_pass uniform sent
  have inside := writeTcp_inside nonempty sent
  have chunk : chunkAt (session.flow.mss mtu) payload index ≠ [] := by
    have pos := session.flow.mss_pos mtu
    rw [← List.length_pos_iff, chunkAt, List.length_take, List.length_drop]
    omega
  unfold Packet.signals at told
  rw [decoded] at told
  dsimp only at told
  rw [if_pos rfl, List.mem_singleton] at told
  rw [told, set]
  -- clearing PSH and FIN leaves no flag that ends or opens a connection
  have plain : hasFlag (flagsAt (session.flow.mss mtu) (tfPsh ||| tfAck) payload index) tfRst = false ∧
      hasFlag (flagsAt (session.flow.mss mtu) (tfPsh ||| tfAck) payload index) tfSyn = false ∧
      hasFlag (flagsAt (session.flow.mss mtu) (tfPsh ||| tfAck) payload index) tfFin = false := by
    unfold flagsAt
    split <;> decide
  simp only [signalOf, plain, if_neg chunk, Bool.false_eq_true, if_false]

end

/-! ### The automaton -/

inductive Stage where
  | absent
  | connecting
  | connected
  deriving DecidableEq, Repr

/-- What the client may be told in one step, as long as it sends no SYN. A connection
can be lost without a word: by a RST of the client or by the cleanup. -/
inductive Stage.Says : Stage → List Signal → Stage → Prop where
  | silent {stage : Stage} : Says stage [] stage
  | lost {stage : Stage} : Says stage [] .absent
  | accepts : Says .connecting [.synAck] .connected
  | flushes : Says .connecting [.synAck, .ack] .connected
  | refuses : Says .connecting [.rst] .absent
  | abandons : Says .connecting [.ack, .fin] .absent
  | acknowledges : Says .connected [.ack] .connected
  | relays (count : Nat) : Says .connected (List.replicate count .data) .connected
  | ends : Says .connected [.fin] .absent
  | closes : Says .connected [.ack, .fin] .absent
  | closesBehind : Says .connected [.ack, .ack, .fin] .absent
  | resets : Says .connected [.rst] .absent

def Stream (words : List Signal) : Prop :=
  ∃ body last, words = body ++ last ∧ (∀ signal ∈ body, signal = .ack ∨ signal = .data) ∧
    (last = [] ∨ last = [.fin] ∨ last = [.rst])

/-- What the client hears of a connection from a stage on. While the connect is under way
a FIN of the client is answered without any SYN-ACK. -/
def Stage.Hears : Stage → List Signal → Prop
  | .absent, words => words = []
  | .connecting, words =>
    words = [] ∨ words = [.rst] ∨ words = [.ack, .fin] ∨ ∃ rest, words = .synAck :: rest ∧ Stream rest
  | .connected, words => Stream words

theorem stream_nil : Stream [] := ⟨[], [], rfl, by simp, .inl rfl⟩

theorem Stream.after {body rest : List Signal} (plain : ∀ signal ∈ body, signal = .ack ∨ signal = .data)
    (stream : Stream rest) : Stream (body ++ rest) := by
  obtain ⟨more, last, rfl, further, ends⟩ := stream
  refine ⟨body ++ more, last, (List.append_assoc ..).symm, ?_, ends⟩
  intro signal member
  exact (List.mem_append.mp member).elim (plain signal) (further signal)

theorem Stage.hears_of_path {stage final : Stage} {words : List (List Signal)}
    (path : Moves.Path Stage.Says stage words final) : stage.Hears words.flatten := by
  induction path with
  | nil =>
    rename_i stage
    cases stage with
    | absent => rfl
    | connecting => exact .inl rfl
    | connected => exact stream_nil
  | @cons here next final label rest move later ih =>
    rw [List.flatten_cons]
    cases move with
    | silent => exact ih
    | lost =>
      -- nothing is said any more
      rw [List.nil_append, show rest.flatten = [] from ih]
      cases here with
      | absent => rfl
      | connecting => exact .inl rfl
      | connected => exact stream_nil
    | accepts => exact .inr (.inr (.inr ⟨_, rfl, ih⟩))
    | flushes =>
      have plain : ∀ signal ∈ [Signal.ack], signal = .ack ∨ signal = .data := by simp
      exact .inr (.inr (.inr ⟨_, rfl, ih.after plain⟩))
    | refuses =>
      rw [show rest.flatten = [] from ih]
      exact .inr (.inl rfl)
    | abandons =>
      rw [show rest.flatten = [] from ih]
      exact .inr (.inr (.inl rfl))
    | acknowledges => exact Stream.after (by simp) ih
    | relays count => exact Stream.after (fun signal member => .inr (List.eq_of_mem_replicate member)) ih
    | ends =>
      rw [show rest.flatten = [] from ih]
      exact ⟨[], _, rfl, by simp, .inr (.inl rfl)⟩
    | closes =>
      rw [show rest.flatten = [] from ih]
      exact ⟨[.ack], [.fin], rfl, by simp, .inr (.inl rfl)⟩
    | closesBehind =>
      rw [show rest.flatten = [] from ih]
      exact ⟨[.ack, .ack], [.fin], rfl, by simp, .inr (.inl rfl)⟩
    | resets =>
      rw [show rest.flatten = [] from ih]
      exact ⟨[], _, rfl, by simp, .inr (.inr rfl)⟩

/-! ### Handlers -/

def TcpSession.stage (session : TcpSession) : Stage :=
  if session.state = .synSent then .connecting else .connected

def Handled.stage (handled : Handled) : Stage :=
  if handled.removed then .absent else handled.session.stage

namespace TcpSession
variable {session : TcpSession} (live : session.Live) (uniform : session.flow.OneVersion) (mtu : Int)
include live uniform

theorem dataArrives_spoken (replies : TunReplies) (hdr : TcpHdr) (payload : List UInt8) :
    let out := session.dataArrives mtu replies hdr payload
    out.removed = false ∧ out.session.state = session.state ∧
        (signals session.flow out.effects = [] ∨
          session.state = .established ∧ signals session.flow out.effects = [.ack]) ∨
      out.removed = true ∧ session.state = .established ∧ signals session.flow out.effects = [.rst] := by
  rcases dataArrives_cases live mtu replies hdr payload with
    ⟨-, out⟩ | ⟨-, -, out⟩ | ⟨-, connected, -, out⟩ | ⟨-, connected, -, out⟩
  · rw [out]
    exact .inl ⟨rfl, rfl, .inl rfl⟩
  · -- what is buffered is not answered
    obtain ⟨stays, ⟨block, len, cap, kept⟩, none | hold⟩ := bufferPending_frame
      { session with clientSeq := ntohl hdr.seq + UInt32.ofNat payload.length } replies.realloc payload
    · rw [out]
      exact .inl ⟨stays, by rw [kept], .inl (by rw [none]; rfl)⟩
    · rw [out]
      exact .inl ⟨stays, by rw [kept], .inl (by rw [hold]; rfl)⟩
  · rw [out]
    refine .inl ⟨rfl, by simp, .inr ⟨connected, ?_⟩⟩
    simp only [signals_cons, signals_nil, writeTcp_signals_nil, uniform]
    rfl
  · rw [out]
    refine .inr ⟨rfl, connected, ?_⟩
    simp only [signals_cons, signals_nil, writeTcp_signals_nil, uniform]
    rfl

omit live in
theorem finArrives_spoken (sender : TcpSession) (same : sender.flow = session.flow) (hdr : TcpHdr) :
    signals session.flow (sender.finArrives mtu hdr).effects = [.ack, .fin] := by
  simp only [finArrives, signals_cons, signals_nil, writeTcp_signals_nil, writeTcp_flow, same, uniform]
  rfl

omit live in
theorem connectCompletes_spoken (connecting : session.state = .synSent) (soError : Int) (result : SendResult) :
    Stage.Says session.stage (signals session.flow (session.connectCompletes mtu soError result).effects)
      (session.connectCompletes mtu soError result).stage := by
  have before : session.stage = .connecting := if_pos connecting
  rw [before]
  rcases session.connectCompletes_cases mtu soError result with ⟨-, -, out⟩ | ⟨-, out⟩ | ⟨-, out⟩
  · rw [out]
    simp only [signals_cons, signals_nil, writeTcp_signals_nil, uniform]
    exact .accepts
  · rw [out]
    simp only [signals_cons, signals_nil, writeTcp_signals_nil, writeTcp_flow, uniform, Handled.stage, stage,
      writeTcp_state]
    exact .flushes
  · rw [out]
    simp only [signals_cons, signals_nil, writeTcp_signals_nil, uniform]
    exact .refuses

theorem segmentArrives_spoken (replies : TunReplies) (hdr : TcpHdr) (payload : List UInt8) :
    Stage.Says session.stage (signals session.flow (session.segmentArrives mtu replies hdr payload).effects)
      (session.segmentArrives mtu replies hdr payload).stage := by
  have here : ({ session with lastActive := replies.time } : TcpSession).Live := live
  have same := dataArrives_identity { session with lastActive := replies.time } mtu replies hdr payload
  simp only [identity, Prod.mk.injEq] at same
  have data := dataArrives_spoken here uniform mtu replies hdr payload
  dsimp only at data same
  rcases @segmentArrives_cases session mtu replies hdr payload with
    ⟨-, out⟩ | ⟨-, -, out⟩ | ⟨-, stays, -, out⟩
  · rw [out]
    exact .lost
  · rw [out]
    generalize dataArrives { session with lastActive := replies.time } mtu replies hdr payload = answer at *
    rcases data with ⟨stays, kept, none | ⟨connected, ack⟩⟩ | ⟨removed, connected, reset⟩
    · have after : answer.stage = session.stage := by simp only [Handled.stage, stays, stage, kept]; rfl
      rw [none, after]
      exact .silent
    · have after : answer.stage = session.stage := by simp only [Handled.stage, stays, stage, kept]; rfl
      rw [ack, after, stage, connected]
      exact .acknowledges
    · have after : answer.stage = .absent := if_pos removed
      rw [reset, after, stage, connected]
      exact .resets
  · -- the FIN follows what was said to the payload
    have ending := finArrives_spoken uniform mtu _ same.2.1 hdr
    rw [out]
    dsimp only
    rw [signals_append, ending]
    generalize dataArrives { session with lastActive := replies.time } mtu replies hdr payload = answer at *
    rcases data with ⟨-, kept, none | ⟨connected, ack⟩⟩ | ⟨removed, -, -⟩
    · rw [none]
      -- a FIN before the connection is there: the client hears it all the same
      rcases live with connecting | connected
      · rw [stage, if_pos connecting]
        exact .abandons
      · rw [stage, connected]
        exact .closes
    · rw [ack, stage, connected]
      exact .closesBehind
    · rw [stays] at removed
      cases removed

/-- Each handler says what the automaton may say, if nothing is received while the
session is connecting. -/
theorem handle_spoken (event : SessionEvent)
    (received : ∀ data time, event = .received data time → session.state = .established ∧ data ≠ [])
    (closed : event = .remoteClosed → session.state = .established) :
    Stage.Says session.stage (signals session.flow (session.handle mtu event).effects)
      (session.handle mtu event).stage := by
  have reset : Stage.Says session.stage [.rst] .absent := by
    rcases live with connecting | connected
    · rw [stage, if_pos connecting]
      exact .refuses
    · rw [stage, connected]
      exact .resets
  cases event with
  | segment hdr payload replies => exact segmentArrives_spoken live uniform mtu replies hdr payload
  | writable soError result =>
    simp only [handle]
    split
    next connecting => exact connectCompletes_spoken uniform mtu connecting soError result
    next => exact .silent
  | received data time =>
    obtain ⟨connected, nonempty⟩ := received data time rfl
    obtain ⟨count, told⟩ : ∃ count,
        (Effect.tunWrite (writeTcp mtu { session with lastActive := time } (tfPsh ||| tfAck) data).2).signals
          session.flow = List.replicate count .data :=
      writeTcp_signals_data rfl uniform nonempty
    have said : signals session.flow (session.handle mtu (.received data time)).effects =
        List.replicate count .data := by
      simp only [handle, TcpSession.received, signals_cons, signals_nil, told, List.append_nil]
    have after : (session.handle mtu (.received data time)).stage = .connected := by
      simp [handle, TcpSession.received, Handled.stage, stage, connected]
    rw [said, after, stage, connected]
    exact .relays count
  | remoteClosed =>
    simp only [handle, remoteClosed, signals_cons, signals_nil, writeTcp_signals_nil, uniform, Handled.stage,
      stage, closed rfl]
    exact .ends
  | recvFailed =>
    simp only [handle, recvFailed, signals_cons, signals_nil, writeTcp_signals_nil, uniform]
    exact reset

theorem handle_spoken_other (event : SessionEvent) {other : Flow} (different : session.flow ≠ other) :
    signals other (session.handle mtu event).effects = [] := by
  apply signals_eq_nil
  intro packets written packet member
  obtain ⟨sender, flags, payload, same, rfl, -⟩ := handle_writes live mtu event written
  have none : (Effect.tunWrite (writeTcp mtu sender flags payload).2).signals other = [] :=
    writeTcp_signals_other (by rwa [same]) (by rwa [same])
  exact List.flatMap_eq_nil_iff.mp none packet member

end TcpSession

/-! ### Runs -/

def Input.Opens (input : Input) (flow : Flow) : Prop :=
  match input.decoded? with
  | some (.tcp sender hdr _) => sender = flow ∧ hdr.Opens
  | some (.udp _ _ _) | none => False

instance (input : Input) (flow : Flow) : Decidable (input.Opens flow) := by
  unfold Input.Opens
  cases input.decoded? with
  | none => infer_instance
  | some decoded => cases decoded <;> infer_instance

def RecvResult.answered : RecvResult → Bool
  | .bytes _ => true
  | .wouldBlock | .failed => false

namespace Sessions

def stage (sessions : Sessions) (flow : Flow) : Stage := (sessions.tcp flow).elim .absent TcpSession.stage

structure Sound (sessions : Sessions) : Prop where
  placed : ∀ flow session, sessions.tcp flow = some session → session.flow = flow
  live : ∀ flow session, sessions.tcp flow = some session → session.Live
  uniform : ∀ flow session, sessions.tcp flow = some session → session.flow.OneVersion
  udpUniform : ∀ flow session, sessions.udp flow = some session → session.flow.OneVersion

/-- A socket that is not reported writable is not connected, and `recv` has nothing
for it, not even the end of the stream. -/
def ReadsConnected (sessions : Sessions) : Input → Prop
  | .socketReady fd events replies => events.output = false → replies.recv.answered = true →
    ∀ flow session, sessions.tcp flow = some session → session.sockFd = fd → session.state = .established
  | _ => True

variable {mtu : Int} {sessions next : Sessions} {input : Input} {effects : List Effect}

theorem ReadsConnected.established (reads : sessions.ReadsConnected input) {session : TcpSession}
    {event : SessionEvent} (reaches : Reaches session input event) {flow : Flow}
    (known : sessions.tcp flow = some session) (live : session.Live) :
    (∀ data time, event = .received data time → session.state = .established ∧ data ≠ []) ∧
      (event = .remoteClosed → session.state = .established) := by
  have settled : ∀ {events : EpollEvents} {replies : SocketReplies} {queued : List UInt8},
      input = .socketReady session.sockFd events replies → replies.recv = .bytes queued →
      (session.state = .synSent → events.output = false) → session.state = .established := by
    rintro events replies queued rfl answer pending
    rcases live with connecting | connected
    · exact reads (pending connecting) (by rw [answer]; rfl) flow session known rfl
    · exact connected
  cases reaches with
  | segment decoded known => exact ⟨by simp, by simp⟩
  | writable connecting output => exact ⟨by simp, by simp⟩
  | received count answer some pending =>
    refine ⟨fun data time same => ?_, by simp⟩
    obtain ⟨rfl, -⟩ := SessionEvent.received.inj same
    exact ⟨settled rfl answer pending, some⟩
  | remoteClosed answer pending => exact ⟨by simp, fun _ => settled rfl answer pending⟩
  | recvFailed answer pending => exact ⟨by simp, by simp⟩

/-- Every move says to the client of each flow what its automaton allows. -/
theorem Move.spoken (move : Move mtu sessions (input, effects) next) (sound : sessions.Sound)
    (reads : sessions.ReadsConnected input) {flow : Flow} (sole : ¬input.Opens flow) :
    Stage.Says (sessions.stage flow) (signals flow effects) (next.stage flow) := by
  generalize same : (input, effects) = label at move
  cases move with
  | @handled input' session event pause known reaches pauses =>
    obtain ⟨rfl, rfl⟩ := Prod.mk.inj same
    have live := sound.live _ _ known
    have uniform := sound.uniform _ _ known
    have idle := signals_quiet flow fun effect member => (pauses effect member).quiet
    have call := signals_quiet flow (event.call_quiet session.sockFd)
    have closing := signals_quiet flow (session.handle mtu event).closing_quiet
    rw [signals_append, signals_append, signals_append, call, idle, closing, List.nil_append, List.nil_append,
      List.append_nil]
    unfold stage
    dsimp only
    by_cases here : session.flow = flow
    · subst here
      -- what is received is received by a connected session, so that no data comes before the SYN|ACK
      obtain ⟨received, closed⟩ := reads.established reaches known live
      have spoken := TcpSession.handle_spoken live uniform mtu event received closed
      have left : (Left (session.handle mtu event)).elim .absent TcpSession.stage =
          (session.handle mtu event).stage := by
        unfold Left Handled.stage
        split <;> rfl
      rw [known, Function.update_self, left]
      exact spoken
    · rw [Function.update_of_ne (Ne.symm here), TcpSession.handle_spoken_other live uniform mtu event here]
      exact .silent
  | @opened queued replies target hdr payload pause decoded opens pauses =>
    obtain ⟨rfl, rfl⟩ := Prod.mk.inj same
    have different : flow ≠ target := by
      rintro rfl
      exact sole (by simp [Input.Opens, Input.decoded?, decoded, Except.toOption, opens])
    -- the SYN of another flow: nothing is written to any client
    have after : (sessions.opened replies target (ntohl hdr.seq)).tcp flow = sessions.tcp flow := by
      unfold Sessions.opened
      cases replies.opens <;> exact Function.update_of_ne different ..
    have mute : signals flow
        (pause ++ (closing (sessions.tcp target) ++ replies.opening .tcp target ⟨true, true⟩)) = [] := by
      apply signals_quiet
      intro effect member
      rcases List.mem_append.mp member with member | member
      · exact (pauses effect member).quiet
      · rcases List.mem_append.mp member with member | member
        · cases old : sessions.tcp target with
          | none => simp [closing, old] at member
          | some session =>
            simp only [closing, old, Option.elim, List.mem_cons, List.not_mem_nil, or_false] at member
            rcases member with rfl | rfl <;> trivial
        · exact replies.opening_quiet _ _ _ effect member
    rw [mute, stage, stage, after]
    exact .silent
  | @relayed queued replies session hdr payload pause decoded known pauses =>
    obtain ⟨rfl, rfl⟩ := Prod.mk.inj same
    rw [signals_append, signals_quiet flow fun effect member => (pauses effect member).quiet]
    exact .silent
  | @associated queued replies target hdr payload fd pause decoded unknown opens pauses =>
    obtain ⟨rfl, rfl⟩ := Prod.mk.inj same
    rw [signals_append, signals_append, signals_quiet flow fun effect member => (pauses effect member).quiet,
      signals_quiet flow (replies.opening_quiet _ _ _)]
    exact .silent
  | @refused queued replies target hdr payload pause decoded opens pauses =>
    obtain ⟨rfl, rfl⟩ := Prod.mk.inj same
    rw [signals_append, signals_quiet flow fun effect member => (pauses effect member).quiet,
      signals_quiet flow (replies.opening_quiet _ _ _)]
    exact .silent
  | @delivered events replies session data pause known pauses =>
    obtain ⟨rfl, rfl⟩ := Prod.mk.inj same
    -- a datagram is no segment
    have datagram : signals flow [.tunWrite (writeUdp session data)] = [] := by
      apply signals_eq_nil
      intro packets written packet member
      obtain rfl := Effect.tunWrite.inj (List.mem_singleton.mp written)
      obtain ⟨hdr, decoded, -⟩ := (writeUdp_carries (sound.udpUniform _ _ known) member).decoded
      unfold Packet.signals
      rw [decoded]
    rw [List.cons_append, signals_cons, signals_append,
      signals_quiet flow fun effect member => (pauses effect member).quiet, datagram]
    exact .silent
  | @swept now tcpGone udpGone tcpOnce udpOnce tcpAll udpAll =>
    obtain ⟨rfl, rfl⟩ := Prod.mk.inj same
    have mute := signals_quiet flow (closings_quiet
      (tcpGone.map TcpSession.sockFd ++ udpGone.map UdpSession.sockFd))
    rw [mute]
    unfold stage
    dsimp only
    cases sessions.tcp flow with
    | none => exact .silent
    | some session =>
      -- an expired session is forgotten without a word to its client
      cases expired : Engine.tcpExpired now session with
      | true => simpa [Option.filter, expired] using Stage.Says.lost
      | false => simpa [Option.filter, expired] using Stage.Says.silent
  | @idle input' effects' quiet ignored =>
    obtain ⟨rfl, rfl⟩ := Prod.mk.inj same
    have mute := forall_idle quiet (fun _ idle => idle.quiet) fun _ => trivial
    rw [signals_quiet flow mute]
    exact .silent

end Sessions

namespace Engine

def ReadsConnected (engine : Engine) : Input → Prop
  | .socketReady fd events replies => events.output = false → replies.recv.answered = true →
    ∀ session ∈ engine.tcpTable.records, session.sockFd = fd → session.state = .established
  | _ => True

instance (engine : Engine) : (input : Input) → Decidable (engine.ReadsConnected input)
  | .socketReady _ _ _ => inferInstanceAs (Decidable (_ → _ → ∀ session ∈ _, _ → _))
  | .tunReadable _ _ | .cleanup _ | .setRates _ _ => inferInstanceAs (Decidable True)

theorem Standing.sound {engine : Engine} (standing : engine.Standing) : engine.sessions.Sound where
  placed := fun _ _ found => (standing.tables.tcpFind_eq_some_iff.mp found).2
  live := fun _ session found => standing.live session (standing.tables.tcpFind_eq_some_iff.mp found).1
  uniform := fun _ session found => standing.uniform session (standing.tables.tcpFind_eq_some_iff.mp found).1
  udpUniform := fun _ session found => standing.udpUniform session (standing.tables.udpFind_eq_some_iff.mp found).1

theorem ReadsConnected.sessions {engine : Engine} (tables : engine.Tables) {input : Input}
    (reads : engine.ReadsConnected input) : engine.sessions.ReadsConnected input := by
  cases input with
  | socketReady fd events replies =>
    intro output answered flow session found
    exact reads output answered session (Buckets.mem_records.mpr (tables.tcpFind_eq_some_iff.mp found).1)
  | tunReadable | cleanup | setRates => trivial

theorem refines_stage (flow : Flow) :
    Refines next (fun engine input => engine.ReadsConnected input ∧ ¬input.Opens flow)
      (fun engine input => signals flow (engine.step input).2) Stage.Says
      (fun engine => engine.sessions.stage flow)
      Standing where
  preserved := fun _ input standing _ => standing.next input
  moves := fun _ input standing admitted =>
    (standing.tables.move input).spoken standing.sound (admitted.1.sessions standing.tables) admitted.2

/-- From any state that a run reaches, and until the client of a flow sends its next
SYN, the client hears what is left of one connection, as far as it has come. -/
theorem client_hears_one_connection (tunFd : Nat) (mtu ulStart dlStart : Int) (past inputs : List Input)
    (flow : Flow) :
    let engine := past.foldl next (start tunFd mtu ulStart dlStart)
    Admits next (fun engine input => engine.ReadsConnected input ∧ ¬input.Opens flow) engine inputs →
    (engine.sessions.stage flow).Hears
      (trace next (fun engine input => signals flow (engine.step input).2) engine inputs).flatten := by
  intro engine admits
  have standing : engine.Standing :=
    run_invariant Standing (fun _ input standing => standing.next input)
      (standing_start tunFd mtu ulStart dlStart) past
  exact Stage.hears_of_path ((refines_stage flow).path admits standing)

theorem client_hears_one_connection_sample :
    let engine := (start 3 1500 0 0).next (.tunReadable sampleSyn (.smooth 7 0))
    (engine.sessions.stage sampleFlow).Hears
      (trace next (fun engine input => signals sampleFlow (engine.step input).2) engine
        [.socketReady 7 ⟨false, true⟩ (.smooth []), .socketReady 7 ⟨true, false⟩ (.smooth [1, 2, 3, 4]),
          .socketReady 7 ⟨true, false⟩ (.smooth [])]).flatten :=
  client_hears_one_connection 3 1500 0 0 [.tunReadable sampleSyn (.smooth 7 0)] _ sampleFlow (by decide +kernel)

end Engine

end ThrottleVpn.Tun2Socks
