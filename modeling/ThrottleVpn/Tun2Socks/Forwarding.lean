import ThrottleVpn.Foundation.Tiling
import ThrottleVpn.Tun2Socks.Streams

/-! Forwarding of the client's payload.

What was handed to the socket, followed by what is held for it, grows by exactly
the payloads the engine takes; the flush moves bytes from the second part to the
first. The engine takes each payload it has room for, whatever its sequence
number, so the stream stays in order only as far as the client's segments do.
-/

set_option autoImplicit false

namespace ThrottleVpn.Tun2Socks

open Foundation

/-! ### Effects that move no payload -/

def Effect.moves : Effect → Bool
  | .send _ _ _ | .hold _ _ | .release _ => true
  | _ => false

theorem streams_still {effects : List Effect} (still : ∀ effect ∈ effects, effect.moves = false)
    (past : List Line) :
    handed (past ++ effects.map Line.effect) = handed past ∧
      accepted (past ++ effects.map Line.effect) = accepted past ∧
      held (past ++ effects.map Line.effect) = held past := by
  induction effects generalizing past with
  | nil => simp
  | cons effect rest ih =>
    obtain ⟨given, taken, kept⟩ := ih (fun other member => still other (List.mem_cons_of_mem _ member))
      (past ++ [.effect effect])
    have first := still effect List.mem_cons_self
    rw [List.map_cons, append_cons_concat, given, taken, kept]
    cases effect <;> simp_all [Effect.moves]

theorem streams_event (past : List Line) (event : SessionEvent) :
    handed (past ++ [.event event]) = handed past ∧ accepted (past ++ [.event event]) = accepted past ∧
      held (past ++ [.event event]) = held past := by
  simp

/-! ### The two phases of a session -/

/-- While the socket connects, nothing was handed to it and the pending block is
what is held; afterwards nothing is held. -/
structure Relaying (run : SessionRun) : Prop where
  live : run.session.Live
  connecting : run.session.state = .synSent → run.session.BufferOk ∧ handed run.history = [] ∧
    accepted run.history = [] ∧ held run.history = run.session.pendingBytes
  connected : run.session.state = .established → held run.history = []

theorem SendResult.taken_nil (result : SendResult) : result.taken [] = [] := by
  cases result <;> simp [SendResult.taken]

namespace TcpSession
variable {session : TcpSession}

theorem bufferPending_streams (buffer : session.BufferOk) (number : UInt32) (reallocated : Option UInt8)
    {payload : List UInt8} (nonempty : payload ≠ []) (past : List Line) :
    let kept := { session with clientSeq := number }.bufferPending reallocated payload
    let after := past ++ kept.effects.map Line.effect
    let added := if session.Buffers reallocated payload then payload else []
    handed after = handed past ∧ accepted after = accepted past ∧ held after = held past ++ added ∧
      kept.session.state = session.state ∧ kept.session.BufferOk ∧
      kept.session.pendingBytes = session.pendingBytes ++ added := by
  intro kept after added
  let next : TcpSession := { session with clientSeq := number }
  obtain ⟨-, ⟨block, len, cap, frame⟩, -⟩ := next.bufferPending_frame reallocated payload
  have phase : kept.session.state = session.state := by simp only [kept, frame, next]
  have buffer : next.BufferOk := buffer
  obtain ⟨owned, ⟨fits, bytes, effects⟩ | ⟨refused, bytes, effects⟩⟩ :=
    bufferPending_spec buffer reallocated nonempty
  · have all : added = payload := if_pos fits
    have lines : after = past ++ [.effect (.hold session.sockFd payload)] := by
      rw [← List.map_singleton, ← effects]
    rw [lines, all]
    exact ⟨by simp, by simp, by simp, phase, owned, bytes⟩
  · have none : added = [] := if_neg refused
    have lines : after = past := by
      rw [← List.append_nil past, ← List.map_nil, ← effects]
    rw [lines, none, List.append_nil, List.append_nil]
    exact ⟨rfl, rfl, rfl, phase, owned, bytes⟩

structure Takes (session : TcpSession) (replies : TunReplies) (payload : List UInt8) (past : List Line)
    (handled : Handled) : Prop where
  handed : handed (past ++ handled.effects.map Line.effect) = handed past ++
    if session.state = .established then payload else []
  accepted : accepted (past ++ handled.effects.map Line.effect) = accepted past ++
    if session.state = .established then replies.send.taken payload else []
  held : held (past ++ handled.effects.map Line.effect) = held past ++
    if session.state = .synSent ∧ session.Buffers replies.realloc payload then payload else []
  state : handled.removed = false → handled.session.state = session.state
  buffer : handled.removed = false → session.state = .synSent →
    handled.session.BufferOk ∧ handled.session.pendingBytes = session.pendingBytes ++
      if session.Buffers replies.realloc payload then payload else []

theorem dataArrives_takes (live : session.Live) (buffer : session.state = .synSent → session.BufferOk)
    (mtu : Int) (replies : TunReplies) (hdr : TcpHdr) (payload : List UInt8) (past : List Line) :
    session.Takes replies payload past (session.dataArrives mtu replies hdr payload) := by
  rcases session.dataArrives_cases live mtu replies hdr payload with
    ⟨rfl, same⟩ | ⟨nonempty, connecting, same⟩ | ⟨-, connected, -, same⟩ | ⟨-, connected, failed, same⟩
  · rw [same]
    exact ⟨by simp, by simp [SendResult.taken_nil], by simp, fun _ => rfl,
      fun _ connecting => ⟨buffer connecting, by simp⟩⟩
  · rw [same]
    obtain ⟨given, taken, kept, phase, owned, bytes⟩ :=
      bufferPending_streams (buffer connecting) _ replies.realloc nonempty past
    have waiting : session.state ≠ .established := by simp [connecting]
    refine ⟨?_, ?_, ?_, fun _ => phase, fun _ _ => ⟨owned, bytes⟩⟩
    · rw [if_neg waiting, List.append_nil]
      exact given
    · rw [if_neg waiting, List.append_nil]
      exact taken
    · refine kept.trans (congrArg _ ?_)
      by_cases fits : session.Buffers replies.realloc payload
      · rw [if_pos fits, if_pos ⟨connecting, fits⟩]
      · rw [if_neg fits, if_neg fun both => fits both.2]
  · rw [same]
    constructor <;> simp [Tun2Socks.handed, Tun2Socks.accepted, Tun2Socks.held, connected]
  · rw [same]
    constructor <;> simp [Tun2Socks.handed, Tun2Socks.accepted, Tun2Socks.held, connected, failed]

theorem segmentArrives_takes (live : session.Live) (buffer : session.state = .synSent → session.BufferOk)
    (mtu : Int) (replies : TunReplies) (hdr : TcpHdr) (payload : List UInt8) (past : List Line) :
    let handled := session.segmentArrives mtu replies hdr payload
    hasFlag hdr.flags tfRst = true ∧ handled.removed = true ∧ handled.effects = [] ∨
      hasFlag hdr.flags tfRst = false ∧ session.Takes replies payload past handled := by
  let noted : TcpSession := { session with lastActive := replies.time }
  have alive : noted.Live := live
  obtain ⟨given, taken, kept, state, owned⟩ := dataArrives_takes alive buffer mtu replies hdr payload past
  rcases session.segmentArrives_cases mtu replies hdr payload with
    ⟨rst, same⟩ | ⟨noRst, -, same⟩ | ⟨noRst, -, -, same⟩
  · rw [same]
    exact .inl ⟨rst, rfl, rfl⟩
  · rw [same]
    exact .inr ⟨noRst, given, taken, kept, state, owned⟩
  · rw [same]
    let data := noted.dataArrives mtu replies hdr payload
    have still : ∀ effect ∈ (data.session.finArrives mtu hdr).effects, effect.moves = false := by
      simp [finArrives, Effect.moves]
    obtain ⟨givenFin, takenFin, keptFin⟩ := streams_still still (past ++ data.effects.map Line.effect)
    refine .inr ⟨noRst, ?_, ?_, ?_, by simp [finArrives], by simp [finArrives]⟩
    · rw [List.map_append, ← List.append_assoc]
      exact givenFin.trans given
    · rw [List.map_append, ← List.append_assoc]
      exact takenFin.trans taken
    · rw [List.map_append, ← List.append_assoc]
      exact keptFin.trans kept

end TcpSession

/-! ### Runs -/

namespace SessionRun

def Forwards (run : SessionRun) (hdr : TcpHdr) (payload : List UInt8) (replies : TunReplies) : Prop :=
  hasFlag hdr.flags tfRst = false ∧ (run.session.state = .established ∨
    run.session.state = .synSent ∧ run.session.Buffers replies.realloc payload)

instance (run : SessionRun) (hdr : TcpHdr) (payload : List UInt8) (replies : TunReplies) :
    Decidable (run.Forwards hdr payload replies) := inferInstanceAs (Decidable (_ ∧ (_ ∨ _ ∧ _)))

def forwarded (run : SessionRun) : SessionEvent → List UInt8
  | .segment hdr payload replies => if run.Forwards hdr payload replies then payload else []
  | _ => []

end SessionRun

section
variable {run : SessionRun}

theorem Relaying.still (relaying : Relaying run) {session : TcpSession} (removed : Bool)
    {history : List Line} (state : session.state = run.session.state)
    (block : session.pendingData = run.session.pendingData ∧ session.pendingLen = run.session.pendingLen ∧
      session.pendingCap = run.session.pendingCap)
    (streams : handed history = handed run.history ∧ accepted history = accepted run.history ∧
      held history = held run.history) : Relaying ⟨session, removed, history⟩ := by
  obtain ⟨data, len, cap⟩ := block
  obtain ⟨given, taken, kept⟩ := streams
  constructor
  · simpa [TcpSession.Live, state] using relaying.live
  · simpa [TcpSession.BufferOk, TcpSession.pendingBytes, state, data, len, cap, given, taken, kept] using
      relaying.connecting
  · simpa [state, kept] using relaying.connected

def SessionRun.extended (run : SessionRun) (event : SessionEvent) (handled : Handled) : List Line :=
  run.history ++ [.event event] ++ handled.effects.map Line.effect

structure Conserves (run : SessionRun) (event : SessionEvent) (handled : Handled) : Prop where
  given : handed (run.extended event handled) ++ held (run.extended event handled) =
    handed run.history ++ held run.history ++ run.forwarded event
  taken : run.SendsAll event → accepted (run.extended event handled) ++ held (run.extended event handled) =
    accepted run.history ++ held run.history ++ run.forwarded event
  relaying : handled.removed = false →
    Relaying ⟨handled.session, handled.removed, run.extended event handled⟩

theorem Relaying.quiet (relaying : Relaying run) {event : SessionEvent} {handled : Handled}
    (still : ∀ effect ∈ handled.effects, effect.moves = false) (none : run.forwarded event = [])
    (state : handled.removed = false → handled.session.state = run.session.state)
    (block : handled.removed = false → handled.session.pendingData = run.session.pendingData ∧
      handled.session.pendingLen = run.session.pendingLen ∧
      handled.session.pendingCap = run.session.pendingCap) :
    Conserves run event handled := by
  obtain ⟨givenArrival, takenArrival, keptArrival⟩ := streams_event run.history event
  obtain ⟨given, taken, kept⟩ := streams_still still (run.history ++ [.event event])
  have given := given.trans givenArrival
  have taken := taken.trans takenArrival
  have kept := kept.trans keptArrival
  constructor
  · rw [SessionRun.extended, given, kept, none, List.append_nil]
  · intro
    rw [SessionRun.extended, taken, kept, none, List.append_nil]
  · exact fun stays => relaying.still _ (state stays) (block stays) ⟨given, taken, kept⟩

theorem Relaying.takes (relaying : Relaying run) {replies : TunReplies} {hdr : TcpHdr}
    {payload : List UInt8} (noRst : hasFlag hdr.flags tfRst = false) {handled : Handled}
    (takes : run.session.Takes replies payload (run.history ++ [.event (.segment hdr payload replies)]) handled) :
    Conserves run (.segment hdr payload replies) handled := by
  let event : SessionEvent := .segment hdr payload replies
  let history := run.extended event handled
  obtain ⟨given, taken, kept⟩ := streams_event run.history event
  have given : handed history = _ := takes.handed.trans (congrArg (· ++ _) given)
  have taken : accepted history = _ := takes.accepted.trans (congrArg (· ++ _) taken)
  have kept : held history = _ := takes.held.trans (congrArg (· ++ _) kept)
  suffices conserved : handed history ++ held history =
        handed run.history ++ held run.history ++ run.forwarded event ∧
      (run.SendsAll event → accepted history ++ held history =
        accepted run.history ++ held run.history ++ run.forwarded event) ∧
      (handled.removed = false → Relaying ⟨handled.session, handled.removed, history⟩) from
    ⟨conserved.1, conserved.2.1, conserved.2.2⟩
  rcases relaying.live with connecting | connected
  · -- still connecting: the payload goes to the block, or nowhere
    obtain ⟨-, noneGiven, noneTaken, block⟩ := relaying.connecting connecting
    have added : (if run.session.state = .synSent ∧ run.session.Buffers replies.realloc payload
        then payload else []) = run.forwarded event := by
      simp [SessionRun.forwarded, SessionRun.Forwards, event, noRst, connecting]
    have waiting : run.session.state ≠ .established := by simp [connecting]
    rw [if_neg waiting, noneGiven, List.append_nil] at given
    rw [if_neg waiting, noneTaken, List.append_nil] at taken
    rw [added] at kept
    refine ⟨by simp [given, kept, noneGiven], fun _ => by simp [taken, kept, noneTaken], fun still => ?_⟩
    obtain ⟨owned, bytes⟩ := takes.buffer still connecting
    have state := (takes.state still).trans connecting
    refine ⟨.inl state, fun _ => ⟨owned, given, taken, ?_⟩, by simp [state]⟩
    rw [kept, bytes, block, ← added]
    simp [connecting]
  · -- connected: the block is empty, and the payload goes to the socket
    have nothing := relaying.connected connected
    have all : run.forwarded event = payload := if_pos ⟨noRst, .inl connected⟩
    rw [if_pos connected] at given taken
    rw [if_neg (by simp [connected]), nothing, List.append_nil] at kept
    refine ⟨by simp [given, kept, nothing, all], fun sends => ?_, fun still => ?_⟩
    · rw [taken, kept, nothing, all, sends noRst connected]
      simp
    · have state := (takes.state still).trans connected
      exact ⟨.inr state, by simp [state], fun _ => kept⟩

theorem Relaying.completes (relaying : Relaying run) (connecting : run.session.state = .synSent)
    (mtu soError : Int) (result : SendResult) :
    Conserves run (.writable soError result) (run.session.connectCompletes mtu soError result) := by
  let event : SessionEvent := .writable soError result
  let handled := run.session.connectCompletes mtu soError result
  let history := run.extended event handled
  obtain ⟨-, noneGiven, noneTaken, block⟩ := relaying.connecting connecting
  have none : run.forwarded event = [] := rfl
  have given : handed history = handed run.history ++ (handled.effects.map Line.effect).flatMap Line.handed := by
    simp [history, SessionRun.extended, event, handed_append]
  have taken : accepted history =
      accepted run.history ++ (handled.effects.map Line.effect).flatMap Line.accepted := by
    simp [history, SessionRun.extended, event, accepted_append]
  have kept : held history = (handled.effects.map Line.effect).foldl Line.held (held run.history) := by
    simp [history, SessionRun.extended, event, held_append]
  suffices conserved : handed history ++ held history = held run.history ∧
      (run.SendsAll event → accepted history ++ held history = held run.history) ∧
      (handled.removed = false → Relaying ⟨handled.session, handled.removed, history⟩) by
    obtain ⟨same, sent, relaying⟩ := conserved
    refine ⟨same.trans ?_, fun sends => (sent sends).trans ?_, relaying⟩
    · rw [none, noneGiven, List.nil_append, List.append_nil]
    · rw [none, noneTaken, List.nil_append, List.append_nil]
  rw [given, taken, kept, noneGiven, noneTaken]
  rcases run.session.connectCompletes_cases mtu soError result with
    ⟨fine, empty, same⟩ | ⟨fine, same⟩ | ⟨broken, same⟩
  · have same : handled = _ := same
    rw [same]
    refine ⟨by simp, fun _ => by simp, fun _ => ⟨.inr rfl, by simp, fun _ => ?_⟩⟩
    refine kept.trans ?_
    rw [same, block, empty]
    rfl
  · have same : handled = _ := same
    rw [same]
    refine ⟨by simp [block], fun sends => ?_, fun _ => ⟨.inr (by simp), by simp, fun _ => ?_⟩⟩
    · simp [block, sends connecting fine]
    · refine kept.trans ?_
      rw [same]
      rfl
  · have same : handled = _ := same
    rw [same]
    exact ⟨by simp, fun _ => by simp, by simp⟩

/-- One event, whichever handler it reaches. -/
theorem Relaying.handle (relaying : Relaying run) (mtu : Int) (event : SessionEvent) :
    Conserves run event (run.session.handle mtu event) := by
  cases event with
  | segment hdr payload replies =>
    have buffer : run.session.state = .synSent → run.session.BufferOk :=
      fun connecting => (relaying.connecting connecting).1
    rcases TcpSession.segmentArrives_takes relaying.live buffer mtu replies hdr payload
      (run.history ++ [.event (.segment hdr payload replies)]) with ⟨rst, gone, effects⟩ | ⟨noRst, takes⟩
    · have none : run.forwarded (.segment hdr payload replies) = [] := if_neg (by simp [SessionRun.Forwards, rst])
      exact relaying.quiet (by simp [TcpSession.handle, effects]) none
        (by simp [TcpSession.handle, gone]) (by simp [TcpSession.handle, gone])
    · exact relaying.takes noRst takes
  | writable soError result =>
    simp only [TcpSession.handle]
    by_cases connecting : run.session.state = .synSent
    · rw [if_pos connecting]
      exact relaying.completes connecting mtu soError result
    · rw [if_neg connecting]
      exact relaying.quiet (by simp) rfl (fun _ => rfl) (fun _ => ⟨rfl, rfl, rfl⟩)
  | received data time =>
    obtain ⟨seq, same⟩ :=
      writeTcp_session mtu { run.session with lastActive := time } (tfPsh ||| tfAck) data
    refine relaying.quiet (by simp [TcpSession.handle, TcpSession.received, Effect.moves]) rfl ?_ ?_ <;>
      simp [TcpSession.handle, TcpSession.received, same]
  | remoteClosed =>
    refine relaying.quiet ?_ rfl ?_ ?_ <;> simp [TcpSession.handle, TcpSession.remoteClosed, Effect.moves]
  | recvFailed =>
    refine relaying.quiet ?_ rfl ?_ ?_ <;> simp [TcpSession.handle, TcpSession.recvFailed, Effect.moves]

theorem Relaying.start (addr : Nat) (flow : Flow) (isn : UInt32) (fd : Nat) (isnTime time : Int) :
    Relaying (.start (.fresh addr flow isn fd isnTime time)) where
  live := .inl rfl
  connecting _ := ⟨⟨rfl, rfl⟩, rfl, rfl, rfl⟩
  connected waiting := by simp [SessionRun.start, TcpSession.fresh] at waiting

end

/-! ### Order -/

/-- The segment carries the client's bytes from an offset of its stream on. -/
def SliceAt (stream : List UInt8) (isn : UInt32) (offset : Nat) (hdr : TcpHdr) (payload : List UInt8) : Prop :=
  ntohl hdr.seq = isn + 1 + UInt32.ofNat offset ∧ payload <+: stream.drop offset

instance (stream : List UInt8) (isn : UInt32) (offset : Nat) (hdr : TcpHdr) (payload : List UInt8) :
    Decidable (SliceAt stream isn offset hdr payload) := inferInstanceAs (Decidable (_ ∧ _))

def FromStream (stream : List UInt8) (isn : UInt32) : SessionEvent → Prop
  | .segment hdr payload _ => payload = [] ∨ ∃ offset ≤ stream.length, SliceAt stream isn offset hdr payload
  | _ => True

/-- A payload that is taken starts where the bytes taken before it end. -/
def InPlace (stream : List UInt8) (isn : UInt32) (run : SessionRun) : SessionEvent → Prop
  | .segment hdr payload replies => payload ≠ [] → run.Forwards hdr payload replies →
    SliceAt stream isn (handed run.history ++ held run.history).length hdr payload
  | _ => True

structure InStream (stream : List UInt8) (run : SessionRun) : Prop where
  relaying : run.removed = false → Relaying run
  taken : handed run.history ++ held run.history <+: stream

theorem InStream.step {stream : List UInt8} {isn : UInt32} {run : SessionRun}
    (inStream : InStream stream run) (mtu : Int) (event : SessionEvent)
    (place : InPlace stream isn run event) : InStream stream (run.step mtu event) := by
  cases kept : run.removed with
  | true =>
    rw [SessionRun.step_removed kept]
    exact inStream
  | false =>
    have conserves := (inStream.relaying kept).handle mtu event
    rw [SessionRun.step_kept kept, append_cons_concat]
    refine ⟨conserves.relaying, ?_⟩
    have grown : handed (run.extended event (run.session.handle mtu event)) ++ held _ = _ := conserves.given
    refine grown ▸ append_prefix inStream.taken ?_
    cases event with
    | segment hdr payload replies =>
      simp only [SessionRun.forwarded]
      split
      next forwards =>
        by_cases empty : payload = []
        · simp [empty]
        · exact (place empty forwards).2
      next => exact List.nil_prefix
    | writable soError result => exact List.nil_prefix
    | received data time => exact List.nil_prefix
    | remoteClosed => exact List.nil_prefix
    | recvFailed => exact List.nil_prefix

/-- In every run whose segments are taken in place, the bytes handed to the socket
are the beginning of the client's stream. -/
theorem handed_in_order (mtu : Int) (addr : Nat) (flow : Flow) (isn : UInt32) (fd : Nat) (isnTime time : Int)
    (stream : List UInt8) (events : List SessionEvent)
    (allowed : Admits (SessionRun.step mtu)
      (fun run event => FromStream stream isn event ∧ InPlace stream isn run event)
      (.start (.fresh addr flow isn fd isnTime time)) events) :
    handed (List.foldl (SessionRun.step mtu) (.start (.fresh addr flow isn fd isnTime time)) events).history <+:
      stream := by
  have inStream : InStream stream (List.foldl (SessionRun.step mtu) _ events) :=
    allowed.invariant (InStream stream) (fun _ event before both => before.step mtu event both.2)
      ⟨fun _ => .start addr flow isn fd isnTime time, List.nil_prefix⟩
  exact (List.prefix_append _ _).trans inStream.taken

instance (stream : List UInt8) (isn : UInt32) : (event : SessionEvent) → Decidable (FromStream stream isn event)
  | .segment _ _ _ => inferInstanceAs (Decidable (_ ∨ _))
  | .writable _ _ | .received _ _ | .remoteClosed | .recvFailed => inferInstanceAs (Decidable True)

instance (stream : List UInt8) (isn : UInt32) (run : SessionRun) :
    (event : SessionEvent) → Decidable (InPlace stream isn run event)
  | .segment _ _ _ => inferInstanceAs (Decidable (_ → _ → _))
  | .writable _ _ | .received _ _ | .remoteClosed | .recvFailed => inferInstanceAs (Decidable True)

theorem handed_in_order_sample :
    handed (List.foldl (SessionRun.step 1500) (.start sampleSession)
      [sampleSegment tfAck 1001 [1, 2] .wouldBlock, .writable 0 (.accepted 2),
        sampleSegment tfAck 1003 [3] (.accepted 1)]).history <+: [1, 2, 3] :=
  handed_in_order 1500 0 sampleFlow 1000 7 0 0 [1, 2, 3] _ (by decide +kernel)

/-- Whatever slices of its stream the client sends, the socket is handed the stream in order. -/
def UploadOrdered : Prop :=
  ∀ (mtu : Int) (addr : Nat) (flow : Flow) (isn : UInt32) (fd : Nat) (isnTime time : Int)
    (stream : List UInt8) (events : List SessionEvent),
    let start := SessionRun.start (.fresh addr flow isn fd isnTime time)
    Admits (SessionRun.step mtu) (fun run event => FromStream stream isn event ∧ run.SendsAll event)
      start events →
    handed (events.foldl (SessionRun.step mtu) start).history <+: stream

/-- The client sends its first byte again, and the server gets it twice. -/
theorem upload_repeats : ¬UploadOrdered := by
  intro ordered
  have repeated := ordered 1500 0 sampleFlow 1000 7 0 0 [1, 2]
    [.writable 0 (.accepted 0), sampleSegment tfAck 1001 [1] (.accepted 1),
      sampleSegment tfAck 1001 [1] (.accepted 1)] (by decide +kernel)
  exact absurd repeated (by decide +kernel)

end ThrottleVpn.Tun2Socks
