import ThrottleVpn.Tun2Socks.Writer

/-! What happens to one TCP session.

These are the parts of `handle_tcp_tun` and `handle_socket_event` below the
session lookup. Each works on the session record alone; the callers store the
record back or, when it was removed, unlink it and close its descriptor.
-/

set_option autoImplicit false

namespace ThrottleVpn.Tun2Socks

/-- A session after a handler ran on it; `removed` asks for `tcp_remove`. -/
structure Handled where
  session : TcpSession
  removed : Bool
  effects : List Effect
  deriving DecidableEq, Repr

/-- `realloc` to a larger size: the old content, then whatever the heap holds. -/
def realloc (block : Option (List UInt8)) (size : Nat) (fill : UInt8) : List UInt8 :=
  let old := (block.getD []).take size
  old ++ List.replicate (size - old.length) fill

def memcpy (block : List UInt8) (offset : Nat) (data : List UInt8) : List UInt8 :=
  block.take offset ++ data ++ block.drop (offset + data.length)

namespace TcpSession

/-- Grow the pending block when the payload does not fit; a failed realloc keeps it. -/
def growPending (session : TcpSession) (reallocated : Option UInt8) (need : Nat) : TcpSession :=
  if session.pendingCap < need then
    match reallocated with
    | some fill =>
      { session with
        pendingData := some (realloc session.pendingData (need + 4096) fill)
        pendingCap := need + 4096 }
    | none => session
  else session

def bufferPending (session : TcpSession) (reallocated : Option UInt8) (payload : List UInt8) :
    Handled :=
  let need := session.pendingLen + payload.length
  if need ≤ 65536 then
    let grown := session.growPending reallocated need
    match grown.pendingData with
    | some block =>
      if grown.pendingLen + payload.length ≤ grown.pendingCap then
        ⟨{ grown with
            pendingData := some (memcpy block grown.pendingLen payload)
            pendingLen := grown.pendingLen + payload.length },
          false, [.hold session.sockFd payload]⟩
      else ⟨grown, false, []⟩
    | none => ⟨grown, false, []⟩
  else ⟨session, false, []⟩

/-- The DATA part of `handle_tcp_tun`: `client_seq` moves before anything is done
with the payload, and an established session acknowledges whatever `send` said
short of a hard error. -/
def dataArrives (session : TcpSession) (mtu : Int) (replies : TunReplies) (hdr : TcpHdr)
    (payload : List UInt8) : Handled :=
  if payload = [] then ⟨session, false, []⟩
  else
    let session := { session with clientSeq := ntohl hdr.seq + UInt32.ofNat payload.length }
    match session.state with
    | .synSent => session.bufferPending replies.realloc payload
    | .established =>
      match replies.send with
      | .failed =>
        let reset := writeTcp mtu session (tfRst ||| tfAck) []
        ⟨{ reset.1 with state := .closed }, true,
          [.send session.sockFd payload .failed, .tunWrite reset.2]⟩
      | result =>
        let ack := writeTcp mtu session tfAck []
        ⟨ack.1, false, [.send session.sockFd payload result, .tunWrite ack.2]⟩
    | .finWait | .closed => ⟨session, false, []⟩

def finArrives (session : TcpSession) (mtu : Int) (hdr : TcpHdr) : Handled :=
  let session := { session with clientSeq := ntohl hdr.seq + 1 }
  let ack := writeTcp mtu session tfAck []
  let fin := writeTcp mtu ack.1 (tfFin ||| tfAck) []
  ⟨{ fin.1 with state := .closed }, true,
    [.tunWrite ack.2, .tunWrite fin.2, .shutdown session.sockFd]⟩

def segmentArrives (session : TcpSession) (mtu : Int) (replies : TunReplies) (hdr : TcpHdr)
    (payload : List UInt8) : Handled :=
  let session := { session with lastActive := replies.time }
  if hasFlag hdr.flags tfRst then ⟨{ session with state := .closed }, true, []⟩
  else
    let data := session.dataArrives mtu replies hdr payload
    if data.removed then data
    else if hasFlag hdr.flags tfFin then
      let fin := data.session.finArrives mtu hdr
      { fin with effects := data.effects ++ fin.effects }
    else data

/-- Flush the payload kept during the connect; the result of `send` is dropped. -/
def flushPending (session : TcpSession) (mtu : Int) (result : SendResult) : Handled :=
  match session.pendingData with
  | some block =>
    if 0 < session.pendingLen then
      let data := block.take session.pendingLen
      let ack := writeTcp mtu session tfAck []
      ⟨{ ack.1 with pendingData := none, pendingLen := 0, pendingCap := 0 }, false,
        [.send session.sockFd data result, .tunWrite ack.2, .release session.sockFd]⟩
    else ⟨session, false, []⟩
  | none => ⟨session, false, []⟩

def connectCompletes (session : TcpSession) (mtu : Int) (soError : Int) (result : SendResult) :
    Handled :=
  if soError = 0 then
    let synAck := writeTcp mtu session (tfSyn ||| tfAck) []
    let flushed := { synAck.1 with state := .established }.flushPending mtu result
    { flushed with
      effects := .tunWrite synAck.2 :: flushed.effects ++ [.epollMod session.sockFd ⟨true, false⟩] }
  else
    let reset := writeTcp mtu session tfRst []
    ⟨{ reset.1 with state := .closed }, true, [.tunWrite reset.2]⟩

def received (session : TcpSession) (mtu : Int) (time : Int) (data : List UInt8) : Handled :=
  let sent := writeTcp mtu { session with lastActive := time } (tfPsh ||| tfAck) data
  ⟨sent.1, false, [.tunWrite sent.2]⟩

def remoteClosed (session : TcpSession) (mtu : Int) : Handled :=
  let fin := writeTcp mtu session (tfFin ||| tfAck) []
  ⟨{ fin.1 with state := .finWait }, true, [.tunWrite fin.2]⟩

def recvFailed (session : TcpSession) (mtu : Int) : Handled :=
  let reset := writeTcp mtu session tfRst []
  ⟨{ reset.1 with state := .closed }, true, [.tunWrite reset.2]⟩

end TcpSession

/-! ### Runs of one session -/

inductive SessionEvent where
  | segment (hdr : TcpHdr) (payload : List UInt8) (replies : TunReplies)
  | writable (soError : Int) (result : SendResult)
  | received (data : List UInt8) (time : Int)
  | remoteClosed
  | recvFailed
  deriving DecidableEq, Repr

/-- The handlers as one function of the event. A writable socket means connect
completion only while the session is connecting. -/
def TcpSession.handle (session : TcpSession) (mtu : Int) : SessionEvent → Handled
  | .segment hdr payload replies => session.segmentArrives mtu replies hdr payload
  | .writable soError result =>
    if session.state = .synSent then session.connectCompletes mtu soError result
    else ⟨session, false, []⟩
  | .received data time => session.received mtu time data
  | .remoteClosed => session.remoteClosed mtu
  | .recvFailed => session.recvFailed mtu

def TcpSession.identity (session : TcpSession) : Nat × Flow × Nat :=
  (session.addr, session.flow, session.sockFd)

namespace TcpSession

theorem growPending_frame (session : TcpSession) (reallocated : Option UInt8) (need : Nat) :
    ∃ block cap, session.growPending reallocated need =
      { session with pendingData := block, pendingCap := cap } := by
  unfold growPending
  split
  · cases reallocated <;> exact ⟨_, _, rfl⟩
  · exact ⟨_, _, rfl⟩

theorem bufferPending_frame (session : TcpSession) (reallocated : Option UInt8) (payload : List UInt8) :
    let kept := session.bufferPending reallocated payload
    kept.removed = false ∧
    (∃ block len cap, kept.session =
      { session with pendingData := block, pendingLen := len, pendingCap := cap }) ∧
    (kept.effects = [] ∨ kept.effects = [.hold session.sockFd payload]) := by
  obtain ⟨block, cap, same⟩ :=
    session.growPending_frame reallocated (session.pendingLen + payload.length)
  unfold bufferPending
  dsimp only
  split
  · split
    · split
      · exact ⟨rfl, ⟨_, _, cap, by rw [same]⟩, .inr rfl⟩
      · exact ⟨rfl, ⟨_, _, _, same⟩, .inl rfl⟩
    · exact ⟨rfl, ⟨_, _, _, same⟩, .inl rfl⟩
  · exact ⟨rfl, ⟨_, _, _, rfl⟩, .inl rfl⟩

theorem bufferPending_identity (session : TcpSession) (reallocated : Option UInt8)
    (payload : List UInt8) :
    (session.bufferPending reallocated payload).session.identity = session.identity := by
  obtain ⟨-, ⟨block, len, cap, same⟩, -⟩ := session.bufferPending_frame reallocated payload
  rw [same]
  rfl

theorem dataArrives_identity (session : TcpSession) (mtu : Int) (replies : TunReplies) (hdr : TcpHdr)
    (payload : List UInt8) :
    (session.dataArrives mtu replies hdr payload).session.identity = session.identity := by
  unfold dataArrives
  split
  · rfl
  · cases session.state with
    | synSent =>
      exact bufferPending_identity _ _ _
    | established => cases replies.send <;> simp [identity]
    | finWait => rfl
    | closed => rfl

theorem handle_identity (session : TcpSession) (mtu : Int) (event : SessionEvent) :
    (session.handle mtu event).session.identity = session.identity := by
  cases event with
  | segment hdr payload replies =>
    have data := dataArrives_identity { session with lastActive := replies.time } mtu replies hdr payload
    simp only [handle, segmentArrives]
    split
    · rfl
    · split
      · exact data
      · split
        · simpa [finArrives, identity] using data
        · exact data
  | writable soError result =>
    simp only [handle]
    split
    · unfold connectCompletes
      split
      · simp only [flushPending]
        split
        · split <;> simp [identity]
        · simp [identity]
      · simp [identity]
    · rfl
  | received data time => simp [handle, received, identity]
  | remoteClosed => simp [handle, remoteClosed, identity]
  | recvFailed => simp [handle, recvFailed, identity]

end TcpSession

/-- One line of a session's history: something that reached it, or something it did. -/
inductive Line where
  | event (event : SessionEvent)
  | effect (effect : Effect)
  deriving DecidableEq, Repr

structure SessionRun where
  session : TcpSession
  removed : Bool
  history : List Line
  deriving DecidableEq, Repr

def SessionRun.start (session : TcpSession) : SessionRun := ⟨session, false, []⟩

def SessionRun.step (mtu : Int) (run : SessionRun) (event : SessionEvent) : SessionRun :=
  if run.removed then run
  else
    let handled := run.session.handle mtu event
    ⟨handled.session, handled.removed,
      run.history ++ .event event :: handled.effects.map Line.effect⟩

theorem SessionRun.step_removed {run : SessionRun} (gone : run.removed = true) (mtu : Int)
    (event : SessionEvent) : run.step mtu event = run := if_pos gone

theorem SessionRun.step_kept {run : SessionRun} (kept : run.removed = false) (mtu : Int)
    (event : SessionEvent) :
    run.step mtu event = ⟨(run.session.handle mtu event).session, (run.session.handle mtu event).removed,
      run.history ++ .event event :: (run.session.handle mtu event).effects.map Line.effect⟩ := by
  unfold SessionRun.step
  rw [kept]
  rfl

/-- The run starts with a session as `tcp_create` leaves it. -/
def SessionRun.Genuine (mtu : Int) (run : SessionRun) : Prop :=
  ∃ addr flow isn fd isnTime time events,
    run = List.foldl (SessionRun.step mtu) (.start (.fresh addr flow isn fd isnTime time)) events

theorem SessionRun.Genuine.start (mtu : Int) (addr : Nat) (flow : Flow) (isn : UInt32) (fd : Nat)
    (isnTime time : Int) :
    (SessionRun.start (.fresh addr flow isn fd isnTime time)).Genuine mtu :=
  ⟨addr, flow, isn, fd, isnTime, time, [], rfl⟩

theorem SessionRun.Genuine.step {mtu : Int} {run : SessionRun} (genuine : run.Genuine mtu)
    (event : SessionEvent) : (run.step mtu event).Genuine mtu := by
  obtain ⟨addr, flow, isn, fd, isnTime, time, events, rfl⟩ := genuine
  exact ⟨addr, flow, isn, fd, isnTime, time, events ++ [event], by rw [List.foldl_append]; rfl⟩

def sampleSession : TcpSession := .fresh 0 sampleFlow 1000 7 0 0

def sampleSegment (flags : UInt8) (seq : UInt32) (payload : List UInt8) (result : SendResult) :
    SessionEvent :=
  .segment ⟨htons 40000, htons 443, htonl seq, 0, 0x50, flags, 65535, 0, 0⟩ payload
    { TunReplies.smooth 8 0 with send := result }

end ThrottleVpn.Tun2Socks
