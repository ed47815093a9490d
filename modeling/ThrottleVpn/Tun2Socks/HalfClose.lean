import ThrottleVpn.Tun2Socks.Download
import ThrottleVpn.Tun2Socks.Sockets

/-! A connection that one end has closed.

TCP lets each end finish on its own: after the FIN of one direction the other one
goes on. The session handlers remove the session at the first end they see, so a
run keeps this rule exactly if it sees none.
-/

set_option autoImplicit false

namespace ThrottleVpn.Tun2Socks

open Foundation

def SessionEvent.fin : SessionEvent → Bool
  | .segment hdr _ _ => hasFlag hdr.flags tfFin
  | .writable _ _ | .received _ _ | .remoteClosed | .recvFailed => false

/-- The event resets the connection: a RST, or a failed `send`, `recv` or `connect`. -/
def TcpSession.aborts (session : TcpSession) : SessionEvent → Bool
  | .segment hdr payload replies => hasFlag hdr.flags tfRst ||
      (session.state == .established && !payload.isEmpty && replies.send == .failed)
  | .writable soError _ => session.state == .synSent && soError != 0
  | .received _ _ | .remoteClosed => false
  | .recvFailed => true

structure Connection where
  run : SessionRun
  clientDone : Bool
  serverDone : Bool
  aborted : Bool
  deriving DecidableEq, Repr

namespace Connection

def start (session : TcpSession) : Connection := ⟨.start session, false, false, false⟩

def step (mtu : Int) (conn : Connection) (event : SessionEvent) : Connection where
  run := conn.run.step mtu event
  clientDone := conn.clientDone || event.fin && !conn.run.session.aborts event
  serverDone := conn.serverDone || event == .remoteClosed
  aborted := conn.aborted || conn.run.session.aborts event

def effects (mtu : Int) (conn : Connection) (event : SessionEvent) : List Effect :=
  if conn.run.removed then [] else (conn.run.session.handle mtu event).effects

/-- The direction that is still open goes on, and the session stays for it. -/
structure HalfCloses (mtu : Int) (conn : Connection) (event : SessionEvent) : Prop where
  download : conn.aborted = false → conn.clientDone = true → conn.serverDone = false →
    ∀ data time, event = .received data time → finSent conn.run.history = false ∧
      ∃ packets, .tunWrite packets ∈ conn.effects mtu event ∧ packets.flatMap Packet.payload = data
  upload : conn.aborted = false → conn.serverDone = true → conn.clientDone = false →
    ∀ hdr payload replies, event = .segment hdr payload replies → hasFlag hdr.flags tfRst = false →
      payload = [] ∨ .send conn.run.session.sockFd payload replies.send ∈ conn.effects mtu event
  removal : conn.run.removed = false → (conn.step mtu event).run.removed = true →
    (conn.step mtu event).aborted = true ∨
      (conn.step mtu event).clientDone = true ∧ (conn.step mtu event).serverDone = true

/-- No end of a connection closes it while there is a session; it is only reset. -/
def StaysWhole (conn : Connection) (event : SessionEvent) : Prop :=
  conn.run.removed = false → conn.run.session.aborts event = true ∨
    event.fin = false ∧ event ≠ .remoteClosed

instance (conn : Connection) (event : SessionEvent) : Decidable (conn.StaysWhole event) :=
  inferInstanceAs (Decidable (_ → _))

end Connection

/-! ### When a handler removes the session -/

namespace TcpSession
variable {session : TcpSession} (live : session.Live) (mtu : Int)
include live

theorem dataArrives_removed_iff (replies : TunReplies) (hdr : TcpHdr) (payload : List UInt8) :
    (session.dataArrives mtu replies hdr payload).removed = true ↔
      session.state = .established ∧ payload ≠ [] ∧ replies.send = .failed := by
  rcases dataArrives_cases live mtu replies hdr payload with
    ⟨empty, out⟩ | ⟨-, waiting, out⟩ | ⟨-, -, sent, out⟩ | ⟨nonempty, connected, failed, out⟩
  · rw [out]
    simp [empty]
  · obtain ⟨stays, -⟩ := bufferPending_frame
      { session with clientSeq := ntohl hdr.seq + UInt32.ofNat payload.length } replies.realloc payload
    rw [out, stays, waiting]
    simp
  · rw [out]
    simp [sent]
  · rw [out]
    simp [nonempty, connected, failed]

theorem handle_removed_iff (event : SessionEvent) :
    (session.handle mtu event).removed = true ↔
      session.aborts event = true ∨ event.fin = true ∨ event = .remoteClosed := by
  cases event with
  | segment hdr payload replies =>
    have failed := @dataArrives_removed_iff { session with lastActive := replies.time } live mtu replies hdr
      payload
    have aborts : session.aborts (.segment hdr payload replies) = true ↔ hasFlag hdr.flags tfRst = true ∨
        session.state = .established ∧ payload ≠ [] ∧ replies.send = .failed := by
      simp [TcpSession.aborts, and_assoc]
    rw [aborts, ← failed]
    simp only [handle, SessionEvent.fin, reduceCtorEq, or_false]
    -- a RST, payload that cannot be sent, a FIN
    rcases @segmentArrives_cases session mtu replies hdr payload with
      ⟨rst, out⟩ | ⟨noRst, noFin, out⟩ | ⟨-, -, fin, out⟩
    · rw [out]
      exact iff_of_true rfl (.inl (.inl rst))
    · rw [out, noRst]
      rcases noFin with gone | noFin
      · exact iff_of_true gone (.inl (.inr gone))
      · simp [noFin]
    · rw [out]
      exact iff_of_true rfl (.inr fin)
  | writable soError result =>
    simp only [handle, TcpSession.aborts, SessionEvent.fin, reduceCtorEq, or_false, Bool.false_eq_true]
    split
    next waiting =>
      rcases session.connectCompletes_cases mtu soError result with ⟨fine, -, out⟩ | ⟨fine, out⟩ | ⟨refused, out⟩
      · rw [out]
        simp [fine]
      · rw [out]
        simp [fine]
      · rw [out]
        simp [refused, waiting]
    next waiting => simp [waiting]
  | received data time => simp [handle, received, TcpSession.aborts, SessionEvent.fin]
  | remoteClosed => simp [handle, remoteClosed]
  | recvFailed => simp [handle, recvFailed, TcpSession.aborts]

end TcpSession

/-! ### Runs -/

namespace Connection

structure Whole (conn : Connection) : Prop where
  live : conn.run.removed = false → conn.run.session.Live
  going : conn.run.removed = false →
    conn.clientDone = false ∧ conn.serverDone = false ∧ conn.aborted = false
  reset : conn.run.removed = true → conn.aborted = true

theorem whole_start (addr : Nat) (flow : Flow) (isn : UInt32) (fd : Nat) (isnTime time : Int) :
    (start (.fresh addr flow isn fd isnTime time)).Whole where
  live := fun _ => .inl rfl
  going := fun _ => ⟨rfl, rfl, rfl⟩
  reset := fun gone => by cases gone

namespace Whole
variable {conn : Connection} (whole : conn.Whole) (mtu : Int) (event : SessionEvent)
include whole

theorem halfCloses_iff : conn.HalfCloses mtu event ↔ conn.StaysWhole event := by
  cases gone : conn.run.removed with
  | true =>
    have reset := whole.reset gone
    constructor
    · intro _ kept
      rw [gone] at kept
      cases kept
    · intro _
      refine ⟨fun going => ?_, fun going => ?_, fun kept => ?_⟩
      · rw [reset] at going
        cases going
      · rw [reset] at going
        cases going
      · rw [gone] at kept
        cases kept
  | false =>
    obtain ⟨client, server, aborted⟩ := whole.going gone
    have removed : (conn.step mtu event).run.removed = (conn.run.session.handle mtu event).removed := by
      simp only [step, SessionRun.step_kept gone]
    have ends := TcpSession.handle_removed_iff (whole.live gone) mtu event
    -- one event cannot end both directions
    have one : ¬(event.fin = true ∧ event = .remoteClosed) := by
      rintro ⟨fin, rfl⟩
      cases fin
    have rule : conn.HalfCloses mtu event ↔ ((conn.run.session.handle mtu event).removed = true →
        (conn.step mtu event).aborted = true ∨
          (conn.step mtu event).clientDone = true ∧ (conn.step mtu event).serverDone = true) := by
      rw [← removed]
      refine ⟨fun halfCloses => halfCloses.removal gone, fun removal => ⟨?_, ?_, fun _ => removal⟩⟩
      · intro _ done
        rw [client] at done
        cases done
      · intro _ done
        rw [server] at done
        cases done
    rw [rule, ends]
    unfold StaysWhole
    simp only [step, client, server, aborted, gone, Bool.false_or, Bool.and_eq_true, beq_iff_eq,
      forall_const]
    constructor
    · intro keeps
      by_contra not
      rw [not_or] at not
      have fails : event.fin = true ∨ event = .remoteClosed := by
        by_contra none
        rw [not_or, Bool.not_eq_true] at none
        exact not.2 none
      rcases keeps (.inr fails) with reset | ⟨⟨fin, -⟩, closed⟩
      · exact not.1 reset
      · exact one ⟨fin, closed⟩
    · rintro (reset | ⟨noFin, open'⟩) removed
      · exact .inl reset
      · rcases removed with reset | fin | closed
        · exact .inl reset
        · rw [noFin] at fin
          cases fin
        · exact absurd closed open'

theorem next (stays : conn.StaysWhole event) : (conn.step mtu event).Whole := by
  cases gone : conn.run.removed with
  | true =>
    have same := SessionRun.step_removed gone mtu event
    refine ⟨?_, ?_, ?_⟩ <;> simp [step, same, gone, whole.reset gone]
  | false =>
    obtain ⟨client, server, aborted⟩ := whole.going gone
    have ends := TcpSession.handle_removed_iff (whole.live gone) mtu event
    have removed : (conn.step mtu event).run.removed = (conn.run.session.handle mtu event).removed := by
      simp only [step, SessionRun.step_kept gone]
    have only : (conn.run.session.handle mtu event).removed = true →
        conn.run.session.aborts event = true := by
      intro removed
      rcases stays gone with reset | ⟨noFin, open'⟩
      · exact reset
      · rcases ends.mp removed with reset | fin | closed
        · exact reset
        · rw [noFin] at fin
          cases fin
        · exact absurd closed open'
    refine ⟨fun kept => ?_, fun kept => ?_, fun lost => ?_⟩
    · rw [removed] at kept
      simp only [step, SessionRun.step_kept gone]
      exact TcpSession.handle_live mtu (whole.live gone) event kept
    · rw [removed] at kept
      have none := mt ends.mpr (by rw [kept]; exact Bool.false_ne_true)
      rw [not_or, not_or, Bool.not_eq_true, Bool.not_eq_true] at none
      simp [step, client, server, aborted, none.1, none.2.1, none.2.2]
    · rw [removed] at lost
      simp [step, only lost]

end Whole

end Connection

/-- In every run of a session, each half-close leaves the other direction going exactly
if there is none: while there is a session, neither the client's FIN nor the end of the
server's stream reaches it, and its connection ends by a reset or a failure alone. -/
theorem half_close_kept_iff (mtu : Int) (addr : Nat) (flow : Flow) (isn : UInt32) (fd : Nat)
    (isnTime time : Int) (events : List SessionEvent) :
    Admits (Connection.step mtu) (Connection.HalfCloses mtu)
        (.start (.fresh addr flow isn fd isnTime time)) events ↔
      Admits (Connection.step mtu) Connection.StaysWhole
        (.start (.fresh addr flow isn fd isnTime time)) events :=
  admits_congr Connection.Whole (fun _ event whole => whole.halfCloses_iff mtu event)
    (fun _ event whole stays => whole.next mtu event stays)
    (Connection.whole_start addr flow isn fd isnTime time) events

/-- The client closes its side, and the byte that the server sends then is not relayed. -/
theorem half_close_loses_byte :
    ¬∀ (mtu : Int) (addr : Nat) (flow : Flow) (isn : UInt32) (fd : Nat) (isnTime time : Int)
      (events : List SessionEvent), Admits (Connection.step mtu) (Connection.HalfCloses mtu)
        (.start (.fresh addr flow isn fd isnTime time)) events := by
  intro kept
  obtain ⟨-, -, ⟨download, -, -⟩, -⟩ := kept 1500 0 sampleFlow 1000 7 0 0
    [.writable 0 (.accepted 0), sampleSegment (tfFin ||| tfAck) 1001 [] (.accepted 0), .received [1] 0]
  obtain ⟨-, packets, written, -⟩ :=
    download (by decide +kernel) (by decide +kernel) (by decide +kernel) [1] 0 rfl
  have nothing : Connection.effects 1500 (Connection.step 1500 (Connection.step 1500
      (.start (.fresh 0 sampleFlow 1000 7 0 0)) (.writable 0 (.accepted 0)))
      (sampleSegment (tfFin ||| tfAck) 1001 [] (.accepted 0))) (.received [1] 0) = [] := by decide +kernel
  rw [nothing] at written
  cases written

end ThrottleVpn.Tun2Socks
