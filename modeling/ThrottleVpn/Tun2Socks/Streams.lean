import ThrottleVpn.Foundation.Runs
import ThrottleVpn.Tun2Socks.Relay

/-! The byte streams of one session, read off its history.

While the socket is connecting nothing is handed to it and the pending block
holds what was kept; once it is connected nothing is pending. This is true of
every run, whatever arrives and whatever the system answers.
-/

set_option autoImplicit false

namespace ThrottleVpn.Tun2Socks

open Foundation

/-! ### What a line adds to each stream -/

namespace Line

@[simp] def arrived : Line → List UInt8
  | .event (.segment _ payload _) => payload
  | _ => []

@[simp] def handed : Line → List UInt8
  | .effect (.send _ data _) => data
  | _ => []

@[simp] def accepted : Line → List UInt8
  | .effect (.send _ data result) => result.taken data
  | _ => []

@[simp] def received : Line → List UInt8
  | .event (.received data _) => data
  | _ => []

@[simp] def packets : Line → List Packet
  | .effect (.tunWrite packets) => packets
  | _ => []

@[simp] def held (before : List UInt8) : Line → List UInt8
  | .effect (.hold _ data) => before ++ data
  | .effect (.release _) => []
  | _ => before

end Line

def arrived (history : List Line) : List UInt8 := history.flatMap Line.arrived
def handed (history : List Line) : List UInt8 := history.flatMap Line.handed
def accepted (history : List Line) : List UInt8 := history.flatMap Line.accepted
def received (history : List Line) : List UInt8 := history.flatMap Line.received
def emitted (history : List Line) : List Packet := history.flatMap Line.packets
def held (history : List Line) : List UInt8 := history.foldl Line.held []

section
variable (history : List Line) (line : Line)

@[simp] theorem arrived_concat : arrived (history ++ [line]) = arrived history ++ line.arrived := by
  simp [arrived]

@[simp] theorem handed_concat : handed (history ++ [line]) = handed history ++ line.handed := by
  simp [handed]

@[simp] theorem accepted_concat : accepted (history ++ [line]) = accepted history ++ line.accepted := by
  simp [accepted]

@[simp] theorem received_concat : received (history ++ [line]) = received history ++ line.received := by
  simp [received]

@[simp] theorem emitted_concat : emitted (history ++ [line]) = emitted history ++ line.packets := by
  simp [emitted]

@[simp] theorem held_concat : held (history ++ [line]) = line.held (held history) := by
  simp [held]

theorem handed_append (further : List Line) :
    handed (history ++ further) = handed history ++ further.flatMap Line.handed := by
  simp [handed]

theorem accepted_append (further : List Line) :
    accepted (history ++ further) = accepted history ++ further.flatMap Line.accepted := by
  simp [accepted]

theorem held_append (further : List Line) :
    held (history ++ further) = further.foldl Line.held (held history) := by
  simp [held]

theorem append_cons_concat (rest : List Line) : history ++ line :: rest = history ++ [line] ++ rest := by
  simp

end

/-! ### The pending block -/

namespace TcpSession

def BufferOk (session : TcpSession) : Prop :=
  match session.pendingData with
  | some block => block.length = session.pendingCap ∧ session.pendingLen ≤ session.pendingCap
  | none => session.pendingLen = 0 ∧ session.pendingCap = 0

def pendingBytes (session : TcpSession) : List UInt8 :=
  (session.pendingData.getD []).take session.pendingLen

/-- A payload is kept while connecting: it fits the 64 KB limit, and the block or
its reallocation. -/
def Buffers (session : TcpSession) (reallocated : Option UInt8) (payload : List UInt8) : Prop :=
  session.pendingLen + payload.length ≤ 65536 ∧
    (session.pendingLen + payload.length ≤ session.pendingCap ∨ reallocated.isSome)

instance (session : TcpSession) (reallocated : Option UInt8) (payload : List UInt8) :
    Decidable (session.Buffers reallocated payload) := inferInstanceAs (Decidable (_ ∧ _))

end TcpSession

theorem take_memcpy {block data : List UInt8} {offset : Nat} (inside : offset ≤ block.length) :
    (memcpy block offset data).take (offset + data.length) = block.take offset ++ data := by
  have length : (block.take offset ++ data).length = offset + data.length := by
    rw [List.length_append, List.length_take, min_eq_left inside]
  unfold memcpy
  rw [← length, List.take_left]

theorem length_memcpy {block data : List UInt8} {offset : Nat} (inside : offset + data.length ≤ block.length) :
    (memcpy block offset data).length = block.length := by
  simp only [memcpy, List.length_append, List.length_take, List.length_drop]
  omega

theorem length_realloc (block : Option (List UInt8)) (size : Nat) (fill : UInt8) :
    (realloc block size fill).length = size := by
  simp only [realloc, List.length_append, List.length_replicate, List.length_take]
  omega

theorem take_realloc {block : Option (List UInt8)} {size len : Nat} (fits : len ≤ size)
    (inside : len ≤ (block.getD []).length) (fill : UInt8) :
    (realloc block size fill).take len = (block.getD []).take len := by
  unfold realloc
  rw [List.take_append_of_le_length (by rw [List.length_take]; omega), List.take_take,
    min_eq_left fits]

namespace TcpSession
variable {session : TcpSession}

theorem BufferOk.length_ge (buffer : session.BufferOk) :
    session.pendingLen ≤ (session.pendingData.getD []).length ∧
      (session.pendingData.getD []).length = session.pendingCap := by
  unfold BufferOk at buffer
  cases block : session.pendingData with
  | none =>
    simp only [block] at buffer
    simp [buffer]
  | some block' =>
    simp only [block] at buffer
    exact ⟨buffer.1 ▸ buffer.2, buffer.1⟩

theorem growPending_spec (buffer : session.BufferOk) (reallocated : Option UInt8) (need : Nat)
    (more : session.pendingLen ≤ need) :
    (session.growPending reallocated need).BufferOk ∧
    (session.growPending reallocated need).pendingBytes = session.pendingBytes ∧
    (need ≤ (session.growPending reallocated need).pendingCap ↔
      need ≤ session.pendingCap ∨ reallocated.isSome) := by
  obtain ⟨inside, length⟩ := buffer.length_ge
  unfold growPending
  by_cases small : session.pendingCap < need
  · rw [if_pos small]
    cases reallocated with
    | some fill =>
      refine ⟨⟨length_realloc .., by dsimp only; omega⟩, take_realloc (by omega) inside fill, ?_⟩
      simp
    | none => exact ⟨buffer, rfl, by simp⟩
  · rw [if_neg small]
    exact ⟨buffer, rfl, by simp [Nat.not_lt.mp small]⟩

/-- A payload that is kept is appended to the bytes in use; any other leaves them alone. -/
theorem bufferPending_spec (buffer : session.BufferOk) (reallocated : Option UInt8)
    {payload : List UInt8} (nonempty : payload ≠ []) :
    let kept := session.bufferPending reallocated payload
    kept.session.BufferOk ∧
    (session.Buffers reallocated payload ∧ kept.session.pendingBytes = session.pendingBytes ++ payload ∧
        kept.effects = [.hold session.sockFd payload] ∨
      ¬session.Buffers reallocated payload ∧ kept.session.pendingBytes = session.pendingBytes ∧
        kept.effects = []) := by
  obtain ⟨grownOk, grownBytes, room⟩ := growPending_spec buffer reallocated
    (session.pendingLen + payload.length) (by omega)
  obtain ⟨block, cap, same⟩ := session.growPending_frame reallocated (session.pendingLen + payload.length)
  have pos := List.length_pos_iff.mpr nonempty
  unfold bufferPending
  dsimp only
  by_cases limit : session.pendingLen + payload.length ≤ 65536
  · rw [if_pos limit]
    generalize session.growPending reallocated (session.pendingLen + payload.length) = grown at *
    have len : grown.pendingLen = session.pendingLen := by rw [same]
    cases data : grown.pendingData with
    | none =>
      have empty : grown.pendingLen = 0 ∧ grown.pendingCap = 0 := by
        simpa only [BufferOk, data] using grownOk
      -- realloc failed on an empty block
      have refused : ¬session.Buffers reallocated payload := by
        intro fits
        have := room.mpr fits.2
        omega
      exact ⟨grownOk, .inr ⟨refused, grownBytes, rfl⟩⟩
    | some old =>
      have owned : old.length = grown.pendingCap ∧ grown.pendingLen ≤ grown.pendingCap := by
        simpa only [BufferOk, data] using grownOk
      dsimp only
      rw [len]
      by_cases fits : session.pendingLen + payload.length ≤ grown.pendingCap
      · rw [if_pos fits]
        refine ⟨⟨?_, fits⟩, .inl ⟨⟨limit, room.mp fits⟩, ?_, rfl⟩⟩
        · rw [length_memcpy (by omega)]
          exact owned.1
        · rw [← grownBytes]
          simp only [pendingBytes, data, Option.getD_some, len]
          exact take_memcpy (by omega)
      · rw [if_neg fits]
        exact ⟨grownOk, .inr ⟨fun both => fits (room.mpr both.2), grownBytes, rfl⟩⟩
  · rw [if_neg limit]
    exact ⟨buffer, .inr ⟨fun both => limit both.1, rfl, rfl⟩⟩

/-! ### What an event does to a session in the table -/

/-- The states a session can have while it is in the table. -/
def Live (session : TcpSession) : Prop := session.state = .synSent ∨ session.state = .established

section
variable (live : session.Live) (mtu : Int) (replies : TunReplies) (hdr : TcpHdr) (payload : List UInt8)
include live

theorem dataArrives_cases :
    let next : TcpSession := { session with clientSeq := ntohl hdr.seq + UInt32.ofNat payload.length }
    let out := session.dataArrives mtu replies hdr payload
    (payload = [] ∧ out = ⟨session, false, []⟩) ∨
    (payload ≠ [] ∧ session.state = .synSent ∧ out = next.bufferPending replies.realloc payload) ∨
    (payload ≠ [] ∧ session.state = .established ∧ replies.send ≠ .failed ∧
      out = ⟨(writeTcp mtu next tfAck []).1, false,
        [.send session.sockFd payload replies.send, .tunWrite (writeTcp mtu next tfAck []).2]⟩) ∨
    (payload ≠ [] ∧ session.state = .established ∧ replies.send = .failed ∧
      out = ⟨{ (writeTcp mtu next (tfRst ||| tfAck) []).1 with state := .closed }, true,
        [.send session.sockFd payload .failed, .tunWrite (writeTcp mtu next (tfRst ||| tfAck) []).2]⟩) := by
  unfold dataArrives
  dsimp only
  by_cases empty : payload = []
  · exact .inl ⟨empty, if_pos empty⟩
  · rw [if_neg empty]
    rcases live with connecting | connected
    · rw [connecting]
      exact .inr (.inl ⟨empty, rfl, rfl⟩)
    · rw [connected]
      cases replies.send with
      | accepted count => exact .inr (.inr (.inl ⟨empty, rfl, by simp, rfl⟩))
      | wouldBlock => exact .inr (.inr (.inl ⟨empty, rfl, by simp, rfl⟩))
      | failed => exact .inr (.inr (.inr ⟨empty, rfl, rfl, rfl⟩))

omit live in
theorem segmentArrives_cases :
    let data := { session with lastActive := replies.time }.dataArrives mtu replies hdr payload
    let out := session.segmentArrives mtu replies hdr payload
    (hasFlag hdr.flags tfRst = true ∧
      out = ⟨{ session with lastActive := replies.time, state := .closed }, true, []⟩) ∨
    (hasFlag hdr.flags tfRst = false ∧ (data.removed = true ∨ hasFlag hdr.flags tfFin = false) ∧
      out = data) ∨
    (hasFlag hdr.flags tfRst = false ∧ data.removed = false ∧ hasFlag hdr.flags tfFin = true ∧
      out = { data.session.finArrives mtu hdr with
        effects := data.effects ++ (data.session.finArrives mtu hdr).effects }) := by
  unfold segmentArrives
  dsimp only
  cases rst : hasFlag hdr.flags tfRst with
  | true => exact .inl ⟨rfl, rfl⟩
  | false =>
    cases gone : ({ session with lastActive := replies.time }.dataArrives mtu replies hdr payload).removed with
    | true => exact .inr (.inl ⟨rfl, .inl rfl, rfl⟩)
    | false =>
      cases fin : hasFlag hdr.flags tfFin with
      | true => exact .inr (.inr ⟨rfl, rfl, rfl, rfl⟩)
      | false => exact .inr (.inl ⟨rfl, .inr rfl, rfl⟩)

end

theorem connectCompletes_cases (session : TcpSession) (mtu soError : Int) (result : SendResult) :
    let synAck := writeTcp mtu session (tfSyn ||| tfAck) []
    let ack := writeTcp mtu { synAck.1 with state := .established } tfAck []
    let reset := writeTcp mtu session tfRst []
    let out := session.connectCompletes mtu soError result
    (soError = 0 ∧ session.pendingBytes = [] ∧
      out = ⟨{ synAck.1 with state := .established }, false,
        [.tunWrite synAck.2, .epollMod session.sockFd ⟨true, false⟩]⟩) ∨
    (soError = 0 ∧
      out = ⟨{ ack.1 with pendingData := none, pendingLen := 0, pendingCap := 0 }, false,
        [.tunWrite synAck.2, .send session.sockFd session.pendingBytes result, .tunWrite ack.2,
          .release session.sockFd, .epollMod session.sockFd ⟨true, false⟩]⟩) ∨
    (soError ≠ 0 ∧ out = ⟨{ reset.1 with state := .closed }, true, [.tunWrite reset.2]⟩) := by
  unfold connectCompletes flushPending pendingBytes
  dsimp only
  by_cases fine : soError = 0
  · rw [if_pos fine]
    simp only [writeTcp_pendingData, writeTcp_pendingLen, writeTcp_sockFd]
    cases session.pendingData with
    | none => exact .inl ⟨fine, by simp, rfl⟩
    | some block =>
      dsimp only
      split
      · exact .inr (.inl ⟨fine, rfl⟩)
      next empty =>
        refine .inl ⟨fine, ?_, rfl⟩
        rw [Nat.eq_zero_of_not_pos empty, List.take_zero]
  · rw [if_neg fine]
    exact .inr (.inr ⟨fine, rfl⟩)

end TcpSession

def SessionRun.SendsAll (run : SessionRun) : SessionEvent → Prop
  | .segment hdr payload replies => hasFlag hdr.flags tfRst = false → run.session.state = .established →
    replies.send.taken payload = payload
  | .writable soError result => run.session.state = .synSent → soError = 0 →
    result.taken run.session.pendingBytes = run.session.pendingBytes
  | _ => True

instance (run : SessionRun) : (event : SessionEvent) → Decidable (run.SendsAll event)
  | .segment _ _ _ => inferInstanceAs (Decidable (_ → _ → _))
  | .writable _ _ => inferInstanceAs (Decidable (_ → _ → _))
  | .received _ _ | .remoteClosed | .recvFailed => inferInstanceAs (Decidable True)

end ThrottleVpn.Tun2Socks
