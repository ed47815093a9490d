import ThrottleVpn.Tun2Socks.Forwarding

/-! The block that keeps payload while the socket connects.

The code guards the limit of 64 KB, the growth and the copy separately. What
holds between two segments is one invariant: the block has the size on record,
the bytes in use are inside it, and there is no block without such bytes.
-/

set_option autoImplicit false

namespace ThrottleVpn.Tun2Socks

open Foundation

structure Copy where
  block : List UInt8
  offset : Nat
  bytes : List UInt8
  deriving DecidableEq, Repr

namespace TcpSession

def pendingCopy (session : TcpSession) (reallocated : Option UInt8) (payload : List UInt8) : Option Copy :=
  let need := session.pendingLen + payload.length
  if need ≤ 65536 then
    let grown := session.growPending reallocated need
    match grown.pendingData with
    | some block =>
      if grown.pendingLen + payload.length ≤ grown.pendingCap then some ⟨block, grown.pendingLen, payload⟩
      else none
    | none => none
  else none

theorem bufferPending_copies (session : TcpSession) (reallocated : Option UInt8) (payload : List UInt8) :
    let need := session.pendingLen + payload.length
    let grown := session.growPending reallocated need
    session.bufferPending reallocated payload =
      match session.pendingCopy reallocated payload with
      | some copy =>
        ⟨{ grown with
            pendingData := some (memcpy copy.block copy.offset copy.bytes)
            pendingLen := grown.pendingLen + payload.length },
          false, [.hold session.sockFd payload]⟩
      | none => ⟨if need ≤ 65536 then grown else session, false, []⟩ := by
  intro need grown
  unfold bufferPending pendingCopy
  dsimp only
  by_cases limit : session.pendingLen + payload.length ≤ 65536
  · simp only [need, if_pos limit]
    cases block : (session.growPending reallocated (session.pendingLen + payload.length)).pendingData with
    | none => rfl
    | some old =>
      dsimp only
      split <;> rfl
  · simp only [need, if_neg limit]

/-- A payload that is not copied leaves the session as it was: the block only
grows for a copy that then fits. -/
theorem bufferPending_rejects {session : TcpSession} {reallocated : Option UInt8} {payload : List UInt8}
    (refused : session.pendingCopy reallocated payload = none) :
    (session.bufferPending reallocated payload).session = session := by
  have copies := session.bufferPending_copies reallocated payload
  rw [refused] at copies
  rw [copies]
  dsimp only
  split
  next limit =>
    unfold growPending
    split
    next small =>
      cases reallocated with
      | none => rfl
      | some fill =>
        -- the copy fits the block that was just allocated
        have made : session.pendingCopy (some fill) payload = some
            ⟨realloc session.pendingData (session.pendingLen + payload.length + 4096) fill,
              session.pendingLen, payload⟩ := by
          simp [pendingCopy, growPending, limit, small]
        rw [made] at refused
        cases refused
    next => rfl
  next => rfl

theorem pendingCopy_congr {session other : TcpSession} (data : other.pendingData = session.pendingData)
    (len : other.pendingLen = session.pendingLen) (cap : other.pendingCap = session.pendingCap)
    (reallocated : Option UInt8) (payload : List UInt8) :
    other.pendingCopy reallocated payload = session.pendingCopy reallocated payload := by
  unfold pendingCopy growPending
  rw [data, len, cap]
  by_cases small : session.pendingCap < session.pendingLen + payload.length
  · simp only [if_pos small]
    cases reallocated <;> simp [data, len, cap]
  · simp [if_neg small, data, len, cap]

/-- What holds of the pending block between two segments. -/
structure PendingOk (session : TcpSession) : Prop where
  buffer : session.BufferOk
  limit : session.pendingLen ≤ 65536
  used : session.pendingData.isSome → 0 < session.pendingLen

theorem PendingOk.congr {session other : TcpSession} (pending : session.PendingOk)
    (data : other.pendingData = session.pendingData) (len : other.pendingLen = session.pendingLen)
    (cap : other.pendingCap = session.pendingCap) :
    other.PendingOk ∧ other.pendingBytes = session.pendingBytes := by
  obtain ⟨buffer, limit, used⟩ := pending
  refine ⟨⟨?_, len.trans_le limit, ?_⟩, ?_⟩
  · unfold BufferOk at buffer ⊢
    rwa [data, len, cap]
  · rwa [data, len]
  · rw [pendingBytes, pendingBytes, data, len]

section
variable {session : TcpSession} (pending : session.PendingOk) (reallocated : Option UInt8)
  {payload : List UInt8}
include pending

/-- The copy stays inside the block that is allocated when it is made. -/
theorem PendingOk.copy_inside {copy : Copy} (made : session.pendingCopy reallocated payload = some copy) :
    copy.offset = session.pendingLen ∧ copy.bytes = payload ∧
      copy.offset + copy.bytes.length ≤ copy.block.length := by
  obtain ⟨grownOk, -, -⟩ := growPending_spec pending.buffer reallocated
    (session.pendingLen + payload.length) (by omega)
  obtain ⟨block, cap, same⟩ := session.growPending_frame reallocated (session.pendingLen + payload.length)
  unfold pendingCopy at made
  dsimp only at made
  have len : (session.growPending reallocated (session.pendingLen + payload.length)).pendingLen =
      session.pendingLen := by rw [same]
  generalize session.growPending reallocated (session.pendingLen + payload.length) = grown at *
  split at made
  · cases data : grown.pendingData with
    | none => simp [data] at made
    | some old =>
      have owned : old.length = grown.pendingCap ∧ grown.pendingLen ≤ grown.pendingCap := by
        simpa only [BufferOk, data] using grownOk
      simp only [data] at made
      split at made
      next fits =>
        cases made
        exact ⟨len, rfl, owned.1 ▸ fits⟩
      next => cases made
  · cases made

theorem PendingOk.copy_iff (nonempty : payload ≠ []) :
    (session.pendingCopy reallocated payload).isSome ↔ session.Buffers reallocated payload := by
  have copies := session.bufferPending_copies reallocated payload
  obtain ⟨-, ⟨fits, -, effects⟩ | ⟨refused, -, effects⟩⟩ :=
    bufferPending_spec pending.buffer reallocated nonempty
  · refine iff_of_true ?_ fits
    cases made : session.pendingCopy reallocated payload with
    | some copy => rfl
    | none =>
      rw [made] at copies
      rw [copies] at effects
      cases effects
  · refine iff_of_false ?_ refused
    cases made : session.pendingCopy reallocated payload with
    | some copy =>
      rw [made] at copies
      rw [copies] at effects
      cases effects
    | none => exact Bool.false_ne_true

theorem PendingOk.accepts (nonempty : payload ≠ [])
    (made : (session.pendingCopy reallocated payload).isSome) :
    let kept := (session.bufferPending reallocated payload).session
    kept.PendingOk ∧ kept.pendingBytes = session.pendingBytes ++ payload := by
  have fits := (pending.copy_iff reallocated nonempty).mp made
  obtain ⟨owned, ⟨-, bytes, -⟩ | ⟨refused, -, -⟩⟩ := bufferPending_spec pending.buffer reallocated nonempty
  · have copies := session.bufferPending_copies reallocated payload
    obtain ⟨block, cap, same⟩ := session.growPending_frame reallocated (session.pendingLen + payload.length)
    obtain ⟨copy, copied⟩ := Option.isSome_iff_exists.mp made
    have pos := List.length_pos_iff.mpr nonempty
    have len : (session.bufferPending reallocated payload).session.pendingLen =
        session.pendingLen + payload.length := by
      rw [copies, copied, same]
    exact ⟨⟨owned, len.trans_le fits.1, fun _ => by omega⟩, bytes⟩
  · exact absurd fits refused

end

theorem PendingOk.flushed {session : TcpSession} (pending : session.PendingOk) (mtu : Int)
    (result : SendResult) :
    let flushed := (session.connectCompletes mtu 0 result).session
    flushed.pendingData = none ∧ flushed.pendingLen = 0 ∧ flushed.pendingCap = 0 := by
  obtain ⟨buffer, -, used⟩ := pending
  unfold connectCompletes flushPending
  rw [if_pos rfl]
  simp only [writeTcp_pendingData, writeTcp_pendingLen, writeTcp_sockFd]
  cases block : session.pendingData with
  | none =>
    have empty : session.pendingLen = 0 ∧ session.pendingCap = 0 := by
      simpa only [BufferOk, block] using buffer
    simpa [block] using empty
  | some old =>
    dsimp only
    rw [if_pos (used (by rw [block]; rfl))]
    exact ⟨rfl, rfl, rfl⟩

end TcpSession

/-! ### Runs -/

namespace SessionRun

def acceptedPayload (run : SessionRun) : SessionEvent → List UInt8
  | .segment _ payload replies =>
    if (run.session.pendingCopy replies.realloc payload).isSome then payload else []
  | _ => []

def acceptedPayloads (mtu : Int) : SessionRun → List SessionEvent → List UInt8
  | _, [] => []
  | run, event :: rest => run.acceptedPayload event ++ acceptedPayloads mtu (run.step mtu event) rest

end SessionRun

structure Collects (bytes : List UInt8) (run : SessionRun) : Prop where
  relaying : run.removed = false → Relaying run
  pending : run.removed = false → run.session.state = .synSent →
    run.session.PendingOk ∧ run.session.pendingBytes = bytes

section
variable {bytes : List UInt8} {run : SessionRun}

theorem Collects.data (collects : Collects bytes run) (stays : run.removed = false)
    (connecting : run.session.state = .synSent) (mtu : Int) (hdr : TcpHdr) (payload : List UInt8)
    (replies : TunReplies) :
    let data := { run.session with lastActive := replies.time }.dataArrives mtu replies hdr payload
    data.session.PendingOk ∧ data.session.pendingBytes =
      bytes ++ run.acceptedPayload (.segment hdr payload replies) := by
  obtain ⟨pending, content⟩ := collects.pending stays connecting
  let noted : TcpSession := { run.session with lastActive := replies.time }
  have alive : noted.Live := .inl connecting
  rcases noted.dataArrives_cases alive mtu replies hdr payload with
    ⟨empty, same⟩ | ⟨nonempty, -, same⟩ | ⟨-, connected, -⟩ | ⟨-, connected, -⟩
  · have none : run.acceptedPayload (.segment hdr payload replies) = [] := by
      simp [SessionRun.acceptedPayload, empty]
    rw [same, none, List.append_nil, ← content]
    exact pending.congr rfl rfl rfl
  · generalize nextIs : { noted with clientSeq := ntohl hdr.seq + UInt32.ofNat payload.length } = next at same
    have data : next.pendingData = run.session.pendingData := by rw [← nextIs]
    have len : next.pendingLen = run.session.pendingLen := by rw [← nextIs]
    have cap : next.pendingCap = run.session.pendingCap := by rw [← nextIs]
    obtain ⟨pendingNext, bytesNext⟩ := pending.congr data len cap
    have copyEq := TcpSession.pendingCopy_congr data len cap replies.realloc payload
    rw [same]
    by_cases made : (run.session.pendingCopy replies.realloc payload).isSome
    · obtain ⟨sound, appended⟩ := pendingNext.accepts replies.realloc nonempty (copyEq ▸ made)
      rw [SessionRun.acceptedPayload, if_pos made, ← content, ← bytesNext]
      exact ⟨sound, appended⟩
    · have unchanged := TcpSession.bufferPending_rejects
        (copyEq.trans (Option.not_isSome_iff_eq_none.mp made))
      rw [SessionRun.acceptedPayload, if_neg made, List.append_nil, ← content, ← bytesNext]
      dsimp only
      rw [unchanged]
      exact ⟨pendingNext, rfl⟩
  · exact absurd (connected.symm.trans connecting) (by decide)
  · exact absurd (connected.symm.trans connecting) (by decide)

theorem Collects.handle (collects : Collects bytes run) (stays : run.removed = false) (mtu : Int)
    (event : SessionEvent) (kept : (run.session.handle mtu event).removed = false)
    (waits : (run.session.handle mtu event).session.state = .synSent) :
    (run.session.handle mtu event).session.PendingOk ∧
      (run.session.handle mtu event).session.pendingBytes = bytes ++ run.acceptedPayload event := by
  have live := (collects.relaying stays).live
  cases event with
  | segment hdr payload replies =>
    rcases run.session.segmentArrives_cases mtu replies hdr payload with
      ⟨-, same⟩ | ⟨-, -, same⟩ | ⟨-, -, -, same⟩
    · rw [TcpSession.handle, same] at kept
      cases kept
    · rw [TcpSession.handle, same] at kept waits ⊢
      rcases live with connecting | connected
      · exact collects.data stays connecting mtu hdr payload replies
      · -- a connected session stays connected
        have alive : { run.session with lastActive := replies.time }.Live := .inr connected
        have state := (TcpSession.dataArrives_takes alive
          (fun connecting => absurd (connecting.symm.trans connected) (by decide))
          mtu replies hdr payload []).state kept
        exact absurd (state.symm.trans waits ▸ connected) (by decide)
    · rw [TcpSession.handle, same] at kept
      cases kept
  | writable soError result =>
    simp only [TcpSession.handle] at kept waits ⊢
    by_cases connecting : run.session.state = .synSent
    · rw [if_pos connecting] at kept waits
      rcases run.session.connectCompletes_cases mtu soError result with
        ⟨-, -, same⟩ | ⟨-, same⟩ | ⟨-, same⟩
      · rw [same] at waits
        cases waits
      · rw [same] at waits
        simp at waits
      · rw [same] at kept
        cases kept
    · rw [if_neg connecting] at waits
      exact absurd waits connecting
  | received data time =>
    obtain ⟨seq, same⟩ :=
      writeTcp_session mtu { run.session with lastActive := time } (tfPsh ||| tfAck) data
    simp only [TcpSession.handle, TcpSession.received, same] at waits ⊢
    obtain ⟨pending, content⟩ := collects.pending stays waits
    have none : run.acceptedPayload (.received data time) = [] := rfl
    rw [none, List.append_nil, ← content]
    exact pending.congr rfl rfl rfl
  | remoteClosed => cases kept
  | recvFailed => cases kept

theorem Collects.step (collects : Collects bytes run) (mtu : Int) (event : SessionEvent) :
    Collects (bytes ++ run.acceptedPayload event) (run.step mtu event) := by
  cases stays : run.removed with
  | true =>
    rw [SessionRun.step_removed stays]
    exact ⟨fun kept => absurd (stays.symm.trans kept) (by decide),
      fun kept => absurd (stays.symm.trans kept) (by decide)⟩
  | false =>
    have conserves := (collects.relaying stays).handle mtu event
    rw [SessionRun.step_kept stays, append_cons_concat]
    exact ⟨conserves.relaying, fun kept waits => collects.handle stays mtu event kept waits⟩

theorem Collects.steps (collects : Collects bytes run) (mtu : Int) (events : List SessionEvent) :
    Collects (bytes ++ run.acceptedPayloads mtu events) (events.foldl (SessionRun.step mtu) run) := by
  induction events generalizing bytes run with
  | nil => simpa [SessionRun.acceptedPayloads] using collects
  | cons event rest ih =>
    have further := ih (collects.step mtu event)
    rwa [List.append_assoc] at further

end

theorem Collects.start (addr : Nat) (flow : Flow) (isn : UInt32) (fd : Nat) (isnTime time : Int) :
    Collects [] (.start (.fresh addr flow isn fd isnTime time)) where
  relaying _ := .start addr flow isn fd isnTime time
  pending _ _ := ⟨⟨⟨rfl, rfl⟩, Nat.zero_le _, fun some => absurd some Bool.false_ne_true⟩, rfl⟩

/-- The pending buffer of a session after a run, and what the next segment and the
flush do with it. -/
structure PendingSound (mtu : Int) (accepted : List UInt8) (session : TcpSession) : Prop where
  inside : session.pendingLen ≤ session.pendingCap
  limit : session.pendingLen ≤ 65536
  allocated : session.pendingCap ≤ (session.pendingData.getD []).length
  content : session.pendingBytes = accepted
  copies : ∀ reallocated payload copy, session.pendingCopy reallocated payload = some copy →
    copy.offset + copy.bytes.length ≤ copy.block.length
  accepts : ∀ reallocated payload, payload ≠ [] →
    ((session.pendingCopy reallocated payload).isSome ↔ session.Buffers reallocated payload)
  rejects : ∀ reallocated payload, session.pendingCopy reallocated payload = none →
    (session.bufferPending reallocated payload).session = session
  flushed : ∀ result, let flushed := (session.connectCompletes mtu 0 result).session
    flushed.pendingData = none ∧ flushed.pendingLen = 0 ∧ flushed.pendingCap = 0

/-- In every run, as long as the session is connecting, its pending buffer is sound
and holds the accepted payloads in the order they arrived. -/
theorem pending_buffer_sound (mtu : Int) (addr : Nat) (flow : Flow) (isn : UInt32) (fd : Nat)
    (isnTime time : Int) (events : List SessionEvent) :
    let start := SessionRun.start (.fresh addr flow isn fd isnTime time)
    let run := events.foldl (SessionRun.step mtu) start
    run.removed = false → run.session.state = .synSent →
      PendingSound mtu (start.acceptedPayloads mtu events) run.session := by
  intro start run kept connecting
  have collects : Collects (start.acceptedPayloads mtu events) run :=
    (Collects.start addr flow isn fd isnTime time).steps mtu events
  obtain ⟨pending, content⟩ := collects.pending kept connecting
  obtain ⟨inside, length⟩ := pending.buffer.length_ge
  exact
    { inside := length ▸ inside
      limit := pending.limit
      allocated := length.ge
      content := content
      copies := fun reallocated payload copy made => (pending.copy_inside reallocated made).2.2
      accepts := fun reallocated payload nonempty => pending.copy_iff reallocated nonempty
      rejects := fun reallocated payload refused => TcpSession.bufferPending_rejects refused
      flushed := fun result => pending.flushed mtu result }

theorem pending_buffer_sound_two :
    PendingSound 1500 [1, 2, 3] (List.foldl (SessionRun.step 1500) (.start sampleSession)
      [sampleSegment tfAck 1001 [1, 2] .wouldBlock, sampleSegment tfAck 1003 [3] .wouldBlock]).session :=
  pending_buffer_sound 1500 0 sampleFlow 1000 7 0 0
    [sampleSegment tfAck 1001 [1, 2] .wouldBlock, sampleSegment tfAck 1003 [3] .wouldBlock]
    (by decide +kernel) (by decide +kernel)

end ThrottleVpn.Tun2Socks
