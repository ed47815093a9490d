import ThrottleVpn.Tun2Socks.Acks
import ThrottleVpn.Tun2Socks.Forwarding

/-! Acknowledged payload is not lost.

The acknowledgement number moves before the payload goes anywhere. It is right
as long as every payload finds room while the socket connects and `send` takes
over all it is given; a short write or EAGAIN is acknowledged all the same.
-/

set_option autoImplicit false

namespace ThrottleVpn.Tun2Socks

open Foundation

/-- The sequence numbers the client has used after the SYN: its payload and its FIN. -/
def streamEnd (past : List Line) : Nat := (arrived past).length + if finSeen past then 1 else 0

/-- A packet acknowledges no more than arrived, and every byte before its number was
taken over by `send` or is still held. -/
def AckedKept (isn : UInt32) (past : List Line) (line : Line) : Prop :=
  ∀ packet ∈ line.packets,
    (∃ count ≤ streamEnd past, packet.ack = isn + 1 + UInt32.ofNat count) ∧
    ∀ count ≤ streamEnd past, packet.ack = isn + 1 + UInt32.ofNat count →
      (arrived past).take count <+: accepted past ++ held past

instance (isn : UInt32) (past : List Line) (line : Line) : Decidable (AckedKept isn past line) :=
  inferInstanceAs (Decidable (∀ packet ∈ _, _ ∧ _))

/-- A payload that comes during the connect fits the pending block. -/
def SessionRun.RoomFor (run : SessionRun) : SessionEvent → Prop
  | .segment hdr payload replies => hasFlag hdr.flags tfRst = false → run.session.state = .synSent →
    payload ≠ [] → run.session.Buffers replies.realloc payload
  | _ => True

instance (run : SessionRun) : (event : SessionEvent) → Decidable (run.RoomFor event)
  | .segment _ _ _ => inferInstanceAs (Decidable (_ → _ → _ → _))
  | .writable _ _ | .received _ _ | .remoteClosed | .recvFailed => inferInstanceAs (Decidable True)

/-! ### Effects of one event -/

def Bounded (isn : UInt32) (past : List Line) (effects : List Effect) : Prop :=
  ∀ effect ∈ effects, ∀ packet ∈ (Line.effect effect).packets,
    ∃ count ≤ streamEnd past, packet.ack = isn + 1 + UInt32.ofNat count

def Covered (past : List Line) : Prop := arrived past <+: accepted past ++ held past

section
variable {isn : UInt32} {past : List Line}

theorem covered_of_eq (same : accepted past ++ held past = arrived past) : Covered past :=
  ⟨[], by rw [same, List.append_nil]⟩

theorem streamEnd_effects (effects : List Effect) :
    streamEnd (past ++ effects.map Line.effect) = streamEnd past := by
  rw [streamEnd, arrived_effects, finSeen_effects]
  rfl

theorem Bounded.after {effects : List Effect} (bounded : Bounded isn past effects) (further : List Effect) :
    Bounded isn (past ++ further.map Line.effect) effects := by
  unfold Bounded
  rw [streamEnd_effects]
  exact bounded

theorem Covered.acked {line : Line} (covered : Covered past)
    (bounded : ∀ packet ∈ line.packets, ∃ count ≤ streamEnd past, packet.ack = isn + 1 + UInt32.ofNat count) :
    AckedKept isn past line :=
  fun packet member => ⟨bounded packet member, fun _ _ _ => (List.take_prefix _ _).trans covered⟩

theorem extends_unsent {effects : List Effect} (unsent : ∀ effect ∈ effects, (Line.effect effect).packets = []) :
    Extends (AckedKept isn) past (effects.map Line.effect) := by
  induction effects generalizing past with
  | nil => trivial
  | cons effect rest ih =>
    refine ⟨?_, ih fun other member => unsent other (List.mem_cons_of_mem _ member)⟩
    simp only [AckedKept, unsent effect List.mem_cons_self]
    simp

theorem extends_still {effects : List Effect} (still : ∀ effect ∈ effects, effect.moves = false)
    (covered : Covered past) (bounded : Bounded isn past effects) :
    Extends (AckedKept isn) past (effects.map Line.effect) := by
  induction effects generalizing past with
  | nil => trivial
  | cons effect rest ih =>
    have one : ∀ other ∈ [effect], other.moves = false := by
      simpa using still effect List.mem_cons_self
    obtain ⟨-, taken, kept⟩ := streams_still one past
    have later : Covered (past ++ [effect].map Line.effect) := by
      unfold Covered
      rw [taken, kept, arrived_effects]
      exact covered
    have tail : Bounded isn past rest := fun other member => bounded other (List.mem_cons_of_mem _ member)
    exact ⟨covered.acked (bounded effect List.mem_cons_self),
      ih (fun other member => still other (List.mem_cons_of_mem _ member)) later (tail.after [effect])⟩

theorem extends_phased {movers still : List Effect}
    (unsent : ∀ effect ∈ movers, (Line.effect effect).packets = [])
    (rests : ∀ effect ∈ still, effect.moves = false)
    (covered : Covered (past ++ (movers ++ still).map Line.effect))
    (bounded : Bounded isn past (movers ++ still)) :
    Extends (AckedKept isn) past ((movers ++ still).map Line.effect) := by
  rw [List.map_append, extends_append]
  refine ⟨extends_unsent unsent, extends_still rests ?_ ?_⟩
  · rw [List.map_append, ← List.append_assoc] at covered
    obtain ⟨-, taken, kept⟩ := streams_still rests (past ++ movers.map Line.effect)
    unfold Covered at covered
    rwa [taken, kept, arrived_effects] at covered
  · have tail : Bounded isn past still := fun effect member => bounded effect (List.mem_append_right _ member)
    exact tail.after movers

end

/-- A segment's payload goes to the socket or the block before any packet is written. -/
structure Phased (effects movers still : List Effect) : Prop where
  split : effects = movers ++ still
  unsent : ∀ effect ∈ movers, (Line.effect effect).packets = []
  rests : ∀ effect ∈ still, effect.moves = false

theorem dataArrives_phased {session : TcpSession} (live : session.Live) (mtu : Int) (replies : TunReplies)
    (hdr : TcpHdr) (payload : List UInt8) :
    ∃ movers still, Phased (session.dataArrives mtu replies hdr payload).effects movers still := by
  rcases session.dataArrives_cases live mtu replies hdr payload with
    ⟨-, same⟩ | ⟨-, -, same⟩ | ⟨-, -, -, same⟩ | ⟨-, -, -, same⟩
  · rw [same]
    exact ⟨[], [], rfl, by simp, by simp⟩
  · obtain ⟨-, -, none | hold⟩ := TcpSession.bufferPending_frame
      { session with clientSeq := ntohl hdr.seq + UInt32.ofNat payload.length } replies.realloc payload
    · exact ⟨[], [], (congrArg Handled.effects same).trans none, by simp, by simp⟩
    · exact ⟨[.hold session.sockFd payload], [], (congrArg Handled.effects same).trans hold, by simp, by simp⟩
  · rw [same]
    exact ⟨[_], [_], rfl, by simp, by simp [Effect.moves]⟩
  · rw [same]
    exact ⟨[_], [_], rfl, by simp, by simp [Effect.moves]⟩

theorem segmentArrives_phased {session : TcpSession} (live : session.Live) (mtu : Int) (replies : TunReplies)
    (hdr : TcpHdr) (payload : List UInt8) :
    ∃ movers still, Phased (session.segmentArrives mtu replies hdr payload).effects movers still := by
  let noted : TcpSession := { session with lastActive := replies.time }
  have alive : noted.Live := live
  obtain ⟨movers, still, split, unsent, rests⟩ := dataArrives_phased alive mtu replies hdr payload
  rcases session.segmentArrives_cases mtu replies hdr payload with ⟨-, same⟩ | ⟨-, -, same⟩ | ⟨-, -, -, same⟩
  · rw [same]
    exact ⟨[], [], rfl, by simp, by simp⟩
  · rw [same]
    exact ⟨movers, still, split, unsent, rests⟩
  · rw [same]
    let fin := (noted.dataArrives mtu replies hdr payload).session.finArrives mtu hdr
    refine ⟨movers, still ++ fin.effects, ?_, unsent, fun effect member => ?_⟩
    · rw [← List.append_assoc, ← split]
    · rcases List.mem_append.mp member with member | member
      · exact rests effect member
      · simp only [fin, TcpSession.finArrives, List.mem_cons, List.not_mem_nil, or_false] at member
        rcases member with rfl | rfl | rfl <;> rfl

/-! ### Runs -/

section
variable {isn : UInt32} {run : SessionRun}

theorem Acknowledges.bounded {event : SessionEvent} {handled : Handled} {data closing : List Effect}
    (acknowledges : Acknowledges isn run event handled data closing) :
    Bounded isn (run.history ++ [.event event]) handled.effects := by
  have arrivals : (arrived (run.history ++ [.event event])).length =
      (arrived run.history).length + (Line.event event).arrived.length := by
    rw [arrived_concat, List.length_append]
  intro effect member packet sent
  rw [acknowledges.split] at member
  rcases List.mem_append.mp member with member | member
  · refine ⟨_, ?_, acknowledges.acks effect member packet sent⟩
    rw [streamEnd, arrivals]
    exact Nat.le_add_right _ _
  · obtain ⟨closes, acks⟩ := acknowledges.closes (List.ne_nil_of_mem member)
    refine ⟨_, ?_, acks effect member packet sent⟩
    rw [streamEnd, arrivals, finSeen_concat, closes, Bool.or_true, if_pos rfl]
    omega

/-- What a session in the table, its streams and its packets have in common. -/
structure Keeping (isn : UInt32) (run : SessionRun) : Prop where
  inSequence : run.removed = false → InSequence isn run
  relaying : run.removed = false → Relaying run
  kept : run.removed = false → accepted run.history ++ held run.history = arrived run.history
  judged : Judged (AckedKept isn) run.history

theorem forwarded_arrived (live : run.session.Live) {hdr : TcpHdr} {payload : List UInt8}
    {replies : TunReplies} (room : run.RoomFor (.segment hdr payload replies))
    (noRst : hasFlag hdr.flags tfRst = false) : run.forwarded (.segment hdr payload replies) = payload := by
  by_cases empty : payload = []
  · simp [SessionRun.forwarded, empty]
  · refine if_pos ⟨noRst, ?_⟩
    rcases live with connecting | connected
    · exact .inr ⟨connecting, room noRst connecting empty⟩
    · exact .inl connected

theorem extends_flush {past : List Line} {fd : Nat} {synAck ack : List Packet} {bytes : List UInt8}
    {result : SendResult} {interest : EpollEvents} (none : accepted past = []) (block : held past = bytes)
    (all : arrived past = bytes) (sends : result.taken bytes = bytes)
    (bounded : Bounded isn past [.tunWrite synAck, .send fd bytes result, .tunWrite ack, .release fd,
      .epollMod fd interest]) :
    Extends (AckedKept isn) past ([Effect.tunWrite synAck, .send fd bytes result, .tunWrite ack, .release fd,
      .epollMod fd interest].map Line.effect) := by
  let before : List Effect := [.tunWrite synAck, .send fd bytes result]
  have covered : Covered past := by simp [Covered, none, block, all]
  have flushed : Covered (past ++ before.map Line.effect) := by
    unfold Covered
    rw [arrived_effects, accepted_append, held_append, none, block, all]
    simp [before, sends]
  have last : ∀ packet ∈ (Line.effect (.tunWrite ack)).packets,
      ∃ count ≤ streamEnd (past ++ before.map Line.effect), packet.ack = isn + 1 + UInt32.ofNat count :=
    bounded.after before (.tunWrite ack) (by simp)
  have acked := flushed.acked last
  rw [List.map_cons, List.map_singleton, append_cons_concat] at acked
  exact ⟨covered.acked (bounded _ List.mem_cons_self), by simp [AckedKept], acked, by simp [AckedKept],
    by simp [AckedKept], trivial⟩

theorem flush_extends (relaying : Relaying run) (connecting : run.session.state = .synSent)
    (kept : accepted run.history ++ held run.history = arrived run.history) (mtu soError : Int)
    (result : SendResult) (sends : run.SendsAll (.writable soError result))
    (bounded : Bounded isn (run.history ++ [.event (.writable soError result)])
      (run.session.connectCompletes mtu soError result).effects) :
    Extends (AckedKept isn) (run.history ++ [.event (.writable soError result)])
      ((run.session.connectCompletes mtu soError result).effects.map Line.effect) := by
  obtain ⟨-, -, noneTaken, block⟩ := relaying.connecting connecting
  have covered : Covered (run.history ++ [.event (.writable soError result)]) := by
    simp [Covered, kept]
  rcases run.session.connectCompletes_cases mtu soError result with
    ⟨-, -, same⟩ | ⟨fine, same⟩ | ⟨-, same⟩
  · rw [same] at bounded ⊢
    exact extends_still (by simp [Effect.moves]) covered bounded
  · rw [same] at bounded ⊢
    have all : arrived run.history = run.session.pendingBytes := by
      rw [← kept, noneTaken, block, List.nil_append]
    exact extends_flush (by simpa using noneTaken) (by simpa using block) (by simpa using all)
      (sends connecting fine) bounded
  · rw [same] at bounded ⊢
    exact extends_still (by simp [Effect.moves]) covered bounded

/-- The packets of one event are covered. -/
theorem Keeping.extends (mtu : Int) (keeping : Keeping isn run) (still : run.removed = false)
    (event : SessionEvent) (order : InOrder isn run event) (room : run.RoomFor event)
    (sends : run.SendsAll event) :
    Extends (AckedKept isn) (run.history ++ [.event event])
      ((run.session.handle mtu event).effects.map Line.effect) ∧
    ((run.session.handle mtu event).removed = false →
      accepted (run.extended event (run.session.handle mtu event)) ++
        held (run.extended event (run.session.handle mtu event)) =
      arrived (run.extended event (run.session.handle mtu event))) := by
  have relaying := keeping.relaying still
  have kept := keeping.kept still
  obtain ⟨data, closing, acknowledges⟩ := (keeping.inSequence still).handle mtu event order
  have bounded := acknowledges.bounded
  -- what arrives is taken or held before anything is acknowledged
  have whole (takes : run.forwarded event = (Line.event event).arrived) :
      accepted (run.extended event (run.session.handle mtu event)) ++
        held (run.extended event (run.session.handle mtu event)) =
      arrived (run.extended event (run.session.handle mtu event)) := by
    rw [(relaying.handle mtu event).taken sends, kept, takes, SessionRun.extended, arrived_effects, arrived_concat]
  -- an event without payload that sends nothing on leaves the books as they are
  have quiet (none : (Line.event event).arrived = [])
      (rests : ∀ effect ∈ (run.session.handle mtu event).effects, effect.moves = false) :
      Extends (AckedKept isn) (run.history ++ [.event event])
        ((run.session.handle mtu event).effects.map Line.effect) := by
    obtain ⟨-, taken, held⟩ := streams_event run.history event
    refine extends_still rests (covered_of_eq ?_) bounded
    rw [taken, held, kept, arrived_concat, none, List.append_nil]
  cases event with
  | segment hdr payload replies =>
    cases rst : hasFlag hdr.flags tfRst with
    | true => simp [TcpSession.handle, TcpSession.segmentArrives, rst, Extends]
    | false =>
      have all := whole (forwarded_arrived relaying.live room rst)
      obtain ⟨movers, rest, split, unsent, rests⟩ :=
        segmentArrives_phased relaying.live mtu replies hdr payload
      have split : (run.session.handle mtu (.segment hdr payload replies)).effects = _ := split
      rw [SessionRun.extended, split] at all
      rw [split] at bounded ⊢
      exact ⟨extends_phased unsent rests (covered_of_eq all) bounded, fun _ => whole (forwarded_arrived relaying.live room rst)⟩
  | writable soError result =>
    refine ⟨?_, fun _ => whole rfl⟩
    by_cases connecting : run.session.state = .synSent
    · simp only [TcpSession.handle, if_pos connecting] at bounded ⊢
      exact flush_extends relaying connecting kept mtu soError result sends bounded
    · exact quiet rfl (by simp [TcpSession.handle, connecting])
  | received data time =>
    have rests : ∀ effect ∈ (run.session.handle mtu (.received data time)).effects, effect.moves = false := by
      simp [TcpSession.handle, TcpSession.received, Effect.moves]
    exact ⟨quiet rfl rests, fun _ => whole rfl⟩
  | remoteClosed =>
    have rests : ∀ effect ∈ (run.session.handle mtu .remoteClosed).effects, effect.moves = false := by
      simp [TcpSession.handle, TcpSession.remoteClosed, Effect.moves]
    exact ⟨quiet rfl rests, fun _ => whole rfl⟩
  | recvFailed =>
    have rests : ∀ effect ∈ (run.session.handle mtu .recvFailed).effects, effect.moves = false := by
      simp [TcpSession.handle, TcpSession.recvFailed, Effect.moves]
    exact ⟨quiet rfl rests, fun _ => whole rfl⟩

theorem Keeping.step (mtu : Int) (keeping : Keeping isn run) (event : SessionEvent)
    (order : InOrder isn run event) (room : run.RoomFor event) (sends : run.SendsAll event) :
    Keeping isn (run.step mtu event) := by
  cases still : run.removed with
  | true =>
    rw [SessionRun.step_removed still]
    exact keeping
  | false =>
    have before := keeping.inSequence still
    obtain ⟨data, closing, acknowledges⟩ := before.handle mtu event order
    obtain ⟨covered, kept⟩ := keeping.extends mtu still event order room sends
    have arrival : Judged (AckedKept isn) (run.history ++ [.event event]) :=
      judged_concat.mpr ⟨keeping.judged, by simp [AckedKept]⟩
    rw [SessionRun.step_kept still, append_cons_concat]
    exact ⟨acknowledges.inSequence before, ((keeping.relaying still).handle mtu event).relaying, kept,
      judged_append.mpr ⟨arrival, covered⟩⟩

end

/-- No acknowledged byte is lost in a run whose payloads find room during the connect
and are otherwise taken over whole by `send`. -/
theorem acked_bytes_kept (mtu : Int) (addr : Nat) (flow : Flow) (isn : UInt32) (fd : Nat) (isnTime time : Int)
    (events : List SessionEvent)
    (allowed : Admits (SessionRun.step mtu)
      (fun run event => InOrder isn run event ∧ run.RoomFor event ∧ run.SendsAll event)
      (.start (.fresh addr flow isn fd isnTime time)) events) :
    Judged (AckedKept isn)
      (List.foldl (SessionRun.step mtu) (.start (.fresh addr flow isn fd isnTime time)) events).history :=
  (allowed.invariant (Keeping isn)
    (fun _ event keeping met => keeping.step mtu event met.1 met.2.1 met.2.2)
    ⟨fun _ => .start addr flow fd isnTime time, fun _ => .start addr flow isn fd isnTime time, fun _ => rfl,
      judged_nil _⟩).judged

theorem acked_bytes_kept_sample :
    Judged (AckedKept 1000) (List.foldl (SessionRun.step 1500) (.start sampleSession)
      [sampleSegment tfAck 1001 [1, 2] .wouldBlock, .writable 0 (.accepted 2),
        sampleSegment tfAck 1003 [3] (.accepted 1)]).history :=
  acked_bytes_kept 1500 0 sampleFlow 1000 7 0 0 _ (by decide +kernel)

/-- `send` takes over all, a part or nothing, but does not fail. -/
def SendAnswers : SessionEvent → Prop
  | .segment _ _ replies => replies.send ≠ .failed
  | .writable _ result => result ≠ .failed
  | _ => True

instance : (event : SessionEvent) → Decidable (SendAnswers event)
  | .segment _ _ _ | .writable _ _ => inferInstanceAs (Decidable (_ ≠ _))
  | .received _ _ | .remoteClosed | .recvFailed => inferInstanceAs (Decidable True)

/-- Nothing acknowledged is lost, however much `send` takes. -/
def UploadKept : Prop :=
  ∀ (mtu : Int) (addr : Nat) (flow : Flow) (isn : UInt32) (fd : Nat) (isnTime time : Int)
    (events : List SessionEvent),
    let start := SessionRun.start (.fresh addr flow isn fd isnTime time)
    Admits (SessionRun.step mtu) (fun run event => InOrder isn run event ∧ SendAnswers event) start events →
    Judged (AckedKept isn) (events.foldl (SessionRun.step mtu) start).history

/-- A byte that met EAGAIN is acknowledged and gone. -/
theorem upload_loses_byte : ¬UploadKept := by
  intro keeps
  have judged := keeps 1500 0 sampleFlow 1000 7 0 0
    [.writable 0 (.accepted 0), sampleSegment tfAck 1001 [1] .wouldBlock] (by decide +kernel)
  exact absurd judged (by decide +kernel)

end ThrottleVpn.Tun2Socks
