import ThrottleVpn.Tun2Socks.Streams

/-! Acknowledgement numbers.

The engine assigns `client_seq` from each segment it processes, and every packet
it writes acknowledges `client_seq`. For a client that sends in order this counts
the bytes processed, except that a FIN with payload is taken for a bare one.
-/

set_option autoImplicit false

namespace ThrottleVpn.Tun2Socks

open Foundation

/-- A FIN that is processed; RST takes precedence. -/
@[simp] def Line.closes : Line → Bool
  | .event (.segment hdr _ _) => hasFlag hdr.flags tfFin && !hasFlag hdr.flags tfRst
  | _ => false

def finSeen (history : List Line) : Bool := history.any Line.closes

/-- The acknowledgement due after a history: the SYN, the payload and the FIN. -/
def ackNumber (isn : UInt32) (history : List Line) : UInt32 :=
  isn + 1 + UInt32.ofNat (arrived history).length + (if finSeen history then 1 else 0)

def AckExact (isn : UInt32) (past : List Line) (line : Line) : Prop :=
  ∀ packet ∈ line.packets, packet.ack = ackNumber isn past

instance (isn : UInt32) (past : List Line) (line : Line) : Decidable (AckExact isn past line) :=
  inferInstanceAs (Decidable (∀ packet ∈ _, _))

/-- Payload and FIN come at the next sequence number of the client's stream. -/
def InOrder (isn : UInt32) (run : SessionRun) : SessionEvent → Prop
  | .segment hdr payload _ => payload ≠ [] ∨ hasFlag hdr.flags tfFin = true →
    ntohl hdr.seq = isn + 1 + UInt32.ofNat (arrived run.history).length
  | _ => True

/-- A FIN that is processed carries no payload. -/
def BareFin : SessionEvent → Prop
  | .segment hdr payload _ => hasFlag hdr.flags tfFin = true → hasFlag hdr.flags tfRst = false → payload = []
  | _ => True

instance (isn : UInt32) (run : SessionRun) : (event : SessionEvent) → Decidable (InOrder isn run event)
  | .segment _ _ _ => inferInstanceAs (Decidable (_ ∨ _ → _))
  | .writable _ _ | .received _ _ | .remoteClosed | .recvFailed => inferInstanceAs (Decidable True)

instance : (event : SessionEvent) → Decidable (BareFin event)
  | .segment _ _ _ => inferInstanceAs (Decidable (_ → _ → _))
  | .writable _ _ | .received _ _ | .remoteClosed | .recvFailed => inferInstanceAs (Decidable True)

theorem BareFin.arrived {event : SessionEvent} (bare : BareFin event)
    (closes : (Line.event event).closes = true) : (Line.event event).arrived = [] := by
  cases event with
  | segment hdr payload replies =>
    obtain ⟨fin, noRst⟩ : hasFlag hdr.flags tfFin = true ∧ hasFlag hdr.flags tfRst = false := by
      simpa using closes
    exact bare fin noRst
  | writable soError result => rfl
  | received data time => simp at closes
  | remoteClosed => rfl
  | recvFailed => rfl

@[simp] theorem finSeen_concat (history : List Line) (line : Line) :
    finSeen (history ++ [line]) = (finSeen history || line.closes) := by
  simp [finSeen]

theorem ackNumber_effect (isn : UInt32) (past : List Line) (effect : Effect) :
    ackNumber isn (past ++ [.effect effect]) = ackNumber isn past := by
  simp [ackNumber]

def AllAck (number : UInt32) (effects : List Effect) : Prop :=
  ∀ effect ∈ effects, ∀ packet ∈ (Line.effect effect).packets, packet.ack = number

@[simp] theorem allAck_nil (number : UInt32) : AllAck number [] := by simp [AllAck]

@[simp] theorem allAck_cons {number : UInt32} {effect : Effect} {rest : List Effect} :
    AllAck number (effect :: rest) ↔
      (∀ packet ∈ (Line.effect effect).packets, packet.ack = number) ∧ AllAck number rest := by
  simp [AllAck]

theorem arrived_effects (past : List Line) (effects : List Effect) :
    arrived (past ++ effects.map Line.effect) = arrived past := by
  induction effects generalizing past with
  | nil => simp
  | cons effect rest ih =>
    rw [List.map_cons, append_cons_concat, ih]
    simp

theorem finSeen_effects (past : List Line) (effects : List Effect) :
    finSeen (past ++ effects.map Line.effect) = finSeen past := by
  induction effects generalizing past with
  | nil => simp
  | cons effect rest ih =>
    rw [List.map_cons, append_cons_concat, ih]
    simp

theorem extends_acks {isn : UInt32} {past : List Line} {effects : List Effect}
    (acks : AllAck (ackNumber isn past) effects) :
    Extends (AckExact isn) past (effects.map Line.effect) := by
  induction effects generalizing past with
  | nil => trivial
  | cons effect rest ih =>
    obtain ⟨first, others⟩ := allAck_cons.mp acks
    rw [← ackNumber_effect isn past effect] at others
    exact ⟨first, ih others⟩

section
variable (mtu : Int) (session : TcpSession)

theorem ack_writeTcp (flags : UInt8) (payload : List UInt8) :
    ∀ packet ∈ (writeTcp mtu session flags payload).2, packet.ack = session.clientSeq :=
  fun packet member => (writeTcp_packets mtu session flags payload packet member).1

namespace TcpSession
variable {session}

theorem dataArrives_acks (live : session.Live) (replies : TunReplies) (hdr : TcpHdr)
    (payload : List UInt8) {number : UInt32}
    (due : number = if payload = [] then session.clientSeq
      else ntohl hdr.seq + UInt32.ofNat payload.length) :
    let data := session.dataArrives mtu replies hdr payload
    AllAck number data.effects ∧
      (data.removed = false → data.session.Live ∧ data.session.clientSeq = number) := by
  rcases session.dataArrives_cases live mtu replies hdr payload with
    ⟨empty, same⟩ | ⟨nonempty, connecting, same⟩ | ⟨nonempty, connected, -, same⟩ | ⟨nonempty, -, -, same⟩
  · rw [if_pos empty] at due
    rw [same, due]
    exact ⟨allAck_nil _, fun _ => ⟨live, rfl⟩⟩
  · rw [if_neg nonempty] at due
    obtain ⟨-, ⟨block, len, cap, kept⟩, effects⟩ := bufferPending_frame
      { session with clientSeq := ntohl hdr.seq + UInt32.ofNat payload.length } replies.realloc payload
    rw [same, due]
    dsimp only
    rw [kept]
    refine ⟨?_, fun _ => ⟨.inl connecting, rfl⟩⟩
    rcases effects with none | hold
    · rw [none]
      exact allAck_nil _
    · rw [hold]
      simp
  · rw [if_neg nonempty] at due
    rw [same, due]
    refine ⟨?_, fun _ => ⟨.inr ?_, ?_⟩⟩
    · exact allAck_cons.mpr ⟨by simp, allAck_cons.mpr ⟨ack_writeTcp _ _ _ _, allAck_nil _⟩⟩
    · simpa using connected
    · simp
  · rw [if_neg nonempty] at due
    rw [same, due]
    refine ⟨?_, by simp⟩
    exact allAck_cons.mpr ⟨by simp, allAck_cons.mpr ⟨ack_writeTcp _ _ _ _, allAck_nil _⟩⟩

theorem finArrives_acks (hdr : TcpHdr) : AllAck (ntohl hdr.seq + 1) (session.finArrives mtu hdr).effects := by
  unfold finArrives
  refine allAck_cons.mpr ⟨ack_writeTcp _ _ _ _, allAck_cons.mpr ⟨fun packet member => ?_, by simp⟩⟩
  rw [ack_writeTcp _ _ _ _ packet member, writeTcp_clientSeq]

variable (session) in
theorem connectCompletes_acks (soError : Int) (result : SendResult) :
    let out := session.connectCompletes mtu soError result
    AllAck session.clientSeq out.effects ∧
      (out.removed = false → out.session.Live ∧ out.session.clientSeq = session.clientSeq) := by
  rcases session.connectCompletes_cases mtu soError result with ⟨-, -, same⟩ | ⟨-, same⟩ | ⟨-, same⟩
  · rw [same]
    refine ⟨allAck_cons.mpr ⟨ack_writeTcp _ _ _ _, by simp⟩, fun _ => ⟨.inr rfl, by simp⟩⟩
  · rw [same]
    refine ⟨?_, fun _ => ⟨.inr (by simp), by simp⟩⟩
    refine allAck_cons.mpr ⟨ack_writeTcp _ _ _ _, allAck_cons.mpr ⟨by simp, allAck_cons.mpr ⟨?_, by simp⟩⟩⟩
    intro packet member
    rw [ack_writeTcp _ _ _ _ packet member]
    simp
  · rw [same]
    exact ⟨allAck_cons.mpr ⟨ack_writeTcp _ _ _ _, allAck_nil _⟩, by simp⟩

end TcpSession

end

section
variable {isn : UInt32} {run : SessionRun}

def SessionRun.due (isn : UInt32) (run : SessionRun) (event : SessionEvent) : UInt32 :=
  isn + 1 + UInt32.ofNat ((arrived run.history).length + (Line.event event).arrived.length)

theorem ackNumber_event (unclosed : finSeen run.history = false) (event : SessionEvent) :
    ackNumber isn (run.history ++ [.event event]) =
      run.due isn event + if (Line.event event).closes then 1 else 0 := by
  rw [ackNumber, arrived_concat, finSeen_concat, unclosed, List.length_append, Bool.false_or]
  rfl

structure InSequence (isn : UInt32) (run : SessionRun) : Prop where
  live : run.session.Live
  clientSeq : run.session.clientSeq = isn + 1 + UInt32.ofNat (arrived run.history).length
  unclosed : finSeen run.history = false

/-- How the packets of one event acknowledge: first the payload, then the FIN, which
is counted from the start of its segment. -/
structure Acknowledges (isn : UInt32) (run : SessionRun) (event : SessionEvent) (handled : Handled)
    (data closing : List Effect) : Prop where
  split : handled.effects = data ++ closing
  acks : AllAck (run.due isn event) data
  closes : closing ≠ [] → (Line.event event).closes = true ∧
    AllAck (isn + 1 + UInt32.ofNat ((arrived run.history).length + 1)) closing
  silent : (Line.event event).closes = true → (Line.event event).arrived = [] → data = []
  kept : handled.removed = false → (Line.event event).closes = false ∧ handled.session.Live ∧
    handled.session.clientSeq = run.due isn event

theorem InSequence.quiet (inSequence : InSequence isn run) {event : SessionEvent}
    (empty : (Line.event event).arrived = []) (unfinished : (Line.event event).closes = false) {handled : Handled}
    (acks : AllAck run.session.clientSeq handled.effects)
    (kept : handled.removed = false → handled.session.Live ∧
      handled.session.clientSeq = run.session.clientSeq) :
    Acknowledges isn run event handled handled.effects [] := by
  have due : run.due isn event = run.session.clientSeq := by
    rw [SessionRun.due, empty, inSequence.clientSeq]
    rfl
  constructor
  · rw [List.append_nil]
  · rw [due]
    exact acks
  · exact fun some => absurd rfl some
  · exact fun closes => absurd (unfinished.symm.trans closes) (by decide)
  · intro still
    rw [due]
    exact ⟨unfinished, kept still⟩

theorem InSequence.segmentArrives (inSequence : InSequence isn run) (mtu : Int) (hdr : TcpHdr)
    (payload : List UInt8) (replies : TunReplies) (order : InOrder isn run (.segment hdr payload replies)) :
    ∃ data closing, Acknowledges isn run (.segment hdr payload replies)
      (run.session.segmentArrives mtu replies hdr payload) data closing := by
  let event : SessionEvent := .segment hdr payload replies
  let noted : TcpSession := { run.session with lastActive := replies.time }
  have alive : noted.Live := inSequence.live
  -- in sequence, what the segment ends with is what is due
  have number : run.due isn event = if payload = [] then noted.clientSeq
      else ntohl hdr.seq + UInt32.ofNat payload.length := by
    by_cases empty : payload = []
    · rw [if_pos empty, SessionRun.due, Line.arrived, empty]
      exact inSequence.clientSeq.symm
    · rw [if_neg empty, order (.inl empty), SessionRun.due, Line.arrived, UInt32.ofNat_add]
      simp only [UInt32.add_assoc]
  obtain ⟨acks, after⟩ := TcpSession.dataArrives_acks mtu alive replies hdr payload number
  rcases run.session.segmentArrives_cases mtu replies hdr payload with
    ⟨rst, same⟩ | ⟨noRst, cases, same⟩ | ⟨noRst, kept, fin, same⟩
  · rw [same]
    exact ⟨[], [], by simp, by simp, by simp, by simp, by simp⟩
  · rw [same]
    refine ⟨_, [], (List.append_nil _).symm, acks, fun some => absurd rfl some, fun closes empty => ?_,
      fun kept => ⟨?_, after kept⟩⟩
    · obtain rfl : payload = [] := empty
      simp [TcpSession.dataArrives]
    · rcases cases with gone | noFin
      · exact absurd (gone.symm.trans kept) (by decide)
      · simp [noFin]
  · rw [same]
    let data := noted.dataArrives mtu replies hdr payload
    refine ⟨data.effects, (data.session.finArrives mtu hdr).effects, rfl, acks, fun _ => ⟨?_, ?_⟩,
      fun _ empty => ?_, fun still => ?_⟩
    · simp [fin, noRst]
    · have seq : ntohl hdr.seq + 1 = isn + 1 + UInt32.ofNat ((arrived run.history).length + 1) := by
        rw [order (.inr fin), UInt32.ofNat_add, UInt32.add_assoc (isn + 1)]
        rfl
      rw [← seq]
      exact TcpSession.finArrives_acks mtu hdr
    · obtain rfl : payload = [] := empty
      simp [data, TcpSession.dataArrives]
    · simp [TcpSession.finArrives] at still

/-- The acknowledgements of one event, whichever handler it reaches. -/
theorem InSequence.handle (inSequence : InSequence isn run) (mtu : Int) (event : SessionEvent)
    (order : InOrder isn run event) :
    ∃ data closing, Acknowledges isn run event (run.session.handle mtu event) data closing := by
  cases event with
  | segment hdr payload replies => exact inSequence.segmentArrives mtu hdr payload replies order
  | writable soError result =>
    simp only [TcpSession.handle]
    by_cases connecting : run.session.state = .synSent
    · rw [if_pos connecting]
      obtain ⟨acks, kept⟩ := TcpSession.connectCompletes_acks mtu run.session soError result
      exact ⟨_, [], inSequence.quiet rfl rfl acks kept⟩
    · rw [if_neg connecting]
      exact ⟨_, [], inSequence.quiet rfl rfl (allAck_nil _) fun _ => ⟨inSequence.live, rfl⟩⟩
  | received data time =>
    refine ⟨_, [], inSequence.quiet rfl rfl ?_ fun _ => ⟨?_, by simp [TcpSession.handle, TcpSession.received]⟩⟩
    · exact allAck_cons.mpr ⟨ack_writeTcp mtu _ _ _, allAck_nil _⟩
    · simpa [TcpSession.handle, TcpSession.received, TcpSession.Live] using inSequence.live
  | remoteClosed =>
    refine ⟨_, [], inSequence.quiet rfl rfl ?_ (by simp [TcpSession.handle, TcpSession.remoteClosed])⟩
    exact allAck_cons.mpr ⟨ack_writeTcp mtu _ _ _, allAck_nil _⟩
  | recvFailed =>
    refine ⟨_, [], inSequence.quiet rfl rfl ?_ (by simp [TcpSession.handle, TcpSession.recvFailed])⟩
    exact allAck_cons.mpr ⟨ack_writeTcp mtu _ _ _, allAck_nil _⟩

theorem Acknowledges.inSequence (before : InSequence isn run) {event : SessionEvent} {handled : Handled}
    {data closing : List Effect} (acknowledges : Acknowledges isn run event handled data closing)
    (kept : handled.removed = false) :
    InSequence isn ⟨handled.session, handled.removed,
      run.history ++ [.event event] ++ handled.effects.map Line.effect⟩ := by
  obtain ⟨unfinished, live, number⟩ := acknowledges.kept kept
  refine ⟨live, ?_, ?_⟩
  · rw [number, arrived_effects, arrived_concat, List.length_append]
    rfl
  · rw [finSeen_effects, finSeen_concat, before.unclosed, unfinished]
    rfl

theorem InSequence.start (addr : Nat) (flow : Flow) (fd : Nat) (isnTime time : Int) :
    InSequence isn (.start (.fresh addr flow isn fd isnTime time)) where
  live := .inl rfl
  clientSeq := by simp [SessionRun.start, TcpSession.fresh, arrived]
  unclosed := rfl

structure Acking (isn : UInt32) (run : SessionRun) : Prop where
  inSequence : run.removed = false → InSequence isn run
  judged : Judged (AckExact isn) run.history

theorem Acking.step (mtu : Int) (acking : Acking isn run) (event : SessionEvent)
    (order : InOrder isn run event) (bare : BareFin event) : Acking isn (run.step mtu event) := by
  cases kept : run.removed with
  | true =>
    rw [SessionRun.step_removed kept]
    exact acking
  | false =>
    have before := acking.inSequence kept
    obtain ⟨data, closing, acknowledges⟩ := before.handle mtu event order
    have arrival : Judged (AckExact isn) (run.history ++ [.event event]) :=
      judged_concat.mpr ⟨acking.judged, by simp [AckExact]⟩
    have number : ackNumber isn _ = _ := ackNumber_event before.unclosed event
    have acks : AllAck (ackNumber isn (run.history ++ [.event event])) (run.session.handle mtu event).effects := by
      rw [acknowledges.split, number]
      cases closes : (Line.event event).closes with
      | false =>
        have none : closing = [] := by
          by_contra some
          exact absurd (closes.symm.trans (acknowledges.closes some).1) (by decide)
        rw [none, List.append_nil]
        simpa using acknowledges.acks
      | true =>
        have empty := bare.arrived closes
        rw [acknowledges.silent closes empty, List.nil_append]
        by_cases none : closing = []
        · rw [none]
          exact allAck_nil _
        · have same : run.due isn event + 1 = isn + 1 + UInt32.ofNat ((arrived run.history).length + 1) := by
            rw [SessionRun.due, empty, List.length_nil, Nat.add_zero, UInt32.ofNat_add, ← UInt32.add_assoc]
            rfl
          simpa [same] using (acknowledges.closes none).2
    rw [SessionRun.step_kept kept, append_cons_concat]
    exact ⟨acknowledges.inSequence before, judged_append.mpr ⟨arrival, extends_acks acks⟩⟩

end

/-- Acknowledgement accounting: in every run of in-order segments whose FINs are
bare, each packet to the client acknowledges the SYN, the payload and the FIN
processed before it. -/
theorem acks_exact (mtu : Int) (addr : Nat) (flow : Flow) (isn : UInt32) (fd : Nat) (isnTime time : Int)
    (events : List SessionEvent)
    (allowed : Admits (SessionRun.step mtu) (fun run event => InOrder isn run event ∧ BareFin event)
      (.start (.fresh addr flow isn fd isnTime time)) events) :
    Judged (AckExact isn)
      (List.foldl (SessionRun.step mtu) (.start (.fresh addr flow isn fd isnTime time)) events).history :=
  (allowed.invariant (Acking isn)
    (fun _ event acking both => acking.step mtu event both.1 both.2)
    ⟨fun _ => .start addr flow fd isnTime time, judged_nil _⟩).judged

theorem acks_exact_sample :
    Judged (AckExact 1000) (List.foldl (SessionRun.step 1500) (.start sampleSession)
      [.writable 0 (.accepted 0), sampleSegment tfAck 1001 [1, 2] (.accepted 2),
        sampleSegment (tfFin ||| tfAck) 1003 [] .wouldBlock]).history :=
  acks_exact 1500 0 sampleFlow 1000 7 0 0 _ (by decide +kernel)

/-- Acknowledgements count what was processed, also when the FIN carries payload. -/
def AckAccounting : Prop :=
  ∀ (mtu : Int) (addr : Nat) (flow : Flow) (isn : UInt32) (fd : Nat) (isnTime time : Int)
    (events : List SessionEvent),
    let start := SessionRun.start (.fresh addr flow isn fd isnTime time)
    Admits (SessionRun.step mtu) (fun run event => InOrder isn run event ∧ run.SendsAll event) start events →
    Judged (AckExact isn) (events.foldl (SessionRun.step mtu) start).history

/-- A FIN with two bytes of payload is acknowledged two short. -/
theorem ack_misses_fin_payload : ¬AckAccounting := by
  intro accounting
  have judged := accounting 1500 0 sampleFlow 1000 7 0 0
    [.writable 0 (.accepted 0), sampleSegment (tfFin ||| tfAck) 1001 [1, 2] (.accepted 2)] (by decide +kernel)
  exact absurd judged (by decide +kernel)

end ThrottleVpn.Tun2Socks
