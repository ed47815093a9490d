import ThrottleVpn.Tun2Socks.Datagrams
import ThrottleVpn.Tun2Socks.Sessions

/-! `engine_loop` round by round: one batch, then the housekeeping when it is due.

The wall clock is read by the handlers and after each batch. A session that nobody
uses is gone within ten seconds of its timeout; an association that is in use keeps
its socket.
-/

set_option autoImplicit false

namespace ThrottleVpn.Tun2Socks

open Foundation

/-- An entry of a batch with the answers its handler gets, or a call of
`engine_set_rates` that comes in between. -/
inductive Turn where
  | packet (queued : List UInt8) (replies : TunReplies)
  | socket (fd : Nat) (events : EpollEvents) (replies : SocketReplies)
  | setRates (dlBps ulBps : Int)
  deriving DecidableEq, Repr

namespace Turn

def input : Turn → Input
  | .packet queued replies => .tunReadable queued replies
  | .socket fd events replies => .socketReady fd events replies
  | .setRates dlBps ulBps => .setRates dlBps ulBps

end Turn

def Input.times : Input → List Int
  | .tunReadable _ replies => [replies.isnTime, replies.time]
  | .socketReady _ _ replies => [replies.time]
  | .cleanup _ | .setRates _ _ => []

/-! ### When a session was last used -/

namespace TcpSession

theorem writeTcp_lastActive (mtu : Int) (session : TcpSession) (flags : UInt8) (payload : List UInt8) :
    (writeTcp mtu session flags payload).1.lastActive = session.lastActive := by
  obtain ⟨seq, same⟩ := writeTcp_session mtu session flags payload
  rw [same]

theorem bufferPending_lastActive (session : TcpSession) (reallocated : Option UInt8) (payload : List UInt8) :
    (session.bufferPending reallocated payload).session.lastActive = session.lastActive := by
  obtain ⟨-, ⟨block, len, cap, same⟩, -⟩ := session.bufferPending_frame reallocated payload
  rw [same]

theorem dataArrives_lastActive (session : TcpSession) (mtu : Int) (replies : TunReplies) (hdr : TcpHdr)
    (payload : List UInt8) :
    (session.dataArrives mtu replies hdr payload).session.lastActive = session.lastActive := by
  unfold dataArrives
  split
  · rfl
  · cases session.state with
    | synSent => exact bufferPending_lastActive _ _ _
    | established => cases replies.send <;> simp [writeTcp_lastActive]
    | finWait | closed => rfl

theorem handle_lastActive (session : TcpSession) (mtu : Int) (event : SessionEvent) :
    (session.handle mtu event).session.lastActive = session.lastActive ∨
      (∃ hdr payload replies, event = .segment hdr payload replies ∧
        (session.handle mtu event).session.lastActive = replies.time) ∨
      ∃ data, event = .received data (session.handle mtu event).session.lastActive := by
  cases event with
  | segment hdr payload replies =>
    refine .inr (.inl ⟨hdr, payload, replies, rfl, ?_⟩)
    have data := dataArrives_lastActive { session with lastActive := replies.time } mtu replies hdr payload
    rcases @segmentArrives_cases session mtu replies hdr payload with ⟨-, out⟩ | ⟨-, -, out⟩ | ⟨-, -, -, out⟩
    · rw [handle, out]
    · rw [handle, out, data]
    · rw [handle, out]
      simpa [finArrives, writeTcp_lastActive] using data
  | writable soError result =>
    refine .inl ?_
    simp only [handle]
    split
    · rcases session.connectCompletes_cases mtu soError result with ⟨-, -, out⟩ | ⟨-, out⟩ | ⟨-, out⟩
      all_goals simp [out, writeTcp_lastActive]
    · rfl
  | received data time => exact .inr (.inr ⟨data, by simp [handle, received, writeTcp_lastActive]⟩)
  | remoteClosed => exact .inl (by simp [handle, remoteClosed, writeTcp_lastActive])
  | recvFailed => exact .inl (by simp [handle, recvFailed, writeTcp_lastActive])

end TcpSession

theorem Reaches.handle_lastActive {session : TcpSession} {input : Input} {event : SessionEvent}
    (reaches : Reaches session input event) (mtu : Int) :
    (session.handle mtu event).session.lastActive = session.lastActive ∨
      (session.handle mtu event).session.lastActive ∈ input.times := by
  refine (session.handle_lastActive mtu event).imp_right ?_
  rintro (⟨hdr, payload, replies, rfl, used⟩ | ⟨data, rest⟩)
  · rw [used]
    cases reaches
    exact List.mem_cons_of_mem _ List.mem_cons_self
  · generalize (session.handle mtu event).session.lastActive = used at *
    subst rest
    cases reaches
    exact List.mem_cons_self

namespace Sessions
variable {mtu : Int} {sessions next : Sessions} {input : Input} {effects : List Effect} {since : Int}

structure Recent (sessions : Sessions) (since : Int) : Prop where
  tcp : ∀ flow session, sessions.tcp flow = some session → since - tcpSessionTimeout ≤ session.lastActive
  udp : ∀ flow session, sessions.udp flow = some session → since - udpSessionTimeout ≤ session.lastActive

theorem Recent.mono {before : Int} (recent : sessions.Recent since) (earlier : before ≤ since) :
    sessions.Recent before where
  tcp := fun flow session found => by
    have := recent.tcp flow session found
    omega
  udp := fun flow session found => by
    have := recent.udp flow session found
    omega

theorem Move.recent (move : Move mtu sessions (input, effects) next) (recent : sessions.Recent since)
    (later : ∀ time ∈ input.times, since ≤ time) : next.Recent since := by
  have tcpLater : ∀ time ∈ input.times, since - tcpSessionTimeout ≤ time := fun time member => by
    have := later time member
    unfold tcpSessionTimeout
    omega
  have udpLater : ∀ time ∈ input.times, since - udpSessionTimeout ≤ time := fun time member => by
    have := later time member
    unfold udpSessionTimeout
    omega
  generalize same : (input, effects) = label at move
  cases move with
  | @handled input' session event pause known reaches pauses =>
    obtain ⟨rfl, rfl⟩ := Prod.mk.inj same
    refine ⟨fun flow other found => ?_, recent.udp⟩
    by_cases here : flow = session.flow
    · subst here
      simp only [Function.update_self, Left] at found
      split at found
      · cases found
      · obtain rfl := Option.some.inj found
        have times : (session.handle mtu event).session.lastActive = session.lastActive ∨
            (session.handle mtu event).session.lastActive ∈ input.times := reaches.handle_lastActive mtu
        rcases times with kept | used
        · rw [kept]
          exact recent.tcp _ _ known
        · exact tcpLater _ used
    · exact recent.tcp flow other (by simpa [Function.update_of_ne here] using found)
  | @opened queued replies target hdr payload pause decoded opens pauses =>
    obtain ⟨rfl, rfl⟩ := Prod.mk.inj same
    constructor
    · intro flow session found
      by_cases here : flow = target
      · subst here
        unfold Sessions.opened at found
        cases opens : replies.opens with
        | none => simp [opens] at found
        | some fd =>
          simp only [opens, Function.update_self, Option.some.injEq] at found
          subst found
          exact tcpLater _ (by simp [Input.times, TcpSession.fresh])
      · exact recent.tcp flow session ((sessions.opened_other replies _ here).symm.trans found)
    · intro flow session found
      rw [opened_udp] at found
      exact recent.udp flow session found
  | @relayed queued replies session hdr payload pause decoded known pauses =>
    obtain ⟨rfl, rfl⟩ := Prod.mk.inj same
    refine ⟨recent.tcp, fun flow other found => ?_⟩
    by_cases here : flow = session.flow
    · subst here
      obtain rfl : { session with lastActive := replies.time } = other := by simpa using found
      exact udpLater _ (by simp [Input.times])
    · exact recent.udp flow other (by simpa [Function.update_of_ne here] using found)
  | @associated queued replies target hdr payload fd pause decoded unknown opens pauses =>
    obtain ⟨rfl, rfl⟩ := Prod.mk.inj same
    refine ⟨recent.tcp, fun flow other found => ?_⟩
    by_cases here : flow = target
    · subst here
      simp only [Function.update_self, Option.some.injEq] at found
      subst found
      exact udpLater _ (by simp [Input.times])
    · exact recent.udp flow other (by simpa [Function.update_of_ne here] using found)
  | refused =>
    obtain ⟨rfl, rfl⟩ := Prod.mk.inj same
    exact recent
  | @delivered events replies session data pause known pauses =>
    obtain ⟨rfl, rfl⟩ := Prod.mk.inj same
    refine ⟨recent.tcp, fun flow other found => ?_⟩
    by_cases here : flow = session.flow
    · subst here
      obtain rfl : { session with lastActive := replies.time } = other := by simpa using found
      exact udpLater _ (by simp [Input.times])
    · exact recent.udp flow other (by simpa [Function.update_of_ne here] using found)
  | swept tcpGone udpGone tcpOnce udpOnce tcpAll udpAll =>
    obtain ⟨rfl, rfl⟩ := Prod.mk.inj same
    constructor
    · intro flow session found
      exact recent.tcp flow session (Option.filter_eq_some_iff.mp found).1
    · intro flow session found
      exact recent.udp flow session (Option.filter_eq_some_iff.mp found).1
  | idle quiet =>
    obtain ⟨rfl, rfl⟩ := Prod.mk.inj same
    exact recent

theorem Move.keeps_udp (move : Move mtu sessions (input, effects) next)
    (housekeeping : ∀ now, input ≠ .cleanup now)
    {flow : Flow} {session : UdpSession} (known : sessions.udp flow = some session) :
    ∃ time, next.udp flow = some { session with lastActive := time } := by
  generalize same : (input, effects) = label at move
  cases move with
  | handled | idle | refused =>
    obtain ⟨rfl, rfl⟩ := Prod.mk.inj same
    exact ⟨_, known⟩
  | opened =>
    obtain ⟨rfl, rfl⟩ := Prod.mk.inj same
    exact ⟨_, by rw [opened_udp, known]⟩
  | @relayed queued replies used hdr payload pause decoded there pauses =>
    obtain ⟨rfl, rfl⟩ := Prod.mk.inj same
    by_cases here : flow = used.flow
    · subst here
      obtain rfl : used = session := Option.some.inj (there.symm.trans known)
      exact ⟨replies.time, Function.update_self ..⟩
    · exact ⟨_, (Function.update_of_ne here ..).trans known⟩
  | @associated queued replies target hdr payload fd pause decoded unknown opens pauses =>
    obtain ⟨rfl, rfl⟩ := Prod.mk.inj same
    have here : flow ≠ target := by
      -- the flow has an association, so none is made for it
      rintro rfl
      cases unknown.symm.trans known
    exact ⟨_, (Function.update_of_ne here ..).trans known⟩
  | @delivered events replies used data pause there pauses =>
    obtain ⟨rfl, rfl⟩ := Prod.mk.inj same
    by_cases here : flow = used.flow
    · subst here
      obtain rfl : used = session := Option.some.inj (there.symm.trans known)
      exact ⟨replies.time, Function.update_self ..⟩
    · exact ⟨_, (Function.update_of_ne here ..).trans known⟩
  | swept =>
    obtain ⟨rfl, rfl⟩ := Prod.mk.inj same
    exact absurd rfl (housekeeping _)

end Sessions

namespace Engine.Tables
variable {engine : Engine} (tables : engine.Tables)
include tables

theorem recent_cleanup (now : Int) : (engine.next (.cleanup now)).sessions.Recent now := by
  have swept : (engine.next (.cleanup now)).sessions = _ := tables.sessions_swept rfl rfl rfl
  rw [swept]
  constructor
  · intro flow session found
    -- what a sweep leaves has not expired
    have kept := (Option.filter_eq_some_iff.mp found).2
    simp only [tcpExpired, Bool.not_eq_true', Bool.or_eq_false_iff, decide_eq_false_iff_not] at kept
    have := kept.2
    omega
  · intro flow session found
    have kept := (Option.filter_eq_some_iff.mp found).2
    simp only [udpExpired, Bool.not_eq_true', decide_eq_false_iff_not] at kept
    omega

end Engine.Tables

/-! ### The loop -/

/-- What ends a round: `epoll_wait` is interrupted, or fails; `running` was cleared;
or a batch is served. `now` is then read by the loop, and `swept` by `cleanup`. -/
inductive Round where
  | interrupted
  | failed
  | stopped
  | served (turns : List Turn) (now swept : Int)
  deriving DecidableEq, Repr

structure MainLoop where
  engine : Engine
  lastCleanup : Int
  ended : Bool

def Engine.serve (engine : Engine) (turns : List Turn) : Engine := (turns.map Turn.input).foldl Engine.next engine

namespace MainLoop

def start (tunFd : Nat) (mtu ulStart dlStart now : Int) : MainLoop :=
  ⟨.start tunFd mtu ulStart dlStart, now, false⟩

def next (loop : MainLoop) (round : Round) : MainLoop :=
  if loop.ended then loop
  else
    match round with
    | .interrupted => loop
    | .failed | .stopped => { loop with ended := true }
    | .served turns now swept =>
      let engine := loop.engine.serve turns
      if 10 ≤ now - loop.lastCleanup then
        { loop with engine := engine.next (.cleanup swept), lastCleanup := now }
      else { loop with engine := engine }

def inputs (loop : MainLoop) : Round → List Input
  | .served turns now swept =>
    if loop.ended then []
    else turns.map Turn.input ++ if 10 ≤ now - loop.lastCleanup then [.cleanup swept] else []
  | _ => []

theorem next_engine (loop : MainLoop) (round : Round) :
    (loop.next round).engine = (loop.inputs round).foldl Engine.next loop.engine := by
  unfold next inputs
  cases loop.ended with
  | true => cases round <;> rfl
  | false =>
    cases round with
    | interrupted | failed | stopped => rfl
    | served turns now swept =>
      simp only [Bool.false_eq_true, if_false]
      rw [List.foldl_append]
      split <;> rfl

/-- A round does nothing to the engine, or serves a batch with or without the housekeeping. -/
theorem next_cases (loop : MainLoop) (round : Round) :
    ((loop.next round).engine = loop.engine ∧ (loop.next round).lastCleanup = loop.lastCleanup) ∨
      ∃ turns now sweep, round = .served turns now sweep ∧ loop.ended = false ∧
        (now - loop.lastCleanup < 10 ∧ (loop.next round).engine = loop.engine.serve turns ∧
            (loop.next round).lastCleanup = loop.lastCleanup ∨
          10 ≤ now - loop.lastCleanup ∧
          (loop.next round).engine = (loop.engine.serve turns).next (.cleanup sweep) ∧
            (loop.next round).lastCleanup = now) := by
  unfold next
  cases running : loop.ended with
  | true => exact .inl ⟨rfl, rfl⟩
  | false =>
    cases round with
    | interrupted | failed | stopped => exact .inl ⟨rfl, rfl⟩
    | served turns now sweep =>
      simp only [Bool.false_eq_true, if_false]
      split
      next due => exact .inr ⟨turns, now, sweep, rfl, trivial, .inr ⟨due, rfl, rfl⟩⟩
      next early => exact .inr ⟨turns, now, sweep, rfl, trivial, .inl ⟨not_le.mp early, rfl, rfl⟩⟩

theorem run_engine (loop : MainLoop) (rounds : List Round) :
    (rounds.foldl next loop).engine = (trace next inputs loop rounds).flatten.foldl Engine.next loop.engine :=
  foldl_flatten_trace next_engine loop rounds

/-- The wall clock is not set back behind the last cleanup. -/
def OnTime (loop : MainLoop) : Round → Prop
  | .served turns now swept =>
    (∀ turn ∈ turns, ∀ time ∈ turn.input.times, loop.lastCleanup ≤ time) ∧ now ≤ swept
  | _ => True

instance (loop : MainLoop) : (round : Round) → Decidable (loop.OnTime round)
  | .served _ _ _ => inferInstanceAs (Decidable (_ ∧ _))
  | .interrupted | .failed | .stopped => inferInstanceAs (Decidable True)

structure Swept (loop : MainLoop) : Prop where
  tables : loop.engine.Tables
  recent : loop.engine.sessions.Recent loop.lastCleanup

theorem swept_start (tunFd : Nat) (mtu ulStart dlStart now : Int) :
    (start tunFd mtu ulStart dlStart now).Swept where
  tables := Engine.tables_start tunFd mtu ulStart dlStart
  recent := by
    constructor
    · rintro flow session ⟨⟩
    · rintro flow session ⟨⟩

theorem serve_recent {engine : Engine} {since : Int} (turns : List Turn) (tables : engine.Tables)
    (recent : engine.sessions.Recent since)
    (later : ∀ turn ∈ turns, ∀ time ∈ turn.input.times, since ≤ time) :
    (engine.serve turns).Tables ∧ (engine.serve turns).sessions.Recent since := by
  induction turns generalizing engine with
  | nil => exact ⟨tables, recent⟩
  | cons turn rest ih =>
    rw [List.forall_mem_cons] at later
    exact ih (tables.next turn.input) ((tables.move turn.input).recent recent later.1) later.2

theorem Swept.next {loop : MainLoop} (swept : loop.Swept) {round : Round} (onTime : loop.OnTime round) :
    (loop.next round).Swept := by
  rcases loop.next_cases round with ⟨same, last⟩ | ⟨turns, now, sweep, rfl, -, round⟩
  · exact ⟨same ▸ swept.tables, by rw [same, last]; exact swept.recent⟩
  -- the batch uses sessions at times after the last cleanup
  · obtain ⟨tables, recent⟩ := serve_recent turns swept.tables swept.recent onTime.1
    rcases round with ⟨-, served, last⟩ | ⟨-, served, last⟩
    · exact ⟨served ▸ tables, by rw [served, last]; exact recent⟩
    · refine ⟨served ▸ tables.next _, ?_⟩
      rw [served, last]
      exact (tables.recent_cleanup sweep).mono onTime.2

theorem served_lastCleanup {loop : MainLoop} (running : loop.ended = false) (turns : List Turn) (now sweep : Int) :
    now - (loop.next (.served turns now sweep)).lastCleanup < 10 := by
  simp only [next, running, Bool.false_eq_true, if_false]
  split
  · simp
  · next early => exact not_le.mp early

/-- After each round of the loop every TCP session was used less than 130 seconds ago,
and every association less than 70. -/
theorem idle_sessions_leave (tunFd : Nat) (mtu ulStart dlStart began : Int) (past : List Round) (turns : List Turn)
    (now sweep : Int)
    (onTime : Admits next OnTime (start tunFd mtu ulStart dlStart began) (past ++ [.served turns now sweep]))
    (running : (past.foldl next (start tunFd mtu ulStart dlStart began)).ended = false) :
    let engine := ((past ++ [Round.served turns now sweep]).foldl next
      (start tunFd mtu ulStart dlStart began)).engine
    (∀ session ∈ engine.tcpTable.records, now - session.lastActive < tcpSessionTimeout + 10) ∧
      ∀ session ∈ engine.udpTable.records, now - session.lastActive < udpSessionTimeout + 10 := by
  intro engine
  rw [admits_append] at onTime
  have before : (past.foldl next (start tunFd mtu ulStart dlStart began)).Swept :=
    onTime.1.invariant Swept (fun _ _ swept met => swept.next met) (swept_start tunFd mtu ulStart dlStart began)
  obtain ⟨tables, recent⟩ := before.next onTime.2.1
  have close := served_lastCleanup running turns now sweep
  have last : engine = ((past.foldl next (start tunFd mtu ulStart dlStart began)).next
      (.served turns now sweep)).engine := by
    simp only [engine, List.foldl_append, List.foldl_cons, List.foldl_nil]
  rw [← last] at tables recent
  constructor
  · intro session member
    have used := recent.tcp _ _ (tables.tcpFind_linked (Buckets.mem_records.mp member))
    omega
  · intro session member
    have used := recent.udp _ _ (tables.udpFind_linked (Buckets.mem_records.mp member))
    omega

theorem idle_sessions_leave_sample :
    let past : List Round := [.served [.packet sampleSyn (.smooth 7 1000)] 1000 1000, .interrupted,
      .served [] 1115 1115]
    let final := Round.served [.packet sampleSyn (.smooth 7 1121)] 1124 1124
    let engine := ((past ++ [final]).foldl next (start 3 1500 0 0 1000)).engine
    (∀ session ∈ engine.tcpTable.records, 1124 - session.lastActive < tcpSessionTimeout + 10) ∧
      ∀ session ∈ engine.udpTable.records, 1124 - session.lastActive < udpSessionTimeout + 10 :=
  idle_sessions_leave 3 1500 0 0 1000 _ [_] 1124 1124 (by decide +kernel) (by decide +kernel)

/-! ### Associations -/

theorem serve_keeps_udp {engine : Engine} (turns : List Turn) (tables : engine.Tables) {flow : Flow}
    {session : UdpSession} (known : engine.udpFind flow = some session) :
    (engine.serve turns).Tables ∧
      ∃ time, (engine.serve turns).udpFind flow = some { session with lastActive := time } := by
  induction turns generalizing engine session with
  | nil => exact ⟨tables, _, known⟩
  | cons turn rest ih =>
    have busy : ∀ now, turn.input ≠ .cleanup now := by cases turn <;> simp [Turn.input]
    -- a turn is no housekeeping
    obtain ⟨time, kept⟩ := (tables.move turn.input).keeps_udp busy known
    have later := ih (tables.next turn.input) kept
    exact later

/-- The housekeeping of a round, which is due, finds the association of a flow idle. -/
def Retires (loop : MainLoop) (flow : Flow) (session : UdpSession) (turns : List Turn) (now sweep : Int) : Prop :=
  loop.ended = false ∧ 10 ≤ now - loop.lastCleanup ∧ ∃ time,
    (loop.engine.serve turns).udpFind flow = some { session with lastActive := time } ∧
      udpSessionTimeout < sweep - time

theorem run_keeps_udp {loop : MainLoop} (rounds : List Round) (tables : loop.engine.Tables) {flow : Flow}
    {session : UdpSession} (known : loop.engine.udpFind flow = some session) :
    (∃ time, (rounds.foldl next loop).engine.udpFind flow = some { session with lastActive := time }) ∨
      ∃ before turns now sweep after, rounds = before ++ .served turns now sweep :: after ∧
        (before.foldl next loop).Retires flow session turns now sweep := by
  induction rounds generalizing loop session with
  | nil => exact .inl ⟨session.lastActive, known⟩
  | cons round rest ih =>
    -- what is found later was found by the rest of the run
    have onward : ∀ time, (loop.next round).engine.Tables →
        (loop.next round).engine.udpFind flow = some { session with lastActive := time } →
        (∃ time, ((round :: rest).foldl next loop).engine.udpFind flow =
          some { session with lastActive := time }) ∨
          ∃ before turns now sweep after, round :: rest = before ++ .served turns now sweep :: after ∧
            (before.foldl next loop).Retires flow session turns now sweep := by
      intro time tables found
      rcases ih tables found with kept | ⟨before, turns, now, sweep, after, rfl, retires⟩
      · exact .inl kept
      · exact .inr ⟨round :: before, turns, now, sweep, after, rfl, retires⟩
    rcases loop.next_cases round with ⟨same, -⟩ | ⟨turns, now, sweep, rfl, running, served⟩
    · rw [same] at onward
      exact onward session.lastActive tables known
    · obtain ⟨after, time, used⟩ := serve_keeps_udp turns tables known
      rcases served with ⟨-, same, -⟩ | ⟨due, swept, -⟩
      · rw [same] at onward
        exact onward time after used
      -- the housekeeping of this round: the association goes here, or goes on
      · by_cases idle : udpSessionTimeout < sweep - time
        · exact .inr ⟨[], turns, now, sweep, rest, rfl, running, due, time, used, idle⟩
        · have found : ((loop.engine.serve turns).next (.cleanup sweep)).udpFind flow =
              ((loop.engine.serve turns).udpFind flow).filter fun session => !Engine.udpExpired sweep session :=
            congrFun (after.udp.lookup_sweep _) flow
          rw [swept] at onward
          apply onward time (after.next _)
          rw [found, used]
          simp [Option.filter, Engine.udpExpired, idle]

/-- A flow keeps the socket of its association until a housekeeping runs and finds that
nothing was sent and nothing was received for more than a minute. -/
theorem association_kept (tunFd : Nat) (mtu ulStart dlStart began : Int) (past rounds : List Round) (flow : Flow)
    (session : UdpSession)
    (known : (past.foldl next (start tunFd mtu ulStart dlStart began)).engine.udpFind flow = some session) :
    let loop := past.foldl next (start tunFd mtu ulStart dlStart began)
    (∃ time, (rounds.foldl next loop).engine.udpFind flow = some { session with lastActive := time }) ∨
      ∃ before turns now sweep after, rounds = before ++ .served turns now sweep :: after ∧
        (before.foldl next loop).Retires flow session turns now sweep := by
  intro loop
  apply run_keeps_udp rounds _ known
  rw [run_engine]
  exact run_invariant Engine.Tables (fun _ input tables => tables.next input) (Engine.tables_start ..) _

theorem association_kept_sample :
    let session : UdpSession := ⟨0, sampleFlow, 7, 1000⟩
    let rounds : List Round := [.served [] 1030 1030, .served [] 1100 1100]
    let loop := [Round.served [.packet sampleDatagram (.smooth 7 1000)] 1000 1000].foldl next
      (start 3 1500 0 0 1000)
    (∃ time, (rounds.foldl next loop).engine.udpFind sampleFlow = some { session with lastActive := time }) ∨
      ∃ before turns now sweep after, rounds = before ++ .served turns now sweep :: after ∧
        (before.foldl next loop).Retires sampleFlow session turns now sweep :=
  association_kept 3 1500 0 0 1000 _ _ sampleFlow ⟨0, sampleFlow, 7, 1000⟩ (by decide +kernel)

end MainLoop

end ThrottleVpn.Tun2Socks
