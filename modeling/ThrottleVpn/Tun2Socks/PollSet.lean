import ThrottleVpn.Tun2Socks.Dialogue

/-! The interest list of the engine's epoll instance.

Between two steps the TUN and the sockets of the sessions are registered and nothing
else is: a connecting session waits for EPOLLIN and EPOLLOUT, any other one for
EPOLLIN alone. No `epoll_ctl` of a run fails.
-/

set_option autoImplicit false

namespace ThrottleVpn.Tun2Socks

open Foundation

abbrev PollSet := Nat → Option EpollEvents

namespace PollSet

def apply (set : PollSet) : Effect → PollSet
  | .epollAdd fd interest => Function.update set fd (some interest)
  | .epollMod fd interest => Function.update set fd ((set fd).map fun _ => interest)
  | .epollDel fd | .close fd => Function.update set fd none
  | _ => set

def run (set : PollSet) (effects : List Effect) : PollSet := effects.foldl apply set

def Accepts (set : PollSet) : Effect → Prop
  | .epollAdd fd _ => set fd = none
  | .epollMod fd _ | .epollDel fd => (set fd).isSome
  | _ => True

theorem run_append (set : PollSet) (first second : List Effect) :
    set.run (first ++ second) = (set.run first).run second := List.foldl_append

end PollSet

def Effect.polled : Effect → Option Nat
  | .epollAdd fd _ | .epollMod fd _ | .epollDel fd | .close fd => some fd
  | _ => none

def Effect.fd? : Effect → Option Nat
  | .socket fd _ | .connect fd _ _ _ | .epollAdd fd _ | .epollMod fd _ | .epollDel fd | .send fd _ _ | .recv fd _
  | .shutdown fd | .close fd | .hold fd _ | .release fd => some fd
  | .tunWrite _ | .sleep _ | .outOfBounds => none

theorem Effect.fd?_of_polled {effect : Effect} {fd : Nat} (polled : effect.polled = some fd) :
    effect.fd? = some fd := by
  cases effect <;> first | exact polled | cases polled

def Effect.Spares (tunFd : Nat) : Effect → Prop
  | .socket fd _ => fd ≠ tunFd
  | _ => True

instance (tunFd : Nat) : (effect : Effect) → Decidable (effect.Spares tunFd)
  | .socket fd _ => inferInstanceAs (Decidable (fd ≠ tunFd))
  | .tunWrite _ | .connect _ _ _ _ | .epollAdd _ _ | .epollMod _ _ | .epollDel _ | .send _ _ _
  | .recv _ _ | .shutdown _ | .close _ | .hold _ _ | .release _ | .sleep _ | .outOfBounds =>
    inferInstanceAs (Decidable True)

theorem Effect.Idle.unpolled {effect : Effect} (idle : effect.Idle) : effect.polled = none := by
  cases effect <;> first | rfl | exact idle.elim

theorem SessionEvent.call_unpolled (event : SessionEvent) (fd : Nat) :
    ∀ effect ∈ event.call fd, effect.polled = none := event.forall_call (fun _ _ => rfl) fd

namespace PollSet

theorem run_other {set : PollSet} {effects : List Effect} {fd : Nat}
    (others : ∀ effect ∈ effects, effect.polled ≠ some fd) : set.run effects fd = set fd := by
  refine foldl_untouched (fun set effect other => ?_) others
  have different : ∀ used, effect.polled = some used → fd ≠ used := by
    rintro used polled rfl
    exact other polled
  cases effect <;> first | rfl | exact Function.update_of_ne (different _ rfl) ..

theorem run_unpolled {set : PollSet} {effects : List Effect} (none : ∀ effect ∈ effects, effect.polled = none) :
    set.run effects = set := by
  funext fd
  exact run_other fun effect member => by simp [none effect member]

theorem accepts_unpolled {set : PollSet} {effects : List Effect}
    (none : ∀ effect ∈ effects, effect.polled = none) :
    Admits apply Accepts set effects := by
  apply admits_of_forall
  intro effect member set
  have unpolled := none effect member
  cases effect <;> trivial

theorem admits_after_unpolled {set : PollSet} {before after : List Effect}
    (none : ∀ effect ∈ before, effect.polled = none) (accepted : Admits apply Accepts set after) :
    Admits apply Accepts set (before ++ after) := by
  have same : set.run before = set := run_unpolled none
  unfold run at same
  rw [admits_append, same]
  exact ⟨accepts_unpolled none, accepted⟩

theorem run_closings (set : PollSet) (fds : List Nat) (fd : Nat) :
    set.run (closings fds) fd = if fd ∈ fds then none else set fd := by
  induction fds generalizing set with
  | nil => rfl
  | cons closed rest ih =>
    have here : set.run (closings (closed :: rest)) =
        PollSet.run (Function.update set closed none) (closings rest) := by
      simp only [closings, List.flatMap_cons, run, List.cons_append, List.nil_append, List.foldl_cons, apply,
        Function.update_idem]
    rw [here, ih]
    by_cases same : fd = closed
    · simp [same]
    · simp [same]

theorem accepts_closings {set : PollSet} {fds : List Nat} (distinct : fds.Nodup)
    (registered : ∀ fd ∈ fds, (set fd).isSome) : Admits apply Accepts set (closings fds) := by
  induction fds generalizing set with
  | nil => trivial
  | cons fd rest ih =>
    rw [List.nodup_cons] at distinct
    rw [List.forall_mem_cons] at registered
    refine ⟨registered.1, trivial, ih distinct.2 fun other member => ?_⟩
    have different : other ≠ fd := fun same => distinct.1 (same ▸ member)
    simp only [apply, Function.update_of_ne different]
    exact registered.2 other member

end PollSet

/-! ### Creations -/

section
variable {replies : TunReplies} {protocol : Protocol} {flow : Flow} {interest : EpollEvents} {kernel : Kernel}
  {owner : Nat} (fresh : Admits (Kernel.apply (some flow) owner) Kernel.Fresh kernel
    (replies.opening protocol flow interest))
include fresh

theorem opening_others {fd : Nat} (isOpen : (kernel fd).isSome) :
    ∀ effect ∈ replies.opening protocol flow interest, effect.fd? ≠ some fd := by
  have different : ∀ opened, kernel opened = none → opened ≠ fd := by
    rintro opened free rfl
    simp [free] at isOpen
  intro effect member
  cases opens : replies.opens with
  | some opened =>
    rw [TunReplies.opening_some opens] at fresh member
    have other := different opened fresh.1
    simp only [List.mem_cons, List.not_mem_nil, or_false] at member
    rcases member with rfl | rfl | rfl <;> simp [Effect.fd?, other]
  | none =>
    rcases TunReplies.opening_none opens protocol flow interest with none | ⟨opened, refused⟩
    · rw [none] at member
      cases member
    · rw [refused] at fresh member
      have other := different opened fresh.1
      simp only [List.mem_cons, List.not_mem_nil, or_false] at member
      rcases member with rfl | rfl <;> simp [Effect.fd?, other]

theorem opening_accepted {set : PollSet} (unknown : ∀ fd, kernel fd = none → .socket fd protocol ∈
    replies.opening protocol flow interest → set fd = none) :
    Admits PollSet.apply PollSet.Accepts set (replies.opening protocol flow interest) := by
  cases opens : replies.opens with
  | some opened =>
    rw [TunReplies.opening_some opens] at fresh unknown ⊢
    exact ⟨trivial, trivial, unknown opened fresh.1 List.mem_cons_self, trivial⟩
  | none =>
    rcases TunReplies.opening_none opens protocol flow interest with none | ⟨opened, refused⟩
    · rw [none]
      trivial
    · rw [refused]
      exact ⟨trivial, trivial, trivial⟩

omit fresh in
theorem run_opening {set : PollSet} {fd : Nat} (opens : replies.opens = some fd) :
    set.run (replies.opening protocol flow interest) fd = some interest := by
  rw [TunReplies.opening_some opens]
  simp [PollSet.run, PollSet.apply]

end

/-! ### Handlers -/

def TcpSession.interest (session : TcpSession) : EpollEvents := ⟨true, decide (session.state = .synSent)⟩

namespace TcpSession

theorem interest_congr {first second : TcpSession} (same : first.state = second.state) :
    first.interest = second.interest := by rw [interest, interest, same]

theorem bufferPending_unpolled (session : TcpSession) (reallocated : Option UInt8) (payload : List UInt8) :
    (∀ effect ∈ (session.bufferPending reallocated payload).effects, effect.polled = none) ∧
      (session.bufferPending reallocated payload).session.state = session.state := by
  obtain ⟨-, ⟨block, len, cap, kept⟩, quiet⟩ := session.bufferPending_frame reallocated payload
  refine ⟨fun effect member => ?_, by rw [kept]⟩
  rcases quiet with none | hold
  · rw [none] at member
    cases member
  · rw [hold] at member
    obtain rfl := List.mem_singleton.mp member
    rfl

variable {session : TcpSession} (live : session.Live) (mtu : Int)
include live

theorem dataArrives_unpolled (replies : TunReplies) (hdr : TcpHdr) (payload : List UInt8) :
    let out := session.dataArrives mtu replies hdr payload
    (∀ effect ∈ out.effects, effect.polled = none) ∧
      (out.removed = false → out.session.interest = session.interest) := by
  rcases dataArrives_cases live mtu replies hdr payload with
    ⟨-, out⟩ | ⟨-, -, out⟩ | ⟨-, -, -, out⟩ | ⟨-, -, -, out⟩
  · rw [out]
    exact ⟨by simp, fun _ => rfl⟩
  · obtain ⟨unpolled, kept⟩ := bufferPending_unpolled
      { session with clientSeq := ntohl hdr.seq + UInt32.ofNat payload.length } replies.realloc payload
    rw [out]
    exact ⟨unpolled, fun _ => interest_congr kept⟩
  · rw [out]
    exact ⟨by simp [Effect.polled], fun _ => by simp [interest]⟩
  · rw [out]
    exact ⟨by simp [Effect.polled], by simp⟩

theorem segmentArrives_unpolled (replies : TunReplies) (hdr : TcpHdr) (payload : List UInt8) :
    let out := session.segmentArrives mtu replies hdr payload
    (∀ effect ∈ out.effects, effect.polled = none) ∧
      (out.removed = false → out.session.interest = session.interest) := by
  have here : ({ session with lastActive := replies.time } : TcpSession).Live := live
  obtain ⟨unpolled, kept⟩ := dataArrives_unpolled here mtu replies hdr payload
  rcases @segmentArrives_cases session mtu replies hdr payload with
    ⟨-, out⟩ | ⟨-, -, out⟩ | ⟨-, -, -, out⟩
  · rw [out]
    exact ⟨by simp, by simp⟩
  · rw [out]
    exact ⟨unpolled, kept⟩
  · rw [out]
    refine ⟨fun effect member => ?_, by simp [finArrives]⟩
    rcases List.mem_append.mp member with member | member
    · exact unpolled effect member
    · simp only [finArrives, List.mem_cons, List.not_mem_nil, or_false] at member
      rcases member with rfl | rfl | rfl <;> rfl

omit live in
theorem connectCompletes_polls (soError : Int) (result : SendResult) :
    let out := session.connectCompletes mtu soError result
    (out.removed = true ∧ ∀ effect ∈ out.effects, effect.polled = none) ∨
      (out.removed = false ∧ out.session.interest = ⟨true, false⟩ ∧
        ∃ before, out.effects = before ++ [.epollMod session.sockFd ⟨true, false⟩] ∧
          ∀ effect ∈ before, effect.polled = none) := by
  rcases session.connectCompletes_cases mtu soError result with ⟨-, -, out⟩ | ⟨-, out⟩ | ⟨-, out⟩
  · rw [out]
    exact .inr ⟨rfl, rfl, [_], rfl, by simp [Effect.polled]⟩
  · rw [out]
    exact .inr ⟨rfl, by simp [interest], [_, _, _, _], rfl, by simp [Effect.polled]⟩
  · rw [out]
    exact .inl ⟨rfl, by simp [Effect.polled]⟩

theorem handle_polls (event : SessionEvent) :
    let out := session.handle mtu event
    ((∀ effect ∈ out.effects, effect.polled = none) ∧
        (out.removed = false → out.session.interest = session.interest)) ∨
      (out.removed = false ∧ out.session.interest = ⟨true, false⟩ ∧
        ∃ before, out.effects = before ++ [.epollMod session.sockFd ⟨true, false⟩] ∧
          ∀ effect ∈ before, effect.polled = none) := by
  cases event with
  | segment hdr payload replies => exact .inl (segmentArrives_unpolled live mtu replies hdr payload)
  | writable soError result =>
    simp only [handle]
    split
    · rcases connectCompletes_polls mtu soError result with ⟨removed, unpolled⟩ | completed
      · exact .inl ⟨unpolled, fun stays => by simp [removed] at stays⟩
      · exact .inr completed
    · exact .inl ⟨by simp, fun _ => rfl⟩
  | received data time =>
    exact .inl ⟨by simp [handle, received, Effect.polled], by simp [handle, received, interest]⟩
  | remoteClosed => exact .inl ⟨by simp [handle, remoteClosed, Effect.polled], by simp [handle, remoteClosed]⟩
  | recvFailed => exact .inl ⟨by simp [handle, recvFailed, Effect.polled], by simp [handle, recvFailed]⟩

theorem handle_registration (event : SessionEvent) {set : PollSet}
    (registered : set session.sockFd = some session.interest) :
    let out := session.handle mtu event
    let effects := out.effects ++ out.closing
    (out.removed = false → set.run effects session.sockFd = some out.session.interest) ∧
      (∀ effect ∈ effects, ∀ fd, effect.polled = some fd → fd = session.sockFd) ∧
      Admits PollSet.apply PollSet.Accepts set effects := by
  intro out effects
  have same := session.handle_identity mtu event
  simp only [identity, Prod.mk.injEq] at same
  rcases handle_polls live mtu event with ⟨unpolled, kept⟩ | ⟨stays, waits, before, lines, unpolled⟩
  -- a removed session's socket is taken off the list and closed, a kept one stays as it was
  · cases removed : out.removed with
    | true =>
      have closes : out.closing = closings [session.sockFd] := by
        unfold Handled.closing
        rw [if_pos removed, same.2.2]
        rfl
      refine ⟨fun stays => (by cases stays), fun effect member fd polled => ?_, ?_⟩
      · rcases List.mem_append.mp member with member | member
        · rw [unpolled effect member] at polled
          cases polled
        · rw [closes] at member
          simp only [closings, List.flatMap_singleton, List.mem_cons, List.not_mem_nil, or_false] at member
          rcases member with rfl | rfl <;> exact (Option.some.inj polled).symm
      · apply PollSet.admits_after_unpolled unpolled
        rw [closes]
        exact PollSet.accepts_closings (List.nodup_singleton _) (by simp [registered])
    | false =>
      have closes : out.closing = [] := by
        unfold Handled.closing
        rw [removed]
        rfl
      have none : ∀ effect ∈ effects, effect.polled = none := by
        simpa only [effects, closes, List.append_nil] using unpolled
      refine ⟨fun _ => ?_, fun effect member fd polled => ?_, PollSet.accepts_unpolled none⟩
      · rw [PollSet.run_unpolled none, kept removed]
        exact registered
      · rw [none effect member] at polled
        cases polled
  · have closes : out.closing = [] := by
      unfold Handled.closing
      rw [stays]
      rfl
    -- the connect completion
    have whole : effects = before ++ [.epollMod session.sockFd ⟨true, false⟩] := by
      simp only [effects, closes, List.append_nil]
      exact lines
    rw [whole]
    refine ⟨fun _ => ?_, fun effect member fd polled => ?_, ?_⟩
    · rw [PollSet.run_append, PollSet.run_unpolled unpolled, waits]
      simp [PollSet.run, PollSet.apply, registered]
    · rcases List.mem_append.mp member with member | member
      · rw [unpolled effect member] at polled
        cases polled
      · obtain rfl := List.mem_singleton.mp member
        exact (Option.some.inj polled).symm
    · apply PollSet.admits_after_unpolled unpolled
      exact ⟨by simp [PollSet.Accepts, registered], trivial⟩

end TcpSession

/-! ### Steps and runs -/

/-- Each session has an open descriptor of its own. -/
structure Sessions.Apart (sessions : Sessions) (kernel : Kernel) : Prop where
  tcpOpen : ∀ flow session, sessions.tcp flow = some session → (kernel session.sockFd).isSome
  udpOpen : ∀ flow session, sessions.udp flow = some session → (kernel session.sockFd).isSome
  tcpOnce : ∀ flow session other rival, sessions.tcp flow = some session → sessions.tcp other = some rival →
    session.sockFd = rival.sockFd → flow = other
  udpOnce : ∀ flow session other rival, sessions.udp flow = some session → sessions.udp other = some rival →
    session.sockFd = rival.sockFd → flow = other
  disjoint : ∀ flow session other rival, sessions.tcp flow = some session → sessions.udp other = some rival →
    session.sockFd ≠ rival.sockFd

/-- The sessions are registered for what they wait for. -/
structure PollSet.Registers (set : PollSet) (sessions : Sessions) : Prop where
  tcp : ∀ flow session, sessions.tcp flow = some session → set session.sockFd = some session.interest
  udp : ∀ flow session, sessions.udp flow = some session → set session.sockFd = some ⟨true, false⟩

structure PollSet.Confined (set : PollSet) (tunFd : Nat) (kernel : Kernel) : Prop where
  tun : set tunFd = some ⟨true, false⟩
  apart : kernel tunFd = none
  only : ∀ fd, (set fd).isSome → fd = tunFd ∨ (kernel fd).isSome

namespace PollSet

theorem Confined.run {set : PollSet} {tunFd : Nat} {kernel : Kernel} (confined : set.Confined tunFd kernel)
    {flow : Option Flow} {owner : Nat} {effects : List Effect}
    (valid : Admits (Kernel.apply flow owner) Kernel.Valid kernel effects)
    (spares : ∀ effect ∈ effects, effect.Spares tunFd) :
    (set.run effects).Confined tunFd (kernel.run flow owner effects) := by
  induction effects generalizing set kernel with
  | nil => exact confined
  | cons effect rest ih =>
    rw [List.forall_mem_cons] at spares
    refine ih ?_ valid.2 spares.2
    -- the TUN is not among the sockets
    have isTun : ∀ fd, (kernel fd).isSome → tunFd ≠ fd := by
      rintro fd isOpen rfl
      simp [confined.apart] at isOpen
    have here := valid.1
    cases effect with
    | socket fd protocol =>
      have other : tunFd ≠ fd := Ne.symm spares.1
      refine ⟨confined.tun, ?_, fun used registered => ?_⟩
      · simp only [Kernel.apply, Function.update_of_ne other, confined.apart]
      · by_cases same : used = fd
        · simp [Kernel.apply, same]
        · simpa [Kernel.apply, same] using confined.only used registered
    | connect fd peer port result =>
      refine ⟨confined.tun, ?_, fun used registered => ?_⟩
      · simp only [Kernel.apply, Function.update_of_ne (isTun fd here), confined.apart]
      · by_cases same : used = fd
        · subst same
          exact .inr (by simpa [Kernel.apply, Kernel.Valid] using here)
        · simpa [Kernel.apply, same] using confined.only used registered
    | epollAdd fd | epollMod fd | epollDel fd =>
      refine ⟨?_, confined.apart, fun used registered => ?_⟩
      · simp only [PollSet.apply, Function.update_of_ne (isTun fd here), confined.tun]
      · by_cases same : used = fd
        · exact .inr (same ▸ here)
        · exact confined.only used (by simpa [PollSet.apply, same] using registered)
    | close fd =>
      refine ⟨?_, ?_, fun used registered => ?_⟩
      · simp only [PollSet.apply, Function.update_of_ne (isTun fd here), confined.tun]
      · simp only [Kernel.apply, Function.update_of_ne (isTun fd here), confined.apart]
      · by_cases same : used = fd
        · simp [PollSet.apply, same] at registered
        · simpa [Kernel.apply, same] using confined.only used (by simpa [PollSet.apply, same] using registered)
    | tunWrite | send | recv | shutdown | hold | release | sleep | outOfBounds => exact confined

end PollSet

namespace Sessions
variable {mtu : Int} {sessions next : Sessions} {input : Input} {effects : List Effect} {kernel : Kernel}
  {owner : Nat} {set : PollSet}

theorem registers_touched (registers : set.Registers sessions) {session : UdpSession}
    (known : sessions.udp session.flow = some session) (time : Int) :
    set.Registers { sessions with
      udp := Function.update sessions.udp session.flow (some { session with lastActive := time }) } where
  tcp := registers.tcp
  udp := by
    intro flow other there
    by_cases here : flow = session.flow
    · subst here
      obtain rfl : { session with lastActive := time } = other := by simpa using there
      show set session.sockFd = _
      exact registers.udp _ session known
    · exact registers.udp flow other (by simpa [Function.update_of_ne here] using there)

theorem registers_unpolled (registers : set.Registers next) (none : ∀ effect ∈ effects, effect.polled = none) :
    (set.run effects).Registers next ∧ Admits PollSet.apply PollSet.Accepts set effects := by
  rw [PollSet.run_unpolled none]
  exact ⟨registers, PollSet.accepts_unpolled none⟩

theorem opening_registers {replies : TunReplies} {protocol : Protocol} {flow : Flow} {interest : EpollEvents}
    {tunFd : Nat} (confined : set.Confined tunFd kernel)
    (fresh : Admits (Kernel.apply (some flow) owner) Kernel.Fresh kernel (replies.opening protocol flow interest))
    (spares : ∀ effect ∈ replies.opening protocol flow interest, effect.Spares tunFd) :
    (∀ fd, (kernel fd).isSome → set.run (replies.opening protocol flow interest) fd = set fd) ∧
      Admits PollSet.apply PollSet.Accepts set (replies.opening protocol flow interest) := by
  have others : ∀ fd, (kernel fd).isSome →
      ∀ effect ∈ replies.opening protocol flow interest, effect.polled ≠ some fd :=
    fun fd isOpen effect member polled => opening_others fresh isOpen effect member (Effect.fd?_of_polled polled)
  refine ⟨fun fd isOpen => PollSet.run_other (others fd isOpen), opening_accepted fresh ?_⟩
  intro fd free member
  cases registered : set fd with
  | none => rfl
  | some interest =>
    -- what is registered is the TUN or open, and a new descriptor is neither
    rcases confined.only fd (by simp [registered]) with rfl | isOpen
    · exact absurd rfl (spares _ member)
    · simp [free] at isOpen

theorem handled_registers {session : TcpSession} {event : SessionEvent} {pause : List Effect}
    (sound : sessions.Sound) (apart : sessions.Apart kernel) (registers : set.Registers sessions)
    (known : sessions.tcp session.flow = some session) (pauses : ∀ effect ∈ pause, effect.Idle) :
    let out := session.handle mtu event
    let effects := event.call session.sockFd ++ pause ++ (out.effects ++ out.closing)
    (set.run effects).Registers { sessions with tcp := Function.update sessions.tcp session.flow (Left out) } ∧
      Admits PollSet.apply PollSet.Accepts set effects := by
  intro out effects
  have quiet : ∀ effect ∈ event.call session.sockFd ++ pause, effect.polled = none := by
    intro effect member
    rcases List.mem_append.mp member with member | member
    · exact event.call_unpolled _ effect member
    · exact (pauses effect member).unpolled
  have registered := registers.tcp _ _ known
  obtain ⟨stays, own, accepted⟩ :=
    TcpSession.handle_registration (sound.live _ _ known) mtu event registered
  have same := session.handle_identity mtu event
  simp only [TcpSession.identity, Prod.mk.injEq] at same
  -- the frame: only the own descriptor of the session is touched
  have others : ∀ fd, session.sockFd ≠ fd → set.run effects fd = set fd := by
    intro fd different
    apply PollSet.run_other
    intro effect member polled
    rcases List.mem_append.mp member with member | member
    · rw [quiet effect member] at polled
      cases polled
    · exact different (own effect member fd polled).symm
  refine ⟨⟨?_, ?_⟩, PollSet.admits_after_unpolled quiet accepted⟩
  · intro flow other there
    by_cases here : flow = session.flow
    · subst here
      dsimp only at there
      rw [Function.update_self] at there
      unfold Left at there
      split at there
      · cases there
      next kept =>
        obtain rfl := Option.some.inj there
        rw [same.2.2, PollSet.run_append, PollSet.run_unpolled quiet]
        exact stays (by simpa using kept)
    · have before : sessions.tcp flow = some other := by simpa [Function.update_of_ne here] using there
      rw [others _ fun fd => here (apart.tcpOnce _ _ _ _ known before fd).symm]
      exact registers.tcp flow other before
  · intro flow other there
    rw [others _ (apart.disjoint _ _ _ _ known there)]
    exact registers.udp flow other there

theorem fresh_after {flow : Option Flow} {before after : List Effect}
    (on : ∀ effect ∈ before, ∃ fd, effect.On fd)
    (fresh : Admits (Kernel.apply flow owner) Kernel.Fresh kernel (before ++ after)) :
    Admits (Kernel.apply flow owner) Kernel.Fresh kernel after := by
  have same := Kernel.run_on flow owner on kernel
  unfold Kernel.run at same
  rw [admits_append, same] at fresh
  exact fresh.2

theorem closing_eq (session : Option TcpSession) :
    closing session = closings (session.elim [] fun old => [old.sockFd]) := by
  cases session <;> rfl

theorem opened_registers {replies : TunReplies} {target : Flow} (isn : UInt32) (apart : sessions.Apart kernel)
    {tunFd : Nat} (confined : set.Confined tunFd kernel) (registers : set.Registers sessions)
    (fresh : Admits (Kernel.apply (some target) owner) Kernel.Fresh kernel
      (closing (sessions.tcp target) ++ replies.opening .tcp target ⟨true, true⟩))
    (spares : ∀ effect ∈ replies.opening .tcp target ⟨true, true⟩, effect.Spares tunFd) :
    let effects := closing (sessions.tcp target) ++ replies.opening .tcp target ⟨true, true⟩
    (set.run effects).Registers (sessions.opened replies target isn) ∧
      Admits PollSet.apply PollSet.Accepts set effects := by
  intro effects
  let closed := (sessions.tcp target).elim [] fun old => [old.sockFd]
  have member : ∀ fd, fd ∈ closed ↔ ∃ old, sessions.tcp target = some old ∧ old.sockFd = fd := by
    intro fd
    cases found : sessions.tcp target <;> simp [closed, found, eq_comm]
  have lines : effects = closings closed ++ replies.opening .tcp target ⟨true, true⟩ := by
    simp only [effects, closing_eq]
    rfl
  have isOpen : ∀ fd ∈ closed, (kernel fd).isSome := by
    intro fd inside
    obtain ⟨old, there, rfl⟩ := (member fd).mp inside
    exact apart.tcpOpen _ _ there
  -- the replaced session's descriptor leaves the kernel and the list together
  have between : (set.run (closings closed)).Confined tunFd (kernel.without closed) := by
    rw [← Kernel.run_closings (some target) owner]
    apply confined.run
    · apply Kernel.valid_closings _ _ _ isOpen
      cases found : sessions.tcp target <;> simp [closed, found]
    · intro effect inside
      simp only [closings, List.mem_flatMap, List.mem_cons, List.not_mem_nil, or_false] at inside
      obtain ⟨fd, -, rfl | rfl⟩ := inside <;> trivial
  have later : Admits (Kernel.apply (some target) owner) Kernel.Fresh (kernel.without closed)
      (replies.opening .tcp target ⟨true, true⟩) := by
    have ran := Kernel.run_closings (some target) owner kernel closed
    unfold Kernel.run at ran
    rw [show closing (sessions.tcp target) = closings closed from closing_eq _, admits_append, ran] at fresh
    exact fresh.2
  obtain ⟨others, accepted⟩ := opening_registers between later spares
  have kept : ∀ fd, fd ∉ closed → (kernel fd).isSome → set.run effects fd = set fd := by
    intro fd outside there
    have remains : (kernel.without closed fd).isSome := by
      unfold Kernel.without
      rwa [if_neg outside]
    rw [lines, PollSet.run_append, others fd remains, PollSet.run_closings, if_neg outside]
  refine ⟨⟨?_, ?_⟩, ?_⟩
  · intro flow session there
    by_cases here : flow = target
    · subst here
      unfold opened at there
      cases opens : replies.opens with
      | none => simp [opens] at there
      | some fd =>
        simp only [opens, Function.update_self, Option.some.injEq] at there
        subst there
        rw [lines, PollSet.run_append]
        exact run_opening opens
    · have before : sessions.tcp flow = some session := (sessions.opened_other replies isn here).symm.trans there
      rw [kept session.sockFd _ (apart.tcpOpen _ _ before)]
      · exact registers.tcp flow session before
      · intro inside
        obtain ⟨old, replaced, same⟩ := (member _).mp inside
        exact here (apart.tcpOnce _ _ _ _ replaced before same).symm
  · intro flow session there
    have before : sessions.udp flow = some session := by rwa [opened_udp] at there
    rw [kept session.sockFd _ (apart.udpOpen _ _ before)]
    · exact registers.udp flow session before
    · intro inside
      obtain ⟨old, replaced, same⟩ := (member _).mp inside
      exact apart.disjoint _ _ _ _ replaced before same
  · have ran : set.run (closings closed) = List.foldl PollSet.apply set (closings closed) := rfl
    rw [lines, admits_append, ← ran]
    -- the old descriptor was registered, the new one was not
    refine ⟨PollSet.accepts_closings ?_ fun fd inside => ?_, accepted⟩
    · cases found : sessions.tcp target <;> simp [closed, found]
    · obtain ⟨old, there, rfl⟩ := (member fd).mp inside
      rw [registers.tcp _ _ there]
      rfl

theorem swept_registers {now : Int} {tcpGone : List TcpSession} {udpGone : List UdpSession}
    (apart : sessions.Apart kernel) (registers : set.Registers sessions)
    (tcpOnce : tcpGone.Nodup) (udpOnce : udpGone.Nodup)
    (tcpAll : ∀ session, session ∈ tcpGone ↔
      sessions.tcp session.flow = some session ∧ Engine.tcpExpired now session = true)
    (udpAll : ∀ session, session ∈ udpGone ↔
      sessions.udp session.flow = some session ∧ Engine.udpExpired now session = true) :
    let effects := closings (tcpGone.map TcpSession.sockFd ++ udpGone.map UdpSession.sockFd)
    (set.run effects).Registers
        { sessions with
          tcp := fun flow => (sessions.tcp flow).filter fun session => !Engine.tcpExpired now session
          udp := fun flow => (sessions.udp flow).filter fun session => !Engine.udpExpired now session } ∧
      Admits PollSet.apply PollSet.Accepts set effects := by
  intro effects
  have tcpHere : ∀ session ∈ tcpGone, sessions.tcp session.flow = some session :=
    fun session member => ((tcpAll session).mp member).1
  have udpHere : ∀ session ∈ udpGone, sessions.udp session.flow = some session :=
    fun session member => ((udpAll session).mp member).1
  refine ⟨⟨?_, ?_⟩, PollSet.accepts_closings ?_ ?_⟩
  · -- a session that stays has not the descriptor of one that goes
    intro flow session there
    obtain ⟨before, fresh⟩ := Option.filter_eq_some_iff.mp there
    rw [PollSet.run_closings, if_neg]
    · exact registers.tcp flow session before
    · intro inside
      rcases List.mem_append.mp inside with inside | inside
      · obtain ⟨gone, member, same⟩ := List.mem_map.mp inside
        have flows := apart.tcpOnce _ _ _ _ (tcpHere gone member) before same
        obtain rfl : gone = session := Option.some.inj ((flows ▸ tcpHere gone member).symm.trans before)
        simp [((tcpAll gone).mp member).2] at fresh
      · obtain ⟨gone, member, same⟩ := List.mem_map.mp inside
        exact apart.disjoint _ _ _ _ before (udpHere gone member) same.symm
  · intro flow session there
    obtain ⟨before, fresh⟩ := Option.filter_eq_some_iff.mp there
    rw [PollSet.run_closings, if_neg]
    · exact registers.udp flow session before
    · intro inside
      rcases List.mem_append.mp inside with inside | inside
      · obtain ⟨gone, member, same⟩ := List.mem_map.mp inside
        exact apart.disjoint _ _ _ _ (tcpHere gone member) before same
      · obtain ⟨gone, member, same⟩ := List.mem_map.mp inside
        have flows := apart.udpOnce _ _ _ _ (udpHere gone member) before same
        obtain rfl : gone = session := Option.some.inj ((flows ▸ udpHere gone member).symm.trans before)
        simp [((udpAll gone).mp member).2] at fresh
  -- one descriptor for each session, so each is taken off once
  · rw [List.nodup_append]
    refine ⟨?_, ?_, ?_⟩
    · apply List.Nodup.map_on _ tcpOnce
      intro first left second right same
      have flows := apart.tcpOnce _ _ _ _ (tcpHere first left) (tcpHere second right) same
      exact Option.some.inj ((flows ▸ tcpHere first left).symm.trans (tcpHere second right))
    · apply List.Nodup.map_on _ udpOnce
      intro first left second right same
      have flows := apart.udpOnce _ _ _ _ (udpHere first left) (udpHere second right) same
      exact Option.some.inj ((flows ▸ udpHere first left).symm.trans (udpHere second right))
    · intro fd left other right same
      obtain ⟨first, member, rfl⟩ := List.mem_map.mp left
      obtain ⟨second, member', rfl⟩ := List.mem_map.mp right
      exact apart.disjoint _ _ _ _ (tcpHere first member) (udpHere second member') same
  · intro fd inside
    rcases List.mem_append.mp inside with inside | inside
    · obtain ⟨session, member, rfl⟩ := List.mem_map.mp inside
      simp [registers.tcp _ _ (tcpHere session member)]
    · obtain ⟨session, member, rfl⟩ := List.mem_map.mp inside
      simp [registers.udp _ _ (udpHere session member)]

/-- A move keeps the sessions registered, and none of its `epoll_ctl` calls fails. -/
theorem Move.registers (move : Move mtu sessions (input, effects) next) (sound : sessions.Sound)
    (apart : sessions.Apart kernel) {tunFd : Nat} (confined : set.Confined tunFd kernel)
    (registers : set.Registers sessions)
    (fresh : Admits (Kernel.apply input.flow? owner) Kernel.Fresh kernel effects)
    (spares : ∀ effect ∈ effects, effect.Spares tunFd) :
    (set.run effects).Registers next ∧ Admits PollSet.apply PollSet.Accepts set effects := by
  generalize same : (input, effects) = label at move
  cases move with
  | @handled input' session event pause known serves pauses =>
    obtain ⟨rfl, rfl⟩ := Prod.mk.inj same
    exact handled_registers sound apart registers known pauses
  | @opened queued replies target hdr payload pause decoded opens pauses =>
    obtain ⟨rfl, rfl⟩ := Prod.mk.inj same
    simp only [Input.flow?, Input.decoded?, decoded, Except.toOption, Option.map_some] at fresh
    have later := fresh_after (fun effect member => ⟨0, (pauses effect member).on 0⟩) fresh
    have unpolled := fun effect member => (pauses effect member).unpolled
    obtain ⟨kept, accepted⟩ := opened_registers (ntohl hdr.seq) apart confined registers later
      fun effect member => spares effect (List.mem_append_right _ (List.mem_append_right _ member))
    rw [PollSet.run_append, PollSet.run_unpolled unpolled]
    exact ⟨kept, PollSet.admits_after_unpolled unpolled accepted⟩
  | @relayed queued replies session hdr payload pause decoded known pauses =>
    obtain ⟨rfl, rfl⟩ := Prod.mk.inj same
    apply registers_unpolled (registers_touched registers known replies.time)
    intro effect member
    rcases List.mem_append.mp member with member | member
    · exact (pauses effect member).unpolled
    · obtain rfl := List.mem_singleton.mp member
      rfl
  | @associated queued replies target hdr payload fd pause decoded unknown opens pauses =>
    obtain ⟨rfl, rfl⟩ := Prod.mk.inj same
    simp only [Input.flow?, Input.decoded?, decoded, Except.toOption, Option.map_some, Decoded.flow,
      List.append_assoc] at fresh
    have later := fresh_after (fun effect member => ⟨0, (pauses effect member).on 0⟩) fresh
    rw [admits_append] at later
    have unpolled := fun effect member => (pauses effect member).unpolled
    obtain ⟨others, accepted⟩ := opening_registers confined later.1 fun effect member =>
      spares effect (List.mem_append_left _ (List.mem_append_right _ member))
    have sent : ∀ set : PollSet, set.run [.send fd payload replies.send] = set := fun _ => rfl
    rw [List.append_assoc, PollSet.run_append, PollSet.run_unpolled unpolled, PollSet.run_append, sent]
    refine ⟨⟨?_, ?_⟩, PollSet.admits_after_unpolled unpolled ?_⟩
    · intro flow session there
      rw [others _ (apart.tcpOpen _ _ there)]
      exact registers.tcp flow session there
    · intro flow session there
      by_cases here : flow = target
      · subst here
        simp only [Function.update_self, Option.some.injEq] at there
        subst there
        exact run_opening opens
      · have before : sessions.udp flow = some session := by simpa [Function.update_of_ne here] using there
        rw [others _ (apart.udpOpen _ _ before)]
        exact registers.udp flow session before
    · rw [admits_append]
      exact ⟨accepted, trivial, trivial⟩
  | @refused queued replies target hdr payload pause decoded opens pauses =>
    obtain ⟨rfl, rfl⟩ := Prod.mk.inj same
    simp only [Input.flow?, Input.decoded?, decoded, Except.toOption, Option.map_some, Decoded.flow] at fresh
    have later := fresh_after (fun effect member => ⟨0, (pauses effect member).on 0⟩) fresh
    have unpolled := fun effect member => (pauses effect member).unpolled
    obtain ⟨others, accepted⟩ := opening_registers confined later fun effect member =>
      spares effect (List.mem_append_right _ member)
    rw [PollSet.run_append, PollSet.run_unpolled unpolled]
    refine ⟨⟨?_, ?_⟩, PollSet.admits_after_unpolled unpolled accepted⟩
    · intro flow session there
      rw [others _ (apart.tcpOpen _ _ there)]
      exact registers.tcp flow session there
    · intro flow session there
      rw [others _ (apart.udpOpen _ _ there)]
      exact registers.udp flow session there
  | @delivered events replies session data pause known pauses =>
    obtain ⟨rfl, rfl⟩ := Prod.mk.inj same
    apply registers_unpolled (registers_touched registers known replies.time)
    intro effect member
    rcases List.mem_cons.mp member with rfl | member
    · rfl
    · rcases List.mem_append.mp member with member | member
      · exact (pauses effect member).unpolled
      · obtain rfl := List.mem_singleton.mp member
        rfl
  | @swept now tcpGone udpGone tcpOnce udpOnce tcpAll udpAll =>
    obtain ⟨rfl, rfl⟩ := Prod.mk.inj same
    exact swept_registers apart registers tcpOnce udpOnce tcpAll udpAll
  | @idle input' effects' quiet =>
    obtain ⟨rfl, rfl⟩ := Prod.mk.inj same
    exact registers_unpolled registers (forall_idle quiet (fun _ idle => idle.unpolled) fun _ => rfl)

end Sessions

theorem System.Owns.apart {system : System} (owns : system.Owns) :
    system.engine.sessions.Apart system.kernel where
  tcpOpen := fun _ _ found => owns.tcp_isOpen (owns.tables.tcpFind_eq_some_iff.mp found).1
  udpOpen := fun _ _ found => owns.udp_isOpen (owns.tables.udpFind_eq_some_iff.mp found).1
  tcpOnce := by
    intro flow session other rival found found' same
    obtain ⟨linked, rfl⟩ := owns.tables.tcpFind_eq_some_iff.mp found
    obtain ⟨linked', rfl⟩ := owns.tables.tcpFind_eq_some_iff.mp found'
    rw [owns.tcp_fd_unique linked linked' same]
  udpOnce := by
    intro flow session other rival found found' same
    obtain ⟨linked, rfl⟩ := owns.tables.udpFind_eq_some_iff.mp found
    obtain ⟨linked', rfl⟩ := owns.tables.udpFind_eq_some_iff.mp found'
    rw [owns.udp_fd_unique linked linked' same]
  disjoint := fun _ _ _ _ found found' =>
    owns.fd_disjoint (owns.tables.tcpFind_eq_some_iff.mp found).1 (owns.tables.udpFind_eq_some_iff.mp found').1

structure Poller where
  system : System
  polled : PollSet

namespace Poller

def start (tunFd : Nat) (mtu ulStart dlStart : Int) : Poller :=
  ⟨.start tunFd mtu ulStart dlStart, PollSet.run (fun _ => none) [.epollAdd tunFd ⟨true, false⟩]⟩

def next (poller : Poller) (input : Input) : Poller :=
  ⟨poller.system.next input, poller.polled.run (poller.system.effects input)⟩

/-- `socket()` returns a descriptor that is in use neither for a socket nor for the TUN. -/
def Promised (tunFd : Nat) (poller : Poller) (input : Input) : Prop :=
  poller.system.Fresh input ∧ ∀ effect ∈ poller.system.effects input, effect.Spares tunFd

instance (tunFd : Nat) (poller : Poller) (input : Input) : Decidable (poller.Promised tunFd input) :=
  inferInstanceAs (Decidable (_ ∧ _))

structure Exact (poller : Poller) (tunFd : Nat) : Prop where
  tun : poller.polled tunFd = some ⟨true, false⟩
  tcp : ∀ session ∈ poller.system.engine.tcpTable.records,
    poller.polled session.sockFd = some ⟨true, decide (session.state = .synSent)⟩
  udp : ∀ session ∈ poller.system.engine.udpTable.records, poller.polled session.sockFd = some ⟨true, false⟩
  only : ∀ fd, (poller.polled fd).isSome → fd = tunFd ∨
    (∃ session ∈ poller.system.engine.tcpTable.records, session.sockFd = fd) ∨
    ∃ session ∈ poller.system.engine.udpTable.records, session.sockFd = fd

structure Kept (poller : Poller) (tunFd : Nat) : Prop where
  owns : poller.system.Owns
  registers : poller.polled.Registers poller.system.engine.sessions
  confined : poller.polled.Confined tunFd poller.system.kernel

theorem kept_start (tunFd : Nat) (mtu ulStart dlStart : Int) : (start tunFd mtu ulStart dlStart).Kept tunFd where
  owns := System.owns_start tunFd mtu ulStart dlStart
  registers := by
    constructor
    · rintro flow session ⟨⟩
    · rintro flow session ⟨⟩
  confined := by
    refine ⟨by simp [start, PollSet.run, PollSet.apply], rfl, fun fd registered => .inl ?_⟩
    by_contra other
    simp [start, PollSet.run, PollSet.apply, other] at registered

variable {poller : Poller} {tunFd : Nat}

theorem Kept.step (kept : poller.Kept tunFd) {input : Input} (promised : poller.Promised tunFd input) :
    (poller.next input).Kept tunFd ∧
      Admits PollSet.apply PollSet.Accepts poller.polled (poller.system.effects input) := by
  obtain ⟨registers, accepted⟩ := (kept.owns.tables.move input).registers kept.owns.standing.sound kept.owns.apart
    kept.confined kept.registers promised.1 promised.2
  exact ⟨⟨kept.owns.next promised.1, registers, kept.confined.run (kept.owns.step promised.1).2 promised.2⟩,
    accepted⟩

theorem Kept.exact (kept : poller.Kept tunFd) : poller.Exact tunFd where
  tun := kept.confined.tun
  tcp := fun _ member => kept.registers.tcp _ _ (kept.owns.tables.tcpFind_linked (Buckets.mem_records.mp member))
  udp := fun _ member => kept.registers.udp _ _ (kept.owns.tables.udpFind_linked (Buckets.mem_records.mp member))
  only := by
    intro fd registered
    refine (kept.confined.only fd registered).imp_right fun isOpen => ?_
    obtain ⟨holder, ⟨session, linked, rfl⟩ | ⟨session, linked, rfl⟩, rfl⟩ := kept.owns.paired.owned fd isOpen
    · exact .inl ⟨session, Buckets.mem_records.mpr linked, rfl⟩
    · exact .inr ⟨session, Buckets.mem_records.mpr linked, rfl⟩

/-- In every run the interest list is exactly that of the TUN and the sessions, a
connecting one waiting for its socket to become writable, and no `epoll_ctl` fails. -/
theorem interest_follows_sessions (tunFd : Nat) (mtu ulStart dlStart : Int) (inputs : List Input)
    (promised : Admits next (Promised tunFd) (start tunFd mtu ulStart dlStart) inputs) :
    (inputs.foldl next (start tunFd mtu ulStart dlStart)).Exact tunFd ∧
      ∀ past input future, inputs = past ++ input :: future →
        let poller := past.foldl next (start tunFd mtu ulStart dlStart)
        Admits PollSet.apply PollSet.Accepts poller.polled (poller.system.effects input) := by
  obtain ⟨kept, accepted⟩ := promised.steps (Kept · tunFd) (fun _ _ kept promised => kept.step promised)
    (kept_start tunFd mtu ulStart dlStart)
  exact ⟨kept.exact, accepted⟩

theorem interest_follows_sessions_reused :
    let inputs : List Input := [.tunReadable sampleSyn (.smooth 7 0), .socketReady 7 ⟨false, true⟩ (.smooth []),
      .tunReadable sampleSyn (.smooth 7 0)]
    (inputs.foldl next (start 3 1500 0 0)).Exact 3 ∧
      ∀ past input future, inputs = past ++ input :: future →
        let poller := past.foldl next (start 3 1500 0 0)
        Admits PollSet.apply PollSet.Accepts poller.polled (poller.system.effects input) :=
  interest_follows_sessions 3 1500 0 0 _ (by decide +kernel)

end Poller

end ThrottleVpn.Tun2Socks
