import ThrottleVpn.Tun2Socks.Datagrams
import ThrottleVpn.Tun2Socks.PollSet

/-! `VpnService.protect`: the relay sockets bypass the VPN.

A socket that is not protected would send into the TUN what the engine reads from it.
Each one is protected between `socket()` and `connect()`, or closed at once.
-/

set_option autoImplicit false

namespace ThrottleVpn.Tun2Socks

open Foundation

def Input.protects : Input → Bool
  | .tunReadable _ replies => replies.protect
  | .socketReady _ _ _ | .cleanup _ | .setRates _ _ => false

abbrev Shield := Nat → Bool

namespace Shield

/-- `protect_socket` is called right after `socket()`. -/
def apply (answer : Bool) (shield : Shield) : Effect → Shield
  | .socket fd _ => Function.update shield fd answer
  | .close fd => Function.update shield fd false
  | _ => shield

def run (answer : Bool) (shield : Shield) (effects : List Effect) : Shield := effects.foldl (apply answer) shield

/-- A call that may send goes to a protected socket. -/
def Permits (shield : Shield) : Effect → Prop
  | .connect fd _ _ _ | .send fd _ _ | .recv fd _ | .shutdown fd => shield fd = true
  | _ => True

def Covers (shield : Shield) (kernel : Kernel) : Prop := ∀ fd, (kernel fd).isSome → shield fd = true

end Shield

def Effect.Creates : Effect → Prop
  | .socket _ _ => True
  | _ => False

theorem Effect.On.creates {effect : Effect} {fd : Nat} (on : effect.On fd) : ¬effect.Creates := by
  cases effect <;> first | exact on.elim | exact id

theorem closings_create (fds : List Nat) : ∀ effect ∈ closings fds, ¬effect.Creates := by
  intro effect member
  simp only [closings, List.mem_flatMap, List.mem_cons, List.not_mem_nil, or_false] at member
  obtain ⟨fd, -, rfl | rfl⟩ := member <;> exact id

namespace Shield
variable {answer : Bool} {shield : Shield} {kernel : Kernel} {flow : Option Flow} {owner : Nat}
  {effects : List Effect}

theorem Covers.run (covers : shield.Covers kernel)
    (valid : Admits (Kernel.apply flow owner) Kernel.Valid kernel effects)
    (protects : answer = true ∨ ∀ effect ∈ effects, ¬effect.Creates) :
    Admits (apply answer) Permits shield effects ∧
      (shield.run answer effects).Covers (kernel.run flow owner effects) := by
  induction effects generalizing shield kernel with
  | nil => exact ⟨trivial, covers⟩
  | cons effect rest ih =>
    have used := valid.1
    have after : (apply answer shield effect).Covers (kernel.apply flow owner effect) := by
      intro fd isOpen
      cases effect with
      | socket opened protocol =>
        by_cases same : fd = opened
        · rcases protects with answered | none
          · simp [apply, same, answered]
          · exact absurd trivial (none _ List.mem_cons_self)
        · simp only [apply, Kernel.apply, Function.update_of_ne same] at isOpen ⊢
          exact covers fd isOpen
      | close closed =>
        by_cases same : fd = closed
        · simp [Kernel.apply, same] at isOpen
        · simp only [apply, Kernel.apply, Function.update_of_ne same] at isOpen ⊢
          exact covers fd isOpen
      | connect opened =>
        by_cases same : fd = opened
        · exact covers fd (same ▸ used)
        · simp only [Kernel.apply, Function.update_of_ne same] at isOpen
          exact covers fd isOpen
      | tunWrite | epollAdd | epollMod | epollDel | send | recv | shutdown | hold | release | sleep
      | outOfBounds =>
        exact covers fd isOpen
    obtain ⟨permitted, later⟩ := ih after valid.2
      (protects.imp_right fun none effect member => none effect (List.mem_cons_of_mem _ member))
    refine ⟨⟨?_, permitted⟩, later⟩
    cases effect with
    | connect fd | send fd | recv fd | shutdown fd => exact covers fd used
    | socket | close | tunWrite | epollAdd | epollMod | epollDel | hold | release | sleep | outOfBounds => trivial

/-- A socket that is not protected is closed before anything else happens. -/
theorem Covers.run_refused (covers : shield.Covers kernel) {fd : Nat} {protocol : Protocol}
    (valid : Admits (Kernel.apply flow owner) Kernel.Valid kernel (effects ++ [.socket fd protocol, .close fd]))
    (none : ∀ effect ∈ effects, ¬effect.Creates) :
    Admits (apply answer) Permits shield (effects ++ [.socket fd protocol, .close fd]) ∧
      (shield.run answer (effects ++ [.socket fd protocol, .close fd])).Covers
        (kernel.run flow owner (effects ++ [.socket fd protocol, .close fd])) := by
  obtain ⟨permitted, before⟩ := covers.run (admits_append.mp valid).1 (.inr none)
  refine ⟨admits_append.mpr ⟨permitted, trivial, trivial, trivial⟩, fun other isOpen => ?_⟩
  unfold Shield.run Kernel.run at before
  unfold Kernel.run at isOpen
  unfold Shield.run
  rw [List.foldl_append] at isOpen ⊢
  by_cases same : other = fd
  · simp [Kernel.apply, same] at isOpen
  · simp only [List.foldl_cons, List.foldl_nil, apply, Kernel.apply, Function.update_of_ne same] at isOpen ⊢
    exact before other isOpen

end Shield

/-! ### Steps and runs -/

/-- What a step creates: nothing unless it is protected, or a socket that is closed at once. -/
def Screened (input : Input) (effects : List Effect) : Prop :=
  (input.protects = true ∨ ∀ effect ∈ effects, ¬effect.Creates) ∨
    ∃ before fd protocol, effects = before ++ [.socket fd protocol, .close fd] ∧ ∀ effect ∈ before, ¬effect.Creates

theorem TunReplies.opens_protected {replies : TunReplies} {fd : Nat} (opens : replies.opens = some fd) :
    replies.protect = true := by
  unfold TunReplies.opens at opens
  split at opens
  next accepted => exact accepted.2
  next => cases opens

theorem TunReplies.opening_screened {queued : List UInt8} {replies : TunReplies} (protocol : Protocol)
    (flow : Flow)
    (interest : EpollEvents) {before : List Effect} (none : ∀ effect ∈ before, ¬effect.Creates) :
    Screened (.tunReadable queued replies) (before ++ replies.opening protocol flow interest) := by
  -- `protect` is asked before `connect`, and a refused socket is closed at once
  cases opens : replies.opens with
  | some fd => exact .inl (.inl (TunReplies.opens_protected opens))
  | none =>
    rcases TunReplies.opening_none opens protocol flow interest with nothing | ⟨fd, refused⟩
    · rw [nothing, List.append_nil]
      exact .inl (.inr none)
    · rw [refused]
      exact .inr ⟨before, fd, protocol, rfl, none⟩

namespace Sessions
variable {mtu : Int} {sessions next : Sessions} {input : Input} {effects : List Effect}

theorem Move.screened (move : Move mtu sessions (input, effects) next) : Screened input effects := by
  generalize same : (input, effects) = label at move
  have idle : ∀ {pause : List Effect}, (∀ effect ∈ pause, effect.Idle) → ∀ effect ∈ pause, ¬effect.Creates :=
    fun pauses effect member => ((pauses effect member).on 0).creates
  cases move with
  | @handled input' session event pause known serves pauses =>
    obtain ⟨rfl, rfl⟩ := Prod.mk.inj same
    refine .inl (.inr ?_)
    simp only [List.forall_mem_append]
    exact ⟨⟨fun effect member => (event.call_on _ effect member).creates, idle pauses⟩,
      fun effect member => (session.handle_on mtu event effect member).creates,
      (session.handle mtu event).forall_closing (fun _ => id) fun _ => id⟩
  | @opened queued replies flow hdr payload pause decoded opens pauses =>
    obtain ⟨rfl, rfl⟩ := Prod.mk.inj same
    rw [← List.append_assoc]
    apply TunReplies.opening_screened
    rw [List.forall_mem_append, closing_eq]
    exact ⟨idle pauses, closings_create _⟩
  | @relayed queued replies session hdr payload pause decoded known pauses =>
    obtain ⟨rfl, rfl⟩ := Prod.mk.inj same
    refine .inl (.inr ?_)
    rw [List.forall_mem_append]
    exact ⟨idle pauses, by simp [Effect.Creates]⟩
  | @associated queued replies flow hdr payload fd pause decoded unknown opens pauses =>
    obtain ⟨rfl, rfl⟩ := Prod.mk.inj same
    -- an association is made only of a protected socket
    exact .inl (.inl (TunReplies.opens_protected opens))
  | @refused queued replies flow hdr payload pause decoded opens pauses =>
    obtain ⟨rfl, rfl⟩ := Prod.mk.inj same
    exact TunReplies.opening_screened _ _ _ (idle pauses)
  | @delivered events replies session data pause known pauses =>
    obtain ⟨rfl, rfl⟩ := Prod.mk.inj same
    refine .inl (.inr ?_)
    rw [List.cons_append, List.forall_mem_cons, List.forall_mem_append]
    exact ⟨id, idle pauses, by simp [Effect.Creates]⟩
  | swept =>
    obtain ⟨rfl, rfl⟩ := Prod.mk.inj same
    exact .inl (.inr (closings_create _))
  | @idle input' effects' quiet =>
    obtain ⟨rfl, rfl⟩ := Prod.mk.inj same
    exact .inl (.inr (forall_idle quiet (fun _ silent => (silent.on 0).creates) fun _ => id))

end Sessions

structure Protector where
  system : System
  shield : Shield

namespace Protector

def start (tunFd : Nat) (mtu ulStart dlStart : Int) : Protector where
  system := .start tunFd mtu ulStart dlStart
  shield := fun _ => false

def next (protector : Protector) (input : Input) : Protector :=
  ⟨protector.system.next input, protector.shield.run input.protects (protector.system.effects input)⟩

def Fresh (protector : Protector) (input : Input) : Prop := protector.system.Fresh input

instance (protector : Protector) (input : Input) : Decidable (protector.Fresh input) :=
  inferInstanceAs (Decidable (protector.system.Fresh input))

structure Protected (protector : Protector) : Prop where
  tcp : ∀ session ∈ protector.system.engine.tcpTable.records, protector.shield session.sockFd = true
  udp : ∀ session ∈ protector.system.engine.udpTable.records, protector.shield session.sockFd = true

structure Kept (protector : Protector) : Prop where
  owns : protector.system.Owns
  covers : protector.shield.Covers protector.system.kernel

theorem kept_start (tunFd : Nat) (mtu ulStart dlStart : Int) : (start tunFd mtu ulStart dlStart).Kept where
  owns := System.owns_start tunFd mtu ulStart dlStart
  covers := by
    intro fd isOpen
    cases isOpen

theorem Kept.step {protector : Protector} (kept : protector.Kept) {input : Input} (fresh : protector.Fresh input) :
    (protector.next input).Kept ∧ Screened input (protector.system.effects input) ∧
      Admits (Shield.apply input.protects) Shield.Permits protector.shield (protector.system.effects input) := by
  have valid := (kept.owns.step fresh).2
  have screened : Screened input (protector.system.effects input) := (kept.owns.tables.move input).screened
  suffices Admits (Shield.apply input.protects) Shield.Permits protector.shield (protector.system.effects input) ∧
      (protector.shield.run input.protects (protector.system.effects input)).Covers
        (protector.system.after input (protector.system.effects input)) from
    ⟨⟨kept.owns.next fresh, this.2⟩, screened, this.1⟩
  unfold System.after
  unfold System.Valid at valid
  rcases screened with protects | ⟨before, fd, protocol, lines, none⟩
  · exact kept.covers.run valid protects
  · rw [lines] at valid ⊢
    exact kept.covers.run_refused valid none

/-- In every run `connect`, `send`, `recv` and `shutdown` are called on protected sockets
only; every socket that stays open is protected, and every session has one. A socket
that is refused is closed by the next call, which is the last one of its step. -/
theorem traffic_bypasses_vpn (tunFd : Nat) (mtu ulStart dlStart : Int) (inputs : List Input)
    (fresh : Admits next Fresh (start tunFd mtu ulStart dlStart) inputs) :
    let last := inputs.foldl next (start tunFd mtu ulStart dlStart)
    last.Protected ∧ last.shield.Covers last.system.kernel ∧
      ∀ past input future, inputs = past ++ input :: future →
        let protector := past.foldl next (start tunFd mtu ulStart dlStart)
        Screened input (protector.system.effects input) ∧
          Admits (Shield.apply input.protects) Shield.Permits protector.shield (protector.system.effects input) := by
  intro last
  obtain ⟨kept, permitted⟩ := fresh.steps Kept (fun _ _ kept fresh => kept.step fresh)
    (kept_start tunFd mtu ulStart dlStart)
  refine ⟨⟨?_, ?_⟩, kept.covers, permitted⟩
  · intro session member
    exact kept.covers _ (kept.owns.tcp_isOpen (Buckets.mem_records.mp member))
  · intro session member
    exact kept.covers _ (kept.owns.udp_isOpen (Buckets.mem_records.mp member))

theorem traffic_bypasses_vpn_sample :
    let inputs : List Input := [.tunReadable sampleDatagram { TunReplies.smooth 7 0 with protect := false },
      .tunReadable sampleDatagram (.smooth 7 0)]
    let last := inputs.foldl next (start 3 1500 0 0)
    last.Protected ∧ last.shield.Covers last.system.kernel ∧
      ∀ past input future, inputs = past ++ input :: future →
        let protector := past.foldl next (start 3 1500 0 0)
        Screened input (protector.system.effects input) ∧
          Admits (Shield.apply input.protects) Shield.Permits protector.shield (protector.system.effects input) :=
  traffic_bypasses_vpn 3 1500 0 0 _ (by decide +kernel)

end Protector

end ThrottleVpn.Tun2Socks
