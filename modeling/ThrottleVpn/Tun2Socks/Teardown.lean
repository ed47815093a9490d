import Mathlib.Data.List.Perm.Basic
import ThrottleVpn.Foundation.Refinement
import ThrottleVpn.Tun2Socks.Sockets

/-! The end of `engine_stop`, when the loop has exited: every session is torn down.

Over its whole life the engine closes each descriptor as often as it was opened.
-/

set_option autoImplicit false

namespace ThrottleVpn.Tun2Socks

open Foundation

namespace Engine

@[irreducible] def tornDown (engine : Engine) : List Nat :=
  (List.finRange sessionTableSize).flatMap fun index =>
    (engine.tcpTable index).map TcpSession.sockFd ++ (engine.udpTable index).map UdpSession.sockFd

/-- No `epoll_ctl`: the epoll descriptor is closed right after. -/
def teardown (engine : Engine) : Engine × List Effect :=
  ({ engine with tcpTable := fun _ => [], udpTable := fun _ => [] }, engine.tornDown.map Effect.close)

theorem teardown_effects (engine : Engine) : engine.teardown.2 = engine.tornDown.map Effect.close := by
  rw [teardown]

theorem tornDown_perm (engine : Engine) :
    engine.tornDown.Perm (engine.tcpTable.records.map TcpSession.sockFd ++
      engine.udpTable.records.map UdpSession.sockFd) := by
  unfold tornDown Buckets.records
  rw [List.map_flatMap, List.map_flatMap]
  exact (List.flatMap_append_perm ..).symm

end Engine

def openings (fd : Nat) (effects : List Effect) : Nat :=
  effects.countP fun
    | .socket opened _ => opened == fd
    | _ => false

def closes (fd : Nat) (effects : List Effect) : Nat := effects.count (.close fd)

theorem openings_append (fd : Nat) (first second : List Effect) :
    openings fd (first ++ second) = openings fd first + openings fd second := List.countP_append

theorem closes_append (fd : Nat) (first second : List Effect) :
    closes fd (first ++ second) = closes fd first + closes fd second := List.count_append

namespace Kernel

def held (kernel : Kernel) (fd : Nat) : Nat := if (kernel fd).isSome then 1 else 0

theorem balance {flow : Option Flow} {owner : Nat} {effects : List Effect} {kernel : Kernel} (fd : Nat)
    (fresh : Admits (apply flow owner) Fresh kernel effects)
    (valid : Admits (apply flow owner) Valid kernel effects) :
    kernel.held fd + openings fd effects = (kernel.run flow owner effects).held fd + closes fd effects := by
  induction effects generalizing kernel with
  | nil => rfl
  | cons effect rest ih =>
    have later := ih fresh.2 valid.2
    have here := fresh.1
    have used := valid.1
    have lines : effect :: rest = [effect] ++ rest := rfl
    rw [lines, openings_append, closes_append]
    have ran : kernel.run flow owner ([effect] ++ rest) =
        (apply flow owner kernel effect).run flow owner rest := rfl
    rw [ran]
    -- one call at a time
    suffices kernel.held fd + openings fd [effect] =
        (apply flow owner kernel effect).held fd + closes fd [effect] by
      omega
    cases effect with
    | socket opened protocol =>
      by_cases same : opened = fd
      · subst same
        simp [held, openings, closes, apply, show kernel opened = none from here]
      · simp [held, openings, closes, apply, same, Ne.symm same]
    | close closed =>
      by_cases same : closed = fd
      · subst same
        simp [held, openings, closes, apply, show (kernel closed).isSome from used]
      · simp [held, openings, closes, apply, same, Ne.symm same]
    | connect opened =>
      by_cases same : opened = fd
      · subst same
        simp [held, openings, closes, apply]
      · simp [held, openings, closes, apply, Ne.symm same]
    | tunWrite | epollAdd | epollMod | epollDel | send | recv | shutdown | hold | release | sleep | outOfBounds =>
      simp only [openings, closes, List.countP_singleton, List.count_singleton, reduceCtorEq, beq_iff_eq,
        Bool.false_eq_true, if_false]
      rfl

theorem run_closes (flow : Option Flow) (owner : Nat) (kernel : Kernel) (fds : List Nat) :
    kernel.run flow owner (fds.map Effect.close) = kernel.without fds := by
  induction fds generalizing kernel with
  | nil => rfl
  | cons fd rest ih =>
    have here : kernel.run flow owner ((fd :: rest).map Effect.close) =
        (Kernel.run flow owner (Function.update kernel fd none) (rest.map Effect.close)) := rfl
    rw [here, ih, without_cons]

theorem valid_closes (flow : Option Flow) (owner : Nat) {kernel : Kernel} {fds : List Nat} (distinct : fds.Nodup)
    (isOpen : ∀ fd ∈ fds, (kernel fd).isSome) :
    Admits (apply flow owner) Valid kernel (fds.map Effect.close) := by
  induction fds generalizing kernel with
  | nil => trivial
  | cons fd rest ih =>
    rw [List.nodup_cons] at distinct
    rw [List.forall_mem_cons] at isOpen
    refine ⟨isOpen.1, ih distinct.2 fun other member => ?_⟩
    have different : other ≠ fd := fun same => distinct.1 (same ▸ member)
    simp only [apply, Function.update_of_ne different]
    exact isOpen.2 other member

end Kernel

namespace System

theorem run_balance {system : System} (owns : system.Owns) {inputs : List Input}
    (fresh : Admits next Fresh system inputs) (fd : Nat) :
    system.kernel.held fd + openings fd (trace next effects system inputs).flatten =
      (inputs.foldl next system).kernel.held fd + closes fd (trace next effects system inputs).flatten := by
  induction inputs generalizing system with
  | nil => rfl
  | cons input rest ih =>
    have here := Kernel.balance fd fresh.1 (owns.step fresh.1).2
    have later := ih (owns.next fresh.1) fresh.2
    rw [trace, List.flatten_cons, openings_append, closes_append, List.foldl_cons]
    have ran : (system.next input).kernel =
        system.kernel.run input.flow? system.engine.nextAddr (system.effects input) :=
      rfl
    rw [ran] at later
    omega

theorem teardown_closes {system : System} (owns : system.Owns) :
    let final := system.engine.teardown.2
    Admits (Kernel.apply none 0) Kernel.Fresh system.kernel final ∧
      Admits (Kernel.apply none 0) Kernel.Valid system.kernel final ∧
      ∀ fd, system.kernel.run none 0 final fd = none := by
  intro final
  have lines : final = system.engine.tornDown.map Effect.close := system.engine.teardown_effects
  have consistent := owns.consistent
  -- the open descriptors are those of the sessions
  have isOpen : ∀ fd, (system.kernel fd).isSome ↔ fd ∈ system.engine.tornDown := by
    intro fd
    rw [consistent.sockets fd, system.engine.tornDown_perm.mem_iff]
  have distinct := system.engine.tornDown_perm.nodup_iff.mpr consistent.descriptors
  rw [lines]
  refine ⟨?_, Kernel.valid_closes none 0 distinct fun fd member => (isOpen fd).mpr member, fun fd => ?_⟩
  · apply admits_of_forall
    intro effect member kernel
    obtain ⟨fd, -, rfl⟩ := List.mem_map.mp member
    trivial
  · rw [Kernel.run_closes]
    unfold Kernel.without
    split
    · rfl
    next outside => exact Option.not_isSome_iff_eq_none.mp (mt (isOpen fd).mp outside)

/-- Whenever the engine is stopped, the teardown closes open descriptors only, each of
them once and all of them; each descriptor was then closed as often as it was opened. -/
theorem no_socket_outlives_stop (tunFd : Nat) (mtu ulStart dlStart : Int) (inputs : List Input)
    (fresh : Admits next Fresh (start tunFd mtu ulStart dlStart) inputs) :
    let system := inputs.foldl next (start tunFd mtu ulStart dlStart)
    let final := system.engine.teardown.2
    let calls := (trace next effects (start tunFd mtu ulStart dlStart) inputs).flatten ++ final
    Admits (Kernel.apply none 0) Kernel.Valid system.kernel final ∧
      (∀ fd, system.kernel.run none 0 final fd = none) ∧ ∀ fd, openings fd calls = closes fd calls := by
  intro system final calls
  obtain ⟨quiet, valid, nothing⟩ := teardown_closes (owns_run fresh)
  refine ⟨valid, nothing, fun fd => ?_⟩
  have run := run_balance (owns_start tunFd mtu ulStart dlStart) fresh fd
  have rest := Kernel.balance fd quiet valid
  have before : (start tunFd mtu ulStart dlStart).kernel.held fd = 0 := rfl
  have after : (system.kernel.run none 0 final).held fd = 0 := by
    unfold Kernel.held
    rw [nothing fd]
    rfl
  simp only [calls, openings_append, closes_append]
  simp only [system, final] at rest after ⊢
  omega

theorem no_socket_outlives_stop_sample :
    let inputs : List Input := List.replicate 2 (.tunReadable sampleSyn (.smooth 7 0))
    let system := inputs.foldl next (start 3 1500 0 0)
    let final := system.engine.teardown.2
    let calls := (trace next effects (start 3 1500 0 0) inputs).flatten ++ final
    Admits (Kernel.apply none 0) Kernel.Valid system.kernel final ∧
      (∀ fd, system.kernel.run none 0 final fd = none) ∧ ∀ fd, openings fd calls = closes fd calls :=
  no_socket_outlives_stop 3 1500 0 0 _ (by decide +kernel)

end System

end ThrottleVpn.Tun2Socks
