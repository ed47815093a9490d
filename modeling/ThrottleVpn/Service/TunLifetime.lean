import ThrottleVpn.Service.Codes
import ThrottleVpn.Service.Engines

/-! The TUN descriptor and the engine thread.

`doStop` closes the descriptor after `engine_stop` has joined the thread, `establish`
before it. As long as no engine thread is running when `establish` closes it, and the
engine is started and stopped by one task at a time, every engine thread works on the
open descriptor that it was started with.
-/

set_option autoImplicit false

namespace ThrottleVpn.Service

open Foundation Function

/-! ### Codes that have to do with the descriptor -/

def SetsNone (code : List Stmt) : Prop := .memset ∉ code ∧ ∀ tun, .setFields tun ∉ code

def TunOpen (m : Memory) : Prop := ∃ tun, m.native.tunFd = some tun ∧ tun ∈ m.tuns

/-- `engine_start` is going to set an open descriptor, or the thread that the code is
going to create finds one. -/
def Addressed (m : Memory) (code : List Stmt) : Prop :=
  SetsNone code ∧ (.createThread ∈ code → TunOpen m) ∨
    ∃ tun ∈ m.tuns, ∃ rest, SetsNone rest ∧
      (code = .memset :: .setFields tun :: rest ∨ code = .setFields tun :: rest)

def Uninvolved (code : List Stmt) : Prop := SetsNone code ∧ .createThread ∉ code

/-- `vpnFd?.close()` stands before `engine?.stop()`, as in `establish`, or before the
engine is dropped, as in `doStop`. -/
def ClosesTun (stmt : Stmt) (rest : List Stmt) : Prop :=
  stmt = .closeVpnFd → rest.head? = some .stopEngine ∨ rest.take 2 = [.clearVpnFd, .clearEngine]

theorem placing_closesTun : Placing ClosesTun where
  called stmt called rest := by
    rintro rfl
    cases called
  launched := by simp [InPlace, ClosesTun, startBody, reconnectBody, collectStats, establish, registerNetCb]
  caught := by simp [InPlace, ClosesTun, onFailure]
  main := by simp [InPlace, ClosesTun, doStart, doStop, onDestroy]
  network := by simp [InPlace, ClosesTun, onAvailable, onLost]

theorem Uninvolved.addressed {code : List Stmt} (uninvolved : Uninvolved code) (m : Memory) : Addressed m code :=
  .inl ⟨uninvolved.1, fun creates => absurd creates uninvolved.2⟩

theorem Addressed.mono {m after : Memory} {code : List Stmt} (addressed : Addressed m code)
    (tunFd : after.native.tunFd = m.native.tunFd) (tuns : ∀ tun ∈ m.tuns, tun ∈ after.tuns) :
    Addressed after code := by
  refine addressed.imp (And.imp_right fun creates among => ?_) (Exists.imp fun tun => And.imp_left (tuns tun))
  obtain ⟨tun, same, inside⟩ := creates among
  exact ⟨tun, tunFd.trans same, tuns tun inside⟩

/-- Inside `engine_start`. -/
def EnginePhase.starting : EnginePhase → Bool
  | .launching | .zeroed | .booting => true
  | _ => false

theorem phase_of_createThread {code : List Stmt} (creates : .createThread ∈ code) :
    (engineOutline.phase code).starting = true ∨ engineOutline.phase code = .bad := by
  induction code with
  | nil => cases creates
  | cons stmt rest ih =>
    rw [Outline.phase_cons, engineOutline_pre]
    rcases List.mem_cons.mp creates with rfl | later
    · generalize engineOutline.phase rest = phase
      cases phase <;> simp [EnginePhase.pre, EnginePhase.starting]
    · have before := ih later
      generalize engineOutline.phase rest = phase at before
      cases phase <;> simp only [EnginePhase.starting, reduceCtorEq, or_self, Bool.false_eq_true] at before <;>
        cases stmt <;> simp [EnginePhase.pre, EnginePhase.starting]

theorem Addressed.uninvolved {m : Memory} {code : List Stmt} (addressed : Addressed m code)
    (idle : (engineOutline.phase code).starting = false) (usable : engineOutline.phase code ≠ .bad) :
    Uninvolved code := by
  rcases addressed with ⟨setsNone, -⟩ | ⟨tun, -, rest, -, rfl | rfl⟩
  · refine ⟨setsNone, fun creates => ?_⟩
    rcases phase_of_createThread creates with starts | bad
    · rw [idle] at starts
      cases starts
    · exact usable bad
  · rw [Outline.phase_cons, Outline.phase_cons, engineOutline_pre, engineOutline_pre] at idle usable
    generalize engineOutline.phase rest = phase at idle usable
    cases phase <;> first | exact absurd rfl usable | cases idle
  · rw [Outline.phase_cons, engineOutline_pre] at idle usable
    generalize engineOutline.phase rest = phase at idle usable
    cases phase <;> first | exact absurd rfl usable | cases idle

theorem phase_of_closeVpnFd {rest : List Stmt} (inPlace : ClosesTun .closeVpnFd rest) :
    engineOutline.phase (.closeVpnFd :: rest) = .out ∨ engineOutline.phase (.closeVpnFd :: rest) = .down ∨
      engineOutline.phase (.closeVpnFd :: rest) = .bad := by
  rcases inPlace rfl with next | next
  · obtain ⟨others, rfl⟩ := List.head?_eq_some_iff.mp next
    simp only [Outline.phase_cons, engineOutline_pre]
    generalize engineOutline.phase others = phase
    cases phase <;> simp [EnginePhase.pre]
  · have split : rest = [.clearVpnFd, .clearEngine] ++ rest.drop 2 := by rw [← next, List.take_append_drop]
    rw [split]
    simp only [List.cons_append, List.nil_append, Outline.phase_cons, engineOutline_pre]
    generalize engineOutline.phase (rest.drop 2) = phase
    cases phase <;> simp [EnginePhase.pre]

/-! ### Statements -/

def Stmt.movesTun : Stmt → Bool
  | .closeVpnFd | .buildVpnFd | .startEngine | .memset | .setFields _ | .createThread => true
  | _ => false

structure SameTun (m after : Memory) : Prop where
  tunFd : after.native.tunFd = m.native.tunFd
  tuns : after.tuns = m.tuns
  threads : after.threads = m.threads

theorem exec_sameTun {stmt : Stmt} (still : stmt.movesTun = false) (o : Nat) (answer : Answer) (m : Memory)
    (rest : List Stmt) {handler : List Stmt} (recovers : handler = [] ∨ handler = onFailure) :
    (stmt.exec o answer m).Leads m rest handler fun after code new =>
      SameTun m after ∧ (SetsNone rest → SetsNone code) ∧ (.createThread ∈ code → .createThread ∈ rest) ∧
        (∀ launched ∈ new, Uninvolved launched.code) := by
  cases stmt <;> simp only [Stmt.movesTun, reduceCtorEq] at still <;> simp only [Stmt.exec] <;>
    (repeat' split) <;> simp only [Outcome.Leads]
  all_goals first
    | trivial
    | refine ⟨⟨rfl, rfl, rfl⟩, ?_, ?_, ?_⟩
  all_goals rcases recovers with rfl | rfl <;>
    simp [SetsNone, Uninvolved, onFailure, engineStop, updateCaps, startBody, reconnectBody, collectStats, establish,
      registerNetCb]

/-! ### Steps -/

theorem Quiet.no_threads {m : Memory} (quiet : Quiet m) (sound : Sound m) : m.threads = [] := by
  rw [List.eq_nil_iff_forall_not_mem]
  intro thread alive
  obtain ⟨created, unjoined⟩ := sound.alive thread alive
  obtain ⟨past, future, split⟩ := List.mem_iff_append.mp (quiet thread created)
  have joined : .pthreadJoin (some thread) ∈ past := sound.judged past _ future split
  exact unjoined (split ▸ List.mem_append_left _ joined)

structure TunHeld (s : State) : Prop where
  addressed : ∀ task ∈ s.tasks, Addressed s.memory task.code
  opened : s.memory.threads ≠ [] → TunOpen s.memory

def SteadyTun (m after : Memory) : Prop :=
  ∀ thread ∈ after.threads, thread ∈ m.threads → after.native.tunFd = m.native.tunFd

structure TunTurn (s : State) (k : Nat) (after : Memory) (code : List Stmt) (new : List (Task Site Stmt)) :
    Prop where
  mover : Addressed after code
  others : ∀ j other, j ≠ k → s.At j other → Addressed after other.code
  launched : ∀ other ∈ new, Uninvolved other.code
  opened : after.threads ≠ [] → TunOpen after
  steady : SteadyTun s.memory after

section
variable {refused : Nat → Bool} {s : State} {k : Nat} {task : Task Site Stmt} {stmt : Stmt} {rest : List Stmt}

theorem TunTurn.held {after : Memory} {code : List Stmt} {new : List (Task Site Stmt)}
    (turn : TunTurn s k after code new) : TunHeld (s.replace k task after code new) where
  addressed other among := by
    obtain ⟨j, there⟩ := System.exists_at among
    rcases System.at_replace there with ⟨-, rfl⟩ | ⟨distinct, there⟩ | among
    · exact turn.mover
    · exact turn.others j other distinct there
    · exact (turn.launched other among).addressed after
  opened := turn.opened

theorem TunHeld.turn_of_mono (held : TunHeld s) {after : Memory} {code : List Stmt} {new : List (Task Site Stmt)}
    (tunFd : after.native.tunFd = s.memory.native.tunFd) (tuns : ∀ tun ∈ s.memory.tuns, tun ∈ after.tuns)
    (threads : after.threads = s.memory.threads) (mover : Addressed after code)
    (launched : ∀ other ∈ new, Uninvolved other.code) : TunTurn s k after code new where
  mover := mover
  others _ _ _ there := (held.addressed _ there.mem).mono tunFd tuns
  launched := launched
  opened busy := by
    obtain ⟨tun, same, inside⟩ := held.opened (threads ▸ busy)
    exact ⟨tun, tunFd.trans same, tuns tun inside⟩
  steady _ _ _ := tunFd

theorem turn_of_alone {after : Memory} {code : List Stmt}
    (others : ∀ j other, j ≠ k → s.At j other → Uninvolved other.code) (quiet : s.memory.threads = [])
    (mover : Addressed after code) (opened : after.threads ≠ [] → TunOpen after) : TunTurn s k after code [] where
  mover := mover
  others j other distinct there := (others j other distinct there).addressed after
  launched _ among := by cases among
  opened := opened
  steady thread _ alive := absurd alive (by simp [quiet])

theorem Addressed.of_cons {m : Memory} (addressed : Addressed m (stmt :: rest)) (zeroes : stmt ≠ .memset)
    (sets : ∀ tun, stmt ≠ .setFields tun) :
    SetsNone rest ∧ (.createThread ∈ stmt :: rest → TunOpen m) := by
  rcases addressed with ⟨⟨noMemset, noFields⟩, creates⟩ | ⟨tun, -, later, -, same | same⟩
  · refine ⟨⟨fun among => noMemset (List.mem_cons_of_mem _ among), fun tun among => ?_⟩, creates⟩
    exact noFields tun (List.mem_cons_of_mem _ among)
  · exact absurd (List.cons.inj same).1 zeroes
  · exact absurd (List.cons.inj same).1 (sets tun)

theorem EngineGuarded.starting (guarded : EngineGuarded refused s) (here : s.At k task) (next : task.code = stmt :: rest)
    (starts : stmt = .memset ∨ (∃ tun, stmt = .setFields tun) ∨ stmt = .createThread) :
    engineOutline.Inside task.code ∧ s.memory.threads = [] := by
  have phases : engineOutline.phase task.code = .launching ∨ engineOutline.phase task.code = .zeroed ∨
      engineOutline.phase task.code = .booting ∨ engineOutline.phase task.code = .bad := by
    rw [next, Outline.phase_cons, engineOutline_pre]
    generalize engineOutline.phase rest = phase
    rcases starts with rfl | ⟨tun, rfl⟩ | rfl <;> cases phase <;> simp [EnginePhase.pre]
  have inside : engineOutline.Inside task.code := by
    unfold Outline.Inside
    rcases phases with phase | phase | phase | phase <;> simp [phase]
  have active : ¬Passive refused k task.code := by
    rintro ⟨-, waiting⟩
    rw [next] at waiting
    rcases starts with rfl | ⟨tun, rfl⟩ | rfl <;> cases waiting
  obtain ⟨sound, assert⟩ := guarded.holds k task (at_engaged here active) inside
  refine ⟨inside, ?_⟩
  rcases phases with phase | phase | phase | phase <;> rw [phase] at assert
  · exact assert.2.2.no_threads sound
  · exact assert.2.2.1.no_threads sound
  · exact assert.2.2.1.no_threads sound
  · exact assert.elim

/-- `establish` closes the TUN while no engine thread is running, and nobody is inside
`engine_start`. -/
def ClosesIdle (s : State) : Event → Prop
  | .run k _ => ∀ task ∈ s.tasks[k]?, .closeVpnFd ∈ task.code.head? → ¬engineOutline.Inside task.code →
    (∀ other ∈ s.tasks, (engineOutline.phase other.code).starting = false) ∧ s.memory.threads = []
  | _ => True

instance (s : State) : (event : Event) → Decidable (ClosesIdle s event)
  | .run k _ => inferInstanceAs (Decidable (∀ task ∈ s.tasks[k]?, _ → _ → _))
  | .start | .stop | .revoke | .destroy | .applyCaps _ _ | .available _ _ | .lost _ _ | .exit _ =>
    inferInstanceAs (Decidable True)

/-- Every statement does its part. -/
theorem TunHeld.exec (held : TunHeld s) (guarded : EngineGuarded refused s) (owned : Owned s)
    (closes : AllInPlace ClosesTun s) {answer : Answer}
    (idle : ClosesIdle s (.run k answer)) (here : s.At k task) (next : task.code = stmt :: rest) :
    (stmt.exec task.site.service answer s.memory).Leads s.memory rest task.handler (TunTurn s k) := by
  have recovers := owned.handler task here.mem
  have addressed := held.addressed task here.mem
  rw [next] at addressed
  -- while this task is inside its section, the others are not concerned
  have others : engineOutline.Inside task.code → ¬Passive refused k task.code →
      ∀ j other, j ≠ k → s.At j other → Uninvolved other.code := by
    intro inside active j other distinct there
    refine (held.addressed other there.mem).uninvolved ?_ (guarded.usable there)
    by_cases passive : Passive refused j other.code
    · rcases phase_of_waits passive.2 with phase | phase <;> rw [phase] <;> rfl
    · have outside : ¬engineOutline.Inside other.code := fun within =>
        distinct (guarded.only j k task other (at_engaged here active) (at_engaged there passive) inside within)
      rw [not_not.mp outside]
      rfl
  have engages : waits (stmt :: rest) = false → ¬Passive refused k task.code := by
    rintro active ⟨-, waiting⟩
    rw [next, active] at waiting
    cases waiting
  cases moves : stmt.movesTun with
  | false =>
    obtain ⟨setsNone, creates⟩ := addressed.of_cons (by rintro rfl; cases moves) (by rintro tun rfl; cases moves)
    apply (exec_sameTun moves task.site.service answer s.memory rest recovers).mono
    rintro after code new ⟨⟨tunFd, tuns, threads⟩, setsNone', creates', launched⟩
    have before : Addressed s.memory code :=
      .inl ⟨setsNone' setsNone, fun among => creates (List.mem_cons_of_mem _ (creates' among))⟩
    have mono : ∀ tun ∈ s.memory.tuns, tun ∈ after.tuns := fun tun among => tuns ▸ among
    exact held.turn_of_mono tunFd mono threads (before.mono tunFd mono) launched
  | true =>
    have handled : Uninvolved task.handler := by
      rcases recovers with same | same <;> simp [same, Uninvolved, SetsNone, onFailure]
    cases stmt <;> simp only [Stmt.movesTun, reduceCtorEq] at moves
    case closeVpnFd =>
      have setsNone := (addressed.of_cons (by simp) (by simp)).1
      -- no thread runs, and nobody else is about to start one
      have alone : s.memory.threads = [] ∧ .createThread ∉ rest ∧
          ∀ j other, j ≠ k → s.At j other → Uninvolved other.code := by
        by_cases inside : engineOutline.Inside task.code
        · have inPlace := closes task here.mem
          obtain ⟨sound, assert⟩ := guarded.holds k task (at_engaged here (engages rfl)) inside
          rw [next] at inPlace assert inside
          have down : engineOutline.phase (.closeVpnFd :: rest) = .down := by
            rcases phase_of_closeVpnFd inPlace.1 with phase | phase | phase
            · exact absurd phase inside
            · exact phase
            · rw [phase] at assert
              exact assert.elim
          refine ⟨?_, fun creates => ?_, others (next ▸ inside) (engages rfl)⟩
          · rw [down] at assert
            exact assert.2.1.no_threads sound
          · rcases phase_of_createThread (List.mem_cons_of_mem .closeVpnFd creates) with phase | phase <;>
              rw [down] at phase <;> cases phase
        · obtain ⟨clear, quiet⟩ := idle task here (by simp [next]) inside
          have uninvolved : ∀ j other, s.At j other → Uninvolved other.code := fun j other there =>
            (held.addressed other there.mem).uninvolved (clear other there.mem) (guarded.usable there)
          refine ⟨quiet, fun creates => ?_, fun j other _ there => uninvolved j other there⟩
          exact (uninvolved k task here).2 (next ▸ List.mem_cons_of_mem _ creates)
      obtain ⟨quiet, creates, others⟩ := alone
      have mover : ∀ m, Addressed m rest := Uninvolved.addressed ⟨setsNone, creates⟩
      rw [Stmt.exec]
      split
      · exact turn_of_alone others quiet (mover _) fun busy => absurd quiet busy
      · exact turn_of_alone others quiet (mover _) fun busy => absurd quiet busy
    case buildVpnFd =>
      obtain ⟨setsNone, creates⟩ := addressed.of_cons (by simp) (by simp)
      have before : Addressed s.memory rest := .inl ⟨setsNone, fun among => creates (List.mem_cons_of_mem _ among)⟩
      rw [Stmt.exec]
      split
      · have grown : ∀ tun ∈ s.memory.tuns, tun ∈ s.memory.fresh :: s.memory.tuns :=
          fun tun among => List.mem_cons_of_mem _ among
        exact held.turn_of_mono rfl grown rfl (before.mono rfl grown) (by simp)
      · exact held.turn_of_mono rfl (fun _ => id) rfl (handled.addressed _) (by simp)
    case startEngine =>
      have setsNone := (addressed.of_cons (by simp) (by simp)).1
      rw [Stmt.exec]
      split
      next tun _ _ =>
        split
        next opened =>
          refine held.turn_of_mono rfl (fun _ => id) rfl (.inr ⟨tun, opened, _, ?_, .inl rfl⟩) (by simp)
          simpa [SetsNone] using setsNone
        next => exact held.turn_of_mono rfl (fun _ => id) rfl (handled.addressed _) (by simp)
      next => exact held.turn_of_mono rfl (fun _ => id) rfl (handled.addressed _) (by simp)
    case memset =>
      obtain ⟨inside, quiet⟩ := guarded.starting here next (.inl rfl)
      -- the descriptor to be set is the next thing in the code
      rcases addressed with ⟨⟨zeroes, -⟩, -⟩ | ⟨tun, opened, later, setsNone, same | same⟩
      · exact absurd List.mem_cons_self zeroes
      · obtain ⟨-, rfl⟩ := List.cons.inj same
        rw [Stmt.exec]
        exact turn_of_alone (others inside (engages rfl)) quiet (.inr ⟨tun, opened, later, setsNone, .inr rfl⟩)
          fun busy => absurd quiet busy
      · cases (List.cons.inj same).1
    case setFields tun =>
      obtain ⟨inside, quiet⟩ := guarded.starting here next (.inr (.inl ⟨tun, rfl⟩))
      rcases addressed with ⟨⟨-, sets⟩, -⟩ | ⟨tun, opened, later, setsNone, same | same⟩
      · exact absurd List.mem_cons_self (sets tun)
      · cases (List.cons.inj same).1
      · obtain ⟨first, rfl⟩ := List.cons.inj same
        cases first
        rw [Stmt.exec]
        exact turn_of_alone (others inside (engages rfl)) quiet (.inl ⟨setsNone, fun _ => ⟨tun, rfl, opened⟩⟩)
          fun busy => absurd quiet busy
    case createThread =>
      obtain ⟨inside, quiet⟩ := guarded.starting here next (.inr (.inr rfl))
      obtain ⟨setsNone, creates⟩ := addressed.of_cons (by simp) (by simp)
      have opened := creates List.mem_cons_self
      rw [Stmt.exec]
      split
      · exact turn_of_alone (others inside (engages rfl)) quiet (.inl ⟨setsNone, fun _ => opened⟩) fun _ => opened
      · exact turn_of_alone (others inside (engages rfl)) quiet (handled.addressed _) fun busy => absurd quiet busy

structure KeepsTun (s after : State) : Prop where
  held : TunHeld after
  steady : SteadyTun s.memory after.memory

theorem TunHeld.keeps (held : TunHeld s) : KeepsTun s s := ⟨held, fun _ _ _ => rfl⟩

theorem TunHeld.run (held : TunHeld s) (guarded : EngineGuarded refused s) (owned : Owned s)
    (closes : AllInPlace ClosesTun s) {answer : Answer} (idle : ClosesIdle s (.run k answer)) :
    KeepsTun s (System.run State.exec answer k s) := by
  apply System.run_of_leads held.keeps
  intro task stmt rest here next
  apply (held.exec guarded owned closes idle here next).mono
  intro after code new turn
  exact ⟨turn.held, turn.steady⟩

theorem TunHeld.call (held : TunHeld s) (thread : Thread) (o : Nat) {code : List Stmt}
    (uninvolved : Uninvolved code) : KeepsTun s (s.call thread o code) where
  held :=
    { addressed := fun other among => by
        rcases System.mem_spawn among with among | rfl
        · exact held.addressed other among
        · exact uninvolved.addressed _
      opened := held.opened }
  steady _ _ _ := rfl

theorem TunHeld.callCurrent (held : TunHeld s) {code : List Stmt} (uninvolved : Uninvolved code) :
    KeepsTun s (s.callCurrent code) :=
  State.callCurrent_of held.keeps fun o _ _ => held.call .main o uninvolved

theorem TunHeld.create (held : TunHeld s) : TunHeld s.create ∧ s.create.memory.threads = s.memory.threads ∧
    s.create.memory.native = s.memory.native := by
  unfold State.create
  split
  · exact ⟨⟨held.addressed, held.opened⟩, rfl, rfl⟩
  · exact ⟨held, rfl, rfl⟩

theorem TunHeld.step (held : TunHeld s) (guarded : EngineGuarded refused s) (owned : Owned s)
    (closes : AllInPlace ClosesTun s) (event : Event) (idle : ClosesIdle s event) : KeepsTun s (s.step event) := by
  have intent : ∀ {code : List Stmt}, Uninvolved code → KeepsTun s (s.create.callCurrent code) := by
    intro code uninvolved
    obtain ⟨created, threads, native⟩ := held.create
    obtain ⟨after, steady⟩ := created.callCurrent uninvolved
    refine ⟨after, fun thread alive before => ?_⟩
    rw [← native]
    exact steady thread alive (threads ▸ before)
  have heard : ∀ {callback : Nat} {code : List Stmt}, Uninvolved code → KeepsTun s (s.callback callback code) :=
    fun uninvolved => State.callback_of held.keeps fun o _ => held.call .network o uninvolved
  cases event with
  | start => exact intent (by simp [Uninvolved, SetsNone, doStart])
  | stop => exact intent (by simp [Uninvolved, SetsNone, doStop])
  | revoke => exact held.callCurrent (by simp [Uninvolved, SetsNone, doStop])
  | destroy => exact held.callCurrent (by simp [Uninvolved, SetsNone, onDestroy, doStop])
  | applyCaps dl ul => exact held.callCurrent (by simp [Uninvolved, SetsNone, updateCaps])
  | available callback network => exact heard (by simp [Uninvolved, SetsNone, onAvailable])
  | lost callback network => exact heard (by simp [Uninvolved, SetsNone, onLost])
  | run k answer =>
    simp only [State.step]
    split
    · exact held.keeps
    · exact held.run guarded owned closes idle
  | exit thread =>
    refine ⟨⟨held.addressed, fun busy => held.opened fun none => busy ?_⟩, fun _ _ _ => rfl⟩
    exact congrArg (List.filter (· ≠ thread)) none

end

theorem tunHeld_start : TunHeld State.start where
  addressed _ among := by cases among
  opened busy := absurd rfl busy

/-! ### Runs -/

structure Watched where
  state : State
  startedOn : Nat → Option Nat

def Watched.start : Watched := ⟨.start, fun _ => none⟩

def Watched.step (w : Watched) (event : Event) : Watched :=
  let after := w.state.step event
  ⟨after, fun thread =>
    if thread ∈ after.memory.threads ∧ thread ∉ w.state.memory.threads then after.memory.native.tunFd
    else w.startedOn thread⟩

/-- The TUN of every engine thread is open, and still the one that the engine uses. -/
def TunOutlives (w : Watched) : Prop :=
  ∀ thread ∈ w.state.memory.threads, ∃ tun, w.startedOn thread = some tun ∧
    w.state.memory.native.tunFd = some tun ∧ tun ∈ w.state.memory.tuns

/-- The sections that drive the engine exclude each other, and `establish` closes the
TUN only while the engine is not running. -/
def TunSafe (refused : Nat → Bool) (w : Watched) (event : Event) : Prop :=
  Exclusive refused w.state event ∧ ClosesIdle w.state event

instance (refused : Nat → Bool) (w : Watched) (event : Event) : Decidable (TunSafe refused w event) :=
  inferInstanceAs (Decidable (_ ∧ _))

structure TunInvariant (refused : Nat → Bool) (w : Watched) : Prop where
  guarded : EngineGuarded refused w.state
  owned : Owned w.state
  closes : AllInPlace ClosesTun w.state
  held : TunHeld w.state
  startedOn : ∀ thread ∈ w.state.memory.threads, w.startedOn thread = w.state.memory.native.tunFd

theorem TunInvariant.step {refused : Nat → Bool} {w : Watched} (invariant : TunInvariant refused w) (event : Event)
    (safe : TunSafe refused w event) : TunInvariant refused (w.step event) := by
  obtain ⟨guarded, owned, closes, held, startedOn⟩ := invariant
  obtain ⟨heldAfter, steady⟩ := held.step guarded owned closes event safe.2
  refine ⟨guarded.step owned event safe.1, owned.step event, closes.step placing_closesTun owned event, heldAfter,
    fun thread alive => ?_⟩
  by_cases before : thread ∈ w.state.memory.threads
  · have kept : (w.step event).startedOn thread = w.startedOn thread := if_neg fun both => both.2 before
    exact kept.trans ((startedOn thread before).trans (steady thread alive before).symm)
  · exact if_pos ⟨alive, before⟩

/-- In every run in which `establish` closes the TUN only while the engine is not
running, and the sections exclude each other, the TUN outlives the engine thread. -/
theorem tun_outlives_thread {refused : Nat → Bool} {events : List Event}
    (safe : Admits Watched.step (TunSafe refused) Watched.start events) :
    TunOutlives (events.foldl Watched.step Watched.start) := by
  have invariant := safe.invariant (TunInvariant refused) (fun w event holds allowed => holds.step event allowed)
    ⟨engineGuarded_start refused, owned_start, allInPlace_start, tunHeld_start, fun thread alive => by cases alive⟩
  intro thread alive
  obtain ⟨tun, same, opened⟩ := invariant.held.opened (List.ne_nil_of_mem alive)
  exact ⟨tun, (invariant.startedOn thread alive).trans same, same, opened⟩

theorem tun_outlives_restarted : TunOutlives (startRefusedStopStart.foldl Watched.step Watched.start) :=
  @tun_outlives_thread (· = 3) startRefusedStopStart (by decide +kernel)

/-- The network is lost and comes back: the new `establish` begins by closing the TUN,
with the engine thread still running on it. -/
def reconnecting : List Event :=
  .start :: Event.runs 0 3 .plain ++ Event.runs 1 22 .plain ++ Event.runs 2 2 .plain ++
    .lost 6 0 :: Event.runs 3 4 .plain ++ .available 6 0 :: Event.runs 4 2 .plain ++ Event.runs 5 2 .plain

instance (w : Watched) : Decidable (TunOutlives w) :=
  decidable_of_iff (∀ thread ∈ w.state.memory.threads, ∃ tun ∈ w.startedOn thread,
    w.state.memory.native.tunFd = some tun ∧ tun ∈ w.state.memory.tuns) Iff.rfl

theorem reconnect_closes_tun : ¬∀ events : List Event, TunOutlives (events.foldl Watched.step Watched.start) := by
  intro always
  exact absurd (always reconnecting) (by decide +kernel)

end ThrottleVpn.Service
