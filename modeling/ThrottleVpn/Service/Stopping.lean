import Mathlib.Tactic.IntervalCases
import ThrottleVpn.Service.Engines

/-! Stop wins over a start in progress.

`doStop` releases what the fields of its instance refer to, and every coroutine that is
still under way carries on. It leaves a stopped service behind if, when it begins, the
coroutines and callbacks have no step left that could undo it, and if no TUN and no
callback was dropped without being closed before.
-/

set_option autoImplicit false

namespace ThrottleVpn.Service

open Foundation Function

/-- The status is DISCONNECTED, no engine and no engine thread is left, no TUN descriptor
is open and no callback registered. -/
structure Stopped (m : Memory) : Prop where
  status : m.status = .disconnected
  engines : ∀ thread ∈ created m.calls, .stopDone (some thread) ∈ m.calls
  threads : m.threads = []
  tuns : m.tuns = []
  callbacks : m.callbacks = []

instance (m : Memory) : Decidable (Stopped m) :=
  decidable_of_iff (m.status = .disconnected ∧ (∀ thread ∈ created m.calls, .stopDone (some thread) ∈ m.calls) ∧
    m.threads = [] ∧ m.tuns = [] ∧ m.callbacks = [])
    ⟨fun ⟨h1, h2, h3, h4, h5⟩ => ⟨h1, h2, h3, h4, h5⟩, fun ⟨h1, h2, h3, h4, h5⟩ => ⟨h1, h2, h3, h4, h5⟩⟩

/-! ### What may be under way when the service is stopped -/

/-- Statements that a stopped service stays stopped under. -/
def Stmt.harmless : Stmt → Bool
  | .begin | .updateShaperCaps _ _ | .setShaperCaps _ _ _ | .setDlRate _ | .setUlRate _ | .setDlCap _ | .setUlCap _
  | .startMonitoring | .launchMonitor _ | .stopMonitoring | .cancelMonitor _ | .launchCollector | .collect => true
  | _ => false

/-- Reading the saved caps is harmless, too, if it does not fail. -/
def Stmt.mild : Stmt → Bool
  | .applySavedCaps => true
  | stmt => stmt.harmless

def Stmt.guards : Stmt → Bool
  | .returnUnless status => status ≠ .disconnected
  | _ => false

/-- Nothing is left to do but mild statements, a check that will fail once the service is
stopped, or a coroutine that will not begin. -/
def Spent (m : Memory) (task : Task Site Stmt) : Prop :=
  (∀ stmt ∈ task.code, stmt.mild = true) ∨ (∃ stmt ∈ task.code.head?, stmt.guards = true) ∨
    (.begin ∈ task.code.head? ∧ m.cancelled task.site.service = true)

instance (m : Memory) (task : Task Site Stmt) : Decidable (Spent m task) :=
  inferInstanceAs (Decidable (_ ∨ (∃ stmt ∈ task.code.head?, _) ∨ (_ ∧ _)))

def AllSpent (s : State) : Prop := ∀ task ∈ s.tasks, task.site.thread ≠ .main → Spent s.memory task

instance (s : State) : Decidable (AllSpent s) := inferInstanceAs (Decidable (∀ task ∈ s.tasks, _ → _))

/-- A new TUN replaces one that was closed, and a new callback one that is not registered. -/
def Lossless (m : Memory) (o : Nat) (answer : Answer) (stmt : Stmt) : Prop :=
  (stmt = .buildVpnFd → answer.ok = true → ∀ tun ∈ m.vpnFd o, tun ∉ m.tuns) ∧
    (stmt = .newNetCb → ∀ callback ∈ m.netCb o, ∀ entry ∈ m.callbacks, entry.1 ≠ callback)

instance (m : Memory) (o : Nat) (answer : Answer) (stmt : Stmt) : Decidable (Lossless m o answer stmt) :=
  inferInstanceAs (Decidable ((_ → _ → ∀ tun ∈ m.vpnFd o, _) ∧ (_ → ∀ callback ∈ m.netCb o, _)))

/-- `applySavedCaps` gets the saved caps. -/
def Reads (m : Memory) (o : Nat) (answer : Answer) : Prop := m.cancelled o = false ∧ answer.saved.isSome = true

instance (m : Memory) (o : Nat) (answer : Answer) : Decidable (Reads m o answer) :=
  inferInstanceAs (Decidable (_ ∧ _))

/-- The engine sections exclude each other, nothing is lost, `doStop` begins when the
coroutines and callbacks are spent, and saved caps are read in vain only by the live
instance and before it is stopped. -/
def Orderly (refused : Nat → Bool) (s : State) (event : Event) : Prop :=
  Exclusive refused s event ∧ match event with
  | .run k answer => ∀ task ∈ s.tasks[k]?, ∀ stmt ∈ task.code.head?,
    Lossless s.memory task.site.service answer stmt ∧ (stmt = .setStatus .disconnected → AllSpent s) ∧
      (stmt = .applySavedCaps → Reads s.memory task.site.service answer ∨
        s.memory.current = some task.site.service ∧ s.memory.status ≠ .disconnected)
  | _ => True

instance (refused : Nat → Bool) (s : State) : (event : Event) → Decidable (Orderly refused s event)
  | .run k _ => inferInstanceAs (Decidable (_ ∧ ∀ task ∈ s.tasks[k]?, ∀ stmt ∈ task.code.head?, _))
  | .start | .stop | .revoke | .destroy | .applyCaps _ _ | .available _ _ | .lost _ _ | .exit _ =>
    inferInstanceAs (Decidable (_ ∧ True))

/-! ### What the tasks consist of -/

def Stmt.works : Stmt → Bool
  | .cancelScope | .clearInstance | .returnIfConnected | .setStatus .disconnected | .launchStart | .clearVpnFd
  | .clearEngine | .clearShaper | .unregisterNetCb | .clearNetCb | .returnUnless _ | .launchReconnect => false
  | _ => true

def Stmt.signals : Stmt → Bool
  | .returnUnless status => status ≠ .disconnected
  | .setStatus status => status ≠ .disconnected
  | .launchReconnect => true
  | stmt => stmt.harmless

def Stmt.commands : Stmt → Bool
  | .returnIfConnected | .launchStart => true
  | .setStatus status => status ≠ .disconnected
  | stmt => stmt.harmless

def Stmt.pauses : Stmt → Bool
  | .cancelScope | .cancelMonitor _ | .returnUnlessRunning | .clearRunning | .joinThread | .tearDown => true
  | _ => false

def StopCode (n : Nat) (code : List Stmt) : Prop :=
  ∃ calls tail, code = calls ++ (doStop.drop n ++ tail) ∧ (∀ stmt ∈ calls, stmt.pauses = true) ∧
    (tail = [] ∨ tail = [.clearInstance])

/-- What no step of others may undo once `doStop` has done `n` of its statements. -/
structure Cleared (n : Nat) (m : Memory) : Prop where
  status : 1 ≤ n → m.status = .disconnected
  tuns : 4 ≤ n → m.tuns = []
  engines : 6 ≤ n → Quiet m
  callbacks : 10 ≤ n → m.callbacks = []

def Progress (n : Nat) (s : State) : Prop := Cleared n s.memory ∧ (1 ≤ n → AllSpent s)

structure Owns (m : Memory) : Prop where
  tuns : ∀ tun ∈ m.tuns, ∃ o, m.current = some o ∧ m.vpnFd o = some tun
  callbacks : ∀ entry ∈ m.callbacks, m.current = some entry.2 ∧ m.netCb entry.2 = some entry.1

section
variable {m : Memory} {o : Nat} (owns : Owns m) (current : m.current = some o)
include owns current

/-- What the live instance does not refer to is not open. -/
theorem Owns.vpnFd {tun : Nat} (among : tun ∈ m.tuns) : m.vpnFd o = some tun := by
  obtain ⟨other, live, field⟩ := owns.tuns tun among
  rwa [Option.some.inj (live.symm.trans current)] at field

theorem Owns.netCb {entry : Nat × Nat} (among : entry ∈ m.callbacks) : m.netCb o = some entry.1 := by
  obtain ⟨live, field⟩ := owns.callbacks entry among
  rwa [Option.some.inj (live.symm.trans current)] at field

end

structure Tidy (s : State) : Prop where
  owns : Owns s.memory
  works : ∀ task ∈ s.tasks, task.site.thread = .io → (∀ stmt ∈ task.code, stmt.works = true) ∧
    (Spent s.memory task ∨ s.memory.current = some task.site.service)
  signals : ∀ task ∈ s.tasks, task.site.thread ≠ .io → task.site.thread ≠ .main →
    ∀ stmt ∈ task.code, stmt.signals = true
  main : ∀ task ∈ s.tasks, task.site.thread = .main → task.code ≠ [] →
    (∃ n, StopCode n task.code ∧ Progress n s) ∨ ∀ stmt ∈ task.code, stmt.commands = true

/-! ### Harmless statements -/

structure Still (m after : Memory) : Prop where
  status : after.status = m.status
  tuns : after.tuns = m.tuns
  vpnFd : after.vpnFd = m.vpnFd
  netCb : after.netCb = m.netCb
  callbacks : after.callbacks = m.callbacks
  current : after.current = m.current
  cancelled : after.cancelled = m.cancelled
  calls : after.calls = m.calls

theorem Still.owns {m after : Memory} (still : Still m after) (owns : Owns m) : Owns after where
  tuns := by rw [still.tuns, still.current, still.vpnFd]; exact owns.tuns
  callbacks := by rw [still.callbacks, still.current, still.netCb]; exact owns.callbacks

theorem Cleared.same {m after : Memory} {n : Nat} (cleared : Cleared n m) (status : after.status = m.status)
    (tuns : after.tuns = m.tuns) (calls : after.calls = m.calls) (callbacks : after.callbacks = m.callbacks) :
    Cleared n after where
  status far := status.trans (cleared.status far)
  tuns far := tuns.trans (cleared.tuns far)
  engines far := by unfold Quiet; rw [calls]; exact cleared.engines far
  callbacks far := callbacks.trans (cleared.callbacks far)

theorem Cleared.next {m : Memory} {n : Nat} (cleared : Cleared n m) (between : n ≠ 0 ∧ n ≠ 3 ∧ n ≠ 5 ∧ n ≠ 9) :
    Cleared (n + 1) m where
  status _ := cleared.status (by omega)
  tuns far := cleared.tuns (by omega)
  engines far := cleared.engines (by omega)
  callbacks far := cleared.callbacks (by omega)

theorem Still.cleared {m after : Memory} (still : Still m after) {n : Nat} (cleared : Cleared n m) :
    Cleared n after := cleared.same still.status still.tuns still.calls still.callbacks

theorem Spent.mono {m after : Memory} {task : Task Site Stmt} (spent : Spent m task)
    (cancelled : ∀ o, m.cancelled o = true → after.cancelled o = true) : Spent after task :=
  spent.imp_right (Or.imp_right (And.imp_right (cancelled _)))

theorem exec_harmless {stmt : Stmt} (harmless : stmt.harmless = true) (o : Nat) (answer : Answer) (m : Memory)
    (rest handler : List Stmt) : (stmt.exec o answer m).Leads m rest handler fun after code new =>
      Still m after ∧ (code = [] ∨ ∃ calls, code = calls ++ rest ∧ ∀ stmt ∈ calls, stmt.harmless = true) ∧
        ∀ task ∈ new, task.site.thread = .collector ∧ ∀ stmt ∈ task.code, stmt.harmless = true := by
  cases stmt <;> simp only [Stmt.harmless, Bool.false_eq_true] at harmless <;> simp only [Stmt.exec] <;>
    (repeat' split) <;> simp only [Outcome.Leads]
  all_goals refine ⟨⟨rfl, rfl, rfl, rfl, rfl, rfl, rfl, rfl⟩, ?_, by simp [collectStats, Stmt.harmless]⟩
  all_goals first
    | exact .inl trivial
    | exact .inr ⟨_, rfl, by simp [Stmt.harmless]⟩
    | exact .inr ⟨[], rfl, by simp⟩

theorem Stmt.mild_iff {stmt : Stmt} : stmt.mild = true ↔ stmt = .applySavedCaps ∨ stmt.harmless = true := by
  cases stmt <;> simp [Stmt.mild, Stmt.harmless]

theorem Stmt.plain_of_harmless {stmt : Stmt} (harmless : stmt.harmless = true) :
    stmt.guards ≠ true ∧ stmt ≠ .applySavedCaps := by
  cases stmt <;> simp_all [Stmt.harmless, Stmt.guards]

theorem exec_mild {stmt : Stmt} (mild : stmt.mild = true) (o : Nat) (answer : Answer) (m : Memory)
    (reads : stmt = .applySavedCaps → Reads m o answer) (rest handler : List Stmt) :
    (stmt.exec o answer m).Leads m rest handler fun after code new =>
      Still m after ∧ (code = [] ∨ ∃ calls, code = calls ++ rest ∧ ∀ stmt ∈ calls, stmt.harmless = true) ∧
        ∀ task ∈ new, task.site.thread = .collector ∧ ∀ stmt ∈ task.code, stmt.harmless = true := by
  rcases Stmt.mild_iff.mp mild with rfl | harmless
  · obtain ⟨alive, got⟩ := reads rfl
    obtain ⟨saved, found⟩ := Option.isSome_iff_exists.mp got
    simp only [Stmt.exec, alive, found, Outcome.Leads]
    refine ⟨⟨rfl, rfl, rfl, rfl, rfl, rfl, rfl, rfl⟩, .inr ⟨_, rfl, ?_⟩, by simp⟩
    split <;> simp [updateCaps, Stmt.harmless]
  · exact exec_harmless harmless o answer m rest handler

/-- A spent task changes nothing, and stays spent. -/
theorem exec_spent {m : Memory} {task : Task Site Stmt} {stmt : Stmt} {rest : List Stmt} (answer : Answer)
    (next : task.code = stmt :: rest) (spent : Spent m task)
    (stopped : stmt.guards = true → m.status = .disconnected)
    (reads : stmt = .applySavedCaps → Reads m task.site.service answer) :
    (stmt.exec task.site.service answer m).Leads m rest task.handler fun after code new =>
      Still m after ∧ (∀ stmt ∈ code, stmt.mild = true) ∧ (∀ stmt ∈ code, stmt ∈ rest ∨ stmt.harmless = true) ∧
        ∀ other ∈ new, other.site.thread = .collector ∧ ∀ stmt ∈ other.code, stmt.harmless = true := by
  rcases spent with mild | ⟨guard, first, fails⟩ | ⟨begins, dead⟩
  · rw [next, List.forall_mem_cons] at mild
    apply (exec_mild mild.1 task.site.service answer m reads rest task.handler).mono
    rintro after code new ⟨still, shape, launched⟩
    have parts : ∀ stmt ∈ code, stmt ∈ rest ∨ stmt.harmless = true := by
      rcases shape with rfl | ⟨calls, rfl, more⟩
      · simp
      · exact fun other among => (List.mem_append.mp among).symm.imp_right (more other)
    exact ⟨still, fun other among => (parts other among).elim (mild.2 other) fun calm => Stmt.mild_iff.mpr (.inr calm),
      parts, launched⟩
  · obtain rfl : stmt = guard := by simpa [next] using first
    cases stmt <;> simp only [Stmt.guards, Bool.false_eq_true] at fails
    case returnUnless status =>
      have differs : m.status ≠ status := by
        rw [stopped fails]
        exact fun same => of_decide_eq_true fails same.symm
      rw [Stmt.exec, if_neg differs]
      exact ⟨⟨rfl, rfl, rfl, rfl, rfl, rfl, rfl, rfl⟩, by simp, by simp, by simp⟩
  · obtain rfl : stmt = .begin := by simpa [next] using begins
    rw [Stmt.exec, if_pos dead]
    exact ⟨⟨rfl, rfl, rfl, rfl, rfl, rfl, rfl, rfl⟩, by simp, by simp, by simp⟩

/-! ### Coroutines -/

theorem exec_works {stmt : Stmt} (works : stmt.works = true) {m : Memory} {o : Nat} (answer : Answer)
    (rest : List Stmt) {handler : List Stmt} (recovers : handler = [] ∨ handler = onFailure) (owns : Owns m)
    (current : m.current = some o) (lossless : Lossless m o answer stmt) :
    (stmt.exec o answer m).Leads m rest handler fun after code new =>
      Owns after ∧ after.current = m.current ∧ after.cancelled = m.cancelled ∧
        (∀ stmt ∈ code, stmt ∈ rest ∨ stmt.works = true) ∧
        ∀ task ∈ new, task.site.thread = .collector ∧ ∀ stmt ∈ task.code, stmt.harmless = true := by
  have recovered : ∀ stmt ∈ handler, stmt.works = true := by rcases recovers with rfl | rfl <;> decide
  cases stmt
  case closeVpnFd =>
    rw [Stmt.exec]
    split
    · refine ⟨⟨?_, owns.callbacks⟩, rfl, rfl, fun _ => .inl, by simp⟩
      exact fun tun among => owns.tuns tun (List.mem_of_mem_filter among)
    · exact ⟨owns, rfl, rfl, fun _ => .inl, by simp⟩
  case buildVpnFd =>
    rw [Stmt.exec]
    split
    next granted =>
      refine ⟨⟨?_, owns.callbacks⟩, rfl, rfl, fun _ => .inl, by simp⟩
      -- every open TUN was that of this instance, and that one is closed
      intro tun among
      rcases List.mem_cons.mp among with rfl | among
      · exact ⟨o, current, update_self ..⟩
      · exact absurd among (lossless.1 rfl granted tun (owns.vpnFd current among))
    next => exact ⟨owns, rfl, rfl, fun stmt among => .inr (recovered stmt among), by simp⟩
  case newNetCb =>
    refine ⟨⟨owns.tuns, ?_⟩, rfl, rfl, fun _ => .inl, by simp⟩
    intro entry among
    exact absurd rfl (lossless.2 rfl entry.1 (owns.netCb current among) entry among)
  case registerNetCb =>
    rw [Stmt.exec]
    split
    next callback field =>
      split
      · refine ⟨⟨owns.tuns, ?_⟩, rfl, rfl, fun _ => .inl, by simp⟩
        intro entry among
        rcases List.mem_cons.mp among with rfl | among
        · exact ⟨current, field⟩
        · exact owns.callbacks entry among
      · exact ⟨owns, rfl, rfl, fun stmt among => .inr (recovered stmt among), by simp⟩
    next => exact ⟨owns, rfl, rfl, fun stmt among => .inr (recovered stmt among), by simp⟩
  all_goals first | exact absurd works Bool.false_ne_true | skip
  all_goals (simp only [Stmt.exec]; repeat' split)
  all_goals first | trivial | refine ⟨⟨owns.tuns, owns.callbacks⟩, rfl, rfl, ?_, by simp [collectStats, Stmt.harmless]⟩
  all_goals first
    | exact fun stmt among => .inr (recovered stmt among)
    | exact fun _ => .inl
    | simp +contextual [or_imp, engineStart, engineStop, updateCaps, Stmt.works]

/-! ### Callbacks and commands -/

theorem works_startBody : ∀ stmt ∈ startBody, stmt.works = true := by decide

theorem works_reconnectBody : ∀ stmt ∈ reconnectBody, stmt.works = true := by decide

theorem exec_light {stmt : Stmt} (light : stmt.signals = true ∨ stmt.commands = true) {m : Memory} (o : Nat)
    (answer : Answer) (rest handler : List Stmt) (owns : Owns m) :
    (stmt.exec o answer m).Leads m rest handler fun after code new =>
      Owns after ∧ after.current = m.current ∧ after.cancelled = m.cancelled ∧
        (∀ stmt ∈ code, stmt ∈ rest ∨ stmt.harmless = true) ∧
        ∀ task ∈ new, (task.site.thread = .collector ∧ ∀ stmt ∈ task.code, stmt.harmless = true) ∨
          (task.site = ⟨.io, o⟩ ∧ .begin ∈ task.code.head? ∧ ∀ stmt ∈ task.code, stmt.works = true) := by
  cases harmless : stmt.harmless with
  | true =>
    apply (exec_harmless harmless o answer m rest handler).mono
    rintro after code new ⟨still, shape, launched⟩
    refine ⟨still.owns owns, still.current, still.cancelled, ?_, fun task among => .inl (launched task among)⟩
    rcases shape with rfl | ⟨calls, rfl, more⟩
    · simp
    · exact fun stmt among => (List.mem_append.mp among).symm.imp_right (more stmt)
  | false =>
    cases stmt <;> simp only [Stmt.harmless, Bool.true_eq_false] at harmless <;>
      simp only [Stmt.signals, Stmt.commands, Stmt.harmless, Bool.false_eq_true, or_self] at light
    case returnIfConnected =>
      rw [Stmt.exec]
      split <;> exact ⟨owns, rfl, rfl, by simp +contextual, by simp⟩
    case returnUnless status =>
      rw [Stmt.exec]
      split <;> exact ⟨owns, rfl, rfl, by simp +contextual, by simp⟩
    case setStatus status => exact ⟨⟨owns.tuns, owns.callbacks⟩, rfl, rfl, fun _ => .inl, by simp⟩
    case launchStart =>
      refine ⟨owns, rfl, rfl, fun _ => .inl, ?_⟩
      exact fun task among => .inr (List.mem_singleton.mp among ▸ ⟨rfl, rfl, works_startBody⟩)
    case launchReconnect =>
      refine ⟨owns, rfl, rfl, fun _ => .inl, ?_⟩
      exact fun task among => .inr (List.mem_singleton.mp among ▸ ⟨rfl, rfl, works_reconnectBody⟩)

/-! ### doStop -/

theorem exec_pauses {stmt : Stmt} (pauses : stmt.pauses = true) (o : Nat) (answer : Answer) (m : Memory)
    (rest handler : List Stmt) : (stmt.exec o answer m).Leads m rest handler fun after code new =>
      (Owns m → Owns after) ∧ after.current = m.current ∧
        (∀ other, m.cancelled other = true → after.cancelled other = true) ∧
        (∀ n, Cleared n m → Cleared n after) ∧ new = [] ∧
        ∃ calls, code = calls ++ rest ∧ ∀ stmt ∈ calls, stmt.pauses = true := by
  cases stmt <;> simp only [Stmt.pauses, Bool.false_eq_true] at pauses
  case cancelScope =>
    refine ⟨fun owns => ⟨owns.tuns, owns.callbacks⟩, rfl, ?_, fun n cleared => cleared.same rfl rfl rfl rfl, rfl,
      [], rfl, by simp⟩
    intro other dead
    by_cases same : other = o
    · exact same ▸ update_self ..
    · exact (update_of_ne same ..).trans dead
  case cancelMonitor shaper =>
    exact ⟨fun owns => ⟨owns.tuns, owns.callbacks⟩, rfl, fun _ => id, fun n cleared => cleared.same rfl rfl rfl rfl,
      rfl, [], rfl, by simp⟩
  case returnUnlessRunning =>
    refine ⟨id, rfl, fun _ => id, fun _ => id, rfl, _, rfl, ?_⟩
    split <;> decide
  case clearRunning =>
    exact ⟨fun owns => ⟨owns.tuns, owns.callbacks⟩, rfl, fun _ => id, fun n cleared => cleared.same rfl rfl rfl rfl,
      rfl, [], rfl, by simp⟩
  case joinThread =>
    rw [Stmt.exec]
    split
    · trivial
    · refine ⟨fun owns => ⟨owns.tuns, owns.callbacks⟩, rfl, fun _ => id, fun n cleared => ⟨cleared.status,
        cleared.tuns, fun far => ?_, cleared.callbacks⟩, rfl, [], rfl, by simp⟩
      intro thread among
      exact List.mem_append_left _ (cleared.engines far thread (by simpa [Memory.log] using among))
  case tearDown =>
    refine ⟨fun owns => ⟨owns.tuns, owns.callbacks⟩, rfl, fun _ => id, fun n cleared => ⟨cleared.status,
      cleared.tuns, fun far => ?_, cleared.callbacks⟩, rfl, [], rfl, by simp⟩
    intro thread among
    exact List.mem_append_left _ (cleared.engines far thread (by simpa [Memory.log] using among))

theorem quiet_at_clearEngine {refused : Nat → Bool} {s : State} (guarded : EngineGuarded refused s) {k : Nat} {task : Task Site Stmt} {tail : List Stmt}
    (here : s.At k task) (shape : task.code = doStop.drop 5 ++ tail) (ends : tail = [] ∨ tail = [.clearInstance]) :
    Quiet s.memory := by
  have phase : engineOutline.phase task.code = .down := by rcases ends with rfl | rfl <;> rw [shape] <;> rfl
  have inside : engineOutline.Inside task.code := by
    unfold Outline.Inside
    rw [phase]
    decide
  have active : ¬Passive refused k task.code := by
    rintro ⟨-, waiting⟩
    rw [shape] at waiting
    cases waiting
  have assert := (guarded.holds k task (at_engaged here active) inside).2
  rw [phase] at assert
  exact assert.2.1

/-- The statements of `doStop` itself. -/
theorem exec_stop {refused : Nat → Bool} {s : State} {k n : Nat} {task : Task Site Stmt} {stmt : Stmt} {rest tail : List Stmt}
    (answer : Answer) (owned : Owned s) (guarded : EngineGuarded refused s) (owns : Owns s.memory) (here : s.At k task)
    (main : task.site.thread = .main) (next : task.code = stmt :: rest) (within : n < 11)
    (shape : task.code = doStop.drop n ++ tail) (ends : tail = [] ∨ tail = [.clearInstance])
    (cleared : Cleared n s.memory) :
    (stmt.exec task.site.service answer s.memory).Leads s.memory rest task.handler fun after code new =>
      Owns after ∧ after.current = s.memory.current ∧ after.cancelled = s.memory.cancelled ∧
        (∀ i, Cleared i s.memory → Cleared i after) ∧ new = [] ∧ Cleared (n + 1) after ∧
          ∃ calls, code = calls ++ (doStop.drop (n + 1) ++ tail) ∧ ∀ stmt ∈ calls, stmt.pauses = true := by
  have current := owned.main task here.mem main (by simp [next])
  have engines : task.code = doStop.drop 5 ++ tail → Quiet s.memory := fun same =>
    quiet_at_clearEngine guarded here same ends
  rw [shape] at next engines
  interval_cases n <;> obtain ⟨rfl, rfl⟩ := List.cons.inj next
  · -- _status.value = DISCONNECTED
    exact ⟨⟨owns.tuns, owns.callbacks⟩, rfl, rfl, fun i cleared => ⟨fun _ => rfl, cleared.tuns, cleared.engines,
      cleared.callbacks⟩, rfl, ⟨fun _ => rfl, by simp, by simp, by simp⟩, [], rfl, by simp⟩
  · -- shaper?.stopMonitoring()
    have reached := cleared.next (by decide)
    rw [Stmt.exec]
    split
    · exact ⟨owns, rfl, rfl, fun _ => id, rfl, reached, [.cancelMonitor _], rfl, by simp [Stmt.pauses]⟩
    · exact ⟨owns, rfl, rfl, fun _ => id, rfl, reached, [], rfl, by simp⟩
  · -- engine?.stop()
    refine ⟨owns, rfl, rfl, fun _ => id, rfl, cleared.next (by decide), _, rfl, ?_⟩
    split <;> decide
  · -- vpnFd?.close()
    rw [Stmt.exec]
    split
    next tun field =>
      -- it was the only open TUN
      have gone : s.memory.tuns.filter (· ≠ tun) = [] := by
        apply List.eq_nil_iff_forall_not_mem.mpr
        intro other among
        obtain ⟨among, differs⟩ := List.mem_filter.mp among
        have same := field.symm.trans (owns.vpnFd current among)
        exact of_decide_eq_true differs (Option.some.inj same).symm
      refine ⟨⟨?_, owns.callbacks⟩, rfl, rfl, fun i cleared => ⟨cleared.status, fun _ => gone, cleared.engines,
        cleared.callbacks⟩, rfl, ⟨fun _ => cleared.status (by omega), fun _ => gone, by simp, by simp⟩, [], rfl,
        by simp⟩
      exact fun other among => owns.tuns other (List.mem_of_mem_filter among)
    next unset =>
      have none : s.memory.tuns = [] := by
        apply List.eq_nil_iff_forall_not_mem.mpr
        intro tun among
        cases unset.symm.trans (owns.vpnFd current among)
      exact ⟨owns, rfl, rfl, fun _ => id, rfl, ⟨fun _ => cleared.status (by omega), fun _ => none, by simp, by simp⟩,
        [], rfl, by simp⟩
  · -- vpnFd = null
    refine ⟨⟨?_, owns.callbacks⟩, rfl, rfl, fun i cleared => cleared.same rfl rfl rfl rfl, rfl,
      (cleared.next (by decide)).same rfl rfl rfl rfl, [], rfl, by simp⟩
    intro tun among
    rw [show s.memory.tuns = [] from cleared.tuns le_rfl] at among
    cases among
  · -- engine = null
    exact ⟨⟨owns.tuns, owns.callbacks⟩, rfl, rfl, fun i cleared => cleared.same rfl rfl rfl rfl, rfl,
      ⟨fun _ => cleared.status (by omega), fun _ => cleared.tuns (by omega), fun _ => engines rfl, by simp⟩,
      [], rfl, by simp⟩
  · -- shaper = null
    exact ⟨⟨owns.tuns, owns.callbacks⟩, rfl, rfl, fun i cleared => cleared.same rfl rfl rfl rfl, rfl,
      (cleared.next (by decide)).same rfl rfl rfl rfl, [], rfl, by simp⟩
  · -- _dlCap.value = 0.0
    exact ⟨⟨owns.tuns, owns.callbacks⟩, rfl, rfl, fun i cleared => cleared.same rfl rfl rfl rfl, rfl,
      (cleared.next (by decide)).same rfl rfl rfl rfl, [], rfl, by simp⟩
  · -- _ulCap.value = 0.0
    exact ⟨⟨owns.tuns, owns.callbacks⟩, rfl, rfl, fun i cleared => cleared.same rfl rfl rfl rfl, rfl,
      (cleared.next (by decide)).same rfl rfl rfl rfl, [], rfl, by simp⟩
  · -- unregisterNetworkCallback
    rw [Stmt.exec]
    split
    next callback field =>
      -- it was the only one registered
      have gone : s.memory.callbacks.filter (·.1 ≠ callback) = [] := by
        apply List.eq_nil_iff_forall_not_mem.mpr
        intro entry among
        obtain ⟨among, differs⟩ := List.mem_filter.mp among
        have same := field.symm.trans (owns.netCb current among)
        exact of_decide_eq_true differs (Option.some.inj same).symm
      refine ⟨⟨owns.tuns, ?_⟩, rfl, rfl, fun i cleared => ⟨cleared.status, cleared.tuns, cleared.engines,
        fun _ => gone⟩, rfl, ⟨fun _ => cleared.status (by omega), fun _ => cleared.tuns (by omega),
        fun _ => cleared.engines (by omega), fun _ => gone⟩, [], rfl, by simp⟩
      exact fun entry among => owns.callbacks entry (List.mem_of_mem_filter among)
    next unset =>
      have none : s.memory.callbacks = [] := by
        apply List.eq_nil_iff_forall_not_mem.mpr
        intro entry among
        cases unset.symm.trans (owns.netCb current among)
      exact ⟨owns, rfl, rfl, fun _ => id, rfl, ⟨fun _ => cleared.status (by omega), fun _ => cleared.tuns (by omega),
        fun _ => cleared.engines (by omega), fun _ => none⟩, [], rfl, by simp⟩
  · -- netCb = null
    refine ⟨⟨owns.tuns, ?_⟩, rfl, rfl, fun i cleared => cleared.same rfl rfl rfl rfl, rfl,
      (cleared.next (by decide)).same rfl rfl rfl rfl, [], rfl, by simp⟩
    intro entry among
    rw [show s.memory.callbacks = [] from cleared.callbacks le_rfl] at among
    cases among

/-! ### Steps -/

section
variable {refused : Nat → Bool} {s : State} {k : Nat} {task : Task Site Stmt} {after : Memory} {code : List Stmt}
  {new : List (Task Site Stmt)}

theorem classes_of_harmless {stmt : Stmt} (harmless : stmt.harmless = true) :
    stmt.works = true ∧ stmt.signals = true ∧ stmt.commands = true := by
  cases stmt <;> first | exact ⟨rfl, rfl, rfl⟩ | cases harmless

theorem works_of_mild {stmt : Stmt} (mild : stmt.mild = true) : stmt.works = true := by
  cases stmt <;> first | rfl | cases mild

theorem Spent.of_harmless {m : Memory} {task : Task Site Stmt} (harmless : ∀ stmt ∈ task.code, stmt.harmless = true) :
    Spent m task := .inl fun stmt among => Stmt.mild_iff.mpr (.inr (harmless stmt among))

theorem AllSpent.replace (spent : AllSpent s) (cancelled : ∀ o, s.memory.cancelled o = true → after.cancelled o = true)
    (self : task.site.thread ≠ .main → Spent after { task with code := code })
    (launched : ∀ other ∈ new, other.site.thread ≠ .main → Spent after other) :
    AllSpent (s.replace k task after code new) := by
  intro other among aside
  rcases System.mem_replace among with rfl | among | among
  · exact self aside
  · exact (spent other among aside).mono cancelled
  · exact launched other among aside

theorem progress_zero (s : State) : Progress 0 s :=
  ⟨⟨by simp, by simp, by simp, by simp⟩, by simp⟩

/-- A task that a step may launch: a collector, or the coroutine of a start or a reconnect. -/
def Launched (m : Memory) (task : Task Site Stmt) : Prop :=
  (task.site.thread = .collector ∧ ∀ stmt ∈ task.code, stmt.harmless = true) ∨
    task.site.thread = .io ∧ (∀ stmt ∈ task.code, stmt.works = true) ∧
      (Spent m task ∨ m.current = some task.site.service)

theorem Launched.aside {m : Memory} {task : Task Site Stmt} (launched : Launched m task) :
    task.site.thread ≠ .main := by
  rcases launched with ⟨thread, -⟩ | ⟨thread, -⟩ <;> rw [thread] <;> decide

theorem Launched.works {m : Memory} {task : Task Site Stmt} (launched : Launched m task)
    (io : task.site.thread = .io) : (∀ stmt ∈ task.code, stmt.works = true) ∧
      (Spent m task ∨ m.current = some task.site.service) := by
  rcases launched with ⟨collector, -⟩ | ⟨-, fine⟩
  · rw [collector] at io
    cases io
  · exact fine

theorem Launched.signals {m : Memory} {task : Task Site Stmt} (launched : Launched m task)
    (other : task.site.thread ≠ .io) : ∀ stmt ∈ task.code, stmt.signals = true := by
  rcases launched with ⟨-, harmless⟩ | ⟨also, -⟩
  · exact fun stmt within => (classes_of_harmless (harmless stmt within)).2.1
  · exact absurd also other

theorem Tidy.aside (tidy : Tidy s) (aside : task.site.thread ≠ .main) (owns : Owns after)
    (current : after.current = s.memory.current) (cancelled : after.cancelled = s.memory.cancelled)
    (io : task.site.thread = .io → (∀ stmt ∈ code, stmt.works = true) ∧
      (Spent after { task with code := code } ∨ after.current = some task.site.service))
    (signals : task.site.thread ≠ .io → ∀ stmt ∈ code, stmt.signals = true)
    (launched : ∀ other ∈ new, Launched after other)
    (progress : ∀ n, Progress n s → Progress n (s.replace k task after code new)) :
    Tidy (s.replace k task after code new) := by
  have mono : ∀ o, s.memory.cancelled o = true → after.cancelled o = true := fun o dead => by rwa [cancelled]
  refine ⟨owns, ?_, ?_, ?_⟩
  · intro other among thread
    rcases System.mem_replace among with rfl | among | among
    · exact io thread
    · obtain ⟨works, usable⟩ := tidy.works other among thread
      exact ⟨works, usable.imp (Spent.mono · mono) current.trans⟩
    · exact (launched other among).works thread
  · intro other among thread main
    rcases System.mem_replace among with rfl | among | among
    · exact signals thread
    · exact tidy.signals other among thread main
    · exact (launched other among).signals thread
  · intro other among main busy
    rcases System.mem_replace among with rfl | among | among
    · exact absurd main aside
    · exact (tidy.main other among main busy).imp_left (Exists.imp fun n => And.imp_right (progress n))
    · exact absurd main (launched other among).aside

theorem Tidy.run_aside (tidy : Tidy s) (owned : Owned s) {stmt : Stmt} {rest : List Stmt} (answer : Answer)
    (here : s.At k task) (next : task.code = stmt :: rest) (aside : task.site.thread ≠ .main)
    (lossless : Lossless s.memory task.site.service answer stmt)
    (reads : stmt = .applySavedCaps → Reads s.memory task.site.service answer ∨
      s.memory.current = some task.site.service ∧ s.memory.status ≠ .disconnected) :
    (stmt.exec task.site.service answer s.memory).Leads s.memory rest task.handler fun after code new =>
      Tidy (s.replace k task after code new) ∧
        ∀ n, Progress n s → Progress n (s.replace k task after code new) := by
  by_cases spent : Spent s.memory task ∧ (stmt.guards = true → s.memory.status = .disconnected) ∧
      (stmt = .applySavedCaps → Reads s.memory task.site.service answer)
  · apply (exec_spent answer next spent.1 spent.2.1 spent.2.2).mono
    rintro after code new ⟨still, mild, parts, launched⟩
    have progress : ∀ n, Progress n s → Progress n (s.replace k task after code new) := by
      rintro n ⟨cleared, quiet⟩
      refine ⟨still.cleared cleared, fun far => ?_⟩
      apply AllSpent.replace (quiet far) fun o dead => by rwa [still.cancelled]
      · exact fun _ => .inl mild
      · exact fun other among _ => .of_harmless (launched other among).2
    refine ⟨tidy.aside aside (still.owns tidy.owns) still.current still.cancelled ?_ ?_ ?_ progress, progress⟩
    · exact fun _ => ⟨fun stmt within => works_of_mild (mild stmt within), .inl (.inl mild)⟩
    · intro other stmt within
      have signals := tidy.signals task here.mem other aside
      rw [next, List.forall_mem_cons] at signals
      exact (parts stmt within).elim (signals.2 stmt) fun harmless => (classes_of_harmless harmless).2.1
    · exact fun other among => .inl (launched other among)
  · -- no `doStop` is past its first statement
    have none : ∀ n, Progress n s → n = 0 := by
      rintro n ⟨cleared, quiet⟩
      by_contra positive
      have far : 1 ≤ n := Nat.one_le_iff_ne_zero.mpr positive
      have status := cleared.status far
      refine spent ⟨quiet far task here.mem aside, fun _ => status, fun same => ?_⟩
      exact (reads same).resolve_right fun fails => fails.2 status
    by_cases io : task.site.thread = .io
    · -- a coroutine that is not spent belongs to the live instance
      obtain ⟨works, usable⟩ := tidy.works task here.mem io
      rw [next, List.forall_mem_cons] at works
      have current : s.memory.current = some task.site.service := by
        refine usable.elim (fun also => ?_) id
        have unguarded : stmt.guards ≠ true := fun guards => by
          cases stmt <;> first | cases guards | exact absurd works.1 Bool.false_ne_true
        by_contra gone
        exact spent ⟨also, fun guards => absurd guards unguarded,
          fun same => (reads same).resolve_right fun fails => gone fails.1⟩
      have recovers := owned.handler task here.mem
      apply (exec_works works.1 answer rest recovers tidy.owns current lossless).mono
      rintro after code new ⟨owns, same, cancelled, more, launched⟩
      have progress : ∀ n, Progress n s → Progress n (s.replace k task after code new) :=
        fun n far => none n far ▸ progress_zero _
      refine ⟨tidy.aside aside owns same cancelled ?_ ?_ ?_ progress, progress⟩
      · refine fun _ => ⟨fun stmt within => ?_, .inr (same.trans current)⟩
        exact (more stmt within).elim (works.2 stmt) id
      · exact fun other => absurd io other
      · exact fun other among => .inl (launched other among)
    · -- a callback may set the status and launch the reconnect
      have signals := tidy.signals task here.mem io aside
      rw [next, List.forall_mem_cons] at signals
      apply (exec_light (.inl signals.1) task.site.service answer rest task.handler tidy.owns).mono
      rintro after code new ⟨owns, same, cancelled, more, launched⟩
      have progress : ∀ n, Progress n s → Progress n (s.replace k task after code new) :=
        fun n far => none n far ▸ progress_zero _
      refine ⟨tidy.aside aside owns same cancelled ?_ ?_ ?_ progress, progress⟩
      · exact fun other => absurd other io
      · intro _ stmt within
        exact (more stmt within).elim (signals.2 stmt) fun harmless => (classes_of_harmless harmless).2.1
      · intro other among
        refine (launched other among).imp_right fun coroutine => ?_
        obtain ⟨site, begins, works⟩ := coroutine
        have thread : other.site.thread = .io := by rw [site]
        have service : other.site.service = task.site.service := by rw [site]
        refine ⟨thread, works, ?_⟩
        rw [service, same]
        refine (owned.owner task here.mem).symm.imp_left fun dead => .inr (.inr ⟨begins, ?_⟩)
        rwa [cancelled, service]

theorem Tidy.main_moves (tidy : Tidy s) (owned : Owned s) (here : s.At k task) (main : task.site.thread = .main)
    (busy : task.code ≠ []) (owns : Owns after) (current : after.current = s.memory.current ∨ AllSpent s)
    (cancelled : ∀ o, s.memory.cancelled o = true → after.cancelled o = true)
    (launched : ∀ other ∈ new, Launched after other)
    (shape : (∃ n, StopCode n code ∧ Progress n (s.replace k task after code new)) ∨
      ∀ stmt ∈ code, stmt.commands = true) : Tidy (s.replace k task after code new) := by
  refine ⟨owns, ?_, ?_, ?_⟩
  · intro other among thread
    rcases System.mem_replace among with rfl | among | among
    · rw [main] at thread
      cases thread
    · obtain ⟨works, usable⟩ := tidy.works other among thread
      refine ⟨works, ?_⟩
      have aside : other.site.thread ≠ .main := by rw [thread]; decide
      rcases current with same | spent
      · exact usable.imp (Spent.mono · cancelled) same.trans
      · exact .inl ((spent other among aside).mono cancelled)
    · exact (launched other among).works thread
  · intro other among thread aside
    rcases System.mem_replace among with rfl | among | among
    · exact absurd main aside
    · exact tidy.signals other among thread aside
    · exact (launched other among).signals thread
  · intro other among also working
    obtain ⟨j, there⟩ := System.exists_at among
    rcases System.at_replace there with ⟨-, rfl⟩ | ⟨distinct, stays⟩ | among
    · exact shape
    · exact absurd (owned.oneMain j k other task stays here also main working busy) distinct
    · exact absurd also (launched other among).aside

theorem Tidy.run_command (tidy : Tidy s) (owned : Owned s) {stmt : Stmt} {rest : List Stmt} (answer : Answer)
    (here : s.At k task) (next : task.code = stmt :: rest) (main : task.site.thread = .main)
    (commands : ∀ stmt ∈ task.code, stmt.commands = true) :
    (stmt.exec task.site.service answer s.memory).Leads s.memory rest task.handler fun after code new =>
      Tidy (s.replace k task after code new) ∧
        ((∀ stmt ∈ task.code, stmt.harmless = true) → (∀ stmt ∈ code, stmt.harmless = true) ∧
          ∀ n, Progress n s → Progress n (s.replace k task after code new)) := by
  have busy : task.code ≠ [] := by simp [next]
  have current := owned.main task here.mem main busy
  rw [next, List.forall_mem_cons] at commands
  have tidied : (stmt.exec task.site.service answer s.memory).Leads s.memory rest task.handler
      fun after code new => Tidy (s.replace k task after code new) := by
    apply (exec_light (.inr commands.1) task.site.service answer rest task.handler tidy.owns).mono
    rintro after code new ⟨owns, same, cancelled, more, launched⟩
    apply tidy.main_moves owned here main busy owns (.inl same) fun o dead => by rwa [cancelled]
    · intro other among
      refine (launched other among).imp_right fun coroutine => ?_
      obtain ⟨site, -, works⟩ := coroutine
      exact ⟨by rw [site], works, .inr (by rw [site, same, current])⟩
    · refine .inr fun other within => ?_
      exact (more other within).elim (commands.2 other) fun harmless => (classes_of_harmless harmless).2.2
  by_cases harmless : ∀ stmt ∈ task.code, stmt.harmless = true
  · have plain := Stmt.plain_of_harmless (harmless stmt (by simp [next]))
    have spent := @exec_spent s.memory task stmt rest answer next (.of_harmless harmless)
      (fun guards => absurd guards plain.1) fun same => absurd same plain.2
    apply (tidied.and spent).mono
    rintro after code new ⟨tidied, still, -, parts, launched⟩
    have also : ∀ stmt ∈ code, stmt.harmless = true := fun stmt within =>
      (parts stmt within).elim (fun among => harmless stmt (next ▸ List.mem_cons_of_mem _ among)) id
    refine ⟨tidied, fun _ => ⟨also, fun n ⟨cleared, quiet⟩ => ⟨still.cleared cleared, fun far => ?_⟩⟩⟩
    apply AllSpent.replace (quiet far) fun o dead => by rwa [still.cancelled]
    · exact fun aside => absurd main aside
    · exact fun other among _ => .of_harmless (launched other among).2
  · exact tidied.mono fun after code new tidied => ⟨tidied, fun also => absurd also harmless⟩

theorem Tidy.run_stop (tidy : Tidy s) (owned : Owned s) (guarded : EngineGuarded refused s) {stmt : Stmt} {rest : List Stmt}
    (answer : Answer) (here : s.At k task) (next : task.code = stmt :: rest) (main : task.site.thread = .main)
    {n : Nat} (shape : StopCode n task.code) (progress : Progress n s)
    (spent : stmt = .setStatus .disconnected → AllSpent s) :
    (stmt.exec task.site.service answer s.memory).Leads s.memory rest task.handler fun after code new =>
      Tidy (s.replace k task after code new) ∧ (∀ i, Progress i s → Progress i (s.replace k task after code new)) ∧
        ∃ i, StopCode i code ∧ Progress i (s.replace k task after code new) := by
  have busy : task.code ≠ [] := by simp [next]
  obtain ⟨calls, tail, split, pauses, ends⟩ := shape
  have stays : ∀ {after : Memory} {code : List Stmt}, AllSpent s →
      (∀ o, s.memory.cancelled o = true → after.cancelled o = true) → AllSpent (s.replace k task after code []) :=
    fun spent cancelled => spent.replace cancelled (fun aside => absurd main aside) (by simp)
  cases calls with
  | cons call calls =>
    -- a function that `doStop` has called
    rw [List.cons_append, next] at split
    obtain ⟨rfl, rfl⟩ := List.cons.inj split
    rw [List.forall_mem_cons] at pauses
    apply (exec_pauses pauses.1 task.site.service answer s.memory _ task.handler).mono
    rintro after code new ⟨owns, current, cancelled, cleared, rfl, more, rfl, also⟩
    have keeps : ∀ i code, Progress i s → Progress i (s.replace k task after code []) :=
      fun i code far => ⟨cleared i far.1, fun positive => stays (far.2 positive) cancelled⟩
    have reached : StopCode n (more ++ (calls ++ (doStop.drop n ++ tail))) := by
      refine ⟨more ++ calls, tail, by simp, ?_, ends⟩
      intro stmt among
      exact (List.mem_append.mp among).elim (also stmt) (pauses.2 stmt)
    refine ⟨?_, fun i => keeps i _, n, reached, keeps n _ progress⟩
    exact tidy.main_moves owned here main busy (owns tidy.owns) (.inl current) cancelled (by simp)
      (.inl ⟨n, reached, keeps n _ progress⟩)
  | nil =>
    rw [List.nil_append] at split
    by_cases within : n < 11
    · -- a statement of `doStop` itself
      have calm : AllSpent s := by
        cases n with
        | zero =>
          rw [next] at split
          exact spent (List.cons.inj split).1
        | succ n => exact progress.2 (by omega)
      have led := exec_stop answer owned guarded tidy.owns here main next within split ends progress.1
      apply led.mono
      rintro after code new ⟨owns, current, same, cleared, rfl, further, calls, rfl, pauses⟩
      have cancelled : ∀ o, s.memory.cancelled o = true → after.cancelled o = true := fun o dead => by rwa [same]
      have reached : StopCode (n + 1) (calls ++ (doStop.drop (n + 1) ++ tail)) := ⟨calls, tail, rfl, pauses, ends⟩
      have progress : ∀ code, Progress (n + 1) (s.replace k task after code []) :=
        fun code => ⟨further, fun _ => stays calm cancelled⟩
      refine ⟨?_, fun i far => ⟨cleared i far.1, fun _ => stays calm cancelled⟩, n + 1, reached, progress _⟩
      exact tidy.main_moves owned here main busy owns (.inl current) cancelled (by simp)
        (.inl ⟨n + 1, reached, progress _⟩)
    · -- instance = null
      have empty : doStop.drop n = [] := List.drop_eq_nil_of_le (by simpa [doStop] using within)
      rw [empty, List.nil_append, next] at split
      obtain ⟨rfl, rfl⟩ : stmt = .clearInstance ∧ rest = [] := by
        rcases ends with rfl | rfl
        · cases split
        · exact List.cons.inj split
      obtain ⟨cleared, calm⟩ := progress
      have calm := calm (by omega)
      have reached : StopCode n [] := ⟨[], [], by simp [empty], by simp, .inl rfl⟩
      have keeps : ∀ i, Cleared i s.memory → Progress i (s.replace k task { s.memory with current := none } [] []) :=
        fun i cleared => ⟨cleared.same rfl rfl rfl rfl, fun _ => stays calm fun _ => id⟩
      refine ⟨?_, fun i far => keeps i far.1, n, reached, keeps n cleared⟩
      refine tidy.main_moves owned here main busy ⟨?_, ?_⟩ (.inr calm) (fun _ => id) (by simp)
        (.inl ⟨n, reached, keeps n cleared⟩)
      · intro tun among
        rw [show s.memory.tuns = [] from cleared.tuns (by omega)] at among
        cases among
      · intro entry among
        rw [show s.memory.callbacks = [] from cleared.callbacks (by omega)] at among
        cases among

theorem Tidy.spawn (tidy : Tidy s)
    (usable : (task.site.thread = .main ∧ ((∃ n, StopCode n task.code ∧ Progress n (s.spawn task)) ∨
      ∀ stmt ∈ task.code, stmt.commands = true)) ∨
      task.site.thread = .network ∧ ∀ stmt ∈ task.code, stmt.signals = true)
    (progress : ∀ n, Progress n s → Progress n (s.spawn task)) : Tidy (s.spawn task) := by
  refine ⟨tidy.owns, ?_, ?_, ?_⟩
  · intro other among thread
    rcases System.mem_spawn among with among | rfl
    · exact tidy.works other among thread
    · rcases usable with ⟨also, -⟩ | ⟨also, -⟩ <;> rw [also] at thread <;> cases thread
  · intro other among thread aside
    rcases System.mem_spawn among with among | rfl
    · exact tidy.signals other among thread aside
    · rcases usable with ⟨also, -⟩ | ⟨-, signals⟩
      · exact absurd also aside
      · exact signals
  · intro other among main busy
    rcases System.mem_spawn among with among | rfl
    · exact (tidy.main other among main busy).imp_left (Exists.imp fun n => And.imp_right (progress n))
    · rcases usable with ⟨-, shape⟩ | ⟨also, -⟩
      · exact shape
      · rw [also] at main
        cases main

theorem Progress.spawn {n : Nat} (progress : Progress n s)
    (spent : task.site.thread ≠ .main → Spent s.memory task) : Progress n (s.spawn task) := by
  refine ⟨progress.1, fun far other among aside => ?_⟩
  rcases System.mem_spawn among with among | rfl
  · exact progress.2 far other among aside
  · exact spent aside

end

/-! ### Runs -/

/-- From the delivery of a `STOP` on: task `k` is the `doStop` that was called, and no
`doStart` is under way. -/
structure Halting (k : Nat) (s : State) : Prop where
  main : ∀ task ∈ s.tasks, task.site.thread = .main → task.code ≠ [] →
    (∃ n, StopCode n task.code ∧ Progress n s) ∨ ∀ stmt ∈ task.code, stmt.harmless = true
  far : ∃ n task, s.At k task ∧ task.site.thread = .main ∧ StopCode n task.code ∧ Progress n s

section
variable {refused : Nat → Bool} {s : State} {i : Nat}

theorem Tidy.run (tidy : Tidy s) (owned : Owned s) (guarded : EngineGuarded refused s) {k : Nat} {answer : Answer}
    (orderly : Orderly refused s (.run k answer)) : Tidy (System.run State.exec answer k s) := by
  apply System.run_of_leads tidy
  intro task stmt rest here next
  obtain ⟨lossless, spent, reads⟩ := orderly.2 task here stmt (by simp [next])
  by_cases main : task.site.thread = .main
  · rcases tidy.main task here.mem main (by simp [next]) with ⟨n, shape, far⟩ | commands
    · exact (tidy.run_stop owned guarded answer here next main shape far spent).mono fun _ _ _ led => led.1
    · exact (tidy.run_command owned answer here next main commands).mono fun _ _ _ led => led.1
  · exact (tidy.run_aside owned answer here next main lossless reads).mono fun _ _ _ led => led.1

theorem exec_launches (stmt : Stmt) (o : Nat) (answer : Answer) (m : Memory) (rest handler : List Stmt) :
    (stmt.exec o answer m).Leads m rest handler fun _ _ new => ∀ other ∈ new, other.site.thread ≠ .main := by
  cases stmt <;> simp only [Stmt.exec] <;> (repeat' split) <;> simp [Outcome.Leads]

theorem Halting.replace {i k : Nat} {task : Task Site Stmt} (halting : Halting i s) (here : s.At k task)
    {after : Memory} {code : List Stmt} {new : List (Task Site Stmt)}
    (progress : ∀ n, Progress n s → Progress n (s.replace k task after code new))
    (self : task.site.thread = .main → (∃ n, StopCode n code ∧ Progress n (s.replace k task after code new)) ∨
      i ≠ k ∧ ∀ stmt ∈ code, stmt.harmless = true)
    (launched : ∀ other ∈ new, other.site.thread ≠ .main) :
    Halting i (s.replace k task after code new) := by
  constructor
  · intro other among main busy
    rcases System.mem_replace among with rfl | among | among
    · exact (self main).imp_right And.right
    · exact (halting.main other among main busy).imp_left (Exists.imp fun n => And.imp_right (progress n))
    · exact absurd main (launched other among)
  · obtain ⟨n, stop, there, main, shape, far⟩ := halting.far
    by_cases same : i = k
    · subst same
      obtain rfl := Option.some.inj (there.symm.trans here)
      obtain ⟨reached, shape, far⟩ := (self main).resolve_right fun other => other.1 rfl
      exact ⟨reached, _, System.at_replace_self here after code new, main, shape, far⟩
    · exact ⟨n, stop, System.at_replace_of_ne same there after code new, main, shape, progress n far⟩

theorem Halting.run (halting : Halting i s) (tidy : Tidy s) (owned : Owned s) (guarded : EngineGuarded refused s)
    {k : Nat} {answer : Answer} (orderly : Orderly refused s (.run k answer)) :
    Halting i (System.run State.exec answer k s) := by
  apply System.run_of_leads halting
  intro task stmt rest here next
  obtain ⟨lossless, spent, reads⟩ := orderly.2 task here stmt (by simp [next])
  have launches := exec_launches stmt task.site.service answer s.memory rest task.handler
  by_cases main : task.site.thread = .main
  · by_cases stops : ∃ n, StopCode n task.code ∧ Progress n s
    · obtain ⟨n, shape, far⟩ := stops
      apply (launches.and (tidy.run_stop owned guarded answer here next main shape far spent)).mono
      rintro after code new ⟨launched, -, progress, reached⟩
      exact halting.replace here progress (fun _ => .inl reached) launched
    · have harmless := (halting.main task here.mem main (by simp [next])).resolve_left stops
      have commands : ∀ stmt ∈ task.code, stmt.commands = true :=
        fun stmt among => (classes_of_harmless (harmless stmt among)).2.2
      apply (launches.and (tidy.run_command owned answer here next main commands)).mono
      rintro after code new ⟨launched, -, led⟩
      obtain ⟨also, progress⟩ := led harmless
      refine halting.replace here progress (fun _ => .inr ⟨?_, also⟩) launched
      -- the `doStop` that is followed is not among the harmless tasks
      rintro rfl
      obtain ⟨n, stop, there, -, shape, far⟩ := halting.far
      obtain rfl := Option.some.inj (there.symm.trans here)
      exact stops ⟨n, shape, far⟩
  · apply (launches.and (tidy.run_aside owned answer here next main lossless reads)).mono
    rintro after code new ⟨launched, -, progress⟩
    exact halting.replace here progress (fun also => absurd also main) launched

theorem Halting.spawn (halting : Halting i s) {task : Task Site Stmt}
    (progress : ∀ n, Progress n s → Progress n (s.spawn task))
    (usable : task.site.thread = .main → (∃ n, StopCode n task.code ∧ Progress n (s.spawn task)) ∨
      ∀ stmt ∈ task.code, stmt.harmless = true) : Halting i (s.spawn task) := by
  constructor
  · intro other among main busy
    rcases System.mem_spawn among with among | rfl
    · exact (halting.main other among main busy).imp_left (Exists.imp fun n => And.imp_right (progress n))
    · exact usable main
  · obtain ⟨n, stop, there, main, shape, far⟩ := halting.far
    exact ⟨n, stop, System.at_spawn_of_at there, main, shape, progress n far⟩

theorem stopCode_doStop : StopCode 0 doStop := ⟨[], [], rfl, by simp, .inl rfl⟩

theorem stopCode_onDestroy : StopCode 0 onDestroy := ⟨[.cancelScope], [.clearInstance], rfl, by decide, .inr rfl⟩

theorem Tidy.callCurrent (tidy : Tidy s) {code : List Stmt}
    (usable : StopCode 0 code ∨ ∀ stmt ∈ code, stmt.commands = true) : Tidy (s.callCurrent code) := by
  refine State.callCurrent_of tidy fun o current idle => ?_
  refine tidy.spawn (.inl ⟨rfl, ?_⟩) fun n far => far.spawn fun aside => absurd rfl aside
  exact usable.imp_left fun shape => ⟨0, shape, progress_zero _⟩

theorem Halting.callCurrent (halting : Halting i s) {code : List Stmt}
    (usable : StopCode 0 code ∨ ∀ stmt ∈ code, stmt.harmless = true) : Halting i (s.callCurrent code) := by
  refine State.callCurrent_of halting fun o current idle => ?_
  refine halting.spawn (fun n far => far.spawn fun aside => absurd rfl aside) fun _ => ?_
  exact usable.imp_left fun shape => ⟨0, shape, progress_zero _⟩

theorem Tidy.callback (tidy : Tidy s) (callback : Nat) {guard : Stmt} {code : List Stmt} (guards : guard.guards = true)
    (signals : ∀ stmt ∈ guard :: code, stmt.signals = true) : Tidy (s.callback callback (guard :: code)) := by
  refine State.callback_of tidy fun o registered => ?_
  exact tidy.spawn (.inr ⟨rfl, signals⟩) fun n far => far.spawn fun _ => .inr (.inl ⟨guard, rfl, guards⟩)

theorem Halting.callback (halting : Halting i s) (callback : Nat) {guard : Stmt} {code : List Stmt}
    (guards : guard.guards = true) : Halting i (s.callback callback (guard :: code)) := by
  refine State.callback_of halting fun o registered => ?_
  refine halting.spawn (fun n far => far.spawn fun _ => .inr (.inl ⟨guard, rfl, guards⟩)) fun main => ?_
  cases main

theorem Progress.memory {n : Nat} (progress : Progress n s) {after : Memory} (cleared : Cleared n after)
    (cancelled : after.cancelled = s.memory.cancelled) : Progress n { s with memory := after } := by
  refine ⟨cleared, fun far task among aside => ?_⟩
  exact (progress.2 far task among aside).mono fun o dead => by rwa [cancelled]

theorem Tidy.create (tidy : Tidy s) : Tidy s.create := by
  unfold State.create
  split
  next vacant =>
    have alone : ∀ o, s.memory.current ≠ some o := by simp [vacant.1]
    refine ⟨⟨?_, ?_⟩, ?_, tidy.signals, ?_⟩
    · intro tun among
      obtain ⟨o, live, -⟩ := tidy.owns.tuns tun among
      exact absurd live (alone o)
    · intro entry among
      exact absurd (tidy.owns.callbacks entry among).1 (alone entry.2)
    · intro task among thread
      obtain ⟨works, usable⟩ := tidy.works task among thread
      exact ⟨works, .inl ((usable.resolve_right (alone _)).mono fun _ => id)⟩
    · intro task among main busy
      exact absurd (vacant.2 task among main) busy
  next => exact tidy

theorem Halting.create (halting : Halting i s) : Halting i s.create := by
  unfold State.create
  split
  next vacant =>
    constructor
    · intro task among main busy
      exact absurd (vacant.2 task among main) busy
    · obtain ⟨n, stop, there, main, shape, far⟩ := halting.far
      exact ⟨n, stop, there, main, shape, far.memory (far.1.same rfl rfl rfl rfl) rfl⟩
  next => exact halting

theorem Tidy.step (tidy : Tidy s) (owned : Owned s) (guarded : EngineGuarded refused s) {event : Event}
    (orderly : Orderly refused s event) : Tidy (s.step event) := by
  cases event with
  | start => exact tidy.create.callCurrent (.inr (by decide))
  | stop => exact tidy.create.callCurrent (.inl stopCode_doStop)
  | revoke => exact tidy.callCurrent (.inl stopCode_doStop)
  | destroy => exact tidy.callCurrent (.inl stopCode_onDestroy)
  | applyCaps dl ul => exact tidy.callCurrent (.inr (by simp [updateCaps, Stmt.commands, Stmt.harmless]))
  | available callback network => exact tidy.callback callback rfl (by decide)
  | lost callback network => exact tidy.callback callback rfl (by decide)
  | run k answer =>
    simp only [State.step]
    split
    · exact tidy
    · exact tidy.run owned guarded orderly
  | exit thread =>
    refine ⟨⟨tidy.owns.tuns, tidy.owns.callbacks⟩, tidy.works, tidy.signals, fun task among main busy => ?_⟩
    refine (tidy.main task among main busy).imp_left (Exists.imp fun n => And.imp_right fun far => ?_)
    exact far.memory (far.1.same rfl rfl rfl rfl) rfl

theorem Halting.step (halting : Halting i s) (tidy : Tidy s) (owned : Owned s) (guarded : EngineGuarded refused s)
    {event : Event} (orderly : Orderly refused s event) (last : event ≠ .start) : Halting i (s.step event) := by
  cases event with
  | start => exact absurd rfl last
  | stop => exact halting.create.callCurrent (.inl stopCode_doStop)
  | revoke => exact halting.callCurrent (.inl stopCode_doStop)
  | destroy => exact halting.callCurrent (.inl stopCode_onDestroy)
  | applyCaps dl ul => exact halting.callCurrent (.inr (by simp [updateCaps, Stmt.harmless]))
  | available callback network => exact halting.callback callback rfl
  | lost callback network => exact halting.callback callback rfl
  | run k answer =>
    simp only [State.step]
    split
    · exact halting
    · exact halting.run tidy owned guarded orderly
  | exit thread =>
    constructor
    · intro task among main busy
      refine (halting.main task among main busy).imp_left (Exists.imp fun n => And.imp_right fun far => ?_)
      exact far.memory (far.1.same rfl rfl rfl rfl) rfl
    · obtain ⟨n, stop, there, main, shape, far⟩ := halting.far
      exact ⟨n, stop, there, main, shape, far.memory (far.1.same rfl rfl rfl rfl) rfl⟩

theorem halting_call (idle : s.Idle .main) (o : Nat) {code : List Stmt} (shape : StopCode 0 code) :
    Halting s.tasks.length (s.call .main o code) := by
  constructor
  · intro task among main busy
    rcases System.mem_spawn among with among | rfl
    · exact absurd (idle task among main) busy
    · exact .inl ⟨0, shape, progress_zero _⟩
  · exact ⟨0, _, System.at_spawn_new .., rfl, shape, progress_zero _⟩

def Delivered (s : State) : Event → Prop
  | .stop => s.Idle .main
  | .revoke | .destroy => s.Idle .main ∧ s.memory.current ≠ none
  | _ => False

theorem halting_delivered {event : Event} (delivered : Delivered s event) : ∃ k, Halting k (s.step event) := by
  have called : ∀ {s : State} {code : List Stmt}, s.Idle .main → s.memory.current ≠ none → StopCode 0 code →
      ∃ k, Halting k (s.callCurrent code) := by
    intro s code idle instanced shape
    obtain ⟨o, current⟩ := Option.ne_none_iff_exists'.mp instanced
    refine ⟨s.tasks.length, ?_⟩
    simp only [State.callCurrent, current, if_pos idle]
    exact halting_call idle o shape
  cases event with
  | stop =>
    have idle : s.create.Idle .main := by unfold State.create; split <;> exact delivered
    refine called idle ?_ stopCode_doStop
    unfold State.create
    split
    · simp
    next occupied => exact fun none => occupied ⟨none, delivered⟩
  | revoke => exact called delivered.1 delivered.2 stopCode_doStop
  | destroy => exact called delivered.1 delivered.2 stopCode_onDestroy
  | start | applyCaps | available | lost | run | exit => exact delivered.elim

theorem Halting.stopped (halting : Halting i s) (sound : Sound s.memory) (settled : s.Settled) :
    Stopped s.memory := by
  obtain ⟨n, task, there, -, ⟨calls, tail, shape, -⟩, cleared, -⟩ := halting.far
  have empty : doStop.drop n = [] := by
    rw [settled task there.mem] at shape
    exact (List.append_eq_nil_iff.mp (List.append_eq_nil_iff.mp shape.symm).2).1
  have far : 11 ≤ n := by simpa [doStop] using List.drop_eq_nil_iff.mp empty
  have quiet := cleared.engines (by omega)
  constructor
  · exact cleared.status (by omega)
  · exact fun thread among => quiet thread (mem_created.mp among)
  · -- a thread that is left would not have been joined
    apply List.eq_nil_iff_forall_not_mem.mpr
    intro thread among
    obtain ⟨created, unjoined⟩ := sound.alive thread among
    obtain ⟨past, later, split⟩ := List.mem_iff_append.mp (quiet thread created)
    have joined := sound.judged past _ later split
    exact unjoined (split ▸ List.mem_append_left _ joined)
  · exact cleared.tuns (by omega)
  · exact cleared.callbacks (by omega)

end

structure Kept (refused : Nat → Bool) (s : State) : Prop where
  owned : Owned s
  guarded : EngineGuarded refused s
  tidy : Tidy s

theorem kept_start (refused : Nat → Bool) : Kept refused State.start :=
  ⟨owned_start, engineGuarded_start refused, ⟨⟨by simp [State.start, Memory.start], by simp [State.start, Memory.start]⟩,
    by simp [State.start], by simp [State.start], by simp [State.start]⟩⟩

theorem Kept.step {refused : Nat → Bool} {s : State} (kept : Kept refused s) {event : Event}
    (orderly : Orderly refused s event) : Kept refused (s.step event) :=
  ⟨kept.owned.step event, kept.guarded.step kept.owned event orderly.1,
    kept.tidy.step kept.owned kept.guarded orderly⟩

theorem Halting.run_on {refused : Nat → Bool} {s : State} {i : Nat} (halting : Halting i s) (kept : Kept refused s)
    {events : List Event} (orderly : Admits State.step (Orderly refused) s events) (last : .start ∉ events) :
    Halting i (events.foldl State.step s) ∧ Kept refused (events.foldl State.step s) := by
  induction events generalizing s with
  | nil => exact ⟨halting, kept⟩
  | cons event rest ih =>
    rw [List.mem_cons, not_or] at last
    have further := halting.step kept.tidy kept.owned kept.guarded orderly.1 (Ne.symm last.1)
    exact ih further (kept.step orderly.1) orderly.2 last.2

instance (s : State) : (event : Event) → Decidable (Delivered s event)
  | .stop => inferInstanceAs (Decidable (s.Idle .main))
  | .revoke | .destroy => inferInstanceAs (Decidable (_ ∧ s.memory.current ≠ none))
  | .start | .applyCaps _ _ | .available _ _ | .lost _ _ | .run _ _ | .exit _ => inferInstanceAs (Decidable False)

end ThrottleVpn.Service
