import ThrottleVpn.Service.Scopes
import ThrottleVpn.Service.Statistics

/-! Networks that come and go.

The callbacks do not look at the network that they are called for: whichever is lost, a
connected service goes into RECONNECTING, and nothing but the next gain brings it back.
As long as only the loss of the last network finds the service connected, and no
coroutine is still to set CONNECTED then, a service with a network is connected and
its traffic is monitored.
-/

set_option autoImplicit false

namespace ThrottleVpn.Service

open Foundation Function

def Monitored (m : Memory) : Prop := ∃ monitor ∈ m.monitors, OfCurrent m monitor

instance (m : Memory) : Decidable (Monitored m) := inferInstanceAs (Decidable (∃ monitor ∈ m.monitors, _))

/-! ### Networks -/

def State.hears (callback : Nat) (s : State) : Prop :=
  (s.memory.callbacks.find? (·.1 = callback)).isSome = true ∧ s.Idle .network

instance (callback : Nat) (s : State) : Decidable (s.hears callback) := inferInstanceAs (Decidable (_ ∧ _))

structure Networked where
  state : State
  networks : List Nat

def Networked.step (w : Networked) (event : Event) : Networked where
  state := w.state.step event
  networks :=
    match event with
    | .available callback network =>
      if w.state.hears callback then w.networks.insert network else w.networks
    | .lost callback network =>
      if w.state.hears callback then w.networks.erase network else w.networks
    | _ => w.networks

structure Rested (s : State) : Prop where
  settled : s.Settled
  status : s.memory.status ≠ .connected
  callbacks : s.memory.callbacks = []

instance (s : State) : Decidable (Rested s) :=
  decidable_of_iff (s.Settled ∧ s.memory.status ≠ .connected ∧ s.memory.callbacks = [])
    ⟨fun all => ⟨all.1, all.2.1, all.2.2⟩, fun rested => ⟨rested.settled, rested.status, rested.callbacks⟩⟩

def started (s : State) : State := (.start :: Event.runs s.tasks.length 3 .plain).foldl State.step s

def Networked.start (s : State) : Networked := ⟨started s, []⟩

/-- With a network at hand, a service at rest is connected and monitored. -/
def Served (w : Networked) : Prop :=
  w.state.Settled → w.networks ≠ [] → w.state.memory.status = .connected ∧ Monitored w.state.memory

instance (w : Networked) : Decidable (Served w) := inferInstanceAs (Decidable (_ → _ → _ ∧ _))

def throws : Effect → Bool
  | .raise _ => true
  | _ => false

/-- Callbacks arrive, a network is lost only if it was announced, caps are pushed, engine
threads end and tasks get on without throwing; nobody starts or stops the VPN. -/
def Roams (w : Networked) : Event → Prop
  | .applyCaps _ _ | .available _ _ | .exit _ => True
  | .lost _ network => network ∈ w.networks
  | .run k answer => ∀ task ∈ w.state.tasks[k]?, ∀ stmt ∈ task.code.head?,
    throws (stmt.exec task.site.service answer w.state.memory) = false
  | .start | .stop | .revoke | .destroy => False

instance (w : Networked) : (event : Event) → Decidable (Roams w event)
  | .applyCaps _ _ | .available _ _ | .exit _ => inferInstanceAs (Decidable True)
  | .lost _ _ => inferInstanceAs (Decidable (_ ∈ _))
  | .run k _ => inferInstanceAs (Decidable (∀ task ∈ w.state.tasks[k]?, ∀ stmt ∈ task.code.head?, _))
  | .start | .stop | .revoke | .destroy => inferInstanceAs (Decidable False)

def NoneConnects (s : State) : Prop := ∀ task ∈ s.tasks, .setStatus .connected ∉ task.code

instance (s : State) : Decidable (NoneConnects s) := inferInstanceAs (Decidable (∀ task ∈ s.tasks, _))

/-- An `onLost` that finds the service connected is called for the last network, while no
coroutine is to set CONNECTED. -/
def LosesLast (w : Networked) : Event → Prop
  | .run k _ => ∀ task ∈ w.state.tasks[k]?, .returnUnless .connected ∈ task.code.head? →
    w.state.memory.status = .connected → w.networks = [] ∧ NoneConnects w.state
  | _ => True

instance (w : Networked) : (event : Event) → Decidable (LosesLast w event)
  | .run k _ => inferInstanceAs (Decidable (∀ task ∈ w.state.tasks[k]?, _ → _ → _ ∧ _))
  | .start | .stop | .revoke | .destroy | .applyCaps _ _ | .available _ _ | .lost _ _ | .exit _ =>
    inferInstanceAs (Decidable True)

/-! ### Coroutines -/

def Stmt.connects : Stmt → Bool
  | .cancelScope | .clearInstance | .returnIfConnected | .launchStart | .clearVpnFd | .clearEngine | .clearShaper
  | .unregisterNetCb | .clearNetCb | .returnUnless _ | .launchReconnect | .stopMonitoring
  | .cancelMonitor _ => false
  | .setStatus status => status = .connected
  | _ => true

structure Onward (stmt : Stmt) (o : Nat) (m : Memory) (rest : List Stmt) (after : Memory) (code : List Stmt)
    (new : List (Task Site Stmt)) : Prop where
  current : after.current = m.current
  cancelled : after.cancelled = m.cancelled
  callbacks : ∀ entry ∈ after.callbacks, entry ∈ m.callbacks ∨ entry.2 = o
  status : after.status = if stmt = .setStatus .connected then .connected else m.status
  calls : ∃ calls, code = calls ++ rest ∧ ∀ call ∈ calls, call.connects = true ∧ call ≠ .setStatus .connected ∧
    call ≠ .startMonitoring
  new : ∀ task ∈ new, task.site = ⟨.collector, o⟩ ∧ task.code = collectStats
  shaper : if stmt = .newShaper then after.shaper o ≠ none else after.shaper = m.shaper
  monitors : ∀ monitor ∈ m.monitors, monitor ∈ after.monitors
  starts : stmt = .startMonitoring → ∀ shaper, m.shaper o = some shaper → .launchMonitor shaper ∈ code
  launches : ∀ shaper, stmt = .launchMonitor shaper → ∃ monitor ∈ after.monitors, monitor.shaper = shaper

theorem exec_connects {stmt : Stmt} (connects : stmt.connects = true) {o : Nat} {answer : Answer} {m : Memory}
    (alive : m.cancelled o = false) (succeeds : throws (stmt.exec o answer m) = false) (rest handler : List Stmt) :
    (stmt.exec o answer m).Leads m rest handler (Onward stmt o m rest) := by
  cases stmt <;> simp only [Stmt.connects, Bool.false_eq_true] at connects
  all_goals simp only [Stmt.exec] at succeeds ⊢
  all_goals (repeat' split) <;> simp only [Outcome.Leads]
  -- what throws, and what ends the task, does not happen
  all_goals first
    | trivial
    | (simp_all [throws]; done)
    | clear succeeds
  all_goals constructor
  all_goals first
    | rfl
    | exact ⟨_, rfl, by simp [Stmt.connects, engineStart, engineStop, updateCaps]⟩
    | simp_all [Memory.log]

/-- A coroutine that makes a shaper starts its monitoring later, and makes no other one then. -/
def StartsLater (stmt : Stmt) (rest : List Stmt) : Prop :=
  (stmt = .newShaper → .startMonitoring ∈ rest) ∧ (stmt = .startMonitoring → .newShaper ∉ rest)

theorem placing_startsLater : Placing StartsLater := by
  constructor
  · intro stmt called rest
    cases stmt <;> simp_all [Stmt.called, StartsLater]
  all_goals simp [InPlace, StartsLater, startBody, reconnectBody, collectStats, establish, registerNetCb,
    onFailure, doStart, doStop, onDestroy, onAvailable, onLost]

/-! ### The invariant -/

def Leaving (code : List Stmt) : Prop :=
  code = onLost.tail ∨ code = [.stopMonitoring] ∨ ∃ shaper, code = [.cancelMonitor shaper]

def Listens (code : List Stmt) : Prop :=
  code = [] ∨ code = onAvailable ∨ code = [.launchReconnect] ∨ code = onLost ∨ Leaving code

def MonitorDue (o : Nat) (s : State) : Prop :=
  ∃ task ∈ s.tasks, .startMonitoring ∈ task.code ∨
    ∃ shaper, s.memory.shaper o = some shaper ∧ .launchMonitor shaper ∈ task.code

def OneByOne (thread : Thread) (s : State) : Prop :=
  ∀ j k task other, s.At j task → s.At k other → task.site.thread = thread → other.site.thread = thread →
    task.code ≠ [] → other.code ≠ [] → j = k

structure Grounded (o : Nat) (s : State) : Prop where
  current : s.memory.current = some o
  alive : s.memory.cancelled o = false
  callbacks : ∀ entry ∈ s.memory.callbacks, entry.2 = o
  service : ∀ task ∈ s.tasks, task.code ≠ [] → task.site.service = o
  kinds : ∀ task ∈ s.tasks, task.site.thread = .network ∧ Listens task.code ∨
    ∀ stmt ∈ task.code, stmt.connects = true
  oneNetwork : OneByOne .network s
  shaper : ∀ task ∈ s.tasks, .startMonitoring ∈ task.code → .newShaper ∈ task.code ∨ s.memory.shaper o ≠ none

/-- The service is connected or will be, or has no network; its traffic is monitored or will
be, or it waits for a network; and it is left for lack of networks only. -/
structure Upheld (o : Nat) (w : Networked) : Prop where
  status : w.state.memory.status = .connected ∨ (∃ task ∈ w.state.tasks, .setStatus .connected ∈ task.code) ∨
    w.state.memory.status = .reconnecting ∧
      (w.networks = [] ∨ ∃ task ∈ w.state.tasks, .launchReconnect ∈ task.code)
  monitored : Monitored w.state.memory ∨ MonitorDue o w.state ∨
    w.state.memory.status ≠ .connected ∧ NoneConnects w.state
  leaving : ∀ task ∈ w.state.tasks, Leaving task.code → w.networks = [] ∧ NoneConnects w.state ∧
    (task.code ≠ onLost.tail → w.state.memory.status ≠ .connected)

section
variable {o : Nat} {s : State} {k : Nat} {task : Task Site Stmt} {m after : Memory} {stmt : Stmt}
  {rest code : List Stmt} {new : List (Task Site Stmt)}

theorem OneByOne.replace {thread : Thread} (oneByOne : OneByOne thread s) (here : s.At k task)
    (busy : task.code ≠ []) (foreign : ∀ launched ∈ new, launched.site.thread ≠ thread) :
    OneByOne thread (s.replace k task after code new) := by
  intro i j other third there elsewhere one also working waiting
  rcases System.at_replace there with ⟨rfl, rfl⟩ | ⟨-, stays⟩ | among
  · rcases System.at_replace elsewhere with ⟨rfl, -⟩ | ⟨-, waits⟩ | among
    · rfl
    · exact oneByOne i j task third here waits one also busy waiting
    · exact absurd also (foreign third among)
  · rcases System.at_replace elsewhere with ⟨rfl, rfl⟩ | ⟨-, waits⟩ | among
    · exact oneByOne i j other task stays here one also working busy
    · exact oneByOne i j other third stays waits one also working waiting
    · exact absurd also (foreign third among)
  · exact absurd one (foreign other among)

theorem connects_of_mem_calls (onward : Onward stmt o m rest after code new)
    (connects : ∀ stmt ∈ rest, stmt.connects = true) : ∀ stmt ∈ code, stmt.connects = true := by
  obtain ⟨calls, rfl, free⟩ := onward.calls
  intro stmt among
  exact (List.mem_append.mp among).elim (fun called => (free stmt called).1) (connects stmt)

theorem Grounded.onward (grounded : Grounded o s) (here : s.At k task) (next : task.code = stmt :: rest)
    (connects : ∀ stmt ∈ task.code, stmt.connects = true)
    (onward : Onward stmt o s.memory rest after code new) : Grounded o (s.replace k task after code new) := by
  have service := grounded.service task here.mem (by simp [next])
  have shapes : s.memory.shaper o ≠ none → after.shaper o ≠ none := by
    have shaper := onward.shaper
    split at shaper
    · exact fun _ => shaper
    · exact fun set => shaper ▸ set
  constructor
  · exact onward.current.trans grounded.current
  · exact (congrFun onward.cancelled o).trans grounded.alive
  · exact fun entry among => (onward.callbacks entry among).elim (grounded.callbacks entry) id
  · intro other among busy
    rcases System.mem_replace among with rfl | among | among
    · exact service
    · exact grounded.service other among busy
    · rw [(onward.new other among).1]
  · intro other among
    rcases System.mem_replace among with rfl | among | among
    · rw [next, List.forall_mem_cons] at connects
      exact .inr (connects_of_mem_calls onward connects.2)
    · exact grounded.kinds other among
    · refine .inr ?_
      rw [(onward.new other among).2]
      decide
  · apply grounded.oneNetwork.replace here (by simp [next])
    intro launched among
    rw [(onward.new launched among).1]
    simp
  · intro other among starts
    rcases System.mem_replace among with rfl | among | among
    · obtain ⟨calls, rfl, free⟩ := onward.calls
      have later : .startMonitoring ∈ rest :=
        (List.mem_append.mp starts).resolve_left fun called => (free _ called).2.2 rfl
      have before := grounded.shaper task here.mem (by simp [next, later])
      rw [next, List.mem_cons] at before
      rcases before with (made | coming) | set
      · have shaper := onward.shaper
        rw [if_pos made.symm] at shaper
        exact .inr shaper
      · exact .inl (List.mem_append_right _ coming)
      · exact .inr (shapes set)
    · exact (grounded.shaper other among starts).imp_right shapes
    · rw [(onward.new other among).2] at starts
      simp [collectStats] at starts

theorem Leaving.not_connects (leaving : Leaving code) : ¬∀ stmt ∈ code, stmt.connects = true := by
  rcases leaving with rfl | rfl | ⟨shaper, rfl⟩ <;> simp [onLost, Stmt.connects]

theorem noneConnects_onward (here : s.At k task) (next : task.code = stmt :: rest)
    (onward : Onward stmt o s.memory rest after code new) (none : NoneConnects s) :
    NoneConnects (s.replace k task after code new) := by
  intro other among connects
  rcases System.mem_replace among with rfl | among | among
  · obtain ⟨calls, rfl, free⟩ := onward.calls
    have later : .setStatus .connected ∈ rest :=
      (List.mem_append.mp connects).resolve_left fun called => (free _ called).2.1 rfl
    exact none task here.mem (by simp [next, later])
  · exact none other among connects
  · rw [(onward.new other among).2] at connects
    simp [collectStats] at connects

theorem monitored_onward (grounded : Grounded o s) (placed : AllInPlace StartsLater s) (here : s.At k task)
    (next : task.code = stmt :: rest) (onward : Onward stmt o s.memory rest after code new)
    (monitored : Monitored s.memory ∨ MonitorDue o s) :
    Monitored after ∨ MonitorDue o (s.replace k task after code new) := by
  obtain ⟨calls, split, -⟩ := onward.calls
  have moved := (System.at_replace_self here after code new).mem
  have inPlace := placed task here.mem
  rw [next] at inPlace
  have shaper := onward.shaper
  have current := onward.current.trans grounded.current
  by_cases makes : stmt = .newShaper
  · -- the monitor of the new shaper is due
    exact .inr ⟨_, moved, .inl (split ▸ List.mem_append_right _ (inPlace.1.1 makes))⟩
  rw [if_neg makes] at shaper
  rcases monitored with ⟨monitor, among, p, live, known⟩ | ⟨other, among, due⟩
  · obtain rfl := Option.some.inj (live.symm.trans grounded.current)
    exact .inl ⟨monitor, onward.monitors monitor among, _, current, (congrFun shaper _).trans known⟩
  obtain ⟨j, there⟩ := System.exists_at among
  by_cases elsewhere : j = k
  · subst elsewhere
    obtain rfl := Option.some.inj (here.symm.trans there)
    rw [next] at due
    rcases due with starts | ⟨shaper', known, launches⟩
    · rcases List.mem_cons.mp starts with rfl | later
      · -- the shaper is there, because the task makes no other
        have set := (grounded.shaper task here.mem (by simp [next])).resolve_left fun makes => by
          rw [next, List.mem_cons] at makes
          exact makes.elim (by simp) (inPlace.1.2 rfl)
        obtain ⟨shaper', known⟩ := Option.ne_none_iff_exists'.mp set
        exact .inr ⟨_, moved, .inr ⟨shaper', (congrFun shaper _).trans known, onward.starts rfl shaper' known⟩⟩
      · exact .inr ⟨_, moved, .inl (split ▸ List.mem_append_right _ later)⟩
    · rcases List.mem_cons.mp launches with rfl | later
      · obtain ⟨monitor, among, rfl⟩ := onward.launches shaper' rfl
        exact .inl ⟨monitor, among, o, current, (congrFun shaper _).trans known⟩
      · exact .inr ⟨_, moved, .inr ⟨shaper', (congrFun shaper _).trans known,
          split ▸ List.mem_append_right _ later⟩⟩
  · refine .inr ⟨other, (System.at_replace_of_ne elsewhere there after code new).mem, due.imp_right ?_⟩
    rintro ⟨shaper', known, launches⟩
    exact ⟨shaper', (congrFun shaper _).trans known, launches⟩

theorem Upheld.onward {networks : List Nat} (upheld : Upheld o ⟨s, networks⟩) (grounded : Grounded o s)
    (placed : AllInPlace StartsLater s) (here : s.At k task) (next : task.code = stmt :: rest)
    (connects : ∀ stmt ∈ task.code, stmt.connects = true)
    (onward : Onward stmt o s.memory rest after code new) :
    Upheld o ⟨s.replace k task after code new, networks⟩ := by
  have free : ∀ stmt ∈ code, stmt.connects = true := by
    rw [next, List.forall_mem_cons] at connects
    exact connects_of_mem_calls onward connects.2
  have status := onward.status
  obtain ⟨calls, split, -⟩ := onward.calls
  -- nobody sets CONNECTED when nobody is to
  have unconnected : NoneConnects s → after.status = s.memory.status := by
    intro none
    rwa [if_neg fun same => none task here.mem (by simp [next, same])] at status
  constructor
  · by_cases sets : stmt = .setStatus .connected
    · exact .inl (status.trans (if_pos sets))
    rw [if_neg sets] at status
    rcases upheld.status with connected | coming | ⟨reconnecting, waits⟩
    · exact .inl (status.trans connected)
    · refine .inr (.inl (System.exists_replace here (fun coming => ?_) coming))
      rw [next, List.mem_cons] at coming
      exact split ▸ List.mem_append_right _ (coming.resolve_left (Ne.symm sets))
    · refine .inr (.inr ⟨status.trans reconnecting, waits.imp_right (System.exists_replace here ?_)⟩)
      intro launches
      cases connects _ launches
  · rcases or_assoc.mpr upheld.monitored with monitored | ⟨other, none⟩
    · exact or_assoc.mp (.inl (monitored_onward grounded placed here next onward monitored))
    · refine .inr (.inr ⟨?_, noneConnects_onward here next onward none⟩)
      exact fun same => other ((unconnected none).symm.trans same)
  · intro other among leaving
    rcases System.mem_replace among with rfl | among | among
    · exact absurd free leaving.not_connects
    · obtain ⟨lost, none, left⟩ := upheld.leaving other among leaving
      refine ⟨lost, noneConnects_onward here next onward none, fun further same => ?_⟩
      exact left further ((unconnected none).symm.trans same)
    · rw [(onward.new other among).2] at leaving
      exact absurd (by decide) leaving.not_connects

/-! ### Callbacks -/

theorem Grounded.listens (grounded : Grounded o s) (here : s.At k task) (network : task.site.thread = .network)
    (busy : task.code ≠ []) (current : after.current = s.memory.current)
    (cancelled : after.cancelled = s.memory.cancelled) (callbacks : after.callbacks = s.memory.callbacks)
    (shaper : after.shaper = s.memory.shaper) (listens : Listens code)
    (launched : ∀ other ∈ new, other.site = ⟨.io, o⟩ ∧ other.code = reconnectBody) :
    Grounded o (s.replace k task after code new) := by
  have quiet : .startMonitoring ∉ code := by
    rcases listens with rfl | rfl | rfl | rfl | rfl | rfl | ⟨shaper, rfl⟩ <;> simp [onAvailable, onLost]
  constructor
  · exact current.trans grounded.current
  · exact (congrFun cancelled o).trans grounded.alive
  · exact fun entry among => grounded.callbacks entry (callbacks ▸ among)
  · intro other among working
    rcases System.mem_replace among with rfl | among | among
    · exact grounded.service task here.mem busy
    · exact grounded.service other among working
    · rw [(launched other among).1]
  · intro other among
    rcases System.mem_replace among with rfl | among | among
    · exact .inl ⟨network, listens⟩
    · exact grounded.kinds other among
    · refine .inr ?_
      rw [(launched other among).2]
      decide
  · apply grounded.oneNetwork.replace here busy
    intro other among
    rw [(launched other among).1]
    simp
  · intro other among starts
    rcases System.mem_replace among with rfl | among | among
    · exact absurd starts quiet
    · exact shaper ▸ grounded.shaper other among starts
    · rw [(launched other among).2]
      exact .inl (by decide)

theorem Grounded.leaving (grounded : Grounded o s) (here : s.At k task) (network : task.site.thread = .network)
    (busy : task.code ≠ []) {other : Task Site Stmt} (among : other ∈ s.tasks) (leaving : Leaving other.code) :
    other = task := by
  obtain ⟨j, there⟩ := System.exists_at among
  have also := ((grounded.kinds other among).resolve_right leaving.not_connects).1
  have working : other.code ≠ [] := by
    intro ended
    rw [ended] at leaving
    rcases leaving with same | same | ⟨shaper, same⟩ <;> cases same
  obtain rfl := grounded.oneNetwork j k other task there here also network working busy
  exact Option.some.inj (there.symm.trans here)

theorem Listens.quiet (listens : Listens code) : .setStatus .connected ∉ code ∧ .startMonitoring ∉ code ∧
    ∀ shaper, .launchMonitor shaper ∉ code := by
  rcases listens with rfl | rfl | rfl | rfl | rfl | rfl | ⟨shaper, rfl⟩ <;> simp [onAvailable, onLost]

theorem noneConnects_listens (none : NoneConnects s) (further : Listens code) :
    NoneConnects (s.replace k task after code []) := by
  intro other among
  rcases System.mem_replace among with rfl | among | among
  · exact further.quiet.1
  · exact none other among
  · cases among

theorem Upheld.still {networks : List Nat} (upheld : Upheld o ⟨s, networks⟩) (here : s.At k task)
    (listens : Listens task.code) (further : Listens code)
    (relaunch : .launchReconnect ∈ task.code → s.memory.status = .reconnecting → .launchReconnect ∈ code)
    (leaving : Leaving code → networks = [] ∧ NoneConnects s ∧
      (code ≠ onLost.tail → s.memory.status ≠ .connected)) :
    Upheld o ⟨s.replace k task s.memory code [], networks⟩ := by
  obtain ⟨sets, starts, launches⟩ := listens.quiet
  constructor
  · rcases upheld.status with connected | coming | ⟨reconnecting, waits⟩
    · exact .inl connected
    · exact .inr (.inl (System.exists_replace here (fun coming => absurd coming sets) coming))
    · exact .inr (.inr ⟨reconnecting,
        waits.imp_right (System.exists_replace here fun launches => relaunch launches reconnecting)⟩)
  · rcases upheld.monitored with monitored | due | ⟨other, none⟩
    · exact .inl monitored
    · refine .inr (.inl (System.exists_replace here (fun due => ?_) due))
      rcases due with due | ⟨shaper, -, due⟩
      · exact absurd due starts
      · exact absurd due (launches shaper)
    · exact .inr (.inr ⟨other, noneConnects_listens none further⟩)
  · intro other among leaves
    rcases System.mem_replace among with rfl | among | among
    · exact (leaving leaves).imp_right (And.imp_left (noneConnects_listens · further))
    · exact (upheld.leaving other among leaves).imp_right (And.imp_left (noneConnects_listens · further))
    · cases among

theorem Upheld.left {networks : List Nat} (lost : networks = []) (none : NoneConnects s)
    (reconnecting : after.status = .reconnecting) (further : Listens code) :
    Upheld o ⟨s.replace k task after code [], networks⟩ := by
  have none := @noneConnects_listens s k task after code none further
  have left : after.status ≠ .connected := by simp [reconnecting]
  exact ⟨.inr (.inr ⟨reconnecting, .inl lost⟩), .inr (.inr ⟨left, none⟩), fun _ _ _ => ⟨lost, none, fun _ => left⟩⟩

/-- A statement of a callback keeps the invariant, if `onLost` leaves the service connected
unless it lost its last network. -/
theorem exec_listens {networks : List Nat} (upheld : Upheld o ⟨s, networks⟩) (grounded : Grounded o s)
    (here : s.At k task) (next : task.code = stmt :: rest) (network : task.site.thread = .network)
    (listens : Listens task.code) (answer : Answer)
    (loses : stmt = .returnUnless .connected → s.memory.status = .connected → networks = [] ∧ NoneConnects s) :
    (stmt.exec task.site.service answer s.memory).Leads s.memory rest task.handler fun after code new =>
      Grounded o (s.replace k task after code new) ∧ Upheld o ⟨s.replace k task after code new, networks⟩ := by
  have busy : task.code ≠ [] := by simp [next]
  have service := grounded.service task here.mem busy
  -- the memory stays the same
  have still : ∀ {code : List Stmt}, Listens code →
      (.launchReconnect ∈ task.code → s.memory.status = .reconnecting → .launchReconnect ∈ code) →
      (Leaving code → networks = [] ∧ NoneConnects s ∧ (code ≠ onLost.tail → s.memory.status ≠ .connected)) →
      Grounded o (s.replace k task s.memory code []) ∧ Upheld o ⟨s.replace k task s.memory code [], networks⟩ :=
    fun further relaunch leaving => ⟨grounded.listens here network busy rfl rfl rfl rfl further (by simp),
      upheld.still here listens further relaunch leaving⟩
  have whole := listens
  rw [next] at whole
  rcases whole with same | same | same | same | same | same | ⟨shaper, same⟩ <;> cases same
  · -- onAvailable
    rw [Stmt.exec]
    split
    · exact still (.inr (.inr (.inl rfl))) (fun _ _ => by simp) (by simp [Leaving, onLost])
    next other =>
      exact still (.inl rfl) (fun _ reconnecting => absurd reconnecting other) (by simp [Leaving, onLost])
  · -- the reconnect is launched, and sets CONNECTED
    have launched : ∀ other ∈ [(⟨⟨.io, task.site.service⟩, reconnectBody, onFailure⟩ : Task Site Stmt)],
        other.site = ⟨.io, o⟩ ∧ other.code = reconnectBody := by
      rw [service]
      simp
    refine ⟨grounded.listens here network busy rfl rfl rfl rfl (.inl rfl) launched, ?_, ?_, ?_⟩
    · exact .inr (.inl ⟨_, List.mem_append_right _ (List.mem_singleton_self _), by simp [reconnectBody]⟩)
    · exact .inr (.inl ⟨_, List.mem_append_right _ (List.mem_singleton_self _), .inl (by simp [reconnectBody])⟩)
    · intro other among leaving
      rcases System.mem_replace among with rfl | among | among
      · simp [Leaving, onLost] at leaving
      · obtain rfl := grounded.leaving here network busy among leaving
        rw [next] at leaving
        simp [Leaving, onLost] at leaving
      · rw [(launched other among).2] at leaving
        simp [Leaving, onLost, reconnectBody] at leaving
  · -- onLost
    rw [Stmt.exec]
    split
    next connected =>
      obtain ⟨lost, none⟩ := loses rfl connected
      exact still (.inr (.inr (.inr (.inr (.inl rfl))))) (fun launches => by simp [next] at launches)
        fun _ => ⟨lost, none, fun further => absurd rfl further⟩
    next => exact still (.inl rfl) (fun launches => by simp [next] at launches) (by simp [Leaving, onLost])
  all_goals obtain ⟨lost, none, left⟩ := upheld.leaving task here.mem (by simp [next, Leaving, onLost])
  · -- RECONNECTING
    have further : Listens [.stopMonitoring] := .inr (.inr (.inr (.inr (.inr (.inl rfl)))))
    exact ⟨grounded.listens here network busy rfl rfl rfl rfl further (by simp), .left lost none rfl further⟩
  · -- stopMonitoring
    have left := left (by simp [next, onLost])
    rw [Stmt.exec]
    split
    · exact still (.inr (.inr (.inr (.inr (.inr (.inr ⟨_, rfl⟩)))))) (fun launches => by simp [next] at launches)
        fun _ => ⟨lost, none, fun _ => left⟩
    · exact still (.inl rfl) (fun launches => by simp [next] at launches) (by simp [Leaving, onLost])
  · -- no more samples
    have left := left (by simp [next, onLost])
    have reconnecting : s.memory.status = .reconnecting := by
      rcases upheld.status with connected | ⟨other, among, connects⟩ | ⟨reconnecting, -⟩
      · exact absurd connected left
      · exact absurd connects (none other among)
      · exact reconnecting
    exact ⟨grounded.listens here network busy rfl rfl rfl rfl (.inl rfl) (by simp),
      .left lost none reconnecting (.inl rfl)⟩

/-! ### Runs -/

theorem upheld_run {networks : List Nat} (upheld : Upheld o ⟨s, networks⟩) (grounded : Grounded o s)
    (placed : AllInPlace StartsLater s) {answer : Answer} (roams : Roams ⟨s, networks⟩ (.run k answer))
    (loses : LosesLast ⟨s, networks⟩ (.run k answer)) :
    Grounded o (System.run State.exec answer k s) ∧ Upheld o ⟨System.run State.exec answer k s, networks⟩ := by
  apply @System.run_of_leads _ _ _ _ s k State.exec answer
    (fun after => Grounded o after ∧ Upheld o ⟨after, networks⟩) ⟨grounded, upheld⟩
  intro task stmt rest here next
  rcases grounded.kinds task here.mem with ⟨network, listens⟩ | connects
  · exact exec_listens upheld grounded here next network listens answer fun checks =>
      loses task here (by simp [next, checks])
  · have succeeds := roams task here stmt (by simp [next])
    obtain rfl := grounded.service task here.mem (by simp [next])
    apply (exec_connects (connects stmt (by simp [next])) grounded.alive succeeds rest task.handler).mono
    intro after code new onward
    exact ⟨grounded.onward here next connects onward, upheld.onward grounded placed here next connects onward⟩

theorem Grounded.call (grounded : Grounded o s) {thread : Thread}
    (kind : thread = .network ∧ Listens code ∧ s.Idle .network ∨
      thread ≠ .network ∧ ∀ stmt ∈ code, stmt.connects = true)
    (quiet : .startMonitoring ∉ code) : Grounded o (s.call thread o code) := by
  constructor
  · exact grounded.current
  · exact grounded.alive
  · exact grounded.callbacks
  · intro task among busy
    rcases System.mem_spawn among with among | rfl
    · exact grounded.service task among busy
    · rfl
  · intro task among
    rcases System.mem_spawn among with among | rfl
    · exact grounded.kinds task among
    · exact kind.imp (And.imp_right And.left) And.right
  · intro i j task other there elsewhere one also busy working
    rcases System.at_spawn there with stays | ⟨rfl, rfl⟩
    · rcases System.at_spawn elsewhere with waits | ⟨rfl, rfl⟩
      · exact grounded.oneNetwork i j task other stays waits one also busy working
      · rcases kind with ⟨-, -, idle⟩ | ⟨foreign, -⟩
        · exact absurd (idle task stays.mem one) busy
        · exact absurd also foreign
    · rcases System.at_spawn elsewhere with waits | ⟨rfl, -⟩
      · rcases kind with ⟨-, -, idle⟩ | ⟨foreign, -⟩
        · exact absurd (idle other waits.mem also) working
        · exact absurd one foreign
      · rfl
  · intro task among starts
    rcases System.mem_spawn among with among | rfl
    · exact grounded.shaper task among starts
    · exact absurd starts quiet

theorem Upheld.call {networks changed : List Nat} (upheld : Upheld o ⟨s, networks⟩) (grounded : Grounded o s)
    {thread : Thread} (quiet : .setStatus .connected ∉ code) (arrives : ¬Leaving code)
    (kept : changed = networks ∨ s.Idle .network)
    (gained : networks = [] → changed = [] ∨ .launchReconnect ∈ code) :
    Upheld o ⟨s.call thread o code, changed⟩ := by
  have stays : ∀ {Holds : Task Site Stmt → Prop}, (∃ task ∈ s.tasks, Holds task) →
      ∃ task ∈ (s.call thread o code).tasks, Holds task := by
    rintro Holds ⟨task, among, holds⟩
    exact ⟨task, List.mem_append_left _ among, holds⟩
  have none : NoneConnects s → NoneConnects (s.call thread o code) := by
    intro none task among
    rcases System.mem_spawn among with among | rfl
    · exact none task among
    · exact quiet
  constructor
  · rcases upheld.status with connected | coming | ⟨reconnecting, waits⟩
    · exact .inl connected
    · exact .inr (.inl (stays coming))
    · refine .inr (.inr ⟨reconnecting, ?_⟩)
      rcases waits with lost | launches
      · refine (gained lost).imp_right fun launches => ?_
        exact ⟨_, List.mem_append_right _ (List.mem_singleton_self _), launches⟩
      · exact .inr (stays launches)
  · exact upheld.monitored.imp_right (Or.imp stays (And.imp_right none))
  · intro task among leaving
    rcases System.mem_spawn among with among | rfl
    · obtain ⟨lost, none', left⟩ := upheld.leaving task among leaving
      refine ⟨?_, none none', left⟩
      rcases kept with same | idle
      · exact same.trans lost
      · -- an `onLost` is not under way
        have network := ((grounded.kinds task among).resolve_right leaving.not_connects).1
        rw [idle task among network] at leaving
        simp [Leaving, onLost] at leaving
    · exact absurd leaving arrives

theorem Grounded.callback (grounded : Grounded o s) (callback : Nat) (code : List Stmt) :
    s.callback callback code = if s.hears callback then s.call .network o code else s := by
  unfold State.callback State.hears
  split
  next entry p found =>
    have same : p = o := grounded.callbacks _ (List.mem_of_find?_eq_some found)
    simp [found, same]
  next found => simp [found]

theorem upheld_step {w : Networked} (upheld : Upheld o w) (grounded : Grounded o w.state)
    (placed : AllInPlace StartsLater w.state) {event : Event} (roams : Roams w event) (loses : LosesLast w event) :
    Grounded o (w.step event).state ∧ Upheld o (w.step event) := by
  obtain ⟨s, networks⟩ := w
  cases event with
  | start | stop | revoke | destroy => exact roams.elim
  | applyCaps dl ul =>
    refine @State.callCurrent_of s (updateCaps dl ul) (fun after => Grounded o after ∧ Upheld o ⟨after, networks⟩)
      ⟨grounded, upheld⟩ fun p current idle => ?_
    obtain rfl := Option.some.inj (current.symm.trans grounded.current)
    have free : ∀ stmt ∈ updateCaps dl ul, stmt.connects = true := by simp [updateCaps, Stmt.connects]
    refine ⟨grounded.call (.inr ⟨by decide, free⟩) (by simp [updateCaps]), ?_⟩
    exact upheld.call grounded (by simp [updateCaps]) (fun leaving => leaving.not_connects free) (.inl rfl) .inl
  | available callback network =>
    simp only [Networked.step, State.step]
    rw [grounded.callback]
    split
    next heard =>
      refine ⟨grounded.call (.inl ⟨rfl, .inr (.inl rfl), heard.2⟩) (by decide), ?_⟩
      exact upheld.call grounded (by decide) (by simp [Leaving, onLost, onAvailable]) (.inr heard.2)
        fun _ => .inr (by decide)
    next => exact ⟨grounded, upheld⟩
  | lost callback network =>
    simp only [Networked.step, State.step]
    rw [grounded.callback]
    split
    next heard =>
      refine ⟨grounded.call (.inl ⟨rfl, .inr (.inr (.inr (.inl rfl))), heard.2⟩) (by decide), ?_⟩
      refine upheld.call grounded (by decide) (by simp [Leaving, onLost]) (.inr heard.2) fun lost => .inl ?_
      rw [lost]
      rfl
    next => exact ⟨grounded, upheld⟩
  | run k answer =>
    simp only [Networked.step, State.step]
    split
    · exact ⟨grounded, upheld⟩
    · exact upheld_run upheld grounded placed roams loses
  | exit thread =>
    exact ⟨⟨grounded.current, grounded.alive, grounded.callbacks, grounded.service, grounded.kinds,
      grounded.oneNetwork, grounded.shaper⟩, upheld.status, upheld.monitored, upheld.leaving⟩

theorem started_eq (rested : Rested s) : ∃ p, s.create.memory.current = some p ∧ started s =
    ⟨{ s.create.memory with status := .connecting },
      s.tasks ++ [⟨⟨.main, p⟩, [], []⟩, ⟨⟨.io, p⟩, startBody, onFailure⟩]⟩ := by
  have idle : s.Idle .main := fun task among _ => rested.settled task among
  have tasks : s.create.tasks = s.tasks := by
    unfold State.create
    split <;> rfl
  have status : s.create.memory.status = s.memory.status := by
    unfold State.create
    split <;> rfl
  obtain ⟨p, current⟩ : ∃ p, s.create.memory.current = some p := by
    unfold State.create
    split
    next => exact ⟨_, rfl⟩
    next occupied => exact Option.ne_none_iff_exists'.mp fun vacant => occupied ⟨vacant, idle⟩
  refine ⟨p, current, ?_⟩
  have called : s.create.callCurrent doStart =
      ⟨s.create.memory, s.tasks ++ [⟨⟨.main, p⟩, doStart, []⟩]⟩ := by
    have still : s.create.Idle .main := by
      unfold State.Idle
      rwa [tasks]
    unfold State.callCurrent
    rw [current]
    simp [still, State.call, System.spawn, tasks]
  have status := status.trans_ne rested.status
  have begun : s.step .start = ⟨s.create.memory, s.tasks ++ [⟨⟨.main, p⟩, doStart, []⟩]⟩ := called
  simp only [started, Event.runs, List.replicate, List.foldl_cons, List.foldl_nil, begun]
  simp [State.step, State.blocked, System.run, doStart, State.exec, Stmt.exec, System.replace, status]

theorem upheld_started {past : List Event} (rested : Rested (past.foldl State.step State.start)) :
    ∃ p, Grounded p (started (past.foldl State.step State.start)) ∧
      Upheld p (.start (past.foldl State.step State.start)) := by
  obtain ⟨p, current, same⟩ := started_eq rested
  have alive := active_at_rest rested.settled current
  have ended := rested.settled
  generalize past.foldl State.step State.start = s at rested current same alive ended
  have callbacks : s.create.memory.callbacks = [] := by
    unfold State.create
    split <;> exact rested.callbacks
  -- everybody but the coroutine has ended
  have busy : ∀ task ∈ (started s).tasks, task.code = [] ∨ task = ⟨⟨.io, p⟩, startBody, onFailure⟩ := by
    intro task among
    simp only [same, List.mem_append, List.mem_cons, List.not_mem_nil, or_false] at among
    rcases among with among | rfl | rfl
    · exact .inl (ended task among)
    · exact .inl rfl
    · exact .inr rfl
  have coroutine : (⟨⟨.io, p⟩, startBody, onFailure⟩ : Task Site Stmt) ∈ (started s).tasks := by simp [same]
  refine ⟨p, ⟨?_, ?_, ?_, ?_, ?_, ?_, ?_⟩, .inr (.inl ⟨_, coroutine, by simp [startBody]⟩),
    .inr (.inl ⟨_, coroutine, .inl (by simp [startBody])⟩), ?_⟩
  · exact (congrArg (·.memory.current) same).trans current
  · exact (congrFun (congrArg (·.memory.cancelled) same) p).trans alive
  · intro entry among
    rw [same] at among
    exact absurd (callbacks ▸ among) List.not_mem_nil
  · intro task among working
    rcases busy task among with done' | rfl
    · exact absurd done' working
    · rfl
  · intro task among
    refine .inr ?_
    rcases busy task among with ended | rfl
    · simp [ended]
    · simp [startBody, establish, registerNetCb, Stmt.connects]
  · intro j k task other here there network also working waiting
    rcases busy task here.mem with ended | rfl
    · exact absurd ended working
    · cases network
  · intro task among starts
    rcases busy task among with ended | rfl
    · simp [ended] at starts
    · exact .inl (by simp [startBody, establish])
  · intro task among leaving
    rcases busy task among with ended | rfl
    · simp [ended, Leaving, onLost] at leaving
    · simp [Leaving, onLost, startBody] at leaving

theorem Upheld.served {w : Networked} (upheld : Upheld o w) : Served w := by
  intro settled available
  have ended : ∀ {Holds : List Stmt → Prop}, ¬Holds [] → ¬∃ task ∈ w.state.tasks, Holds task.code := by
    rintro Holds none ⟨task, among, holds⟩
    exact none (settled task among ▸ holds)
  have connected : w.state.memory.status = .connected := by
    rcases upheld.status with connected | connects | ⟨-, lost | launches⟩
    · exact connected
    · exact absurd connects (ended List.not_mem_nil)
    · exact absurd lost available
    · exact absurd launches (ended List.not_mem_nil)
  refine ⟨connected, ?_⟩
  rcases upheld.monitored with monitored | due | ⟨other, -⟩
  · exact monitored
  · obtain ⟨task, among, due⟩ := due
    simp [settled task among] at due
  · exact absurd connected other

end

/-- In every run a service that has a network is connected and monitored whenever it is at rest. -/
theorem networks_upheld {past events : List Event} (rested : Rested (past.foldl State.step State.start))
    (roaming : Admits Networked.step (fun w event => Roams w event ∧ LosesLast w event)
      (.start (past.foldl State.step State.start)) events) :
    Served (events.foldl Networked.step (.start (past.foldl State.step State.start))) := by
  obtain ⟨o, initial⟩ := upheld_started rested
  have placed : ∀ s event, Owned s ∧ AllInPlace StartsLater s →
      Owned (s.step event) ∧ AllInPlace StartsLater (s.step event) := by
    rintro s event ⟨owned, placed⟩
    exact ⟨owned.step event, placed.step placing_startsLater owned event⟩
  have begun := run_invariant _ placed (run_invariant _ placed ⟨owned_start, allInPlace_start⟩ past)
    (.start :: Event.runs (past.foldl State.step State.start).tasks.length 3 .plain)
  have kept : ∀ w event, (Grounded o w.state ∧ Upheld o w) ∧ Owned w.state ∧ AllInPlace StartsLater w.state →
      Roams w event ∧ LosesLast w event → (Grounded o (w.step event).state ∧ Upheld o (w.step event)) ∧
        Owned (w.step event).state ∧ AllInPlace StartsLater (w.step event).state := by
    rintro w event ⟨⟨grounded, upheld⟩, owned, inPlace⟩ ⟨roams, loses⟩
    exact ⟨upheld_step upheld grounded inPlace roams loses, placed _ event ⟨owned, inPlace⟩⟩
  obtain ⟨⟨-, upheld⟩, -⟩ := roaming.invariant (fun w => (Grounded o w.state ∧ Upheld o w) ∧ Owned w.state ∧
    AllInPlace StartsLater w.state) kept ⟨initial, begun⟩
  exact upheld.served

def roaming : List Event :=
  Event.runs 1 22 .plain ++ Event.runs 2 2 .plain ++ .available 6 1 :: Event.runs 3 1 .plain ++
    .lost 6 1 :: Event.runs 4 4 .plain ++ .available 6 2 :: Event.runs 5 2 .plain ++
    Event.runs 6 6 .plain ++ .exit 5 :: Event.runs 6 18 .plain

theorem networks_upheld_roaming :
    Served (roaming.foldl Networked.step (.start ([].foldl State.step State.start))) :=
  networks_upheld (by decide +kernel) (by decide +kernel)

/-- Two networks, and one of them is lost. -/
def handover : List Event :=
  Event.runs 1 22 .plain ++ Event.runs 2 2 .plain ++ .available 6 1 :: Event.runs 3 1 .plain ++
    .available 6 2 :: Event.runs 4 1 .plain ++ .lost 6 1 :: Event.runs 5 4 .plain

theorem handover_strands : ¬∀ past events : List Event, Rested (past.foldl State.step State.start) →
    Admits Networked.step Roams (.start (past.foldl State.step State.start)) events →
      Served (events.foldl Networked.step (.start (past.foldl State.step State.start))) := by
  intro always
  exact absurd (always [] handover (by decide +kernel) (by decide +kernel)) (by decide +kernel)

end ThrottleVpn.Service
