import ThrottleVpn.Service.State

/-! What every statement of the service does, and what can happen to the service.

An event that cannot happen in a state leaves it alone: a call on the main thread waits
for the one before it, a callback has to be registered, `pthread_join` waits for the thread.
-/

set_option autoImplicit false

namespace ThrottleVpn.Service

open Foundation Function

/-- What a statement learns from outside: whether the call it makes succeeds, and what
the settings store returns, if it returns at all. -/
structure Answer where
  ok : Bool
  saved : Option App.AppSettings
  deriving DecidableEq, Repr

def Answer.plain : Answer := ⟨true, some (App.SettingsRepository.getAllSettings .empty)⟩

abbrev Effect := Outcome Memory Site Stmt

def Memory.log (m : Memory) (calls : List NativeCall) : Memory := { m with calls := m.calls ++ calls }

def Stmt.exec (o : Nat) (answer : Answer) (m : Memory) : Stmt → Effect
  -- a launched coroutine whose scope was cancelled never begins
  | begin => if m.cancelled o then .finish else .proceed m []
  | cancelScope => .proceed { m with
      cancelled := update m.cancelled o true
      monitors := m.monitors.filter (·.service ≠ o)
      collectors := m.collectors.filter (·.service ≠ o) } []
  | clearInstance => .proceed { m with current := none } []
  | returnIfConnected => if m.status = .connected then .finish else .proceed m []
  | returnUnless status => if m.status = status then .proceed m [] else .finish
  | setStatus status => .proceed { m with status := status } []
  | launchStart => .launch ⟨⟨.io, o⟩, startBody, onFailure⟩
  | launchReconnect => .launch ⟨⟨.io, o⟩, reconnectBody, onFailure⟩
  | launchCollector => .launch ⟨⟨.collector, o⟩, collectStats, []⟩
  | clearVpnFd => .proceed { m with vpnFd := update m.vpnFd o none } []
  | clearEngine => .proceed { m with engine := update m.engine o false } []
  | clearShaper => .proceed { m with shaper := update m.shaper o none } []
  | clearNetCb => .proceed { m with netCb := update m.netCb o none } []
  | setDlCap mbps => .proceed { m with dlCap := mbps } []
  | setUlCap mbps => .proceed { m with ulCap := mbps } []
  | closeVpnFd =>
    match m.vpnFd o with
    | some tun => .proceed { m with tuns := m.tuns.filter (· ≠ tun) } []
    | none => .proceed m []
  | buildVpnFd =>
    if answer.ok then
      .proceed { m with
        vpnFd := update m.vpnFd o (some m.fresh)
        tuns := m.fresh :: m.tuns
        fresh := m.fresh + 1 } []
    else .raise m
  | newEngine => .proceed { m with engine := update m.engine o true } []
  | newShaper =>
    if m.engine o then
      .proceed { m with
        shaper := update m.shaper o (some m.fresh)
        shaperDl := update m.shaperDl m.fresh 0
        shaperUl := update m.shaperUl m.fresh 0
        monitorJob := update m.monitorJob m.fresh none
        fresh := m.fresh + 1 } []
    else .raise m
  -- a null field and a closed descriptor throw
  | startEngine =>
    match m.engine o, m.vpnFd o with
    | true, some tun => if tun ∈ m.tuns then .proceed m (engineStart tun) else .raise m
    | _, _ => .raise m
  | stopEngine => .proceed m (if m.engine o then [.returnUnlessRunning] else [])
  | updateShaperCaps dl ul =>
    match m.shaper o with
    | some shaper => .proceed m [.setShaperCaps shaper dl ul, .setDlRate dl, .setUlRate ul]
    | none => .proceed m []
  | setShaperCaps shaper dl ul => .proceed { m with
      shaperDl := update m.shaperDl shaper dl
      shaperUl := update m.shaperUl shaper ul } []
  | setDlRate mbps => .proceed { m with native := { m.native with dlRate := bytesPerSecond mbps } } []
  | setUlRate mbps => .proceed { m with native := { m.native with ulRate := bytesPerSecond mbps } } []
  -- the only suspension point: a cancelled coroutine gets an exception here, too
  | applySavedCaps =>
    match m.cancelled o, answer.saved with
    | false, some saved =>
      let (dl, ul) := App.savedCaps saved
      .proceed m (if 0 < dl ∧ 0 < ul then updateCaps dl ul else [])
    | _, _ => .raise m
  | newNetCb => .proceed { m with netCb := update m.netCb o (some m.fresh), fresh := m.fresh + 1 } []
  | registerNetCb =>
    match m.netCb o with
    | some callback =>
      if answer.ok then .proceed { m with callbacks := (callback, o) :: m.callbacks } [] else .raise m
    | none => .raise m
  | unregisterNetCb =>
    match m.netCb o with
    | some callback => .proceed { m with callbacks := m.callbacks.filter (·.1 ≠ callback) } []
    | none => .proceed m []
  | startMonitoring =>
    match m.shaper o with
    | some shaper => .proceed m [.launchMonitor shaper]
    | none => .proceed m []
  | stopMonitoring =>
    match m.shaper o with
    | some shaper => .proceed m [.cancelMonitor shaper]
    | none => .proceed m []
  | launchMonitor shaper => .proceed { m with
      monitors := if m.cancelled o then m.monitors else ⟨m.fresh, shaper, o⟩ :: m.monitors
      monitorJob := update m.monitorJob shaper (some m.fresh)
      fresh := m.fresh + 1 } []
  | cancelMonitor shaper => .proceed { m with
      monitors := m.monitors.filter (some ·.job ≠ m.monitorJob shaper)
      monitorJob := update m.monitorJob shaper none } []
  -- `collect` does not return: the collector lives until its scope is cancelled
  | collect =>
    match m.shaper o with
    | some shaper => .proceed { m with collectors := ⟨shaper, o⟩ :: m.collectors } []
    | none => .proceed m []
  | memset => .proceed { m.log [.memset] with native := .zero } []
  | setFields tun => .proceed { m with native := { m.native with tunFd := some tun, running := true } } []
  | cacheRefs =>
    let cached := { m with native := { m.native with vpnRef := some m.fresh }, fresh := m.fresh + 1 }
    if answer.ok then .proceed (cached.log [.newGlobalRef m.fresh]) []
    else .raise (cached.log [.newGlobalRef m.fresh, .deleteGlobalRef m.fresh])
  | initLocks => .proceed { m.log [.initLocks] with
      native := { m.native with dlRate := 1000000000, ulRate := 1000000000 } } []
  | createEpoll =>
    if answer.ok then
      .proceed { m.log [.epollCreate m.fresh] with
        native := { m.native with epollFd := some m.fresh }
        fresh := m.fresh + 1 } []
    else .raise m
  | watchTun => if answer.ok then .proceed m [] else .raise (m.log [.closeEpoll m.native.epollFd])
  | createThread =>
    if answer.ok then
      .proceed { m.log [.pthreadCreate m.fresh] with
        native := { m.native with thread := some m.fresh }
        threads := m.fresh :: m.threads
        fresh := m.fresh + 1 } []
    else .raise (m.log [.closeEpoll m.native.epollFd])
  | returnUnlessRunning => .proceed m (if m.native.running then engineStop else [])
  | clearRunning => .proceed { m with native := { m.native with running := false } } []
  -- joining the zero that `memset` left returns at once
  | joinThread =>
    if m.native.thread.any (· ∈ m.threads) then .wait
    else .proceed (m.log [.pthreadJoin m.native.thread]) []
  | tearDown => .proceed (m.log (.closeEpoll m.native.epollFd ::
      m.native.vpnRef.toList.map .deleteGlobalRef ++ [.destroyLocks, .stopDone m.native.thread])) []

abbrev State := System Memory Site Stmt

def State.start : State := ⟨.start, []⟩

/-- `START` and `STOP` intents, the other lifecycle calls, the UI's `applyCaps`, network
callbacks (the code ignores which network), the next statement of a task, and the end
of an engine thread. -/
inductive Event where
  | start
  | stop
  | revoke
  | destroy
  | applyCaps (dl ul : ℚ)
  | available (callback network : Nat)
  | lost (callback network : Nat)
  | run (task : Nat) (answer : Answer)
  | exit (thread : Nat)
  deriving DecidableEq

def Event.runs (k n : Nat) (answer : Answer) : List Event := List.replicate n (.run k answer)

namespace State

def Idle (thread : Thread) (s : State) : Prop := ∀ task ∈ s.tasks, task.site.thread = thread → task.code = []

instance (thread : Thread) (s : State) : Decidable (s.Idle thread) :=
  inferInstanceAs (Decidable (∀ task ∈ s.tasks, _ → _))

/-- Everything that was called or launched has come to its end. -/
def Settled (s : State) : Prop := ∀ task ∈ s.tasks, task.code = []

instance (s : State) : Decidable s.Settled := inferInstanceAs (Decidable (∀ task ∈ s.tasks, _))

def call (thread : Thread) (o : Nat) (code : List Stmt) (s : State) : State :=
  s.spawn ⟨⟨thread, o⟩, code, []⟩

def callCurrent (code : List Stmt) (s : State) : State :=
  match s.memory.current with
  | some o => if s.Idle .main then s.call .main o code else s
  | none => s

def create (s : State) : State :=
  if s.memory.current = none ∧ s.Idle .main then
    { s with memory := { s.memory with current := some s.memory.fresh, fresh := s.memory.fresh + 1 } }
  else s

def callback (callback : Nat) (code : List Stmt) (s : State) : State :=
  match s.memory.callbacks.find? (·.1 = callback) with
  | some (_, o) => if s.Idle .network then s.call .network o code else s
  | none => s

def blocked (k : Nat) (s : State) : Prop :=
  ∃ task ∈ s.tasks[k]?, task.site.thread = .collector ∧ ¬s.Idle .main

instance (k : Nat) (s : State) : Decidable (s.blocked k) :=
  match found : s.tasks[k]? with
  | some task => decidable_of_iff (task.site.thread = .collector ∧ ¬s.Idle .main) (by simp [blocked, found])
  | none => isFalse (by simp [blocked, found])

def exec (site : Site) (answer : Answer) (m : Memory) (stmt : Stmt) : Effect := stmt.exec site.service answer m

def step (s : State) : Event → State
  | .start => s.create.callCurrent doStart
  | .stop => s.create.callCurrent doStop
  | .revoke => s.callCurrent doStop
  | .destroy => s.callCurrent onDestroy
  | .applyCaps dl ul => s.callCurrent (updateCaps dl ul)
  | .available callback _ => s.callback callback onAvailable
  | .lost callback _ => s.callback callback onLost
  | .run k answer => if s.blocked k then s else System.run exec answer k s
  | .exit thread => { s with memory := { s.memory with threads := s.memory.threads.filter (· ≠ thread) } }

theorem callCurrent_of {s : State} {code : List Stmt} {Holds : State → Prop} (before : Holds s)
    (called : ∀ o, s.memory.current = some o → s.Idle .main → Holds (s.call .main o code)) :
    Holds (s.callCurrent code) := by
  unfold callCurrent
  split
  next o current =>
    split
    next idle => exact called o current idle
    next => exact before
  next => exact before

theorem callback_of {s : State} {callback : Nat} {code : List Stmt} {Holds : State → Prop} (before : Holds s)
    (called : ∀ o, (callback, o) ∈ s.memory.callbacks → Holds (s.call .network o code)) :
    Holds (s.callback callback code) := by
  unfold State.callback
  split
  next entry o found =>
    split
    next =>
      have same : entry = callback := by simpa using List.find?_some found
      exact called o (same ▸ List.mem_of_find?_eq_some found)
    next => exact before
  next => exact before

inductive Arrives : Thread → List Stmt → Prop where
  | doStart : Arrives .main doStart
  | doStop : Arrives .main doStop
  | onDestroy : Arrives .main onDestroy
  | updateCaps (dl ul : ℚ) : Arrives .main (updateCaps dl ul)
  | onAvailable : Arrives .network onAvailable
  | onLost : Arrives .network onLost

/-- A property that every call, every statement and the end of a thread keep. -/
theorem step_of {s : State} {event : Event} {Holds : State → Prop} (before : Holds s) (created : Holds s.create)
    (called : ∀ {s : State} {thread : Thread} {code : List Stmt} (o : Nat), Holds s → Arrives thread code →
      Holds (s.call thread o code))
    (ran : ∀ k answer, event = .run k answer → Holds (System.run exec answer k s))
    (exited : ∀ thread,
      Holds { s with memory := { s.memory with threads := s.memory.threads.filter (· ≠ thread) } }) :
    Holds (s.step event) := by
  have current : ∀ {s : State} {code : List Stmt}, Holds s → Arrives .main code → Holds (s.callCurrent code) :=
    fun before arrives => callCurrent_of before fun o _ _ => called o before arrives
  cases event with
  | start => exact current created .doStart
  | stop => exact current created .doStop
  | revoke => exact current before .doStop
  | destroy => exact current before .onDestroy
  | applyCaps dl ul => exact current before (.updateCaps dl ul)
  | available callback network => exact callback_of before fun o _ => called o before .onAvailable
  | lost callback network => exact callback_of before fun o _ => called o before .onLost
  | run k answer =>
    simp only [step]
    split
    · exact before
    · exact ran k answer rfl
  | exit thread => exact exited thread

end State

end ThrottleVpn.Service
