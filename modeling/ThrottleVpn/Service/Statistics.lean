import ThrottleVpn.Foundation.Sections
import ThrottleVpn.Service.TunLifetime

/-! Whose samples are published.

A collector forwards the samples of the shaper that it found when it began. The
coroutine of `doStart` launches one for its shaper, that of `onAvailable` does not, so
after a reconnect nobody forwards what the new monitor samples. As long as only the coroutine
of `doStart` starts monitors, shapers are made while none is running, and `doStop` and
coroutines past their new shaper do not overlap, what the monitor of the current shaper
samples is forwarded.
-/

set_option autoImplicit false

namespace ThrottleVpn.Service

open Foundation Function

def Forwarded (m : Memory) (monitor : Monitor) : Prop :=
  ∃ collector ∈ m.collectors, collector.shaper = monitor.shaper

def OfCurrent (m : Memory) (monitor : Monitor) : Prop :=
  ∃ o ∈ m.current, m.shaper o = some monitor.shaper

instance (m : Memory) (monitor : Monitor) : Decidable (Forwarded m monitor) :=
  inferInstanceAs (Decidable (∃ collector ∈ m.collectors, _))

instance (m : Memory) (monitor : Monitor) : Decidable (OfCurrent m monitor) :=
  inferInstanceAs (Decidable (∃ o ∈ m.current, _))

/-- Samples are forwarded exactly when the current shaper's monitor makes them. -/
def FollowsCurrent (m : Memory) : Prop := ∀ monitor ∈ m.monitors, Forwarded m monitor ↔ OfCurrent m monitor

instance (m : Memory) : Decidable (FollowsCurrent m) := inferInstanceAs (Decidable (∀ monitor ∈ m.monitors, _ ↔ _))

/-! ### The section -/

/-- Where a task stands: before the monitor of its new shaper is started, before the
collector is launched; in a reconnect past its shaper; and in `doStop` or `onDestroy`
before the monitor is cancelled, and with none left. -/
inductive StatsPhase where
  | out
  | unwatched
  | launching (shaper : Nat)
  | watched
  | uncollected
  | stopping
  | cancelling (shaper : Nat)
  | idle
  | bad
  deriving DecidableEq

namespace StatsPhase

def pre : Stmt → StatsPhase → StatsPhase
  | .begin, .out | .newShaper, .unwatched | .newShaper, .uncollected => .out
  | .startMonitoring, .watched => .unwatched
  | .startMonitoring, .uncollected => .uncollected
  | .launchMonitor shaper, .watched => .launching shaper
  | .launchCollector, .out => .watched
  | .setStatus .connected, .out => .uncollected
  | .setStatus .disconnected, .stopping => .out
  | .stopMonitoring, .idle => .stopping
  | .cancelMonitor shaper, .idle => .cancelling shaper
  | .stopMonitoring, .out | .cancelMonitor _, .out => .out
  | .clearShaper, .out | .clearShaper, .idle | .clearInstance, .out => .idle
  | .begin, _ | .newShaper, _ | .startMonitoring, _ | .launchMonitor _, _ | .launchCollector, _
  | .setStatus .disconnected, _ | .stopMonitoring, _ | .cancelMonitor _, _ | .clearShaper, _
  | .clearInstance, _ | _, .watched => .bad
  | _, phase => phase

end StatsPhase

def statsOutline : Outline Stmt StatsPhase := ⟨.out, StatsPhase.pre⟩

@[simp] theorem statsOutline_out : statsOutline.out = .out := rfl

@[simp] theorem statsOutline_pre (stmt : Stmt) (phase : StatsPhase) :
    statsOutline.pre stmt phase = StatsPhase.pre stmt phase := rfl

structure Attached (m : Memory) (monitor : Monitor) : Prop where
  current : m.current = some monitor.service
  shaper : m.shaper monitor.service = some monitor.shaper
  job : m.monitorJob monitor.shaper = some monitor.job
  alive : m.cancelled monitor.service = false

def AllAttached (m : Memory) : Prop := ∀ monitor ∈ m.monitors, Attached m monitor

def StatsPhase.Holds : StatsPhase → Site → Memory → Prop
  | .out, _, m | .watched, _, m => AllAttached m
  | .stopping, site, m => AllAttached m ∧ m.current = some site.service
  | .unwatched, site, m | .uncollected, site, m | .idle, site, m =>
    m.monitors = [] ∧ m.current = some site.service
  | .launching shaper, site, m => m.monitors = [] ∧ m.current = some site.service ∧
    m.shaper site.service = some shaper
  | .cancelling shaper, site, m => AllAttached m ∧ m.current = some site.service ∧
    m.shaper site.service = some shaper
  | .bad, _, _ => False

theorem allAttached_nil {m : Memory} (none : m.monitors = []) : AllAttached m := by
  intro monitor among
  rw [none] at among
  cases among

theorem StatsPhase.Holds.attached {phase : StatsPhase} {site : Site} {m : Memory} (holds : phase.Holds site m) :
    AllAttached m := by
  cases phase with
  | out | watched => exact holds
  | stopping | cancelling => exact holds.1
  | unwatched | uncollected | idle | launching => exact allAttached_nil holds.1
  | bad => exact holds.elim

theorem stats_outside_launched : ¬statsOutline.Inside startBody ∧ ¬statsOutline.Inside reconnectBody ∧
    ¬statsOutline.Inside collectStats := by decide

/-! ### Statements that leave the monitors alone -/

structure SameStats (m after : Memory) : Prop where
  monitors : after.monitors = m.monitors
  monitorJob : after.monitorJob = m.monitorJob
  shaper : after.shaper = m.shaper
  current : after.current = m.current
  cancelled : after.cancelled = m.cancelled

theorem SameStats.holds {m after : Memory} (same : SameStats m after) {phase : StatsPhase} {site : Site}
    (holds : phase.Holds site m) : phase.Holds site after := by
  obtain ⟨monitors, monitorJob, shaper, current, cancelled⟩ := same
  have attached : AllAttached m → AllAttached after := by
    intro all monitor among
    obtain ⟨live, known, job, alive⟩ := all monitor (monitors ▸ among)
    exact ⟨current.trans live, (congrFun shaper _).trans known, (congrFun monitorJob _).trans job,
      (congrFun cancelled _).trans alive⟩
  cases phase with
  | out | watched => exact attached holds
  | stopping => exact ⟨attached holds.1, current.trans holds.2⟩
  | unwatched | uncollected | idle => exact ⟨monitors.trans holds.1, current.trans holds.2⟩
  | launching => exact ⟨monitors.trans holds.1, current.trans holds.2.1, (congrFun shaper _).trans holds.2.2⟩
  | cancelling => exact ⟨attached holds.1, current.trans holds.2.1, (congrFun shaper _).trans holds.2.2⟩
  | bad => exact holds

def Stmt.watches : Stmt → Bool
  | .begin | .newShaper | .startMonitoring | .launchMonitor _ | .launchCollector | .setStatus .disconnected
  | .stopMonitoring | .cancelMonitor _ | .clearShaper | .clearInstance | .cancelScope => true
  | _ => false

theorem exec_unwatching {stmt : Stmt} (watches : stmt.watches = false) (o : Nat) (answer : Answer) (m : Memory)
    (rest : List Stmt) {handler : List Stmt} (recovers : handler = [] ∨ handler = onFailure) :
    (stmt.exec o answer m).Leads m rest handler fun after code new =>
      SameStats m after ∧ (∀ launched ∈ new, ¬statsOutline.Inside launched.code) ∧
        (statsOutline.phase (stmt :: rest) ≠ .bad → statsOutline.phase code = statsOutline.phase (stmt :: rest) ∨
          statsOutline.phase code = .out) := by
  have recovered : statsOutline.phase handler = .out := by rcases recovers with rfl | rfl <;> rfl
  have outside := stats_outside_launched
  cases stmt
  case setStatus status =>
    refine ⟨⟨rfl, rfl, rfl, rfl, rfl⟩, by simp, ?_⟩
    rw [List.nil_append, Outline.phase_cons, statsOutline_pre]
    generalize statsOutline.phase rest = phase
    cases status <;> simp only [Stmt.watches, reduceCtorEq] at watches <;> cases phase <;> simp [StatsPhase.pre]
  all_goals simp only [Stmt.watches, reduceCtorEq] at watches
  all_goals simp only [Stmt.exec]
  all_goals (repeat' split) <;> simp only [Outcome.Leads]
  all_goals first
    | trivial
    | refine ⟨⟨rfl, rfl, rfl, rfl, rfl⟩, by simp [outside], ?_⟩
  all_goals first
    | exact fun _ => .inr recovered
    | exact fun _ => .inr rfl
    | simp only [List.nil_append, List.cons_append, Outline.phase_cons, statsOutline_pre, updateCaps, engineStart,
        engineStop]
      generalize statsOutline.phase rest = phase
      cases phase <;> simp [StatsPhase.pre]

/-! ### Statements of the section -/

theorem stats_turn {site : Site} {after : Memory} {code : List Stmt} {q : StatsPhase}
    (phase : statsOutline.phase code = q) (holds : q.Holds site after) :
    statsOutline.Turn StatsPhase.Holds site after code [] :=
  ⟨by simp, phase ▸ holds⟩

section
variable {m : Memory}

theorem AllAttached.cancelScope (all : AllAttached m) (o : Nat) (collectors : List Collector) :
    AllAttached { m with
      cancelled := update m.cancelled o true
      monitors := m.monitors.filter (·.service ≠ o)
      collectors := collectors } := by
  intro monitor among
  obtain ⟨among, other⟩ := List.mem_filter.mp among
  obtain ⟨current, shaper, job, alive⟩ := all monitor among
  have distinct : monitor.service ≠ o := by simpa using other
  exact ⟨current, shaper, job, (update_of_ne distinct ..).trans alive⟩

theorem AllAttached.cancelMonitor (all : AllAttached m) (shaper : Nat) :
    AllAttached { m with
      monitors := m.monitors.filter (some ·.job ≠ m.monitorJob shaper)
      monitorJob := update m.monitorJob shaper none } ∧
    ∀ monitor ∈ m.monitors.filter (some ·.job ≠ m.monitorJob shaper), monitor.shaper ≠ shaper := by
  have others : ∀ monitor ∈ m.monitors.filter (some ·.job ≠ m.monitorJob shaper), monitor.shaper ≠ shaper := by
    rintro monitor among rfl
    obtain ⟨among, left⟩ := List.mem_filter.mp among
    exact absurd (all monitor among).job.symm (by simpa using left)
  refine ⟨fun monitor among => ?_, others⟩
  obtain ⟨current, known, job, alive⟩ := all monitor (List.mem_of_mem_filter among)
  exact ⟨current, known, (update_of_ne (others monitor among) ..).trans job, alive⟩

theorem monitors_filter_nil {keep : Monitor → Bool} (none : m.monitors = []) : m.monitors.filter keep = [] := by
  rw [none]
  rfl

theorem AllAttached.only (all : AllAttached m) {o shaper : Nat} (current : m.current = some o)
    (known : m.shaper o = some shaper) : ∀ monitor ∈ m.monitors, monitor.shaper = shaper := by
  intro monitor among
  have attached := all monitor among
  obtain rfl := Option.some.inj (attached.current.symm.trans current)
  exact Option.some.inj (attached.shaper.symm.trans known)

theorem AllAttached.none (all : AllAttached m) {o : Nat} (current : m.current = some o)
    (unset : m.shaper o = none) : m.monitors = [] := by
  rw [List.eq_nil_iff_forall_not_mem]
  intro monitor among
  have attached := all monitor among
  obtain rfl := Option.some.inj (attached.current.symm.trans current)
  cases unset.symm.trans attached.shaper

theorem StatsPhase.Holds.cancelScope {phase : StatsPhase} {site : Site} (holds : phase.Holds site m) (o : Nat)
    (collectors : List Collector) : phase.Holds site { m with
      cancelled := update m.cancelled o true
      monitors := m.monitors.filter (·.service ≠ o)
      collectors := collectors } := by
  cases phase with
  | out | watched => exact AllAttached.cancelScope holds o collectors
  | stopping | cancelling => exact ⟨holds.1.cancelScope o collectors, holds.2⟩
  | unwatched | uncollected | idle | launching => exact ⟨monitors_filter_nil holds.1, holds.2⟩
  | bad => exact holds

theorem StatsPhase.Holds.cancelMonitor {phase : StatsPhase} {site : Site} (holds : phase.Holds site m)
    (shaper : Nat) : phase.Holds site { m with
      monitors := m.monitors.filter (some ·.job ≠ m.monitorJob shaper)
      monitorJob := update m.monitorJob shaper none } := by
  cases phase with
  | out | watched => exact (AllAttached.cancelMonitor holds shaper).1
  | stopping | cancelling => exact ⟨(holds.1.cancelMonitor shaper).1, holds.2⟩
  | unwatched | uncollected | idle | launching => exact ⟨monitors_filter_nil holds.1, holds.2⟩
  | bad => exact holds

variable {stmt : Stmt} {site : Site} {rest handler : List Stmt} {answer : Answer}

/-- A statement about monitors does its part, if a section is entered by a task of the
live instance, a shaper is made while no monitor is running, and no reconnect starts one. -/
theorem exec_watches (watches : stmt.watches = true)
    (entering : ¬statsOutline.Inside (stmt :: rest) → statsOutline.Inside rest → m.current = some site.service)
    (unwatched : stmt = .newShaper → m.monitors = [])
    (collected : stmt = .startMonitoring → statsOutline.phase rest ≠ .uncollected)
    (recovered : statsOutline.phase handler = .out)
    (holds : (statsOutline.phase (stmt :: rest)).Holds site m) :
    (stmt.exec site.service answer m).Leads m rest handler (statsOutline.Turn StatsPhase.Holds site) := by
  unfold Outline.Inside at entering
  rw [Outline.phase_cons, statsOutline_pre] at holds entering
  generalize phase : statsOutline.phase rest = next at holds entering collected
  cases stmt
  case setStatus status =>
    cases status <;> simp only [Stmt.watches, reduceCtorEq] at watches
    cases next <;> first | exact False.elim holds | skip
    case stopping =>
      have current := entering (by simp [StatsPhase.pre]) (by simp)
      have same : SameStats m { m with status := .disconnected } := ⟨rfl, rfl, rfl, rfl, rfl⟩
      exact stats_turn (q := .stopping) (by simp [phase])
        (same.holds (show StatsPhase.stopping.Holds site m from ⟨holds, current⟩))
  all_goals simp only [Stmt.watches, reduceCtorEq] at watches
  all_goals cases next <;> first | exact False.elim holds | skip
  case begin.out =>
    rw [Stmt.exec]
    split
    · exact stats_turn (q := .out) rfl holds
    · exact stats_turn (q := .out) (by simp [phase]) holds
  case newShaper.unwatched =>
    have current := entering (by simp [StatsPhase.pre]) (by simp)
    rw [Stmt.exec]
    split
    · exact stats_turn (q := .unwatched) (by simp [phase]) ⟨unwatched rfl, current⟩
    · exact stats_turn (q := .out) recovered holds
  case newShaper.uncollected =>
    have current := entering (by simp [StatsPhase.pre]) (by simp)
    rw [Stmt.exec]
    split
    · exact stats_turn (q := .uncollected) (by simp [phase]) ⟨unwatched rfl, current⟩
    · exact stats_turn (q := .out) recovered holds
  case startMonitoring.uncollected => exact absurd rfl (collected rfl)
  case startMonitoring.watched =>
    rw [Stmt.exec]
    split
    next shaper known =>
      exact stats_turn (q := .launching shaper) (by simp [phase, StatsPhase.pre]) ⟨holds.1, holds.2, known⟩
    next => exact stats_turn (q := .watched) (by simp [phase]) (allAttached_nil holds.1)
  case launchMonitor.watched shaper =>
    obtain ⟨none, current, known⟩ := holds
    rw [Stmt.exec]
    refine stats_turn (q := .watched) (by simp [phase]) fun monitor among => ?_
    -- the new monitor is the only one, if there is one
    split at among
    · rw [none] at among
      cases among
    next alive =>
      rw [none, List.mem_singleton] at among
      subst among
      exact ⟨current, known, update_self .., by simpa using alive⟩
  case launchCollector.out =>
    exact ⟨by simp [stats_outside_launched], by rw [phase]; exact holds⟩
  case stopMonitoring.out =>
    rw [Stmt.exec]
    split
    · exact stats_turn (q := .out) (by simp [phase, StatsPhase.pre]) holds
    · exact stats_turn (q := .out) (by simp [phase]) holds
  case stopMonitoring.idle =>
    obtain ⟨attached, current⟩ := holds
    rw [Stmt.exec]
    split
    next shaper known =>
      exact stats_turn (q := .cancelling shaper) (by simp [phase, StatsPhase.pre]) ⟨attached, current, known⟩
    next unset => exact stats_turn (q := .idle) (by simp [phase]) ⟨attached.none current unset, current⟩
  case cancelMonitor.out shaper =>
    exact stats_turn (q := .out) (by simp [phase]) (AllAttached.cancelMonitor holds shaper).1
  case cancelMonitor.idle shaper =>
    obtain ⟨attached, current, known⟩ := holds
    obtain ⟨-, others⟩ := attached.cancelMonitor shaper
    refine stats_turn (q := .idle) (by simp [phase]) ⟨?_, current⟩
    rw [List.eq_nil_iff_forall_not_mem]
    intro monitor among
    exact others monitor among (attached.only current known monitor (List.mem_of_mem_filter among))
  case clearShaper.out =>
    exact stats_turn (q := .out) (by simp [phase]) (allAttached_nil holds.1)
  case clearShaper.idle =>
    exact stats_turn (q := .idle) (by simp [phase]) holds
  case clearInstance.out =>
    exact stats_turn (q := .out) (by simp [phase]) (allAttached_nil holds.1)
  all_goals
    rw [Stmt.exec]
    refine stats_turn phase ?_
    exact @StatsPhase.Holds.cancelScope m _ site holds site.service _

theorem exec_out (outside : statsOutline.phase (stmt :: rest) = .out) (later : statsOutline.phase rest = .out)
    (recovers : handler = [] ∨ handler = onFailure) :
    (stmt.exec site.service answer m).Leads m rest handler (statsOutline.Passes StatsPhase.Holds m) := by
  have inert : ∀ {code : List Stmt}, statsOutline.phase code = .out →
      statsOutline.Passes StatsPhase.Holds m m code ([] : List (Task Site Stmt)) :=
    fun same => ⟨by simp, not_not.mpr same, fun _ _ => id⟩
  cases watches : stmt.watches with
  | false =>
    apply (exec_unwatching watches site.service answer m rest recovers).mono
    rintro after code new ⟨same, launched, phase⟩
    have still : statsOutline.phase code = .out := by
      rcases phase (by rw [outside]; decide) with kept | out
      · exact kept.trans outside
      · exact out
    exact ⟨launched, not_not.mpr still, fun _ _ => same.holds⟩
  | true =>
    rw [Outline.phase_cons, statsOutline_pre, later] at outside
    cases stmt
    case setStatus status => cases status <;> first | exact absurd watches Bool.false_ne_true | cases outside
    all_goals simp only [Stmt.watches, reduceCtorEq] at watches
    case begin =>
      rw [Stmt.exec]
      split
      · exact inert rfl
      · exact inert later
    case stopMonitoring =>
      rw [Stmt.exec]
      split
      · exact inert (by simp [later, StatsPhase.pre])
      · exact inert later
    case cancelMonitor shaper =>
      exact ⟨by simp, not_not.mpr later, fun _ _ holds => holds.cancelMonitor shaper⟩
    case cancelScope => exact ⟨by simp, not_not.mpr later, fun _ _ holds => holds.cancelScope ..⟩
    all_goals cases outside

end

/-! ### Collectors to come -/

def CollectsAlone (s : State) : Prop :=
  ∀ task ∈ s.tasks, .collect ∈ task.code → task.code = collectStats ∨ task.code = [.collect]

theorem exec_collectsAlone (stmt : Stmt) (o : Nat) (answer : Answer) (m : Memory) (rest : List Stmt)
    {handler : List Stmt} (recovers : handler = [] ∨ handler = onFailure) :
    (stmt.exec o answer m).Leads m rest handler fun _ code new =>
      (.collect ∈ code → .collect ∈ rest ∧ (stmt = .begin → code = rest)) ∧
        ∀ launched ∈ new, .collect ∈ launched.code → launched.code = collectStats := by
  cases stmt <;> simp only [Stmt.exec] <;> (repeat' split) <;> simp only [Outcome.Leads]
  all_goals rcases recovers with rfl | rfl <;>
    simp [onFailure, engineStart, engineStop, updateCaps, startBody, reconnectBody, establish, registerNetCb]

theorem exec_monitors (stmt : Stmt) (o : Nat) (answer : Answer) (m : Memory) (rest handler : List Stmt) :
    (stmt.exec o answer m).Leads m rest handler fun after code _ =>
      (∀ monitor ∈ after.monitors, (monitor ∈ m.monitors ∧ (stmt = .cancelScope → monitor.service ≠ o)) ∨
        stmt = .launchMonitor monitor.shaper ∧ monitor.service = o ∧ code = rest) ∧
      ∀ collector ∈ m.collectors, collector ∈ after.collectors ∨ stmt = .cancelScope ∧ collector.service = o := by
  cases stmt <;> simp only [Stmt.exec] <;> (repeat' split) <;> simp only [Outcome.Leads]
  all_goals simp +contextual [Memory.log, em']

theorem exec_covers {stmt : Stmt} {o : Nat} {answer : Answer} {m : Memory} {rest handler : List Stmt}
    (attached : AllAttached m)
    (alone : .collect ∈ stmt :: rest → stmt :: rest = collectStats ∨ stmt :: rest = [.collect])
    (pending : statsOutline.phase (stmt :: rest) = .watched ∨ .collect ∈ stmt :: rest) :
    (stmt.exec o answer m).Leads m rest handler fun after code new =>
      ∀ monitor ∈ m.monitors, monitor.service = o → (⟨monitor.shaper, o⟩ : Collector) ∈ after.collectors ∨
        .collect ∈ code ∨ ∃ launched ∈ new, launched.site.service = o ∧ .collect ∈ launched.code := by
  rcases pending with watched | collects
  · have launches : stmt = .launchCollector := by
      rw [Outline.phase_cons, statsOutline_pre] at watched
      revert watched
      generalize statsOutline.phase rest = phase
      cases stmt <;> try (rename_i status; cases status)
      all_goals cases phase <;> simp [StatsPhase.pre]
    subst launches
    intro monitor among same
    exact .inr (.inr ⟨_, List.mem_singleton_self _, rfl, by simp [collectStats]⟩)
  · rcases alone collects with whole | whole
    · obtain ⟨rfl, rfl⟩ := List.cons.inj whole
      rw [Stmt.exec]
      split
      next dead =>
        rintro monitor among rfl
        rw [(attached monitor among).alive] at dead
        cases dead
      next => exact fun monitor _ _ => .inr (.inl (by simp))
    · obtain ⟨rfl, rfl⟩ := List.cons.inj whole
      rw [Stmt.exec]
      split
      next shaper known =>
        rintro monitor among rfl
        obtain rfl := Option.some.inj (known.symm.trans (attached monitor among).shaper)
        exact .inl List.mem_cons_self
      next unset =>
        rintro monitor among rfl
        cases unset.symm.trans (attached monitor among).shaper

/-! ### Runs -/

/-- A task of the live instance enters its section while no other is in one. -/
def StatsSerial (s : State) (task : Task Site Stmt) : Prop :=
  statsOutline.Enters task →
    statsOutline.Clear s ∧ s.memory.current = some task.site.service

instance (s : State) (task : Task Site Stmt) : Decidable (StatsSerial s task) :=
  inferInstanceAs (Decidable (_ → _ ∧ _))

/-- The sections do not overlap, a shaper is made while no monitor is running, and a
monitor is started by a coroutine that launches a collector, too. -/
def Watching (s : State) : Event → Prop
  | .run k _ => ∀ task ∈ s.tasks[k]?, StatsSerial s task ∧ ∀ stmt ∈ task.code.head?,
    (stmt = .newShaper → s.memory.monitors = []) ∧ (stmt = .startMonitoring → .launchCollector ∈ task.code)
  | _ => True

instance (s : State) : (event : Event) → Decidable (Watching s event)
  | .run k _ => inferInstanceAs (Decidable (∀ task ∈ s.tasks[k]?, _ ∧ ∀ stmt ∈ task.code.head?, _ ∧ _))
  | .start | .stop | .revoke | .destroy | .applyCaps _ _ | .available _ _ | .lost _ _ | .exit _ =>
    inferInstanceAs (Decidable True)

def CollectsNext (stmt : Stmt) (rest : List Stmt) : Prop :=
  stmt = .startMonitoring → .launchCollector ∈ rest → rest = [.launchCollector]

theorem placing_collectsNext : Placing CollectsNext := by
  constructor
  · intro stmt called rest
    cases stmt <;> simp_all [Stmt.called, CollectsNext]
  all_goals simp [InPlace, CollectsNext, startBody, reconnectBody, collectStats, establish, registerNetCb,
    onFailure, doStart, doStop, onDestroy, onAvailable, onLost]

abbrev StatsGuarded (s : State) : Prop := statsOutline.Guarded StatsPhase.Holds s

theorem statsGuarded_start : StatsGuarded State.start where
  holds k task here := by cases here
  only j k task other here := by cases here
  rest _ _ := allAttached_nil rfl

section
variable {s : State}

theorem StatsGuarded.attached (guarded : StatsGuarded s) : AllAttached s.memory := by
  obtain ⟨phase, site, holds⟩ := Outline.Guarded.somewhere guarded ⟨.main, 0⟩
  exact holds.attached

theorem StatsGuarded.run (guarded : StatsGuarded s) (owned : Owned s) (next : AllInPlace CollectsNext s)
    {k : Nat} {answer : Answer} (watching : Watching s (.run k answer)) :
    StatsGuarded (System.run State.exec answer k s) := by
  apply System.run_of_leads guarded
  intro task stmt rest here code
  obtain ⟨serial, allowed⟩ := watching task here
  have recovers := owned.handler task here.mem
  have leads := Outline.Guarded.leads guarded (stmt.exec task.site.service answer s.memory)
    (fun _ _ _ holds => holds) here code fun enters => (serial enters).1
  refine (leads ?_ ?_).mono fun after code new keeps => keeps.2
  · intro within holds
    have recovered : statsOutline.phase task.handler = .out := by
      rcases recovers with same | same <;> rw [same] <;> rfl
    cases watches : stmt.watches with
    | false =>
      apply (exec_unwatching watches task.site.service answer s.memory rest recovers).mono
      rintro after code new ⟨same, launched, phase⟩
      have sound : statsOutline.phase (stmt :: rest) ≠ .bad := by
        intro bad
        simp only [bad, StatsPhase.Holds] at holds
      refine ⟨launched, ?_⟩
      rcases phase sound with kept | out
      · rw [kept]
        exact same.holds holds
      · rw [out]
        exact same.holds (show StatsPhase.out.Holds task.site s.memory from holds.attached)
    | true =>
      have allowed := allowed stmt (by simp [code])
      refine exec_watches watches ?_ allowed.1 ?_ recovered holds
      · intro outside inside
        exact (serial ⟨by rwa [code], by rwa [code]⟩).2
      · rintro rfl uncollected
        have launches : .launchCollector ∈ rest := by simpa [code] using allowed.2 rfl
        have inPlace := next task here.mem
        rw [code] at inPlace
        rw [inPlace.1 rfl launches] at uncollected
        cases uncollected
  · intro outside after
    exact exec_out (not_not.mp outside) (not_not.mp after) recovers

theorem StatsGuarded.create (guarded : StatsGuarded s) : StatsGuarded s.create := by
  unfold State.create
  split
  next vacant =>
    apply Outline.Guarded.memory guarded
    have vacant : ∀ o, s.memory.current ≠ some o := by simp [vacant.1]
    have attached : AllAttached s.memory → AllAttached { s.memory with
        current := some s.memory.fresh, fresh := s.memory.fresh + 1 } :=
      fun all monitor among => absurd (all monitor among).current (vacant _)
    intro phase site holds
    cases phase with
    | out | watched => exact attached holds
    | stopping => exact absurd holds.2 (vacant _)
    | unwatched | uncollected | idle => exact absurd holds.2 (vacant _)
    | launching | cancelling => exact absurd holds.2.1 (vacant _)
    | bad => exact holds
  next => exact guarded

theorem StatsGuarded.step (guarded : StatsGuarded s) (owned : Owned s) (next : AllInPlace CollectsNext s)
    (event : Event) (watching : Watching s event) : StatsGuarded (s.step event) := by
  apply State.step_of guarded guarded.create
  · intro s thread code o guarded arrives
    refine Outline.Guarded.spawn guarded (?_ : ¬statsOutline.Inside code)
    cases arrives with
    | updateCaps dl ul => simp [Outline.Inside, updateCaps, StatsPhase.pre]
    | doStart | doStop | onDestroy | onAvailable | onLost => decide
  · rintro k answer rfl
    exact guarded.run owned next watching
  · intro thread
    apply Outline.Guarded.memory guarded
    intro phase site
    apply SameStats.holds
    exact ⟨rfl, rfl, rfl, rfl, rfl⟩

end

/-! ### Collected samples -/

section
variable {s : State}

theorem CollectsAlone.run (alone : CollectsAlone s) (owned : Owned s) (k : Nat) (answer : Answer) :
    CollectsAlone (System.run State.exec answer k s) := by
  apply System.run_of_leads alone
  intro task stmt rest here code
  have before := alone task here.mem
  rw [code] at before
  apply (exec_collectsAlone stmt task.site.service answer s.memory rest (owned.handler task here.mem)).mono
  rintro after code new ⟨kept, launched⟩ other among collects
  rcases System.mem_replace among with rfl | among | among
  · obtain ⟨later, begins⟩ := kept collects
    rcases before (List.mem_cons_of_mem stmt later) with whole | whole
    · obtain ⟨rfl, rfl⟩ := List.cons.inj whole
      exact .inr (begins rfl)
    · obtain ⟨-, rfl⟩ := List.cons.inj whole
      cases later
  · exact alone other among collects
  · exact .inl (launched other among collects)

theorem CollectsAlone.call (alone : CollectsAlone s) (thread : Thread) (o : Nat) {code : List Stmt}
    (other : .collect ∉ code) : CollectsAlone (s.call thread o code) := by
  intro task among collects
  rcases System.mem_spawn among with among | rfl
  · exact alone task among collects
  · exact absurd collects other

theorem CollectsAlone.step (alone : CollectsAlone s) (owned : Owned s) (event : Event) :
    CollectsAlone (s.step event) := by
  have created : CollectsAlone s.create := by
    unfold State.create
    split <;> exact alone
  apply State.step_of alone created
  · intro s thread code o alone arrives
    refine alone.call thread o ?_
    cases arrives with
    | updateCaps dl ul => simp [updateCaps]
    | doStart | doStop | onDestroy | onAvailable | onLost => decide
  · exact fun k answer _ => alone.run owned k answer
  · exact fun thread => alone

/-- The samples of every monitor are collected, or a collector for them is on its way. -/
def Covered (s : State) : Prop :=
  ∀ monitor ∈ s.memory.monitors, (⟨monitor.shaper, monitor.service⟩ : Collector) ∈ s.memory.collectors ∨
    ∃ task ∈ s.tasks, task.site.service = monitor.service ∧
      (statsOutline.phase task.code = .watched ∨ .collect ∈ task.code)

theorem Covered.run (covered : Covered s) (guarded : StatsGuarded s) (alone : CollectsAlone s) (k : Nat)
    (answer : Answer) : Covered (System.run State.exec answer k s) := by
  apply System.run_of_leads covered
  intro task stmt rest here code
  have attached := guarded.attached
  have whole := alone task here.mem
  rw [code] at whole
  have pending : (stmt.exec task.site.service answer s.memory).Leads s.memory rest task.handler
      fun after code new => (statsOutline.phase task.code = .watched ∨ .collect ∈ task.code) →
        ∀ monitor ∈ s.memory.monitors, monitor.service = task.site.service →
          (⟨monitor.shaper, task.site.service⟩ : Collector) ∈ after.collectors ∨ .collect ∈ code ∨
            ∃ launched ∈ new, launched.site.service = task.site.service ∧ .collect ∈ launched.code := by
    rw [code]
    by_cases due : statsOutline.phase (stmt :: rest) = .watched ∨ .collect ∈ stmt :: rest
    · exact (exec_covers attached whole due).mono fun after code new covers _ => covers
    · exact (exec_monitors stmt _ answer s.memory rest task.handler).mono
        fun after code new _ also => absurd also due
  apply ((exec_monitors stmt task.site.service answer s.memory rest task.handler).and pending).mono
  rintro after code' new ⟨⟨monitors, collectors⟩, pending⟩ monitor among
  have moved := (System.at_replace_self here after code' new).mem
  rcases monitors monitor among with ⟨before, other⟩ | ⟨rfl, same, rfl⟩
  · rcases covered monitor before with collected | ⟨third, within, same, due⟩
    · refine .inl ((collectors _ collected).resolve_right ?_)
      rintro ⟨cancels, same⟩
      exact other cancels same
    · obtain ⟨j, there⟩ := System.exists_at within
      by_cases elsewhere : j = k
      · -- the task that was to launch a collector, or was to be one
        subst elsewhere
        obtain rfl := Option.some.inj (here.symm.trans there)
        rcases pending due monitor before same.symm with collected | still | ⟨launched, new, same', collects⟩
        · exact .inl (same ▸ collected)
        · exact .inr ⟨_, moved, same, .inr still⟩
        · exact .inr ⟨launched, List.mem_append_right _ new, same'.trans same, .inr collects⟩
      · exact .inr ⟨third, (System.at_replace_of_ne elsewhere there after code' new).mem, same, due⟩
  · refine .inr ⟨_, moved, same.symm, .inl ?_⟩
    -- monitors are launched just before collectors
    by_contra unwatched
    have bad : statsOutline.phase task.code = .bad := by
      rw [code, Outline.phase_cons, statsOutline_pre]
      revert unwatched
      dsimp only
      generalize statsOutline.phase code' = phase
      cases phase <;> simp [StatsPhase.pre]
    have holds := guarded.holds k task here (by simp [Outline.Inside, bad])
    simp only [bad, StatsPhase.Holds] at holds

theorem Covered.step (covered : Covered s) (guarded : StatsGuarded s) (alone : CollectsAlone s) (event : Event) :
    Covered (s.step event) := by
  have created : Covered s.create := by
    unfold State.create
    split <;> exact covered
  apply State.step_of covered created
  · intro s thread code o covered _ monitor among
    refine (covered monitor among).imp_right ?_
    rintro ⟨task, among, pending⟩
    exact ⟨task, List.mem_append_left _ among, pending⟩
  · exact fun k answer _ => covered.run guarded alone k answer
  · exact fun thread => covered

end

/-- Whenever the service is at rest, connected or not, the samples of the current shaper's
monitor are forwarded, and no others. -/
theorem statistics_follow {events : List Event} (watching : Admits State.step Watching State.start events)
    (settled : (events.foldl State.step State.start).Settled) :
    FollowsCurrent (events.foldl State.step State.start).memory := by
  have kept : ∀ s event, (StatsGuarded s ∧ Covered s ∧ CollectsAlone s) ∧ Owned s ∧ AllInPlace CollectsNext s →
      Watching s event → (StatsGuarded (s.step event) ∧ Covered (s.step event) ∧ CollectsAlone (s.step event)) ∧
        Owned (s.step event) ∧ AllInPlace CollectsNext (s.step event) := by
    rintro s event ⟨⟨guarded, covered, alone⟩, owned, next⟩ allowed
    exact ⟨⟨guarded.step owned next event allowed, covered.step guarded alone event, alone.step owned event⟩,
      owned.step event, next.step placing_collectsNext owned event⟩
  have initial : StatsGuarded State.start ∧ Covered State.start ∧ CollectsAlone State.start := by
    refine ⟨statsGuarded_start, ?_, ?_⟩
    · intro monitor among
      cases among
    · intro task among
      cases among
  obtain ⟨⟨guarded, covered, -⟩, -⟩ := watching.invariant
    (fun s => (StatsGuarded s ∧ Covered s ∧ CollectsAlone s) ∧ Owned s ∧ AllInPlace CollectsNext s) kept
    ⟨initial, owned_start, allInPlace_start⟩
  intro monitor among
  have attached := guarded.attached monitor among
  refine iff_of_true ?_ ⟨_, attached.current, attached.shaper⟩
  rcases covered monitor among with collected | ⟨task, within, -, due⟩
  · exact ⟨_, collected, rfl⟩
  · rw [settled task within] at due
    rcases due with due | due <;> cases due

theorem statistics_follow_restarted :
    FollowsCurrent ((startRefusedStopStart ++ Event.runs 8 2 .plain).foldl State.step State.start).memory :=
  statistics_follow (by decide +kernel) (by decide +kernel)

/-- After a reconnect the collector still waits for samples of the first shaper. -/
theorem reconnect_drops_statistics : ¬∀ events : List Event, (events.foldl State.step State.start).Settled →
    (events.foldl State.step State.start).memory.status = .connected →
      FollowsCurrent (events.foldl State.step State.start).memory := by
  intro always
  exact absurd (always (reconnecting ++ Event.runs 5 4 .plain ++ .exit 5 :: Event.runs 5 18 .plain)
    (by decide +kernel) (by decide +kernel)) (by decide +kernel)

end ThrottleVpn.Service
